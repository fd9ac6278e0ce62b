import ControlHierarchy.Proofs.Task.Merging
import ControlHierarchy.Store.Assembly

/-!
# Trees of merged tasks

A tree of tasks is up to date when every aggregate in it has the rows and the
constraints that a merge of its parts gives (`Store.UpToDate`). In a merge such
an aggregate may be replaced by its parts when its weight is the identity, as
far as the rows are concerned. The references of the parts lack the gain of the
aggregate, which makes no difference just when the gain changes nothing in its
reference (`Store.UpToDate.merge_spread`).
-/

namespace ControlHierarchy

variable {α : Type}

/-- The gain changes nothing in the reference. -/
def TaskBody.GainIdle [Zero α] [Mul α] (t : TaskBody α) : Prop :=
  Tensor.combine (· * ·) t.gain t.reference = .ok t.reference

theorem TaskBody.gainIdle_iff [Zero α] [Mul α] {t : TaskBody α} {g : α} {v : List α}
    (gain : t.gain = .scalar g) (reference : t.reference = .vector v) :
    t.GainIdle ↔ v = v.map (g * ·) := by
  rw [GainIdle, gain, reference]
  constructor
  · intro h
    exact (Tensor.vector.inj (Except.ok.inj h)).symm
  · intro h
    exact congrArg (fun u => Except.ok (Tensor.vector u)) h.symm

namespace MergedTask

variable [Zero α] [One α] [Add α] [Mul α] {t d : MergedTask α} {parts : List (TaskBody α)}
    {events : List Event}

/-- What a merge puts into a task. -/
def withRows (r : TaskRows α) (parts : List (TaskBody α)) (t : MergedTask α) : MergedTask α :=
  { t with body := { t.body with
      matrix := r.matrix
      reference := r.reference
      constraints := parts.flatMap TaskBody.constraints ++ t.own
      hessian := some .semidefinite } }

theorem withRows_of_regenerate (h : t.regenerate parts = .ok (d, events)) :
    ∃ r, TaskRows.merge t.body.size parts = .ok r ∧ d = t.withRows r parts := by
  obtain ⟨r, run, h⟩ := bind_eq_ok.1 h
  obtain ⟨rows, -, h⟩ := bind_eq_ok.1 h
  obtain ⟨-, h⟩ := then_eq_ok.1 h
  obtain ⟨more, -, h⟩ := bind_eq_ok.1 h
  exact ⟨r, run, (congrArg Prod.fst (pure_eq_ok.1 h)).symm⟩

/-- A merge of a task without a weight of its own cannot be refused for the
number of rows. -/
theorem regenerate_of_merge {r : TaskRows α} {m : RowMatrix α} (weight : t.body.weight = none)
    (matrix : t.body.matrix = .matrix m) (run : TaskRows.merge t.body.size parts = .ok r) :
    ∃ events, t.regenerate parts = .ok (t.withRows r parts, events) := by
  obtain ⟨k, v, rfl, -⟩ := TaskRows.exists_of_merge run
  have rows : t.body.rows = .ok m.height := by rw [TaskBody.rows, matrix, Tensor.leading_matrix]
  have weighed : t.checkWeight k.height = .ok () := by
    rw [checkWeight, weight]
    rfl
  have resized : t.resizing k.height =
      .ok (if k.height ≠ m.height then [.resizingWeight t.body.name k.height] else []) := by
    rw [resizing, weight, rows]
    rfl
  rw [regenerate, run, ok_bind, Tensor.leading_matrix, ok_bind, weighed, ok_bind, resized]
  exact ⟨_, rfl⟩

/-- A task that was just merged has the rows and the constraints of its parts. -/
theorem merge_of_regenerate (h : t.regenerate parts = .ok (t, events)) :
    TaskRows.merge t.body.size parts = .ok ⟨t.body.matrix, t.body.reference⟩ ∧
      t.body.constraints = parts.flatMap TaskBody.constraints ++ t.own := by
  obtain ⟨r, run, same⟩ := withRows_of_regenerate h
  have matrix : t.body.matrix = r.matrix := congrArg (·.body.matrix) same
  have reference : t.body.reference = r.reference := congrArg (·.body.reference) same
  rw [run, matrix, reference]
  exact ⟨rfl, congrArg (·.body.constraints) same⟩

section Attaching

omit [Zero α] [One α] [Add α] [Mul α]

/-- A merged task with more attached to it. -/
def attachAll (own : List Object) (t : MergedTask α) : MergedTask α :=
  { t with body := { t.body with constraints := t.body.constraints ++ own }, own := t.own ++ own }

theorem attachAll_nil : t.attachAll [] = t := by
  rw [attachAll, List.append_nil, List.append_nil]

theorem attachAll_attachAll (own more : List Object) :
    (t.attachAll own).attachAll more = t.attachAll (own ++ more) := by
  rw [attachAll, attachAll, attachAll, List.append_assoc, List.append_assoc]

theorem attach_eq_ok (o : Object) (name : Except Error String) :
    t.attach o name t.body.size = .ok (t.attachAll [o]) := by
  have attached : t.body.attach o name t.body.size =
      .ok { t.body with constraints := t.body.constraints ++ [o] } := by
    have same : ¬t.body.size ≠ t.body.size := not_not.2 rfl
    unfold TaskBody.attach
    exact if_neg same
  rw [attach, attached]
  rfl

theorem attach_eq_ok_iff {o : Object} {name : Except Error String} {size : Int}
    {e : MergedTask α} :
    t.attach o name size = .ok e ↔ size = t.body.size ∧ e = t.attachAll [o] := by
  constructor
  · intro h
    have same : size = t.body.size := by
      by_contra other
      obtain ⟨body, attached, -⟩ := bind_eq_ok.1 h
      unfold TaskBody.attach at attached
      rw [if_pos other] at attached
      obtain ⟨_, -, attached⟩ := bind_eq_ok.1 attached
      cases attached
    subst same
    exact ⟨rfl, Except.ok.inj (h.symm.trans (attach_eq_ok o name))⟩
  · rintro ⟨rfl, rfl⟩
    exact attach_eq_ok o name

end Attaching

end MergedTask

namespace Store

/-- A task over `n` variables with a number as its gain, in the place of none of
whose lists an array was put. -/
structure Settled (s : Store α) (n : Int) (t : TaskRef) : Prop where
  size : (s.taskBody t).size = n
  gain : ∃ g, (s.taskBody t).gain = .scalar g
  lists : ∀ field, s.arrayIn? (.task t) field = none

/-- Every aggregate of a tree of tasks over `n` variables has the rows and the
constraints that a merge of its parts gives. -/
inductive UpToDate [Zero α] [One α] [Add α] [Mul α] (s : Store α) (n : Int) : TaskRef → Prop
  | leaf (i : Nat) (settled : s.Settled n (.leaf i)) : UpToDate s n (.leaf i)
  | merged (i : Nat) (parts : List TaskRef) (events : List Event) (nonempty : parts ≠ [])
    (below : ∀ p ∈ parts, UpToDate s n p)
      (settled : s.Settled n (.merged i parts))
        (own : ∀ o ∈ (s.mergedTasks.read i).own, s.objectSize o = .ok n)
      (merged : (s.mergedTasks.read i).regenerate (parts.map s.taskBody) =
        .ok (s.mergedTasks.read i, events)) :
      UpToDate s n (.merged i parts)

/-- What a task brings into a sum: its parts and what is attached to it, when it
is taken apart, or only itself. -/
def spread (s : Store α) : TaskRef → List TaskRef × List Object
  | .leaf i => ([.leaf i], [])
  | .merged i parts =>
    if Build.dissolves s (.merged i parts) then (parts, (s.mergedTasks.read i).own)
      else ([.merged i parts], [])

variable {s : Store α} {n : Int} {t : TaskRef}

theorem spread_of_dissolves {i : Nat} {parts : List TaskRef}
    (h : Build.dissolves s (.merged i parts)) :
    s.spread (.merged i parts) = (parts, (s.mergedTasks.read i).own) := if_pos h

theorem spread_of_not_dissolves (h : ¬Build.dissolves s t) : s.spread t = ([t], []) := by
  cases t with
  | leaf i => rfl
  | merged i parts => exact if_neg h

/-- What a task brings into a sum is up to date, has the right size, and carries
the same constraints as the task. -/
structure Spread [Zero α] [One α] [Add α] [Mul α] (s : Store α) (n : Int) (t : TaskRef) : Prop where
  nonempty : (s.spread t).1 ≠ []
  below : ∀ p ∈ (s.spread t).1, s.UpToDate n p
  own : ∀ o ∈ (s.spread t).2, s.objectSize o = .ok n
  constraints : (s.taskBody t).constraints =
    ((s.spread t).1.map s.taskBody).flatMap TaskBody.constraints ++ (s.spread t).2

namespace UpToDate

section Lists

variable [Zero α] [One α] [Add α] [Mul α]

theorem settled (h : s.UpToDate n t) : s.Settled n t := by
  cases h with
  | leaf i settled => exact settled
  | merged i parts events nonempty below settled own merged => exact settled

theorem spreads (h : s.UpToDate n t) : s.Spread n t := by
  by_cases apart : Build.dissolves s t
  · cases h with
    | leaf i settled => cases apart
    | merged i parts events nonempty below settled own merged =>
      have split := spread_of_dissolves apart
      have constraints := (MergedTask.merge_of_regenerate merged).2
      exact ⟨by rwa [split], by rwa [split], by rwa [split], by rwa [split]⟩
  · have whole := spread_of_not_dissolves apart
    refine ⟨?_, ?_, ?_, ?_⟩
    all_goals rw [whole]
    · exact List.cons_ne_nil _ _
    · exact List.forall_mem_singleton.2 h
    · exact List.forall_mem_nil _
    · simp

end Lists

/-- A task and what it brings into a sum are merged into the same rows, or both
of them into none. -/
theorem merge_spread [Semiring α] (h : s.UpToDate n t) :
    (∃ m u v, TaskRows.merge n [s.taskBody t] = .ok ⟨.matrix m, .vector u⟩ ∧
      TaskRows.merge n ((s.spread t).1.map s.taskBody) = .ok ⟨.matrix m, .vector v⟩ ∧
      v.length = u.length ∧
        (v = u ↔ (Build.dissolves s t → (s.taskBody t).GainIdle))) ∨
      (∀ r, TaskRows.merge n [s.taskBody t] ≠ .ok r) ∧
      ∀ r, TaskRows.merge n ((s.spread t).1.map s.taskBody) ≠ .ok r := by
  by_cases apart : Build.dissolves s t
  · left
    cases h with
    | leaf i settled => cases apart
    | merged i parts events nonempty below settled own merged =>
      obtain ⟨run, -⟩ := MergedTask.merge_of_regenerate merged
      have size : (s.mergedTasks.read i).body.size = n := settled.size
      rw [size] at run
      obtain ⟨m, v, arrays, width⟩ := TaskRows.exists_of_merge run
      obtain ⟨g, gain⟩ := settled.gain
      have gains : ∀ b ∈ parts.map s.taskBody, ∃ g, b.gain = .scalar g :=
        List.forall_mem_map.2 fun p hp => (below p hp).settled.gain
      obtain ⟨matrix, reference⟩ := TaskRows.mk.inj arrays
      rw [arrays] at run
      have length := TaskRows.length_of_merge run gains
      have weight : (s.mergedTasks.read i).body.weight = none := Option.isNone_iff_eq_none.1 apart
      have brought := TaskBody.weighted_eq_ok weight gain matrix reference length
      obtain ⟨k, start, -⟩ := bind_eq_ok.1 run
      refine ⟨m, v.map (g * ·), v, TaskRows.merge_of_weighted start width brought, ?_, by simp, ?_⟩
      · rw [spread_of_dissolves apart]
        exact run
      · rw [TaskBody.gainIdle_iff gain reference]
        exact ⟨fun h _ => h, fun h => h apart⟩
  · rw [spread_of_not_dissolves apart]
    by_cases some : ∃ r, TaskRows.merge n [s.taskBody t] = .ok r
    · left
      obtain ⟨r, run⟩ := some
      obtain ⟨m, v, rfl, -⟩ := TaskRows.exists_of_merge run
      exact ⟨m, v, v, run, run, rfl, iff_of_true rfl fun h => absurd h apart⟩
    · right
      exact ⟨fun r run => some ⟨r, run⟩, fun r run => some ⟨r, run⟩⟩

/-- Two tasks, and what they bring into a sum, are merged into the same rows, or
both of them into none. -/
theorem merge_sum [Semiring α] {a b : TaskRef} (ha : s.UpToDate n a) (hb : s.UpToDate n b) :
    (∃ m u v, TaskRows.merge n ([a, b].map s.taskBody) = .ok ⟨.matrix m, .vector u⟩ ∧
      TaskRows.merge n (((s.spread a).1 ++ (s.spread b).1).map s.taskBody) =
      .ok ⟨.matrix m, .vector v⟩ ∧
        (v = u ↔ ∀ t ∈ [a, b], Build.dissolves s t → (s.taskBody t).GainIdle)) ∨
      (∀ r, TaskRows.merge n ([a, b].map s.taskBody) ≠ .ok r) ∧
        ∀ r, TaskRows.merge n (((s.spread a).1 ++ (s.spread b).1).map s.taskBody) ≠ .ok r := by
  have two : [a, b].map s.taskBody = [s.taskBody a] ++ [s.taskBody b] := rfl
  rw [two, List.map_append]
  simp only [Ne, TaskRows.merge_append_eq_ok]
  rcases ha.merge_spread with ⟨m, u, v, whole, apart, length, idle⟩ | ⟨whole, apart⟩
  · rcases hb.merge_spread with ⟨k, x, y, whole', apart', length', idle'⟩ | ⟨whole', apart'⟩
    · left
      obtain ⟨_, _, ⟨⟩, width⟩ := TaskRows.exists_of_merge whole
      obtain ⟨_, _, ⟨⟩, width'⟩ := TaskRows.exists_of_merge whole'
      have same : m.width = k.width := width.trans width'.symm
      refine ⟨m.append k same, u ++ x, v ++ y,
        ⟨_, _, whole, whole', TaskRows.above_eq_ok.2 ⟨k, x, same, rfl, rfl⟩⟩,
        ⟨_, _, apart, apart', TaskRows.above_eq_ok.2 ⟨k, y, same, rfl, rfl⟩⟩, ?_⟩
      rw [List.forall_mem_cons, List.forall_mem_singleton, ← idle, ← idle']
      exact ⟨fun h => List.append_inj h length, fun h => congrArg₂ List.append h.1 h.2⟩
    · right
      exact ⟨fun r ⟨p, q, _, second, _⟩ => whole' q second,
        fun r ⟨p, q, _, second, _⟩ => apart' q second⟩
  · right
    exact ⟨fun r ⟨p, q, first, _⟩ => whole p first, fun r ⟨p, q, first, _⟩ => apart p first⟩

end UpToDate

end Store

end ControlHierarchy
