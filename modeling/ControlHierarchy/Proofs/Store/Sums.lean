import ControlHierarchy.Proofs.Store.Extending
import ControlHierarchy.Proofs.Update.Assembled

/-!
# Sums of several tasks

The sum of two tasks is an aggregate whose weight was never set, so the next sum
takes it apart again. Hence a sum of several tasks merges what all of them bring,
in order, however it is put into parentheses (`TaskSum.stands_of_build`), and what
stands against a sum of some of them stands against the whole sum already
(`Store.addable_append`). So all ways to add up the same tasks succeed or fail
together, and give the same (`TaskSum.build_agrees`).
-/

namespace ControlHierarchy

variable {α : Type}

/-! ### What summands bring -/

/-- What several tasks bring into a sum. -/
def Store.bring (s : Store α) (ts : List TaskRef) : List TaskRef × List Object :=
  (ts.flatMap fun t => (s.spread t).1, ts.flatMap fun t => (s.spread t).2)

theorem Store.bring_append (s : Store α) (ts us : List TaskRef) :
    s.bring (ts ++ us) =
      ((s.bring ts).1 ++ (s.bring us).1, (s.bring ts).2 ++ (s.bring us).2) := by
  simp only [bring, List.flatMap_append]

/-- A task over `n` variables can be a summand: it keeps its lists, and what it brings is
there. -/
structure Store.Summand (s : Store α) (n : Int) (t : TaskRef) : Prop where
  size : (s.taskBody t).size = n
  exist : s.Has (.task t)
  lists : ∀ kept, s.arrayIn? (.task t) (.backing kept) = none
  nonempty : (s.spread t).1 ≠ []
  parts : ∀ p ∈ (s.spread t).1, s.Has (.task p)
  own : ∀ o ∈ (s.spread t).2, s.Has o

/-- A task of a store stands for several tasks of an earlier one: it brings what they do. -/
structure Store.Stands (s : Store α) (n : Int) (ts : List TaskRef) (t : Store α) (x : TaskRef) :
    Prop where
  size : (t.taskBody x).size = n
  exist : t.Has (.task x)
  lists : ∀ kept, t.arrayIn? (.task x) (.backing kept) = none
  brings : t.spread x = s.bring ts

namespace Store

variable {s t u : Store α} {n : Int} {x : TaskRef} {ts us : List TaskRef}

theorem Extends.spread (h : s.Extends t) (exist : s.Has (.task x)) : t.spread x = s.spread x := by
  cases x with
  | leaf i => rfl
  | merged i parts =>
    rw [Store.spread, Store.spread, Build.dissolves, Build.dissolves,
      h.mergedTasks.read i exist]

/-- A summand stands for itself. -/
theorem Summand.stands (h : s.Summand n x) (extension : s.Extends t) : s.Stands n [x] t x where
  size := by rw [extension.taskBody h.exist, h.size]
  exist := extension.has h.exist
  lists kept := extension.arrayIn?_eq_none (h.lists kept)
  brings := by
    rw [extension.spread h.exist, bring, List.flatMap_singleton, List.flatMap_singleton]

/-- A task goes on standing for others. -/
theorem Stands.extends (h : s.Stands n ts t x) (extension : t.Extends u) :
    s.Stands n ts u x where
  size := by rw [extension.taskBody h.exist, h.size]
  exist := extension.has h.exist
  lists kept := extension.arrayIn?_eq_none (h.lists kept)
  brings := by rw [extension.spread h.exist, h.brings]

/-- What summands bring is there, and it is not nothing. -/
theorem bring_of_summands (operands : ∀ x ∈ ts, s.Summand n x) :
    (∀ p ∈ (s.bring ts).1, s.Has (.task p)) ∧ (∀ o ∈ (s.bring ts).2, s.Has o) ∧
      (ts ≠ [] → (s.bring ts).1 ≠ []) := by
  refine ⟨fun p hp => ?_, fun o ho => ?_, fun some none => ?_⟩
  · obtain ⟨x, hx, hp⟩ := List.mem_flatMap.1 hp
    exact (operands x hx).parts p hp
  · obtain ⟨x, hx, ho⟩ := List.mem_flatMap.1 ho
    exact (operands x hx).own o ho
  · obtain ⟨x, more, rfl⟩ := List.exists_cons_of_ne_nil some
    exact (operands x List.mem_cons_self).nonempty
      (List.flatMap_eq_nil_iff.1 none x List.mem_cons_self)

end Store

/-! ### What can be added -/

section Adding

variable [Zero α] [One α] [Add α] [Mul α] [Scalar α]

/-- What several tasks over `n` variables bring can be merged, and attached to the result. -/
structure Store.Addable (s : Store α) (n : Int) (ts : List TaskRef) : Prop where
  mergeable : s.Mergeable n (s.bring ts).1
  sizes : ∀ o ∈ (s.bring ts).2, s.objectSize o = .ok n

namespace Store

variable {s t u : Store α} {n : Int} {x y : TaskRef} {ts us : List TaskRef}

/-- Whether tasks can be merged depends on what is read of them. -/
theorem Mergeable.congr (h : s.Mergeable n ts) (bodies : ∀ x ∈ ts, t.taskBody x = s.taskBody x)
    (attached : ∀ x ∈ ts, t.attached x = s.attached x) : t.Mergeable n ts where
  nonempty := h.nonempty
  natural := h.natural
  unit := h.unit
  sizes x hx := by rw [bodies x hx, h.sizes x hx]
  ready x hx := by
    rw [Ready, bodies x hx, attached x hx]
    exact h.ready x hx
  rows := by
    rw [List.map_congr_left bodies]
    exact h.rows

theorem Extends.mergeable_iff (h : s.Extends t) (exist : ∀ x ∈ ts, s.Has (.task x)) :
    t.Mergeable n ts ↔ s.Mergeable n ts where
  mp mergeable := mergeable.congr (fun x hx => (h.taskBody (exist x hx)).symm)
    fun x hx => (h.attached (exist x hx)).symm
  mpr mergeable := mergeable.congr (fun x hx => h.taskBody (exist x hx))
    fun x hx => h.attached (exist x hx)

/-- Tasks can be merged just when the first and the last ones of them can be. -/
theorem mergeable_append (some : ts ≠ []) (some' : us ≠ []) :
    s.Mergeable n (ts ++ us) ↔ s.Mergeable n ts ∧ s.Mergeable n us := by
  constructor
  · intro h
    obtain ⟨sizes, sizes'⟩ := List.forall_mem_append.1 h.sizes
    obtain ⟨ready, ready'⟩ := List.forall_mem_append.1 h.ready
    obtain ⟨r, rows⟩ := h.rows
    rw [List.map_append] at rows
    obtain ⟨p, q, first, second, -⟩ := TaskRows.merge_append_eq_ok.1 rows
    exact ⟨⟨some, h.natural, h.unit, sizes, ready, p, first⟩,
      ⟨some', h.natural, h.unit, sizes', ready', q, second⟩⟩
  · rintro ⟨h, h'⟩
    obtain ⟨p, first⟩ := h.rows
    obtain ⟨q, second⟩ := h'.rows
    obtain ⟨m, v, rfl, width⟩ := TaskRows.exists_of_merge first
    obtain ⟨k, w, rfl, width'⟩ := TaskRows.exists_of_merge second
    refine ⟨List.append_ne_nil_of_left_ne_nil some _, h.natural, h.unit,
      List.forall_mem_append.2 ⟨h.sizes, h'.sizes⟩, List.forall_mem_append.2 ⟨h.ready, h'.ready⟩,
      ⟨.matrix (m.append k (width.trans width'.symm)), .vector (v ++ w)⟩, ?_⟩
    rw [List.map_append]
    exact TaskRows.merge_append_eq_ok.2
      ⟨_, _, first, second, TaskRows.above_eq_ok.2 ⟨k, w, _, rfl, rfl⟩⟩

theorem addable_append (some : (s.bring ts).1 ≠ []) (some' : (s.bring us).1 ≠ []) :
    s.Addable n (ts ++ us) ↔ s.Addable n ts ∧ s.Addable n us := by
  constructor
  · rintro ⟨mergeable, sizes⟩
    rw [bring_append] at mergeable sizes
    obtain ⟨first, second⟩ := (mergeable_append some some').1 mergeable
    obtain ⟨sizes, sizes'⟩ := List.forall_mem_append.1 sizes
    exact ⟨⟨first, sizes⟩, ⟨second, sizes'⟩⟩
  · rintro ⟨h, h'⟩
    have mergeable := (mergeable_append some some').2 ⟨h.mergeable, h'.mergeable⟩
    have sizes := List.forall_mem_append.2 ⟨h.sizes, h'.sizes⟩
    refine ⟨?_, ?_⟩
    all_goals rwa [bring_append]

/-- A task is the sum of others: it has what they bring as its parts, and the rows and the
constraints that come with it. -/
structure Sums (s : Store α) (n : Int) (ts : List TaskRef) (t : Store α) (x : TaskRef) : Prop where
  parts : ∃ i, s.mergedTasks.next ≤ i ∧ i < t.mergedTasks.next ∧ x = .merged i (s.bring ts).1
  rows : ∃ r, TaskRows.merge n ((s.bring ts).1.map s.taskBody) = .ok r ∧
    t.taskBody x = ⟨joinNames ((s.bring ts).1.map fun p => (s.taskBody p).name), n, r.matrix,
      r.reference, .scalar 1, none, some .semidefinite,
      ((s.bring ts).1.map s.taskBody).flatMap TaskBody.constraints ++ (s.bring ts).2⟩
  own : t.attachedTo (.task x) = (s.bring ts).2

omit [Scalar α] in
/-- A sum stands for its summands. -/
theorem Sums.stands (h : s.Sums n ts t x) (fresh : s.Fresh) (extension : s.Extends t) :
    s.Stands n ts t x := by
  obtain ⟨⟨i, new, exist, rfl⟩, ⟨r, -, body⟩, own⟩ := h
  have weight : (t.mergedTasks.read i).body.weight = none := congrArg TaskBody.weight body
  refine ⟨congrArg TaskBody.size body, exist,
    fun kept => extension.arrayIn?_eq_none (fresh (.task (.merged i _)) (Nat.not_lt.2 new) kept),
    ?_⟩
  rw [spread_of_dissolves (Option.isNone_iff_eq_none.2 weight)]
  exact Prod.ext rfl own

end Store

namespace Build

variable {s t u : Store α} {n : Int} {x y z : TaskRef} {ts us : List TaskRef}

/-- A sum of two tasks that stand for summands merges what the summands bring. -/
theorem addTasks_of_stands (first : s.Stands n ts u x) (second : s.Stands n us u y) :
    (addTasks x y).exec u = (.ok z, t) ↔ ∃ d u', (mergedTask (s.bring (ts ++ us)).1 n).exec u =
        (.ok d, u') ∧ (∀ o ∈ (s.bring (ts ++ us)).2, u'.objectSize o = .ok d.body.size) ∧
      (newMergedTask (s.bring (ts ++ us)).1 (d.attachAll (s.bring (ts ++ us)).2)).exec u' =
        (.ok z, t) := by
  have brings := summands_eq_ok first.lists
  have brings' := summands_eq_ok second.lists
  rw [first.brings] at brings
  rw [second.brings] at brings'
  rw [addTasks_eq_ok, first.size, Store.bring_append]
  constructor
  · rintro ⟨-, -, _, _, _, _, found, found', rest⟩
    cases brings.symm.trans found
    cases brings'.symm.trans found'
    exact rest
  · intro rest
    exact ⟨checkSummand_eq_ok first.lists, checkSummand_eq_ok second.lists, _, _, _, _, brings,
      brings', rest⟩

/-- Two tasks that stand for summands can be added just when all these summands can be. -/
theorem addTasks_succeeds_iff (first : s.Stands n ts u x) (second : s.Stands n us u y)
    (extension : s.Extends u) (exist : ∀ p ∈ (s.bring (ts ++ us)).1, s.Has (.task p))
    (own : ∀ o ∈ (s.bring (ts ++ us)).2, s.Has o) :
    (∃ z t, (addTasks x y).exec u = (.ok z, t)) ↔ s.Addable n (ts ++ us) := by
  simp only [addTasks_of_stands first second]
  constructor
  · rintro ⟨z, t, d, u', made, sizes, -⟩
    obtain ⟨mergeable, r, events, -, rfl, rfl⟩ := exec_mergedTask made
    refine ⟨(extension.mergeable_iff exist).1 mergeable, fun o ho => ?_⟩
    rw [← extension.objectSize (own o ho), ← Store.objectSize_withLog events]
    exact sizes o ho
  · rintro ⟨mergeable, sizes⟩
    obtain ⟨d, u', made⟩ := mergedTask_succeeds ((extension.mergeable_iff exist).2 mergeable)
    refine ⟨_, _, d, u', made, fun o ho => ?_, rfl⟩
    obtain ⟨-, r, events, -, rfl, rfl⟩ := exec_mergedTask made
    rw [Store.objectSize_withLog, extension.objectSize (own o ho)]
    exact sizes o ho

/-- The sum of two tasks that stand for summands is the sum of all these summands. -/
theorem sums_of_addTasks (first : s.Stands n ts u x) (second : s.Stands n us u y)
    (extension : s.Extends u) (exist : ∀ p ∈ (s.bring (ts ++ us)).1, s.Has (.task p))
    (run : (addTasks x y).exec u = (.ok z, t)) : s.Sums n (ts ++ us) t z := by
  obtain ⟨d, u', made, -, stored⟩ := (addTasks_of_stands first second).1 run
  have assembled := assembled_of_mergedTask made stored
  have bodies : ∀ p ∈ (s.bring (ts ++ us)).1, u.taskBody p = s.taskBody p :=
    fun p hp => extension.taskBody (exist p hp)
  obtain ⟨r, rows, body, own⟩ := assembled.exists_rows
  rw [List.map_congr_left bodies] at rows body
  rw [List.map_congr_left fun p hp => congrArg TaskBody.name (bodies p hp)] at body
  have there := assembled.has
  rw [assembled.new] at there
  exact ⟨⟨_, extension.mergedTasks.next, there, assembled.new⟩, ⟨r, rows, body⟩, own⟩

/-- A sum leaves all there is alone. -/
theorem extending_addTasks (x y : TaskRef) : Extending (addTasks x y : Build α TaskRef) := by
  unfold addTasks
  refine extending_bind (extending_of_onlyLogs onlyLogs_get) fun s => ?_
  have lift : ∀ {β : Type} (e : Except Error β), Extending (liftM e : Build α β) :=
    fun e => extending_of_onlyLogs (onlyLogs_lift e)
  refine extending_bind (lift _) fun _ => extending_bind (lift _) fun _ =>
    extending_bind (lift _) fun first => extending_bind (lift _) fun second => ?_
  refine extending_bind (extending_of_onlyLogs (onlyLogs_prepareTask _ _)) fun blank =>
    extending_bind (extending_of_onlyLogs (onlyLogs_firstMerge _ _)) fun d =>
      extending_bind (extending_of_onlyLogs (onlyLogs_foldlM_attachTo _ _)) fun d => ?_
  exact extending_newMergedTask _ _

end Build

end Adding

/-! ### Ways to add -/

/-- A sum of tasks, put into parentheses. -/
inductive TaskSum
  | task (t : TaskRef)
  | add (a b : TaskSum)

namespace TaskSum

/-- The tasks that are added, in order. -/
def operands : TaskSum → List TaskRef
  | task t => [t]
  | add a b => a.operands ++ b.operands

theorem operands_ne_nil (e : TaskSum) : e.operands ≠ [] := by
  induction e with
  | task t => exact List.cons_ne_nil _ _
  | add a b iha ihb => exact List.append_ne_nil_of_left_ne_nil iha _

variable [Zero α] [One α] [Add α] [Mul α] [Scalar α]

/-- Adds the tasks up. -/
def build : TaskSum → Build α TaskRef
  | task t => pure t
  | add a b => do Build.addTasks (← a.build) (← b.build)

theorem extending_build (e : TaskSum) : Build.Extending (e.build : Build α TaskRef) := by
  induction e with
  | task t => exact Build.extending_of_onlyLogs (Build.onlyLogs_pure t)
  | add a b iha ihb =>
    exact Build.extending_bind iha fun x => Build.extending_bind ihb fun y =>
      Build.extending_addTasks x y

variable {s t u : Store α} {n : Int} {e e' : TaskSum} {x : TaskRef}

/-- What was added up stands for the tasks that were added. -/
theorem stands_of_build (fresh : s.Fresh) (summands : ∀ t ∈ e.operands, s.Summand n t)
    (extension : s.Extends u) (run : e.build.exec u = (.ok x, t)) :
    s.Stands n e.operands t x ∧ (1 < e.operands.length →
      s.Addable n e.operands ∧ s.Sums n e.operands t x) := by
  induction e generalizing u t x with
  | task r =>
    cases run
    exact ⟨(summands _ List.mem_cons_self).stands extension,
      fun several => absurd several (Nat.lt_irrefl 1)⟩
  | add a b iha ihb =>
    obtain ⟨left, right⟩ := List.forall_mem_append.1 summands
    obtain ⟨y, u₁, first, run⟩ := Build.exec_bind_eq_ok.1 run
    obtain ⟨z, u₂, second, run⟩ := Build.exec_bind_eq_ok.1 run
    have extension₁ := extension.trans ((extending_build a).of_exec first)
    have later := (extending_build b).of_exec second
    have extension₂ := extension₁.trans later
    have stands := (iha left extension first).1.extends later
    have stands' := (ihb right extension₁ second).1
    obtain ⟨exist, own, -⟩ := Store.bring_of_summands summands
    have addable := (Build.addTasks_succeeds_iff stands stands' extension₂ exist own).1 ⟨x, t, run⟩
    have sums := Build.sums_of_addTasks stands stands' extension₂ exist run
    refine ⟨sums.stands fresh (extension₂.trans ?_), fun _ => ⟨addable, sums⟩⟩
    exact (Build.extending_addTasks y z).of_exec run

/-- Tasks that can be added are added in any way. -/
theorem build_succeeds (fresh : s.Fresh) (summands : ∀ t ∈ e.operands, s.Summand n t)
    (extension : s.Extends u) (addable : 1 < e.operands.length → s.Addable n e.operands) :
    ∃ x t, e.build.exec u = (.ok x, t) := by
  induction e generalizing u with
  | task r => exact ⟨r, u, rfl⟩
  | add a b iha ihb =>
    have several : 1 < (a.operands ++ b.operands).length := by
      have some := List.length_pos_of_ne_nil a.operands_ne_nil
      have some' := List.length_pos_of_ne_nil b.operands_ne_nil
      rw [List.length_append]
      omega
    have whole := addable several
    obtain ⟨left, right⟩ := List.forall_mem_append.1 summands
    obtain ⟨exist, own, -⟩ := Store.bring_of_summands summands
    obtain ⟨addable₁, addable₂⟩ := (Store.addable_append
      ((Store.bring_of_summands left).2.2 a.operands_ne_nil)
      ((Store.bring_of_summands right).2.2 b.operands_ne_nil)).1 whole
    obtain ⟨y, u₁, first⟩ := iha left extension fun _ => addable₁
    have extension₁ := extension.trans ((extending_build a).of_exec first)
    obtain ⟨z, u₂, second⟩ := ihb right extension₁ fun _ => addable₂
    have later := (extending_build b).of_exec second
    have stands := (stands_of_build fresh left extension first).1.extends later
    have stands' := (stands_of_build fresh right extension₁ second).1
    obtain ⟨x, t, run⟩ := (Build.addTasks_succeeds_iff stands stands' (extension₁.trans later)
      exist own).2 whole
    exact ⟨x, t, (Build.exec_bind_ok first).trans ((Build.exec_bind_ok second).trans run)⟩

/-- All ways to add up the same tasks succeed or fail together. What they give has the same
parts, the same own constraints and the same body: name, matrix, reference and
constraints. However they end, no task that was there before is changed. -/
theorem build_agrees (same : e'.operands = e.operands) (several : 1 < e.operands.length)
    (fresh : s.Fresh) (summands : ∀ t ∈ e.operands, s.Summand n t) :
    ((∃ x t, e.build.exec s = (.ok x, t)) ↔ ∃ x t, e'.build.exec s = (.ok x, t)) ∧
    (∀ x t x' t', e.build.exec s = (.ok x, t) → e'.build.exec s = (.ok x', t') →
      (∃ i j parts, x = .merged i parts ∧ x' = .merged j parts) ∧
      t'.attachedTo (.task x') = t.attachedTo (.task x) ∧ t'.taskBody x' = t.taskBody x) ∧
    ∀ outcome t, e.build.exec s = (outcome, t) → ∀ y, s.Has (.task y) →
      t.taskBody y = s.taskBody y ∧ t.attachedTo (.task y) = s.attachedTo (.task y) := by
  have summands' : ∀ t ∈ e'.operands, s.Summand n t := same ▸ summands
  have several' : 1 < e'.operands.length := same ▸ several
  refine ⟨⟨?_, ?_⟩, fun x t x' t' run run' => ?_, fun outcome t run y exist => ?_⟩
  · rintro ⟨x, t, run⟩
    obtain ⟨addable, -⟩ := (stands_of_build fresh summands (.refl s) run).2 several
    exact build_succeeds fresh summands' (.refl s) fun _ => same ▸ addable
  · rintro ⟨x, t, run⟩
    obtain ⟨addable, -⟩ := (stands_of_build fresh summands' (.refl s) run).2 several'
    exact build_succeeds fresh summands (.refl s) fun _ => same ▸ addable
  · obtain ⟨-, ⟨i, -, -, rfl⟩, ⟨r, rows, body⟩, own⟩ :=
      (stands_of_build fresh summands (.refl s) run).2 several
    obtain ⟨-, sums⟩ := (stands_of_build fresh summands' (.refl s) run').2 several'
    rw [same] at sums
    obtain ⟨⟨j, -, -, rfl⟩, ⟨r', rows', body'⟩, own'⟩ := sums
    cases rows.symm.trans rows'
    exact ⟨⟨i, j, _, rfl, rfl⟩, own'.trans own.symm, body'.trans body.symm⟩
  · have extension := (extending_build e).of_exec run
    exact ⟨extension.taskBody exist, extension.attachedTo exist⟩

/-! ### A sum of three -/

/-- An aggregate of the first of two tasks, to which a constraint is attached. -/
def ownedTask : Store ℚ :=
  let own : MergedTask ℚ := (Build.halvedTask.mergedTasks.read 0).attachAll [.constraint (.leaf 0)]
  { Build.halvedTask with
    leafConstraints := ⟨⟨"", 0, Store.blankSystem, .unvalidated, []⟩,
      #[⟨"own", 1, Store.blankSystem, .unvalidated, []⟩]⟩
    mergedTasks := ⟨own, #[own]⟩ }

/-- The aggregate, the second task and the first one, added from the left and from the
right. -/
def leftSum : TaskSum := add (add (task (.merged 0 [.leaf 0])) (task (.leaf 1))) (task (.leaf 0))

def rightSum : TaskSum := add (task (.merged 0 [.leaf 0])) (add (task (.leaf 1)) (task (.leaf 0)))

theorem summand_ownedTask : ∀ x ∈ leftSum.operands, ownedTask.Summand 1 x := by
  have exist : ownedTask.Has (.task (.leaf 0)) := Nat.zero_lt_two
  have exist' : ownedTask.Has (.task (.leaf 1)) := Nat.one_lt_two
  have own : ownedTask.Has (.constraint (.leaf 0)) := Nat.zero_lt_one
  simp only [leftSum, operands, List.cons_append, List.nil_append, List.forall_mem_cons]
  exact ⟨⟨rfl, Nat.zero_lt_one, fun _ => rfl, List.cons_ne_nil _ _,
      List.forall_mem_singleton.2 exist, List.forall_mem_singleton.2 own⟩,
    ⟨rfl, exist', fun _ => rfl, List.cons_ne_nil _ _, List.forall_mem_singleton.2 exist',
      List.forall_mem_nil _⟩,
    ⟨rfl, exist, fun _ => rfl, List.cons_ne_nil _ _, List.forall_mem_singleton.2 exist,
      List.forall_mem_nil _⟩,
    List.forall_mem_nil _⟩

/-- Both ways give the same, with the constraint that was attached to the aggregate. -/
theorem ownedTask_agrees : ∃ x t x' t', leftSum.build.exec ownedTask = (.ok x, t) ∧
    rightSum.build.exec ownedTask = (.ok x', t') ∧
    t'.attachedTo (.task x') = [.constraint (.leaf 0)] ∧ t'.taskBody x' = t.taskBody x := by
  have same : rightSum.operands = leftSum.operands := rfl
  obtain ⟨succeeds, agree, -⟩ := build_agrees (s := ownedTask) same (by decide)
    (fun _ _ _ => rfl) summand_ownedTask
  obtain ⟨t, left, own⟩ : ∃ t, leftSum.build.exec ownedTask =
        (.ok (.merged 2 [.leaf 0, .leaf 1, .leaf 0]), t) ∧
      (t.mergedTasks.read 2).own = [.constraint (.leaf 0)] :=
    ⟨_, by with_unfolding_all rfl, by with_unfolding_all rfl⟩
  obtain ⟨x', t', right⟩ := succeeds.1 ⟨_, t, left⟩
  obtain ⟨-, own', body⟩ := agree _ t x' t' left right
  exact ⟨_, t, x', t', left, right, own'.trans own, body⟩

end TaskSum

end ControlHierarchy
