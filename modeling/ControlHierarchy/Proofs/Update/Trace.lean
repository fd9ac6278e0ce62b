import ControlHierarchy.Proofs.Update.Circles
import ControlHierarchy.Proofs.Update.Pass

/-!
# What a pass has done

A pass stops at the first step that fails. Its trace has the steps before that one,
each with the store right after it (`Build.trace`, `Build.exists_of_mem_trace`). What
a pass has done to an aggregate of tasks is written there, however the pass ended: the
lists of the parts that the aggregate has are those of the last entry that merges it
(`broughtBy`).
-/

namespace ControlHierarchy

variable {α : Type}

namespace Build

variable [Zero α] [One α] [Add α] [Sub α] [Mul α] [Neg α] [BoundScalar α]

/-- The steps of a schedule that a pass performs, each with the store right after it. -/
def trace (state : ArrayData α) : List UpdateStep → Store α → List (UpdateStep × Store α)
  | [], _ => []
  | step :: steps, s =>
    match (perform state step).exec s with
    | (.ok _, t) => (step, t) :: trace state steps t
    | (.error _, _) => []

variable {state : ArrayData α} {s t u : Store α} {step : UpdateStep} {steps rest : List UpdateStep}

theorem trace_cons_of_ok (first : (perform state step).exec s = (.ok (), t)) :
    trace state (step :: steps) s = (step, t) :: trace state steps t := by
  rw [trace, first]

theorem trace_cons_of_error {e : Error} (first : (perform state step).exec s = (.error e, t)) :
    trace state (step :: steps) s = [] := by
  rw [trace, first]

/-- The trace of a pass that goes on after a part of the schedule. -/
theorem trace_append_of_ok (first : (performAll state steps).exec s = (.ok (), t)) :
    trace state (steps ++ rest) s = trace state steps s ++ trace state rest t := by
  induction steps generalizing s with
  | nil =>
    cases first
    rfl
  | cons step steps ih =>
    obtain ⟨_, u, performed, first⟩ := exec_bind_eq_ok.1 first
    rw [List.cons_append, trace_cons_of_ok performed, trace_cons_of_ok performed, ih first,
      List.cons_append]

theorem trace_append_of_error {e : Error}
    (first : (performAll state steps).exec s = (.error e, t)) :
    trace state (steps ++ rest) s = trace state steps s := by
  induction steps generalizing s with
  | nil => cases first
  | cons step steps ih =>
    rcases performed : (perform state step).exec s with ⟨e' | ⟨⟩, u⟩
    · rw [List.cons_append, trace_cons_of_error performed, trace_cons_of_error performed]
    · rw [performAll, exec_bind_ok performed] at first
      rw [List.cons_append, trace_cons_of_ok performed, trace_cons_of_ok performed, ih first]

/-- In a trace are the steps that succeed after all that is scheduled before them. -/
theorem exists_of_mem_trace (member : (step, u) ∈ trace state steps s) :
    ∃ before after v, steps = before ++ step :: after ∧
      (performAll state before).exec s = (.ok (), v) ∧
      (perform state step).exec v = (.ok (), u) := by
  induction steps generalizing s with
  | nil => cases member
  | cons first steps ih =>
    rcases performed : (perform state first).exec s with ⟨e | ⟨⟩, t⟩
    · rw [trace_cons_of_error performed] at member
      cases member
    · rw [trace_cons_of_ok performed] at member
      rcases List.mem_cons.1 member with here | later
      · cases here
        exact ⟨[], steps, s, rfl, rfl, performed⟩
      · obtain ⟨before, after, v, rfl, ahead, last⟩ := ih later
        exact ⟨first :: before, after, v, rfl, (exec_bind_ok performed).trans ahead, last⟩

/-- A pass that would merge an aggregate late only has not merged it. -/
theorem not_mem_trace_of_mergesLate {i count : Nat} (late : MergesLate i count steps)
    (short : steps.length ≤ count) (parts : List TaskRef) :
    (.mergeTask i parts, u) ∉ trace state steps s := by
  intro member
  obtain ⟨before, after, v, rfl, ahead, -⟩ := exists_of_mem_trace member
  rcases late before after parts rfl with refused | reached
  · exact refused fun e => not_refuse_of_performAll ahead e
  · have longer : before.length < count := by
      refine Nat.lt_of_lt_of_le ?_ short
      rw [List.length_append, List.length_cons]
      exact Nat.lt_add_of_pos_right (Nat.succ_pos _)
    exact absurd reached (Nat.not_le_of_lt longer)

end Build

/-! ### What merges brought -/

/-- A step merges an aggregate of tasks. -/
def UpdateStep.mergesTask (i : Nat) : UpdateStep → Bool
  | .mergeTask j _ => j == i
  | _ => false

@[simp] theorem UpdateStep.mergesTask_self (i : Nat) (parts : List TaskRef) :
    (mergeTask i parts).mergesTask i = true := beq_self_eq_true i

theorem UpdateStep.mergesTask_iff {i : Nat} {step : UpdateStep} :
    step.mergesTask i ↔ ∃ parts, step = .mergeTask i parts := by
  cases step <;> simp [mergesTask]

/-- What is attached to several tasks, one task after the other. -/
def Store.partLists (s : Store α) (parts : List TaskRef) : List Object :=
  (parts.map s.taskBody).flatMap TaskBody.constraints

theorem Store.partLists_congr {s t : Store α} {parts : List TaskRef}
    (same : ∀ p ∈ parts, t.taskBody p = s.taskBody p) :
    t.partLists parts = s.partLists parts := by
  rw [partLists, partLists, List.map_congr_left same]

/-- What was attached to the parts of an aggregate right after it was merged last: in a
pass with this trace, or before it. -/
def broughtBy (i : Nat) (parts : List TaskRef) (trace : List (UpdateStep × Store α))
    (last : List Object) : List Object :=
  ((trace.filter fun entry => entry.1.mergesTask i).map
    fun entry => entry.2.partLists parts).getLastD last

section BroughtBy

variable {i : Nat} {parts : List TaskRef} {last : List Object}

/-- What the first merges brought is forgotten by the later ones. -/
theorem broughtBy_append (first rest : List (UpdateStep × Store α)) :
    broughtBy i parts (first ++ rest) last =
      broughtBy i parts rest (broughtBy i parts first last) := by
  simp only [broughtBy, List.filter_append, List.map_append, List.getLastD_eq_getLast?,
    List.getLast?_append, Option.getD_or]

theorem broughtBy_merge (more : List TaskRef) (s : Store α) :
    broughtBy i parts [(.mergeTask i more, s)] last = s.partLists parts := by
  simp [broughtBy]

/-- A pass that does not merge the aggregate brings nothing to it. -/
theorem broughtBy_of_not_mem {trace : List (UpdateStep × Store α)}
    (other : ∀ more u, (.mergeTask i more, u) ∉ trace) :
    broughtBy i parts trace last = last := by
  have none : trace.filter (fun entry => entry.1.mergesTask i) = [] := by
    rw [List.filter_eq_nil_iff]
    rintro ⟨step, u⟩ member merges
    obtain ⟨more, rfl⟩ := UpdateStep.mergesTask_iff.1 merges
    exact other more u member
  rw [broughtBy, none, List.map_nil, List.getLastD_nil]

/-- A pass that merges the aggregate at its end only brings what is attached to the parts
then, or nothing if it fails. -/
theorem broughtBy_snoc [Zero α] [One α] [Add α] [Sub α] [Mul α] [Neg α] [BoundScalar α]
    {state : ArrayData α} {s t : Store α} {ahead : List UpdateStep} {outcome : Except Error Unit}
    (late : ∀ more u, (.mergeTask i more, u) ∉ Build.trace state ahead s)
    (run : (Build.performAll state (ahead ++ [.mergeTask i parts])).exec s = (outcome, t)) :
    broughtBy i parts (Build.trace state (ahead ++ [.mergeTask i parts]) s) last =
      if outcome.isOk then t.partLists parts else last := by
  rw [Build.performAll_append, Build.exec_bind] at run
  rcases first : (Build.performAll state ahead).exec s with ⟨e | ⟨⟩, u⟩
  all_goals rw [first] at run
  · cases run
    rw [Build.trace_append_of_error first, broughtBy_of_not_mem late]
    rfl
  · rw [Build.performAll_singleton] at run
    rw [Build.trace_append_of_ok first, broughtBy_append]
    rcases outcome with e | ⟨⟩
    · rw [Build.trace_cons_of_error run, broughtBy_of_not_mem late]
      rfl
    · rw [Build.trace_cons_of_ok run, Build.trace, broughtBy_merge]
      rfl

end BroughtBy

end ControlHierarchy
