import ControlHierarchy.Proofs.Constraint.Shapes
import ControlHierarchy.Proofs.Store.Combining
import ControlHierarchy.Proofs.Task.Regeneration
import ControlHierarchy.Proofs.Update.Order

/-!
# The shapes of aggregates in every state

A merge in the store writes new arrays at once or not at all, so whatever is
merged on the way, and however a call ends, an aggregate is as it was or has
arrays that belong together (`Store.Reshapes`). An update merges an aggregate
after everything below it and never in between; so an update that fails leaves
the aggregate itself as it was (`Build.kept_of_update`).
-/

namespace ControlHierarchy

variable {α β : Type}

namespace Store

/-- Every aggregate of one store is in the other as it was, or it is one of some
cells and has new arrays, which belong together. -/
structure Reshapes (ids : List Nat) (s t : Store α) : Prop where
  next : s.mergedConstraints.next ≤ t.mergedConstraints.next
  cells : ∀ i < s.mergedConstraints.next, t.mergedConstraints.read i = s.mergedConstraints.read i ∨
    i ∈ ids ∧ (t.mergedConstraints.read i).Shaped ∧ t.mergedConstraints.read i =
      { s.mergedConstraints.read i with system := (t.mergedConstraints.read i).system }

namespace Reshapes

variable {ids more : List Nat} {s t u : Store α}

theorem of_eq (same : t.mergedConstraints = s.mergedConstraints) : Reshapes ids s t where
  next := by rw [same]
  cells i _ := .inl (by rw [same])

theorem mono (h : Reshapes ids s t) (fewer : ids ⊆ more) : Reshapes more s t where
  next := h.next
  cells i hi := (h.cells i hi).imp_right fun new => ⟨fewer new.1, new.2⟩

theorem trans (h : Reshapes ids s t) (h' : Reshapes more t u) : Reshapes (ids ++ more) s u where
  next := h.next.trans h'.next
  cells i hi := by
    rcases h'.cells i (hi.trans_le h.next) with same | ⟨new, shaped, rest⟩
    · rw [same]
      exact (h.cells i hi).imp_right fun new => ⟨List.mem_append_left _ new.1, new.2⟩
    · refine .inr ⟨List.mem_append_right _ new, shaped, ?_⟩
      rcases h.cells i hi with same | ⟨-, -, kept⟩
      · rw [← same]
        exact rest
      · rw [rest, kept]

theorem read_of_not_mem (h : Reshapes ids s t) {i : Nat} (old : i < s.mergedConstraints.next)
    (apart : i ∉ ids) : t.mergedConstraints.read i = s.mergedConstraints.read i :=
  (h.cells i old).resolve_right fun new => apart new.1

end Reshapes

end Store

/-- An action changes no aggregate but by new arrays that belong together. -/
def Build.Reshaping (action : Build α β) : Prop :=
  ∀ s, ∃ ids, Store.Reshapes ids s (action.exec s).2

/-- The cells of the aggregates of constraints that a step merges. -/
def UpdateStep.merges : UpdateStep → List Nat
  | .mergeConstraint i _ => [i]
  | _ => []

namespace Build

variable [Zero α] [Neg α] [BoundScalar α] {s t : Store α} {i : Nat} {state : ArrayData α}

/-! ### Steps -/

theorem reshapes_mergeConstraint (parts : List ConstraintRef) :
    Store.Reshapes [i] s ((mergeConstraint i parts).exec s).2 := by
  unfold mergeConstraint
  rw [exec_bind_ok exec_get]
  refine exec_lift_bind_snd (.of_eq rfl) fun _ _ => exec_lift_bind_snd (.of_eq rfl) fun present _ =>
    exec_lift_bind_snd (.of_eq rfl) fun d remerged => ?_
  obtain ⟨rest, shaped⟩ :=
    MergedConstraint.shaped_of_regenerate (Store.regenerate_of_remerged remerged)
  refine ⟨Cells.next_le_next_write _ _ _, fun j _ => ?_⟩
  change (s.mergedConstraints.write i d).read j = _ ∨ j ∈ [i] ∧
    ((s.mergedConstraints.write i d).read j).Shaped ∧ (s.mergedConstraints.write i d).read j =
      { s.mergedConstraints.read j with system := ((s.mergedConstraints.write i d).read j).system }
  by_cases here : j = i
  · subst here
    rw [Cells.read_write_self]
    exact .inr ⟨List.mem_singleton_self j, shaped, rest⟩
  · exact .inl (Cells.read_write_of_ne _ _ here)

/-- A merge that fails changes nothing. -/
theorem eq_of_mergeConstraint {parts : List ConstraintRef} {e : Error}
    (run : (mergeConstraint i parts).exec s = (.error e, t)) : t = s := by
  unfold mergeConstraint at run
  rw [exec_bind_ok exec_get, exec_lift_bind_eq_error] at run
  obtain ⟨-, same⟩ | ⟨_, -, run⟩ := run
  · exact same
  obtain ⟨-, same⟩ | ⟨_, -, run⟩ := exec_lift_bind_eq_error.1 run
  · exact same
  obtain ⟨-, same⟩ | ⟨_, -, run⟩ := exec_lift_bind_eq_error.1 run
  · exact same
  · cases run

variable [One α] [Add α] [Sub α] [Mul α]

omit [Neg α] [BoundScalar α] [Sub α] in
/-- A merge of tasks is none of the business of constraints. -/
theorem reshapes_mergeTask (parts : List TaskRef) :
    Store.Reshapes [] s ((mergeTask i parts).exec s).2 := by
  unfold mergeTask
  rw [exec_bind_ok exec_get]
  refine exec_lift_bind_snd (.of_eq rfl) fun _ _ => exec_lift_bind_snd (.of_eq rfl) fun _ _ =>
    exec_lift_bind_snd (.of_eq rfl) fun _ _ => .of_eq ?_
  change (s.retire _).mergedConstraints = s.mergedConstraints
  rw [Store.retire_eq]

theorem reshapes_perform (step : UpdateStep) :
    Store.Reshapes step.merges s ((perform state step).exec s).2 := by
  cases step with
  | refreshConstraint i =>
    change Store.Reshapes [] s ((refreshConstraint state i).exec s).2
    unfold refreshConstraint
    rw [exec_bind_ok exec_get]
    exact exec_lift_bind_snd (.of_eq rfl) fun _ _ => .of_eq rfl
  | mergeConstraint i parts => exact reshapes_mergeConstraint parts
  | refreshTask i =>
    change Store.Reshapes [] s ((refreshTask state i).exec s).2
    unfold refreshTask
    rw [exec_bind_ok exec_get]
    exact exec_lift_bind_snd (.of_eq rfl) fun _ _ => .of_eq rfl
  | mergeTask i parts => exact reshapes_mergeTask parts
  | refuse e => exact .of_eq rfl

theorem reshapes_performAll (steps : List UpdateStep) :
    Store.Reshapes (steps.flatMap UpdateStep.merges) s ((performAll state steps).exec s).2 := by
  induction steps generalizing s with
  | nil => exact .of_eq rfl
  | cons step steps ih =>
    have first : Store.Reshapes step.merges s ((perform state step).exec s).2 :=
      reshapes_perform step
    rw [performAll, exec_bind, List.flatMap_cons]
    rcases run : (perform state step).exec s with ⟨_ | ⟨⟩, t⟩
    all_goals rw [run] at first
    · exact first.mono (List.subset_append_left _ _)
    · exact first.trans ih

theorem reshaping_update (state : ArrayData α) (o : Object) : Reshaping (update state o) := by
  intro s
  rw [exec_update]
  exact ⟨_, reshapes_performAll _⟩

theorem reshaping_regenerate (o : Object) : Reshaping (regenerate o : Build α Unit) := by
  intro s
  rw [exec_regenerate (.list [])]
  exact ⟨_, reshapes_performAll _⟩

/-! ### Failures -/

omit [Sub α] in
/-- A merge that is refused, or fails, changes nothing. -/
theorem eq_of_regenerate {parts : List ConstraintRef} {e : Error}
    (run : (regenerate (.constraint (.merged i parts))).exec s = (.error e, t)) : t = s := by
  unfold regenerate at run
  rw [exec_bind_ok exec_get] at run
  obtain ⟨-, same⟩ | ⟨_, -, run⟩ := exec_lift_bind_eq_error.1 run
  · exact same
  · exact eq_of_mergeConstraint run

end Build

namespace ConstraintRef

variable (s : Store α)

theorem merges_permit (o : Object) (operations : List Operation) :
    (s.permit o operations).flatMap UpdateStep.merges = [] := by
  unfold Store.permit
  split <;> rfl

/-- The steps of the parts of an aggregate merge only aggregates that the parts contain. -/
theorem mem_aggregatesAll_of_steps {present : Except Error (List ConstraintRef)}
    {parts : List ConstraintRef} {i : Nat}
    (below : ∀ p ∈ parts, i ∈ (p.schedule s).flatMap UpdateStep.merges → i ∈ p.aggregates)
    (h : i ∈ (stepsOfParts present (scheduleAll s parts)).flatMap UpdateStep.merges) :
    i ∈ aggregatesAll parts := by
  unfold stepsOfParts at h
  split at h
  · cases h
  · rw [scheduleAll_eq_flatMap, List.flatMap_assoc, List.mem_flatMap] at h
    obtain ⟨p, hp, hi⟩ := h
    rw [aggregatesAll_eq_flatMap]
    exact List.mem_flatMap.2 ⟨p, hp, below p hp hi⟩
  · cases h

/-- The schedule of a constraint merges only aggregates that it contains. -/
theorem mem_aggregates_of_schedule (c : ConstraintRef) {i : Nat}
    (h : i ∈ (c.schedule s).flatMap UpdateStep.merges) : i ∈ c.aggregates := by
  induction c using ConstraintRef.inductionOn with
  | leaf j =>
    rw [schedule, List.flatMap_append, merges_permit] at h
    cases h
  | merged j parts ih =>
    rw [schedule] at h
    simp only [List.flatMap_append, merges_permit, List.nil_append, List.append_nil,
      List.mem_append] at h
    rw [aggregates, List.mem_cons]
    rcases h with below | here
    · exact .inr (mem_aggregatesAll_of_steps s ih below)
    · exact .inl (List.mem_singleton.1 here)

end ConstraintRef

namespace Build

variable [Zero α] [One α] [Add α] [Sub α] [Mul α] [Neg α] [BoundScalar α] {s t : Store α} {i : Nat}
  {state : ArrayData α} {parts : List ConstraintRef}

/-- An update that fails, be it below the aggregate or at its own merge, leaves the
aggregate as it was. -/
theorem kept_of_update {e : Error} (old : i < s.mergedConstraints.next)
    (apart : i ∉ ConstraintRef.aggregatesAll parts)
    (run : (update state (.constraint (.merged i parts))).exec s = (.error e, t)) :
    t.mergedConstraints.read i = s.mergedConstraints.read i := by
  have spared {r : Except Error Unit} {u : Store α}
      (below : (performAll state (s.permit (.constraint (.merged i parts)) [.update] ++
        stepsOfParts (s.constraintParts (.merged i parts)) (ConstraintRef.scheduleAll s parts) ++
        s.permit (.constraint (.merged i parts)) [.regenerate])).exec s = (r, u)) :
      u.mergedConstraints.read i = s.mergedConstraints.read i := by
    have reshapes : Store.Reshapes _ s (r, u).2 := below ▸ reshapes_performAll _
    refine reshapes.read_of_not_mem old fun inside => apart ?_
    simp only [List.flatMap_append, ConstraintRef.merges_permit, List.nil_append,
      List.append_nil] at inside
    exact ConstraintRef.mem_aggregatesAll_of_steps s
      (fun p _ => p.mem_aggregates_of_schedule s) inside
  rw [exec_update, Object.schedule_constraint, ConstraintRef.schedule, performAll_append] at run
  obtain failed | ⟨⟨⟩, u, done, run⟩ := exec_bind_eq_error.1 run
  · exact spared failed
  · rw [performAll_singleton] at run
    rw [eq_of_mergeConstraint run]
    exact spared done

end Build

end ControlHierarchy
