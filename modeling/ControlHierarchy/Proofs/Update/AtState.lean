import ControlHierarchy.Proofs.Update.Growing
import ControlHierarchy.Proofs.Update.Pass
import ControlHierarchy.Proofs.Update.Unnoted

/-!
# Building at a state

An aggregate can be built from parts as they are, and be brought up to date with
a state then, or it can be built at the state right away. In the first case the
parts are merged twice, the first time before they are up to date, and they are
brought up to date in a store that has the aggregate already. None of this can be
told from the outcome (`Build.exists_mergeConstraintsAtState`,
`Build.exists_mergeTasksAtState`): the second merge reads nothing of the first
one but what was prepared, and the parts do not know of the aggregate. An
aggregate that cannot be prepared is refused before any part is touched
(`Build.mergeConstraintsAtState_refused`, `Build.mergeTasksAtState_refused`).

The leaves below the parts may be of any kind whose update is a function of the state.
-/

namespace ControlHierarchy

variable {α : Type}

namespace Store

/-- Two stores have the same objects, each of them with the same contents and the same notes. -/
structure SameObjects (s t : Store α) : Prop where
  extension : s.Extends t
  has : ∀ o, t.Has o → s.Has o

/-- The store with one aggregate of constraints more. -/
def withNewConstraint (s : Store α) (c : MergedConstraint α) : Store α :=
  { s with mergedConstraints := s.mergedConstraints.write s.mergedConstraints.next c }

/-- The store with one aggregate of tasks more. -/
def withNewTask (s : Store α) (d : MergedTask α) : Store α :=
  { s with mergedTasks := s.mergedTasks.write s.mergedTasks.next d }

theorem extends_withNewConstraint (s : Store α) (c : MergedConstraint α) :
    s.Extends (s.withNewConstraint c) :=
  .writeMergedConstraint (.refl s) le_rfl c

/-- A walk may go deeper by one step. -/
theorem depth_withNewTask (s : Store α) (d : MergedTask α) :
    (s.withNewTask d).depth = s.depth + 1 := by
  simp only [depth, withNewTask, Cells.next_write]
  omega

theorem extends_withNewTask (s : Store α) (d : MergedTask α) : s.Extends (s.withNewTask d) :=
  .writeMergedTask (.refl s) le_rfl d

variable {s t s' t' : Store α} {members : Set Object} {o : Object}

theorem Grounded.withLog (h : s.Grounded members) (events : List Event) :
    (s.withLog events).Grounded members where
  parts := h.parts
  attached := h.attached
  exist := h.exist
  unnoted := h.unnoted

/-- Sound members are grounded, if nothing is noted on what is not there. -/
theorem Sound.grounded (h : s.Sound members)
    (unnoted : ∀ o, ¬s.Has o → ∀ field, s.notes.read? o field = none) : s.Grounded members where
  parts := h.parts
  attached := h.hierarchy.attached
  exist := h.exist
  unnoted := unnoted

theorem arrayIn?_of_unnoted {field : Field} (h : s.notes.read? o field = none) :
    s.arrayIn? o field = none := by
  rw [arrayIn?, cellIn?, h]
  rfl

namespace Alongside

variable (h : s.Alongside t s' t')

include h

theorem next_mergedConstraints :
    s'.mergedConstraints.next = s.mergedConstraints.next ∧
      t'.mergedConstraints.next = t.mergedConstraints.next :=
  ⟨eq_of_forall_lt_iff fun i => h.has (.constraint (.merged i [])),
    eq_of_forall_lt_iff fun i => h.grown (.constraint (.merged i []))⟩

theorem next_mergedTasks :
    s'.mergedTasks.next = s.mergedTasks.next ∧ t'.mergedTasks.next = t.mergedTasks.next :=
  ⟨eq_of_forall_lt_iff fun i => h.has (.task (.merged i [])),
    eq_of_forall_lt_iff fun i => h.grown (.task (.merged i []))⟩

theorem next_stackCells :
    s'.stackCells.next = s.stackCells.next ∧ t'.stackCells.next = t.stackCells.next :=
  ⟨eq_of_forall_lt_iff fun i => h.has (.stack i), eq_of_forall_lt_iff fun i => h.grown (.stack i)⟩

/-- What is new has no notes after the pass either. -/
theorem unnoted' (new : ¬s.Has o) (field : Field) : t'.notes.read? o field = none := by
  rcases h.extension.notes o field with same | ⟨-, gone⟩
  · exact same.trans (h.unnoted o new field)
  · exact gone

/-- On all objects the notes are the same. -/
theorem notes (o : Object) (field : Field) :
    t'.notes.read? o field = s'.notes.read? o field := by
  rcases h.extension.notes o field with same | ⟨new, gone⟩
  · exact same
  · rw [h.has] at new
    exact gone.trans (h.unnoted o new field).symm

omit h

/-- The new aggregate of constraints may be stored after the pass, if it is merged then. -/
theorem sameObjects_constraint {c : MergedConstraint α}
    (h : s.Alongside (s.withNewConstraint c) s' t') (d : MergedConstraint α) :
    (s'.withNewConstraint d).SameObjects
      { t' with mergedConstraints := t'.mergedConstraints.write s.mergedConstraints.next d } := by
  obtain ⟨next, next'⟩ := h.next_mergedConstraints
  obtain ⟨tasks, tasks'⟩ := h.next_mergedTasks
  obtain ⟨listing, listing'⟩ := h.next_stackCells
  rw [← next]
  refine ⟨{ h.extension with
    mergedConstraints := h.extension.mergedConstraints.write_write le_rfl d
    notes := fun o field => .inl (h.notes o field) }, fun o here => here.mono ?_ ?_ ?_ ?_ ?_⟩
  · exact (congrArg Cells.next h.extension.leafConstraints).le
  · simp only [withNewConstraint, Cells.next_write, next', next]
    omega
  · exact (congrArg Cells.next h.extension.leafTasks).le
  · exact (tasks'.trans tasks.symm).le
  · exact (listing'.trans listing.symm).le

/-- The new aggregate of tasks may be stored after the pass, if it is merged then. -/
theorem sameObjects_task {c : MergedTask α} {events : List Event}
    (h : s.Alongside ((s.withLog events).withNewTask c) s' t') (parts : List TaskRef)
    (d : MergedTask α) (retired : List (TaskRef × List Object)) (lines lines' : List Event) :
    ((s'.withLog lines).withNewTask d).SameObjects
      (t'.afterMerge s.mergedTasks.next parts d retired lines') := by
  obtain ⟨next, next'⟩ := h.next_mergedTasks
  obtain ⟨constraints, constraints'⟩ := h.next_mergedConstraints
  obtain ⟨listing, listing'⟩ := h.next_stackCells
  rw [← next]
  refine ⟨{ h.extension with
    mergedTasks := h.extension.mergedTasks.write_write le_rfl d
    notes := fun o field => .inl ?_ }, fun o here => here.mono ?_ ?_ ?_ ?_ ?_⟩
  · -- the merge drops notes on the aggregate, but there are none
    by_cases same : (Object.task (.merged s'.mergedTasks.next parts)).same o
    · have new : ¬s.Has o := fun here => next.not_lt ((has_congr same).2 here)
      have gone := h.unnoted o new field
      rcases t'.notes.read?_eraseAll (.task (.merged s'.mergedTasks.next parts)) o
        [.constraints, .hessian] field with erased | kept
      · exact erased.trans gone.symm
      · exact kept.trans ((h.unnoted' new field).trans gone.symm)
    · exact (t'.notes.read?_eraseAll_of_not_same _ field same).trans (h.notes o field)
  · exact (congrArg Cells.next h.extension.leafConstraints).le
  · exact (constraints'.trans constraints.symm).le
  · exact (congrArg Cells.next h.extension.leafTasks).le
  · simp only [withNewTask, withLog, afterMerge, Cells.next_write, next', next]
    omega
  · exact (listing'.trans listing.symm).le

end Alongside

end Store

/-- What calls return can be the parts of an aggregate that is built at a state. -/
theorem Built.grounded [Zero α] [One α] [Add α] [Sub α] [Mul α] [Neg α] [Scalar α] [BoundScalar α]
    {s : Store α} {made : Set Object} (h : Built s made) :
    ∃ members, made ⊆ members ∧ s.Grounded members := by
  obtain ⟨members, fewer, sound⟩ := h.sound
  refine ⟨members, fewer, sound.grounded fun o _ field => ?_⟩
  rw [h.unnoted]
  rfl

namespace Build

variable {s t u : Store α} {members : Set Object}

/-! ### Constraints -/

section Constraints

variable {parts : List ConstraintRef} {n : Int} {policy : Literal} {r : ConstraintRef}

/-- An aggregate without parts, under no valid policy or with a part of another size is
refused before anything happens. -/
theorem prepareConstraint_refused (refused : parts = [] ∨ (∃ e, Policy.validate policy = .error e) ∨
      ∃ c ∈ parts, s.constraintSize c ≠ n) :
    ∃ e, (prepareConstraint parts n policy).exec s = (.error e, s) := by
  rcases run : (prepareConstraint parts n policy).exec s with ⟨e | c, t⟩
  · refine ⟨e, congrArg _ ?_⟩
    unfold prepareConstraint at run
    rw [exec_bind_ok exec_get] at run
    split at run
    · cases run
      rfl
    · obtain ⟨-, same⟩ | ⟨p, -, run⟩ := exec_lift_bind_eq_error.1 run
      · exact same
      obtain ⟨-, same⟩ | ⟨system, -, run⟩ := exec_lift_bind_eq_error.1 run
      · exact same
      obtain ⟨-, same⟩ | ⟨_, -, run⟩ := exec_lift_bind_eq_error.1 run
      · exact same
      · cases run
  · obtain ⟨nonempty, sizes⟩ := sizes_of_prepareConstraint run
    obtain ⟨⟨p, valid, -⟩, -⟩ := exec_prepareConstraint run
    rcases refused with none | ⟨e, invalid⟩ | ⟨c, hc, other⟩
    · exact absurd none nonempty
    · cases valid.symm.trans invalid
    · exact absurd (sizes c hc) other

variable [Zero α] [Neg α] [BoundScalar α]

/-- To merge constraints changes none of them, whatever comes out. -/
theorem extending_mergeConstraints (parts : List ConstraintRef) (n : Int) (policy : Literal) :
    Extending (mergeConstraints parts n policy : Build α ConstraintRef) :=
  extending_bind (extending_of_onlyLogs (onlyLogs_mergedConstraint parts n policy)) fun c =>
    extending_newMergedConstraint parts c

/-- A new aggregate is what was prepared, with the arrays of a merge. -/
theorem stored_of_mergeConstraints (run : (mergeConstraints parts n policy).exec s = (.ok r, t)) :
    ∃ blank events system,
      (prepareConstraint parts n policy).exec s = (.ok blank, s.withLog events) ∧
      r = .merged s.mergedConstraints.next parts ∧
      t = (s.withLog events).withNewConstraint { blank with system := system } := by
  obtain ⟨c, u, made, stored⟩ := exec_bind_eq_ok.1 run
  obtain ⟨blank, v, prepared, made⟩ := exec_bind_eq_ok.1 made
  obtain ⟨-, -, events, rfl⟩ := exec_prepareConstraint prepared
  rw [exec_bind_ok exec_get, exec_lift] at made
  obtain ⟨remerged, rfl⟩ := Prod.mk.inj made
  obtain ⟨system, -, rfl⟩ :=
    MergedConstraint.regenerate_eq_ok.1 (Store.regenerate_of_remerged remerged)
  cases stored
  exact ⟨blank, events, system, prepared, rfl, rfl⟩

variable [One α] [Add α] [Sub α] [Mul α] {state : ArrayData α}

/-- An update of an aggregate of constraints brings its parts up to date, and merges them. -/
theorem update_mergedConstraint {i : Nat}
    (listed : s.constraintParts (.merged i parts) = .ok parts)
    (run : (update state (.constraint (.merged i parts))).exec s = (.ok (), t)) :
    ∃ u, (performAll state (parts.flatMap (ConstraintRef.schedule s))).exec s = (.ok (), u) ∧
      (mergeConstraint i parts).exec u = (.ok (), t) := by
  rw [exec_update, Object.schedule_constraint, ConstraintRef.schedule, listed,
    ConstraintRef.scheduleAll_eq_flatMap, Store.stepsOfParts_flatMap, performAll_append,
    performAll_append, performAll_append] at run
  obtain ⟨⟨⟩, u, run, last⟩ := exec_bind_eq_ok.1 run
  obtain ⟨⟨⟩, v, run, permitted⟩ := exec_bind_eq_ok.1 run
  obtain ⟨⟨⟩, w, permitted', below⟩ := exec_bind_eq_ok.1 run
  cases eq_of_performAll_permit permitted
  cases eq_of_performAll_permit permitted'
  rw [performAll_singleton] at last
  exact ⟨u, below, last⟩

/-- To bring a new aggregate up to date is to bring its parts up to date before it is there,
and to merge them then. -/
theorem exists_pass_constraints (grounded : s.Grounded members)
    (inside : ∀ p ∈ parts, .constraint p ∈ members) {blank : MergedConstraint α}
    {system : LinearSystem α}
    (updated : (update state (.constraint (.merged s.mergedConstraints.next parts))).exec
      (s.withNewConstraint { blank with system := system }) = (.ok (), u)) :
    ∃ v d, (performAll state (parts.flatMap (ConstraintRef.schedule s))).exec s = (.ok (), v) ∧
      v.remerged (fun _ => false) blank parts = .ok d ∧
      v.mergedConstraints.next = s.mergedConstraints.next ∧
      (v.withNewConstraint d).SameObjects u := by
  have new : ¬s.Has (.constraint (.merged s.mergedConstraints.next parts)) := Nat.lt_irrefl _
  obtain ⟨w, below, last⟩ := update_mergedConstraint
    (s := s.withNewConstraint { blank with system := system })
    (Store.asked_eq_ok _ (Store.arrayIn?_of_unnoted (grounded.unnoted _ new _))) updated
  have extension := s.extends_withNewConstraint { blank with system := system }
  obtain ⟨v, performed, alongside⟩ := grounded.performAll extension
    (.flatMap fun p hp => extension.agreed_constraint grounded p (inside p hp)) below
  -- the aggregate is as it was before the pass
  have cell : w.mergedConstraints.read s.mergedConstraints.next = { blank with system := system } :=
    Eq.trans (alongside.cell _ new) (Cells.read_write_self _ _ _)
  have intact : w.isReplaced (.constraint (.merged s.mergedConstraints.next parts)) =
      fun _ => false := by
    funext operation
    rw [Store.isReplaced, alongside.unnoted' new]
    rfl
  obtain ⟨-, d, remerged, rfl⟩ := (Store.exec_mergeConstraint
    (Store.asked_eq_ok _ (Store.arrayIn?_of_unnoted (alongside.unnoted' new _)))).1 last
  rw [cell, intact] at remerged
  -- a merge does not read the arrays that it replaces
  have merged : v.remerged (fun _ => false) blank parts = .ok d :=
    alongside.extension.remerged
      (fun p hp => (alongside.has _).2 (grounded.exist _ (inside p hp))) remerged
  exact ⟨v, d, performed, merged, alongside.next_mergedConstraints.1,
    alongside.sameObjects_constraint d⟩

/-- Where an aggregate is built from its parts as they are and then brought up to date, it can
be built at the state, and it makes no difference. -/
theorem exists_mergeConstraintsAtState (grounded : s.Grounded members)
    (inside : ∀ p ∈ parts, .constraint p ∈ members) {x : Tensor α} {k : Nat}
    (read : state.read = .ok x) (length : x.leading = .ok k)
    (built : (mergeConstraints parts k policy).exec s = (.ok r, t))
    (updated : (update state (.constraint r)).exec t = (.ok (), u)) :
    ∃ v, (mergeConstraintsAtState parts state policy).exec s = (.ok r, v) ∧
      v.Has (.constraint r) ∧ v.SameObjects u := by
  obtain ⟨blank, events, system, prepared, rfl, rfl⟩ := stored_of_mergeConstraints built
  obtain ⟨v, d, performed, merged, next, same⟩ :=
    exists_pass_constraints (grounded.withLog events) inside updated
  have shaped : (ArrayData.shaped x).read = state.read := read.symm
  rw [← performAll_congr shaped] at performed
  refine ⟨v.withNewConstraint d, ?_, next ▸ Cells.lt_next_write _ _ _, same⟩
  unfold mergeConstraintsAtState
  rw [exec_lift_ok read, exec_lift_ok length, exec_bind_ok prepared, exec_bind_ok exec_get,
    ConstraintRef.scheduleAll_eq_flatMap, exec_bind_ok performed, exec_bind_ok exec_get,
    exec_lift_ok merged]
  exact congrArg (fun i => (Except.ok (ConstraintRef.merged i parts), v.withNewConstraint d)) next

/-- An aggregate that cannot be prepared is refused at a state before any part is touched. -/
theorem mergeConstraintsAtState_refused {x : Tensor α} {k : Nat} (read : state.read = .ok x)
    (length : x.leading = .ok k) (refused : parts = [] ∨ (∃ e, Policy.validate policy = .error e) ∨
      ∃ c ∈ parts, s.constraintSize c ≠ k) :
    ∃ e, (prepareConstraint parts k policy).exec s = (.error e, s) ∧
      (mergeConstraintsAtState parts state policy).exec s = (.error e, s) := by
  obtain ⟨e, failed⟩ := prepareConstraint_refused refused
  refine ⟨e, failed, ?_⟩
  unfold mergeConstraintsAtState
  rw [exec_lift_ok read, exec_lift_ok length, exec_bind, failed]

end Constraints

/-! ### Tasks -/

section Tasks

variable [One α] [Scalar α] {parts : List TaskRef} {n : Int} {r : TaskRef}

/-- An aggregate without parts or with a part of another size is refused before anything
happens. -/
theorem prepareTask_refused (refused : parts = [] ∨ ∃ p ∈ parts, (s.taskBody p).size ≠ n) :
    ∃ e, (prepareTask parts n).exec s = (.error e, s) := by
  rcases run : (prepareTask parts n).exec s with ⟨e | d, t⟩
  · refine ⟨e, congrArg _ ?_⟩
    unfold prepareTask at run
    rw [exec_bind_ok exec_get] at run
    split at run
    · cases run
      rfl
    · obtain ⟨-, same⟩ | ⟨body, -, run⟩ := exec_lift_bind_eq_error.1 run
      · exact same
      obtain ⟨-, same⟩ | ⟨_, -, run⟩ := exec_lift_bind_eq_error.1 run
      · exact same
      · cases run
  · obtain ⟨⟨nonempty, -, -, sizes⟩, -⟩ := exec_prepareTask run
    rcases refused with none | ⟨p, hp, other⟩
    · exact absurd none nonempty
    · exact absurd (sizes p hp) other

variable [Zero α] [Add α] [Mul α]

/-- To merge tasks changes none of them, whatever comes out. -/
theorem extending_mergeTasks (parts : List TaskRef) (n : Int) :
    Extending (mergeTasks parts n : Build α TaskRef) :=
  extending_bind (extending_of_onlyLogs (onlyLogs_prepareTask parts n)) fun d =>
    extending_bind (extending_of_onlyLogs (onlyLogs_firstMerge parts d)) fun d =>
      extending_newMergedTask parts d

variable [Sub α] [Neg α] [BoundScalar α] {state : ArrayData α}

omit [Scalar α] in
/-- An update of an aggregate of tasks with nothing attached to itself brings its parts up to
date, and merges them. -/
theorem update_mergedTask {i depth : Nat} (deep : s.depth = depth + 1)
    (listed : s.taskParts (.merged i parts) = .ok parts)
    (own : s.ownConstraints (.merged i parts) = .ok [])
    (run : (update state (.task (.merged i parts))).exec s = (.ok (), t)) :
    ∃ u, (performAll state (parts.flatMap (TaskRef.schedule s (Object.schedule s depth)))).exec s =
        (.ok (), u) ∧
      (mergeTask i parts).exec u = (.ok (), t) := by
  rw [exec_update, deep, Object.schedule_task, TaskRef.schedule, listed, own,
    TaskRef.scheduleAll_eq_flatMap, Store.stepsOfParts_flatMap, performAll_append,
    performAll_append, performAll_append, performAll_append] at run
  obtain ⟨⟨⟩, u, run, last⟩ := exec_bind_eq_ok.1 run
  obtain ⟨⟨⟩, v, run, permitted⟩ := exec_bind_eq_ok.1 run
  obtain ⟨⟨⟩, w, run, nothing⟩ := exec_bind_eq_ok.1 run
  obtain ⟨⟨⟩, w', permitted', below⟩ := exec_bind_eq_ok.1 run
  cases eq_of_performAll_permit permitted
  cases eq_of_performAll_permit permitted'
  cases nothing
  rw [performAll_singleton] at last
  exact ⟨u, below, last⟩

/-- To bring a new aggregate up to date is to bring its parts up to date before it is there,
and to merge them then. -/
theorem exists_pass_tasks (grounded : s.Grounded members)
    (inside : ∀ p ∈ parts, .task p ∈ members) {blank : MergedTask α} {m : RowMatrix α}
    (weight : blank.body.weight = none) (matrix : blank.body.matrix = .matrix m)
    (own : blank.own = []) {rows : TaskRows α} {bodies : List (TaskBody α)} {events : List Event}
    (updated : (update state (.task (.merged s.mergedTasks.next parts))).exec
      ((s.withLog events).withNewTask (blank.withRows rows bodies)) = (.ok (), u)) :
    ∃ v d lines, (performAll state
          (parts.flatMap (TaskRef.schedule s (Object.schedule s s.depth)))).exec s = (.ok (), v) ∧
      (firstMerge parts blank).exec v = (.ok d, v.withLog lines) ∧
      v.mergedTasks.next = s.mergedTasks.next ∧
      ((v.withLog lines).withNewTask d).SameObjects u := by
  have new : ¬s.Has (.task (.merged s.mergedTasks.next parts)) := Nat.lt_irrefl _
  have unnoted := grounded.unnoted _ new
  have extension : s.Extends ((s.withLog events).withNewTask (blank.withRows rows bodies)) :=
    (Store.Extends.withLog (.refl s) events).trans (Store.extends_withNewTask _ _)
  have stored : ((s.withLog events).withNewTask (blank.withRows rows bodies)).mergedTasks.read
      s.mergedTasks.next = blank.withRows rows bodies := Cells.read_write_self _ _ _
  have nothing : ((s.withLog events).withNewTask (blank.withRows rows bodies)).ownConstraints
      (.merged s.mergedTasks.next parts) = .ok [] := by
    rw [Store.ownConstraints, stored]
    exact own ▸ Store.walk_eq_ok _ (Store.arrayIn?_of_unnoted (unnoted _))
  obtain ⟨w, below, last⟩ := update_mergedTask
    (Store.depth_withNewTask (s.withLog events) _)
    (Store.asked_eq_ok _ (Store.arrayIn?_of_unnoted (unnoted _))) nothing updated
  obtain ⟨v, performed, alongside⟩ := grounded.performAll extension
    (.flatMap fun p hp => extension.agreed_task grounded
      (extension.agreed grounded s.depth) p (inside p hp)) below
  -- the aggregate is as it was before the pass
  have cell : w.mergedTasks.read s.mergedTasks.next = blank.withRows rows bodies :=
    Eq.trans (alongside.cell _ new) stored
  obtain ⟨-, d, more, remerged, rfl⟩ := (Store.exec_mergeTask
    (Store.arrayIn?_of_unnoted (alongside.unnoted' new _))
    (Store.arrayIn?_of_unnoted (alongside.unnoted' new _))).1 last
  rw [cell] at remerged
  have again : v.remergedTask (blank.withRows rows bodies) parts (.ok []) = .ok (d, more) :=
    alongside.extension.remergedTask
      (fun p hp => (alongside.has _).2 (grounded.exist _ (inside p hp))) (then_eq_ok.2 remerged)
  obtain ⟨ready, regenerated⟩ := then_eq_ok.1 again
  obtain ⟨rows', merged, rfl⟩ := MergedTask.withRows_of_regenerate regenerated
  -- a merge does not read the rows that it replaces
  obtain ⟨d, v', first⟩ :=
    firstMerge_succeeds (Store.checkParts_eq_ok.1 ready) weight matrix merged
  obtain ⟨-, rows'', lines, merged', rfl, rfl⟩ := exec_firstMerge first
  cases Except.ok.inj (merged.symm.trans merged')
  exact ⟨v, _, lines, performed, first, alongside.next_mergedTasks.1,
    alongside.sameObjects_task parts _ _ lines more⟩

/-- Where an aggregate is built from its parts as they are and then brought up to date, it can
be built at the state, and it makes no difference. -/
theorem exists_mergeTasksAtState (grounded : s.Grounded members)
    (inside : ∀ p ∈ parts, .task p ∈ members) {x : Tensor α} {k : Nat}
    (read : state.read = .ok x) (length : x.leading = .ok k)
    (built : (mergeTasks parts k).exec s = (.ok r, t))
    (updated : (update state (.task r)).exec t = (.ok (), u)) :
    ∃ v, (mergeTasksAtState parts state).exec s = (.ok r, v) ∧
      v.Has (.task r) ∧ v.SameObjects u := by
  obtain ⟨blank, b, prepared, built⟩ := exec_bind_eq_ok.1 built
  obtain ⟨first, b', merged, built⟩ := exec_bind_eq_ok.1 built
  obtain ⟨-, m, event, rfl, rfl⟩ := exec_prepareTask prepared
  obtain ⟨-, rows, events, -, rfl, rfl⟩ := exec_firstMerge merged
  cases built
  obtain ⟨v, d, lines, performed, again, next, same⟩ :=
    exists_pass_tasks (grounded.withLog [event]) inside rfl rfl rfl updated
  have shaped : (ArrayData.shaped x).read = state.read := read.symm
  rw [← performAll_congr shaped] at performed
  refine ⟨(v.withLog lines).withNewTask d, ?_, next ▸ Cells.lt_next_write _ _ _, same⟩
  unfold mergeTasksAtState
  rw [exec_lift_ok read, exec_lift_ok length, exec_bind_ok prepared, exec_bind_ok exec_get,
    TaskRef.scheduleAll_eq_flatMap, exec_bind_ok performed, exec_bind_ok again]
  exact congrArg (fun i => (Except.ok (TaskRef.merged i parts), (v.withLog lines).withNewTask d))
    next

/-- An aggregate that cannot be prepared is refused at a state before any part is touched. -/
theorem mergeTasksAtState_refused {x : Tensor α} {k : Nat} (read : state.read = .ok x)
    (length : x.leading = .ok k)
    (refused : parts = [] ∨ ∃ p ∈ parts, (s.taskBody p).size ≠ k) :
    ∃ e, (prepareTask parts k : Build α (MergedTask α)).exec s = (.error e, s) ∧
      (mergeTasksAtState parts state).exec s = (.error e, s) := by
  obtain ⟨e, failed⟩ := prepareTask_refused refused
  refine ⟨e, failed, ?_⟩
  unfold mergeTasksAtState
  rw [exec_lift_ok read, exec_lift_ok length, exec_bind, failed]

end Tasks

/-! ### Both -/

variable [Zero α] [One α] [Add α] [Sub α] [Mul α] [Neg α] [Scalar α] [BoundScalar α]
  {state : ArrayData α} {entries : List α}

/-- To build an aggregate of constraints or of tasks at a state is the same as to build it over
as many variables and to bring it up to date with the state then: if the latter succeeds, the
former does, and leaves all objects as the latter leaves them. Without parts, under an invalid
policy, or with a part of another size it is refused before anything happens, and to build an
aggregate from parts as they are leaves all objects alone in any case. -/
theorem atState_agrees (grounded : s.Grounded members) (read : state.read = .ok (.vector entries)) :
    (∀ parts policy,
      ((∀ p ∈ parts, .constraint p ∈ members) → ∀ r t u,
        (mergeConstraints parts entries.length policy).exec s = (.ok r, t) →
        (update state (.constraint r)).exec t = (.ok (), u) →
          ∃ v, (mergeConstraintsAtState parts state policy).exec s = (.ok r, v) ∧
            v.constraintSystem r = u.constraintSystem r ∧ v.SameObjects u) ∧
      ((parts = [] ∨ (∃ e, Policy.validate policy = .error e) ∨
          ∃ c ∈ parts, s.constraintSize c ≠ entries.length) →
        ∃ e, (prepareConstraint parts entries.length policy : Build α (MergedConstraint α)).exec s =
            (.error e, s) ∧
          (mergeConstraintsAtState parts state policy).exec s = (.error e, s)) ∧
      ∀ n, s.Extends ((mergeConstraints parts n policy).exec s).2) ∧
    ∀ parts,
      ((∀ p ∈ parts, .task p ∈ members) → ∀ r t u,
        (mergeTasks parts entries.length).exec s = (.ok r, t) →
        (update state (.task r)).exec t = (.ok (), u) →
          ∃ v, (mergeTasksAtState parts state).exec s = (.ok r, v) ∧
            v.taskBody r = u.taskBody r ∧ v.SameObjects u) ∧
      ((parts = [] ∨ ∃ p ∈ parts, (s.taskBody p).size ≠ entries.length) →
        ∃ e, (prepareTask parts entries.length : Build α (MergedTask α)).exec s = (.error e, s) ∧
          (mergeTasksAtState parts state).exec s = (.error e, s)) ∧
      ∀ n, s.Extends ((mergeTasks parts n).exec s).2 := by
  have length : (Tensor.vector entries).leading = .ok entries.length := rfl
  refine ⟨fun parts policy => ⟨fun inside r t u built updated => ?_,
    mergeConstraintsAtState_refused read length, fun n => extending_mergeConstraints _ _ _ s⟩,
    fun parts => ⟨fun inside r t u built updated => ?_,
      mergeTasksAtState_refused read length, fun n => extending_mergeTasks _ _ s⟩⟩
  · obtain ⟨v, run, exist, same⟩ :=
      exists_mergeConstraintsAtState grounded inside read length built updated
    exact ⟨v, run, (congrArg Part.system (same.extension.sameCell exist).sameAsPart).symm, same⟩
  · obtain ⟨v, run, exist, same⟩ :=
      exists_mergeTasksAtState grounded inside read length built updated
    exact ⟨v, run, (same.extension.taskBody exist).symm, same⟩

end Build

/-! ### Shared and repeated parts -/

theorem sharedLevels_grounded : sharedLevels.Grounded {o | o ∈ sharedMembers} where
  parts := sharedLevels_hierarchy.parts
  attached := sharedLevels_hierarchy.attached
  exist := by
    change ∀ o ∈ sharedMembers, sharedLevels.Has o
    simp only [sharedMembers, List.forall_mem_cons]
    exact ⟨Nat.one_pos, Nat.one_pos, Nat.one_pos, Nat.one_lt_two, Nat.two_pos, Nat.two_pos,
      Nat.one_lt_two, List.forall_mem_nil _⟩
  unnoted _ _ _ := rfl

/-- A merge, its part and the merge once more. -/
def sharedParts : List ConstraintRef := [sharedConstraint, .leaf 0, sharedConstraint]

theorem sharedLevels_mergeConstraints : ∃ r t u,
    (Build.mergeConstraints sharedParts 2 (.integer Policy.standard.word)).exec sharedLevels =
        (.ok r, t) ∧
      (Build.update (.shaped (.vector [3, 4])) (.constraint r)).exec t = (.ok (), u) := by
  obtain ⟨_, u, run⟩ := Build.exists_exec_of_isOk
    (do Build.update (.shaped (.vector [3, 4])) (.constraint
      (← Build.mergeConstraints sharedParts 2 (.integer Policy.standard.word))))
    sharedLevels (by decide +kernel)
  obtain ⟨r, t, built, updated⟩ := Build.exec_bind_eq_ok.1 run
  exact ⟨r, t, u, built, updated⟩

theorem sharedLevels_mergeTasks : ∃ r t u,
    (Build.mergeTasks [doubledTask, .leaf 0] 2).exec sharedLevels = (.ok r, t) ∧
      (Build.update (.shaped (.vector [3, 4])) (.task r)).exec t = (.ok (), u) := by
  obtain ⟨_, u, run⟩ := Build.exists_exec_of_isOk
    (do Build.update (.shaped (.vector [3, 4])) (.task
      (← Build.mergeTasks [doubledTask, .leaf 0] 2)))
    sharedLevels (by decide +kernel)
  obtain ⟨r, t, built, updated⟩ := Build.exec_bind_eq_ok.1 run
  exact ⟨r, t, u, built, updated⟩

/-- Parts that hang together and are out of date can be merged at a state as well as before an
update, and none of them is touched when the size is wrong. -/
theorem sharedLevels_atState :
    (∃ r t u v,
      (Build.mergeConstraints sharedParts 2 (.integer Policy.standard.word)).exec sharedLevels =
          (.ok r, t) ∧
        (Build.update (.shaped (.vector [3, 4])) (.constraint r)).exec t = (.ok (), u) ∧
        (Build.mergeConstraintsAtState sharedParts (.shaped (.vector [3, 4]))
            (.integer Policy.standard.word)).exec sharedLevels = (.ok r, v) ∧
        v.constraintSystem r = u.constraintSystem r ∧ v.SameObjects u) ∧
      (∃ r t u v,
        (Build.mergeTasks [doubledTask, .leaf 0] 2).exec sharedLevels = (.ok r, t) ∧
          (Build.update (.shaped (.vector [3, 4])) (.task r)).exec t = (.ok (), u) ∧
          (Build.mergeTasksAtState [doubledTask, .leaf 0] (.shaped (.vector [3, 4]))).exec
            sharedLevels = (.ok r, v) ∧
          v.taskBody r = u.taskBody r ∧ v.SameObjects u) ∧
      ∃ e, (Build.mergeTasksAtState [doubledTask] (.shaped (.vector [5]))).exec sharedLevels =
        (.error e, sharedLevels) := by
  have read : (ArrayData.shaped (.vector [3, 4] : Tensor Float)).read = .ok (.vector [3, 4]) := rfl
  have read' : (ArrayData.shaped (.vector [5] : Tensor Float)).read = .ok (.vector [5]) := rfl
  obtain ⟨constraints, tasks⟩ := Build.atState_agrees sharedLevels_grounded read
  obtain ⟨-, tasks'⟩ := Build.atState_agrees sharedLevels_grounded read'
  obtain ⟨r, t, u, built, updated⟩ := sharedLevels_mergeConstraints
  obtain ⟨r', t', u', built', updated'⟩ := sharedLevels_mergeTasks
  obtain ⟨v, outcome⟩ := (constraints sharedParts _).1 (by
    simp [sharedParts, sharedMembers]) r t u built updated
  obtain ⟨v', outcome'⟩ := (tasks [doubledTask, .leaf 0]).1 (by
    simp [sharedMembers]) r' t' u' built' updated'
  obtain ⟨e, -, refused⟩ := (tasks' [doubledTask]).2.1
    (.inr ⟨doubledTask, List.mem_singleton_self _, by decide⟩)
  exact ⟨⟨r, t, u, v, built, updated, outcome⟩, ⟨r', t', u', v', built', updated', outcome'⟩,
    e, refused⟩

end ControlHierarchy
