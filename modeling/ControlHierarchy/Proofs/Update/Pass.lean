import ControlHierarchy.Proofs.Update.Current
import Mathlib.Logic.Relation

/-!
# Nothing is stale after an update

A pass keeps current what it has made current, so that in the end all objects of
its schedule are (`Build.performAll_current`). A schedule leaves nothing out that
can be reached from the stack (`Store.Covers.reached`). So once a stack is up to
date with a state, any of the aggregates below it can be merged again, in any
order, and none of them changes (`Build.regenerate_after_update`). The leaves may be of
any kind whose update is a function of the state. The stack has to be part of a
hierarchy, as all stacks are that successful calls build (`Built.hierarchy`). This
leaves out stacks that have kept a bound from a failed addition: their aggregate of
bounds does not merge what they list (`Store.BoundsMerged`).
-/

namespace ControlHierarchy

variable {α : Type} {s t u : Store α} {members : Set Object} {steps : List UpdateStep}
  {o p : Object}

namespace Build

variable [Zero α] [One α] [Add α] [Sub α] [Mul α] [Neg α] [BoundScalar α] {state : ArrayData α}

/-! ### A pass -/

/-- A successful pass has not been refused anything. -/
theorem not_refuse_of_performAll (run : (performAll state steps).exec s = (.ok (), t)) (e : Error) :
    .refuse e ∉ steps := by
  induction steps generalizing s with
  | nil => exact List.not_mem_nil
  | cons step steps ih =>
    obtain ⟨_, u, performed, rest⟩ := exec_bind_eq_ok.1 run
    intro member
    rcases List.mem_cons.1 member with rfl | later
    · cases performed
    · exact ih rest later

/-- A pass that goes through parts first makes all its subjects current, also
those that it comes to several times. -/
theorem performAll_current (same : ∀ a ∈ members, ∀ b ∈ members, a.same b → a = b)
    (lists : ∀ o ∈ members, s.KeepsLists o) (order : PartsFirst steps)
    (inside : ∀ o ∈ subjects steps, o ∈ members)
    (run : (performAll state steps).exec s = (.ok (), t)) :
    s.SameLinks t ∧ ∀ o ∈ subjects steps, t.Current state o := by
  induction order generalizing t with
  | nil =>
    cases run
    exact ⟨.refl s, List.forall_mem_nil _⟩
  | @snoc steps step before parts ih =>
    rw [performAll_append] at run
    obtain ⟨_, u, first, performed⟩ := exec_bind_eq_ok.1 run
    rw [performAll_singleton] at performed
    rw [subjects_append, subjects_singleton] at inside ⊢
    rw [List.forall_mem_append] at inside
    obtain ⟨links, current⟩ := ih inside.1 first
    cases subject : step.subject? with
    | none =>
      cases step with
      | refuse e => cases performed
      | _ => cases subject
    | some o =>
      have member : o ∈ members := inside.2 o (by rw [subject]; exact List.mem_singleton_self o)
      have partsDone := parts o subject
      have refreshed : u.Refreshed state o t := by
        refine refreshed_perform subject (fun p hp => links.lists p (lists p ?_)) performed
        rcases List.mem_cons.1 hp with rfl | part
        · exact member
        · exact inside.1 p (partsDone p part)
      refine ⟨links.trans refreshed.links, fun p hp => ?_⟩
      by_cases here : p = o
      · subst here
        -- the parts have other cells, since no aggregate is a part of itself
        refine refreshed.current fun q hq => (refreshed.cells q fun again => ?_).sameAsPart
        cases same q (inside.1 q (partsDone q hq)) _ member again
        exact Object.not_mem_parts_self _ hq
      · have done : p ∈ subjects steps := by
          rw [List.mem_append] at hp
          exact hp.resolve_right fun last => here (List.mem_singleton.1 last)
        refine (current p done).congr
          (refreshed.cells p fun again => here (same p (inside.1 p done) o member again))
          (fun q hq => ?_) refreshed.links.operations
        have partDone := before.parts_mem done hq
        by_cases again : q.same o
        · -- the step comes back to a part of something that is done
          cases same q (inside.1 q partDone) o member again
          exact refreshed.kept (current _ partDone)
        · exact (refreshed.cells q again).sameAsPart

/-! ### Merging again -/

/-- To merge a current aggregate again succeeds, and changes no contents of any cell. -/
theorem regenerate_of_current (lists : ∀ p ∈ o :: o.parts, s.KeepsLists p)
    (aggregate : o.isAggregate) (callable : s.checkCallable o .regenerate = .ok ())
    (current : s.Current state o) :
    ∃ t, (regenerate o).exec s = (.ok (), t) ∧ s.SameLinks t ∧ ∀ p, s.SameCell t p := by
  rw [List.forall_mem_cons] at lists
  unfold regenerate
  rw [exec_bind_ok exec_get, exec_lift_ok callable]
  cases o with
  | constraint c =>
    cases c with
    | leaf i => cases aggregate
    | merged i parts =>
      refine ⟨_, (exec_mergeConstraint_eq_ok lists.1).2 ⟨_, current, rfl⟩,
        Store.sameLinks_writeMergedConstraint _, fun p => ?_⟩
      unfold Store.SameCell
      split
      · rfl
      · exact Cells.read_write_read _ _ _
      all_goals trivial
  | task v =>
    cases v with
    | leaf i => cases aggregate
    | merged i parts =>
      obtain ⟨events, current⟩ := current
      refine ⟨_, (exec_mergeTask_eq_ok (List.forall_mem_cons.2 ⟨lists.1,
        List.forall_mem_map.1 lists.2⟩)).2 ⟨_, events, current, rfl⟩,
        Store.sameLinks_afterMerge rfl, fun p => ?_⟩
      unfold Store.SameCell
      split
      · rfl
      · rfl
      · rfl
      · exact Cells.read_write_read _ _ _
      · trivial
  | _ => cases aggregate

/-- Current aggregates can be merged again one after another, and no contents of
any cell changes. -/
theorem forM_regenerate_of_current {os : List Object} (parts : ∀ o ∈ os, ∀ p ∈ o.parts, p ∈ members)
    (inside : ∀ o ∈ os, o ∈ members) (lists : ∀ o ∈ members, s.KeepsLists o)
    (aggregates : ∀ o ∈ os, o.isAggregate)
    (callable : ∀ o ∈ os, s.checkCallable o .regenerate = .ok ())
    (current : ∀ o ∈ os, s.Current state o) :
    ∃ t, (os.forM regenerate).exec s = (.ok (), t) ∧ ∀ p, s.SameCell t p := by
  induction os generalizing s with
  | nil => exact ⟨s, rfl, fun p => .refl s p⟩
  | cons o os ih =>
    rw [List.forall_mem_cons] at parts inside aggregates callable current
    obtain ⟨u, first, links, same⟩ := regenerate_of_current
      (List.forall_mem_cons.2 ⟨lists o inside.1, fun p hp => lists p (parts.1 p hp)⟩)
      aggregates.1 callable.1 current.1
    have callable' : ∀ p ∈ os, u.checkCallable p .regenerate = .ok () := fun p hp => by
      rw [Store.checkCallable, links.operations]
      exact callable.2 p hp
    obtain ⟨t, rest, same'⟩ := ih parts.2 inside.2 (fun p hp => links.lists p (lists p hp))
      aggregates.2 callable' fun p hp =>
        (current.2 p hp).congr (same p) (fun q _ => (same q).sameAsPart) links.operations
    exact ⟨t, (exec_bind_ok first).trans rest, fun p => (same p).trans (same' p)⟩

end Build

/-! ### What can be reached -/

namespace Store

/-- An object is a part of another one, or is listed by it or attached to it. -/
def Holds (s : Store α) (o p : Object) : Prop :=
  p ∈ o.parts ∨ p ∈ s.attachedTo o ∨ (∃ v, o = .task v ∧ p ∈ (s.taskBody v).constraints) ∨
    ∃ id, o = .stack id ∧ p ∈ (s.stackCells.read id).bounds

/-- From an object another one can be reached, going down any number of times. -/
def Reaches (s : Store α) : Object → Object → Prop := Relation.ReflTransGen s.Holds

variable [Zero α] [One α] [Add α] [Sub α] [Mul α] [Neg α] [BoundScalar α] {state : ArrayData α}

/-- What a current task has attached to it, be it by its parts, is covered with the task. -/
theorem Covers.constraints_mem (covers : s.Covers members steps) (links : s.SameLinks t)
    (current : ∀ o ∈ subjects steps, t.Current state o) {v : TaskRef}
    (member : .task v ∈ subjects steps) :
    ∀ o ∈ (t.taskBody v).constraints, o ∈ subjects steps := by
  induction v using TaskRef.inductionOn with
  | leaf i =>
    intro o ho
    refine covers.attached _ member o ?_
    rw [← links.attached]
    exact ho
  | merged i parts ih =>
    obtain ⟨events, merges⟩ := current _ member
    intro o ho
    rw [taskBody, (MergedTask.merge_of_regenerate merges.merged).2, List.mem_append,
      List.mem_flatMap] at ho
    rcases ho with ⟨body, listed, ho⟩ | own
    · obtain ⟨p, hp, rfl⟩ := List.mem_map.1 listed
      exact ih p hp (covers.order.parts_mem member (List.mem_map_of_mem hp)) o ho
    · refine covers.attached _ member o ?_
      rw [← links.attached]
      exact own

/-- A schedule that covers what a stack lists covers all that can be reached from
the stack once the schedule is performed. -/
theorem Covers.reached (covers : s.Covers members steps) (links : s.SameLinks t)
    (current : ∀ o ∈ subjects steps, t.Current state o) {id : Nat}
    (listed : ∀ o ∈ s.attachedTo (.stack id), o ∈ subjects steps) (bounds : s.BoundsMerged id)
    (reached : t.Reaches (.stack id) o) : o = .stack id ∨ o ∈ subjects steps := by
  induction reached with
  | refl => exact .inl rfl
  | tail _ holds ih =>
    right
    rcases ih with rfl | member
    · rcases holds with part | attached | ⟨v, task, -⟩ | ⟨_, stack, bound⟩
      · cases part
      · rw [links.attached] at attached
        exact listed _ attached
      · cases task
      · cases stack
        rw [links.listed] at bound
        obtain ⟨c, merged, part⟩ := bounds _ bound
        refine covers.order.parts_mem (listed (.constraint c) ?_) part
        exact List.mem_append_right _ (List.mem_map_of_mem (Option.mem_toList.2 merged))
    · rcases holds with part | attached | ⟨v, rfl, listed⟩ | ⟨j, rfl, -⟩
      · exact covers.order.parts_mem member part
      · rw [links.attached] at attached
        exact covers.attached _ member _ attached
      · exact covers.constraints_mem links current member _ listed
      · exact absurd member (stack_not_mem_subjects j steps)

end Store

namespace Build

variable [Zero α] [One α] [Add α] [Sub α] [Mul α] [Neg α] [BoundScalar α] {state : ArrayData α}

/-- An update of a stack keeps what is attached where, and makes everything that
can be reached from the stack then current. The bounds that the stack lists are merged
ones, as in any hierarchy (`Store.Hierarchy.bounds`). -/
theorem current_after_update {id : Nat} (hierarchy : s.Hierarchy members)
    (stack : .stack id ∈ members) (run : (update state (.stack id)).exec s = (.ok (), t)) :
    s.SameLinks t ∧ ∀ o, t.Reaches (.stack id) o → o ∈ members ∧ t.Current state o ∧
      (o.isAggregate → t.checkCallable o .regenerate = .ok ()) := by
  obtain ⟨covers, listed⟩ := hierarchy.covers_stack id stack
  rw [exec_update] at run
  obtain ⟨links, current⟩ := performAll_current hierarchy.same hierarchy.lists covers.order
    covers.inside run
  refine ⟨links, fun o reached => ?_⟩
  rcases covers.reached links current listed (hierarchy.bounds id stack) reached with rfl | member
  · exact ⟨stack, trivial, fun aggregate => absurd aggregate Bool.false_ne_true⟩
  · refine ⟨covers.inside o member, current o member, fun aggregate => ?_⟩
    rw [Store.checkCallable, links.operations]
    exact covers.callable (not_refuse_of_performAll run) o member aggregate

/-- After a stack was brought up to date with a state, all aggregates that can be
reached from it can be merged again, any number of times and in any order, and
no aggregate changes. As before, a stack that has kept a bound from a failed addition
is excluded. -/
theorem regenerate_after_update {id : Nat} (hierarchy : s.Hierarchy members)
    (stack : .stack id ∈ members) (run : (update state (.stack id)).exec s = (.ok (), t))
    (os : List Object) (aggregates : ∀ o ∈ os, o.isAggregate)
    (reached : ∀ o ∈ os, t.Reaches (.stack id) o) :
    ∃ t', (os.forM regenerate).exec t = (.ok (), t') ∧
      (∀ i, t'.mergedConstraints.read i = t.mergedConstraints.read i) ∧
      ∀ i, t'.mergedTasks.read i = t.mergedTasks.read i := by
  obtain ⟨links, current⟩ := current_after_update hierarchy stack run
  obtain ⟨t', again, same⟩ := forM_regenerate_of_current
    (fun o ho => hierarchy.parts o (current o (reached o ho)).1)
    (fun o ho => (current o (reached o ho)).1)
    (fun o ho => links.lists o (hierarchy.lists o ho)) aggregates
    (fun o ho => (current o (reached o ho)).2.2 (aggregates o ho))
    fun o ho => (current o (reached o ho)).2.1
  exact ⟨t', again, fun i => same (.constraint (.merged i [])),
    fun i => same (.task (.merged i []))⟩

end Build

/-! ### Shared parts -/

/-- A box around the state, not yet placed. -/
def corridor : LeafConstraint Float :=
  ⟨"corridor", 2, Store.blankSystem, .boxAround (.array (.scalar 1)) 0, []⟩

/-- A task against the state, in the corridor. -/
def retreat : LeafTask Float where
  body := ⟨"retreat", 2, .matrix (.identity 2), .vector [0, 0], .scalar 1, none, some .unknown,
    [.constraint (.leaf 0)]⟩
  rule := .opposing 0
  lock := none

/-- The reference to the merge of the corridor and an equality. -/
def sharedConstraint : ConstraintRef := .merged 0 [.leaf 0, .leaf 1]

/-- The reference to a task that merges the same task twice. -/
def doubledTask : TaskRef := .merged 0 [.leaf 0, .leaf 0]

/-- The reference to the bounds, which share a merge and a leaf with the tasks. -/
def sharedBounds : ConstraintRef := .merged 1 [sharedConstraint, .leaf 0]

/-- A stack of a merged task and its part, before any update. -/
def sharedLevels : Store Float :=
  let stale : MergedConstraint Float := ⟨"stale", 2, Store.blankSystem, Policy.standard.word⟩
  let doubled : MergedTask Float :=
    ⟨{ retreat.body with constraints := [] }, [.constraint sharedConstraint]⟩
  let levels : Stack :=
    ⟨2, Policy.standard.word, [.task doubledTask, .task (.leaf 0)],
      [.constraint sharedConstraint, .constraint (.leaf 0)], some sharedBounds⟩
  { (Store.empty : Store Float) with
    leafConstraints := ⟨corridor, #[corridor, Store.balanced]⟩
    mergedConstraints := ⟨stale, #[stale, stale]⟩
    leafTasks := ⟨retreat, #[retreat]⟩
    mergedTasks := ⟨doubled, #[doubled]⟩
    stackCells := ⟨levels, #[levels]⟩ }

def sharedMembers : List Object :=
  [.stack 0, .task doubledTask, .task (.leaf 0), .constraint sharedBounds,
    .constraint sharedConstraint, .constraint (.leaf 0), .constraint (.leaf 1)]

theorem sharedLevels_attachedTo :
    sharedLevels.attachedTo (.stack 0) =
        [.task doubledTask, .task (.leaf 0), .constraint sharedBounds] ∧
      sharedLevels.attachedTo (.task doubledTask) = [.constraint sharedConstraint] ∧
      sharedLevels.attachedTo (.task (.leaf 0)) = [.constraint (.leaf 0)] ∧
      ∀ c, sharedLevels.attachedTo (.constraint c) = [] :=
  ⟨rfl, rfl, rfl, fun _ => rfl⟩

theorem sharedLevels_hierarchy : sharedLevels.Hierarchy {o | o ∈ sharedMembers} where
  parts := by simp [sharedMembers, doubledTask, sharedBounds, sharedConstraint, Object.parts]
  attached := by simp [sharedMembers, sharedLevels_attachedTo]
  levels id member := by
    obtain rfl : id = 0 := by simpa [sharedMembers] using member
    have listed : (sharedLevels.stackCells.read 0).levels =
      [.task doubledTask, .task (.leaf 0)] := rfl
    simp [listed]
  bounds id member := by
    obtain rfl : id = 0 := by simpa [sharedMembers] using member
    exact fun o listed => ⟨sharedBounds, rfl, listed⟩
  constraints v member := by
    have which : v = doubledTask ∨ v = .leaf 0 := by simpa [sharedMembers] using member
    rcases which with rfl | rfl <;> simp [sharedLevels_attachedTo]
  lists _ _ _ _ := rfl
  same := by
    simp [sharedMembers, doubledTask, sharedBounds, sharedConstraint, Object.same,
      ConstraintRef.same, TaskRef.same]

theorem sharedLevels_update : ∃ t,
    (Build.update (.shaped (.vector [1, 2])) (.stack 0)).exec sharedLevels = (.ok (), t) := by
  obtain ⟨_, t, run⟩ := Build.exists_exec_of_isOk
    (Build.update (.shaped (.vector [1, 2])) (.stack 0)) sharedLevels (by decide +kernel)
  exact ⟨t, run⟩

/-- After the update the bounds, the merged task and the merge that they share can
be merged again, and nothing changes. -/
theorem sharedLevels_regenerate : ∃ t t',
    (Build.update (.shaped (.vector [1, 2])) (.stack 0)).exec sharedLevels = (.ok (), t) ∧
      ([.constraint sharedBounds, .task doubledTask, .constraint sharedConstraint].forM
        Build.regenerate).exec t = (.ok (), t') ∧
      (∀ i, t'.mergedConstraints.read i = t.mergedConstraints.read i) ∧
      ∀ i, t'.mergedTasks.read i = t.mergedTasks.read i := by
  obtain ⟨t, run⟩ := sharedLevels_update
  have stack : .stack 0 ∈ {o | o ∈ sharedMembers} := List.mem_cons_self
  obtain ⟨links, -⟩ := Build.current_after_update sharedLevels_hierarchy stack run
  have holds : ∀ o ∈ sharedLevels.attachedTo (.stack 0), t.Holds (.stack 0) o := by
    rw [← links.attached]
    exact fun o ho => .inr (.inl ho)
  have merged : t.Reaches (.stack 0) (.task doubledTask) :=
    .single (holds _ List.mem_cons_self)
  have bounds : t.Reaches (.stack 0) (.constraint sharedBounds) :=
    .single (holds _ (by simp [sharedLevels_attachedTo]))
  have inner : t.Reaches (.stack 0) (.constraint sharedConstraint) :=
    .tail bounds (.inl List.mem_cons_self)
  obtain ⟨t', again⟩ := Build.regenerate_after_update sharedLevels_hierarchy stack run
    [.constraint sharedBounds, .task doubledTask, .constraint sharedConstraint]
    (by simp [sharedBounds, doubledTask, sharedConstraint, Object.isAggregate])
    (by simp [bounds, merged, inner])
  exact ⟨t, t', run, again⟩

end ControlHierarchy
