import ControlHierarchy.Proofs.Update.Building

/-!
# What calls build

Objects are made, put together and brought up to date by calls, and what a call
is given was returned by earlier ones (`Built`). All that was returned belongs
to a hierarchy (`Built.hierarchy`).
-/

namespace ControlHierarchy

/-- A call that makes an object, puts objects together, or brings them up to date. -/
inductive Call (α : Type)
  | newLeafConstraint (c : LeafConstraint α)
  | newLeafTask (v : LeafTask α) (bare : v.body.constraints = [])
  | mergeConstraints (parts : List ConstraintRef) (size : Int) (policy : Literal)
  | mergeConstraintsAtState (parts : List ConstraintRef) (state : ArrayData α) (policy : Literal)
  | mergeTasks (parts : List TaskRef) (size : Int)
  | mergeTasksAtState (parts : List TaskRef) (state : ArrayData α)
  | addTasks (v w : TaskRef)
  | attach (v : TaskRef) (c : ConstraintRef)
  | stack (levels : List TaskRef) (bounds : List ConstraintRef) (policy : Literal)
  | taskOverTask (v w : TaskRef)
  | stackOverTask (id : Nat) (v : TaskRef)
  | taskOverStack (v : TaskRef) (id : Nat)
  | stackOverStack (id id' : Nat)
  | addLevel (id : Nat) (v : TaskRef)
  | addBound (id : Nat) (c : ConstraintRef)
  | update (state : ArrayData α) (o : Object)
  | regenerate (o : Object)

variable {α : Type}

/-- The objects that a call is given. -/
def Call.operands : Call α → List Object
  | newLeafConstraint _ | newLeafTask .. => []
  | mergeConstraints parts .. | mergeConstraintsAtState parts .. => parts.map .constraint
  | mergeTasks parts _ | mergeTasksAtState parts _ => parts.map .task
  | addTasks v w | taskOverTask v w => [.task v, .task w]
  | attach v c => [.task v, .constraint c]
  | stack levels bounds _ => levels.map .task ++ bounds.map .constraint
  | stackOverTask id v | taskOverStack v id | addLevel id v => [.stack id, .task v]
  | stackOverStack id id' => [.stack id, .stack id']
  | addBound id c => [.stack id, .constraint c]
  | update _ o | regenerate o => [o]

variable [Zero α] [One α] [Add α] [Sub α] [Mul α] [Neg α] [Scalar α] [BoundScalar α]

/-- Performs a call, which returns the object that it makes, if it makes one. -/
def Call.perform : Call α → Build α (Option Object)
  | newLeafConstraint c => do return some (.constraint (← Build.newLeafConstraint c))
  | newLeafTask v _ => do return some (.task (← Build.newLeafTask v))
  | mergeConstraints parts size policy => do
    return some (.constraint (← Build.mergeConstraints parts size policy))
  | mergeConstraintsAtState parts state policy => do
    return some (.constraint (← Build.mergeConstraintsAtState parts state policy))
  | mergeTasks parts size => do return some (.task (← Build.mergeTasks parts size))
  | mergeTasksAtState parts state => do return some (.task (← Build.mergeTasksAtState parts state))
  | addTasks v w => do return some (.task (← Build.addTasks v w))
  | attach v c => do
    Build.attach v (.constraint c)
    return none
  | stack levels bounds policy => do
    return some (.stack (← Build.stack (levels.map .task) (bounds.map .constraint) policy))
  | taskOverTask v w => do return some (.stack (← Build.taskOverTask v w))
  | stackOverTask id v => do return some (.stack (← Build.stackOverTask id v))
  | taskOverStack v id => do return some (.stack (← Build.taskOverStack v id))
  | stackOverStack id id' => do return some (.stack (← Build.stackOverStack id id'))
  | addLevel id v => do
    Build.addLevel id (.task v)
    return none
  | addBound id c => do
    Build.addBound id (.constraint c)
    return none
  | update state o => do
    Build.update state o
    return none
  | regenerate o => do
    Build.regenerate o
    return none

/-- The stores that calls lead to, with the objects that they returned. -/
inductive Built : Store α → Set Object → Prop
  | nothing : Built .empty ∅
  | call {s t : Store α} {made : Set Object} {call : Call α} {new : Option Object}
      (before : Built s made) (operands : ∀ o ∈ call.operands, o ∈ made)
      (run : call.perform.exec s = (.ok new, t)) : Built t (made ∪ {o | o ∈ new})

variable {s t : Store α} {members made : Set Object} {o : Object}

/-- Members, what a call returned, and possibly more objects are sound. -/
def Store.SoundWith (t : Store α) (members : Set Object) (new : Option Object) : Prop :=
  ∃ more, members ⊆ more ∧ (∀ o ∈ new, o ∈ more) ∧ t.Sound more

namespace Store

omit [Zero α] [One α] [Add α] [Sub α] [Mul α] [Neg α] [Scalar α] [BoundScalar α]

theorem Sound.soundWith (h : t.Sound members) : t.SoundWith members none :=
  ⟨members, subset_rfl, by simp, h⟩

theorem Sound.soundWith_insert (h : t.Sound (insert o members)) : t.SoundWith members (some o) :=
  ⟨insert o members, Set.subset_insert _ _, by simp, h⟩

theorem soundWith_of_insert_subset
    (h : ∃ more, insert o members ⊆ more ∧ t.Sound more) : t.SoundWith members (some o) := by
  obtain ⟨more, fewer, sound⟩ := h
  have new : o ∈ more := fewer (Set.mem_insert _ _)
  exact ⟨more, (Set.subset_insert _ _).trans fewer, by simpa using new, sound⟩

end Store

/-- A call that is given members returns a member. -/
theorem Call.soundWith_perform {call : Call α} {new : Option Object} (h : s.Sound members)
    (operands : ∀ o ∈ call.operands, o ∈ members) (run : call.perform.exec s = (.ok new, t)) :
    t.SoundWith members new := by
  cases call <;> obtain ⟨r, u, performed, returned⟩ := Build.exec_bind_eq_ok.1 run <;>
    cases returned <;> simp only [Call.operands, List.forall_mem_cons, List.forall_mem_append,
      List.forall_mem_map] at operands
  case newLeafConstraint c => exact (Build.sound_newLeafConstraint h performed).soundWith_insert
  case newLeafTask v bare => exact (Build.sound_newLeafTask h bare performed).soundWith_insert
  case mergeConstraints parts size policy =>
    exact (Build.sound_mergeConstraints h operands performed).soundWith_insert
  case mergeConstraintsAtState parts state policy =>
    exact (Build.sound_mergeConstraintsAtState h operands performed).soundWith_insert
  case mergeTasks parts size =>
    exact (Build.sound_mergeTasks h operands performed).soundWith_insert
  case mergeTasksAtState parts state =>
    exact (Build.sound_mergeTasksAtState h operands performed).soundWith_insert
  case addTasks v w =>
    exact (Build.sound_addTasks h operands.1 operands.2.1 performed).soundWith_insert
  case attach v c => exact (Build.sound_attach h operands.2.1 performed).soundWith
  case stack levels bounds policy =>
    refine Store.soundWith_of_insert_subset (Build.sound_stack h ?_ ?_ performed)
    · exact List.forall_mem_map.2 fun v hv => ⟨operands.1 v hv, v, rfl⟩
    · exact List.forall_mem_map.2 operands.2
  case taskOverTask v w =>
    exact Store.soundWith_of_insert_subset
      (Build.sound_taskOverTask h operands.1 operands.2.1 performed)
  case stackOverTask id v =>
    exact Store.soundWith_of_insert_subset
      (Build.sound_stackOverTask h operands.1 operands.2.1 performed)
  case taskOverStack v id =>
    exact Store.soundWith_of_insert_subset
      (Build.sound_taskOverStack h operands.2.1 operands.1 performed)
  case stackOverStack id id' =>
    exact Store.soundWith_of_insert_subset
      (Build.sound_stackOverStack h operands.1 operands.2.1 performed)
  case addLevel id v =>
    exact (Build.sound_addLevel h operands.1 operands.2.1 performed).soundWith
  case addBound id c =>
    obtain ⟨bounds, sound⟩ := Build.sound_addBound h operands.1 operands.2.1 performed
    exact ⟨_, Set.subset_insert _ _, by simp, sound⟩
  case update state o => exact (Build.sound_update h performed).soundWith
  case regenerate o => exact (Build.sound_regenerate h performed).soundWith

/-- All that calls returned is among sound members. -/
theorem Built.sound (h : Built s made) : ∃ members, made ⊆ members ∧ s.Sound members := by
  induction h with
  | nothing => exact ⟨∅, subset_rfl, Store.sound_empty⟩
  | call before operands run ih =>
    obtain ⟨members, fewer, sound⟩ := ih
    obtain ⟨more, kept, new, sound⟩ :=
      Call.soundWith_perform sound (fun o ho => fewer (operands o ho)) run
    exact ⟨more, Set.union_subset (fewer.trans kept) new, sound⟩

/-- What calls build is part of a hierarchy. -/
theorem Built.hierarchy (h : Built s made) : ∃ members, made ⊆ members ∧ s.Hierarchy members := by
  obtain ⟨members, fewer, sound⟩ := h.sound
  exact ⟨members, fewer, sound.hierarchy⟩

end ControlHierarchy
