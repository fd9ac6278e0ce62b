import ControlHierarchy.Proofs.Store.Sums
import ControlHierarchy.Proofs.Update.Calls

/-!
# Stores without notes

Only an assignment takes a note. Calls that make objects, put them together or
bring them up to date take none, whether they succeed or fail (`Call.quiet`), so
that nothing is noted in what they build (`Built.unnoted`).
-/

namespace ControlHierarchy

variable {α β γ : Type}

namespace Build

/-- An action takes no notes where there are none, whatever its outcome. -/
def Quiet (action : Build α β) : Prop :=
  ∀ s : Store α, s.notes = [] → (action.exec s).2.notes = []

namespace Quiet

theorem ofLogs {action : Build α β} (logs : OnlyLogs action) : Quiet action := by
  intro s none
  obtain ⟨events, rest⟩ := logs s
  rw [rest]
  exact none

theorem pure (b : β) : Quiet (pure b : Build α β) := ofLogs (onlyLogs_pure b)

theorem throw (e : Error) : Quiet (throw e : Build α β) := ofLogs (onlyLogs_throw e)

theorem lift (x : Except Error β) : Quiet (liftM x : Build α β) := ofLogs (onlyLogs_lift x)

theorem bind {x : Build α β} {f : β → Build α γ} (first : Quiet x) (second : ∀ b, Quiet (f b)) :
    Quiet (x >>= f) := by
  intro s none
  have after := first s none
  rw [exec_bind]
  rcases run : x.exec s with ⟨_ | b, t⟩
  all_goals rw [run] at after
  · exact after
  · exact second b t after

/-- What an action does after a look at the store may depend on there being no notes. -/
theorem look {f : Store α → Build α β} (rest : ∀ s, s.notes = [] → Quiet (f s)) :
    Quiet (get >>= f) := by
  intro s none
  rw [exec_bind_ok exec_get]
  exact rest s none s none

theorem put {s : Store α} (none : s.notes = []) : Quiet (set s : Build α Unit) :=
  fun _ _ => none

theorem ite {p : Prop} [Decidable p] {x y : Build α β} (first : Quiet x) (second : Quiet y) :
    Quiet (if p then x else y) := by
  split
  · exact first
  · exact second

theorem forM {act : β → Build α Unit} (each : ∀ b, Quiet (act b)) (items : List β) :
    Quiet (items.forM act) := by
  induction items with
  | nil => exact pure ()
  | cons b items ih => exact bind (each b) fun _ => ih

end Quiet

/-! ### New objects and stacks -/

theorem quiet_newLeafConstraint (c : LeafConstraint α) : Quiet (newLeafConstraint c) :=
  .look fun _ none => .bind (.put none) fun _ => .pure _

theorem quiet_newLeafTask (v : LeafTask α) : Quiet (newLeafTask v) :=
  .look fun _ none => .bind (.put none) fun _ => .pure _

theorem quiet_newMergedConstraint (parts : List ConstraintRef) (c : MergedConstraint α) :
    Quiet (newMergedConstraint parts c) :=
  .look fun _ none => .bind (.put none) fun _ => .pure _

theorem quiet_newMergedTask (parts : List TaskRef) (d : MergedTask α) :
    Quiet (newMergedTask parts d) :=
  .look fun _ none => .bind (.put none) fun _ => .pure _

theorem quiet_checkExtensible (owner : Object) (field : Field) :
    Quiet (checkExtensible owner field : Build α Unit) :=
  .look fun _ _ => .ite (.throw _) (.pure _)

theorem quiet_addLevel (id : Nat) (o : Object) : Quiet (addLevel id o : Build α Unit) := by
  refine .look fun s none => .bind (.lift _) fun size => .ite (.bind (.lift _) fun _ => ?_) ?_
  · exact .bind (.throw _) fun _ => .bind (quiet_checkExtensible _ _) fun _ => .put none
  · exact .bind (quiet_checkExtensible _ _) fun _ => .put none

theorem quiet_listBound (id : Nat) (o : Object) : Quiet (listBound id o : Build α Unit) := by
  refine .look fun s none => .bind (.lift _) fun size => .ite (.bind (.lift _) fun _ => ?_) ?_
  · exact .bind (.throw _) fun _ => .bind (quiet_checkExtensible _ _) fun _ => .put none
  · exact .bind (quiet_checkExtensible _ _) fun _ => .put none

theorem quiet_attach (t : TaskRef) (o : Object) : Quiet (attach t o : Build α Unit) := by
  refine .look fun s none => .bind (.lift _) fun _ => .bind (.lift _) fun size =>
    .bind (.lift _) fun body => .bind (quiet_checkExtensible _ _) fun _ =>
      .bind (.put ?_) fun _ => ?_
  · cases t <;> exact none
  · cases t with
    | leaf i => exact .pure ()
    | merged i parts =>
      exact .bind (quiet_checkExtensible _ _) fun _ => .bind (.lift _) fun _ => .put none

section Constraints

variable [Zero α] [Neg α] [BoundScalar α]

theorem quiet_mergeConstraints (parts : List ConstraintRef) (n : Int) (policy : Literal) :
    Quiet (mergeConstraints parts n policy : Build α ConstraintRef) :=
  .bind (.ofLogs (onlyLogs_mergedConstraint parts n policy)) fun c =>
    quiet_newMergedConstraint parts c

theorem quiet_addBound (id : Nat) (o : Object) : Quiet (addBound id o : Build α Unit) := by
  refine .bind (quiet_listBound id o) fun _ => .look fun _ _ =>
    .bind (.ofLogs (onlyLogs_objectsToMerge _ _)) fun parts =>
      .bind (quiet_mergeConstraints _ _ _) fun c => .look fun s none =>
        .bind (.put ?_) fun _ => .ofLogs (onlyLogs_log _)
  rw [none]
  rfl

theorem quiet_stack (levels bounds : List Object) (policy : Literal) :
    Quiet (stack levels bounds policy : Build α Nat) := by
  cases levels with
  | nil => exact .throw _
  | cons first rest =>
    exact .look fun _ _ => .bind (.lift _) fun size => .bind (.lift _) fun p =>
      .bind (.look fun _ none => .bind (.put none) fun _ => .pure _) fun id =>
        .bind (.forM (quiet_addLevel id) _) fun _ => .bind (.forM (quiet_addBound id) _) fun _ =>
          .pure id

theorem quiet_mergeConstraint (i : Nat) (parts : List ConstraintRef) :
    Quiet (mergeConstraint i parts : Build α Unit) :=
  .look fun _ none => .bind (.lift _) fun _ => .bind (.lift _) fun _ => .bind (.lift _) fun _ =>
    .put none

end Constraints

section Tasks

variable [Zero α] [One α] [Add α] [Mul α]

theorem quiet_mergeTask (i : Nat) (parts : List TaskRef) :
    Quiet (mergeTask i parts : Build α Unit) := by
  refine .look fun s none => .bind (.lift _) fun _ => .bind (.lift _) fun _ =>
    .bind (.lift _) fun made => .put ?_
  rw [Store.retire_eq]
  exact congrArg (Notes.eraseAll · _ _) none

variable [Scalar α]

theorem quiet_mergeTasks (parts : List TaskRef) (n : Int) :
    Quiet (mergeTasks parts n : Build α TaskRef) :=
  .bind (.ofLogs (onlyLogs_prepareTask parts n)) fun d =>
    .bind (.ofLogs (onlyLogs_firstMerge parts d)) fun d => quiet_newMergedTask parts d

theorem quiet_addTasks (a b : TaskRef) : Quiet (addTasks a b : Build α TaskRef) := by
  refine .look fun _ _ => .bind (.lift _) fun _ => .bind (.lift _) fun _ => .bind (.lift _)
    fun found => .bind (.lift _) fun found' => ?_
  refine .bind (.ofLogs (onlyLogs_prepareTask _ _)) fun blank =>
    .bind (.ofLogs (onlyLogs_firstMerge _ _)) fun t => ?_
  exact .bind (.ofLogs (onlyLogs_foldlM_attachTo _ _)) fun d => quiet_newMergedTask _ d

end Tasks

/-! ### Updates -/

variable [Zero α] [One α] [Add α] [Sub α] [Mul α] [Neg α] [BoundScalar α] {state : ArrayData α}

theorem quiet_perform (step : UpdateStep) : Quiet (perform state step) := by
  cases step with
  | refreshConstraint i =>
    exact .look fun _ none => .bind (.lift _) fun _ => .put none
  | mergeConstraint i parts => exact quiet_mergeConstraint i parts
  | refreshTask i => exact .look fun _ none => .bind (.lift _) fun _ => .put none
  | mergeTask i parts => exact quiet_mergeTask i parts
  | refuse e => exact .throw e

theorem quiet_performAll (steps : List UpdateStep) : Quiet (performAll state steps) := by
  induction steps with
  | nil => exact .pure ()
  | cons step steps ih => exact .bind (quiet_perform step) fun _ => ih

theorem quiet_update (o : Object) : Quiet (update state o) :=
  .look fun _ _ => quiet_performAll _

omit [Sub α] in
theorem quiet_regenerate (o : Object) : Quiet (regenerate o : Build α Unit) := by
  refine .look fun s _ => .bind (.lift _) fun _ => ?_
  split
  · exact quiet_mergeConstraint _ _
  · exact quiet_mergeTask _ _
  · exact .throw _

theorem quiet_mergeConstraintsAtState (parts : List ConstraintRef) (policy : Literal) :
    Quiet (mergeConstraintsAtState parts state policy) :=
  .bind (.lift _) fun _ => .bind (.lift _) fun _ =>
    .bind (.ofLogs (onlyLogs_prepareConstraint _ _ _)) fun _ => .look fun _ _ =>
      .bind (quiet_performAll _) fun _ => .look fun _ _ => .bind (.lift _) fun c =>
        quiet_newMergedConstraint parts c

theorem quiet_mergeTasksAtState [Scalar α] (parts : List TaskRef) :
    Quiet (mergeTasksAtState parts state) :=
  .bind (.lift _) fun _ => .bind (.lift _) fun _ => .bind (.ofLogs (onlyLogs_prepareTask _ _))
    fun _ => .look fun _ _ => .bind (quiet_performAll _) fun _ =>
      .bind (.ofLogs (onlyLogs_firstMerge _ _)) fun d => quiet_newMergedTask parts d

end Build

variable [Zero α] [One α] [Add α] [Sub α] [Mul α] [Neg α] [Scalar α] [BoundScalar α]

/-- A call takes no notes. -/
theorem Call.quiet (call : Call α) : Build.Quiet call.perform := by
  cases call with
  | newLeafConstraint c => exact .bind (Build.quiet_newLeafConstraint c) fun _ => .pure _
  | newLeafTask v bare => exact .bind (Build.quiet_newLeafTask v) fun _ => .pure _
  | mergeConstraints parts n policy =>
    exact .bind (Build.quiet_mergeConstraints parts n policy) fun _ => .pure _
  | mergeConstraintsAtState parts state policy =>
    exact .bind (Build.quiet_mergeConstraintsAtState parts policy) fun _ => .pure _
  | mergeTasks parts n => exact .bind (Build.quiet_mergeTasks parts n) fun _ => .pure _
  | mergeTasksAtState parts state =>
    exact .bind (Build.quiet_mergeTasksAtState parts) fun _ => .pure _
  | addTasks v w => exact .bind (Build.quiet_addTasks v w) fun _ => .pure _
  | attach v c => exact .bind (Build.quiet_attach v _) fun _ => .pure _
  | stack levels bounds policy => exact .bind (Build.quiet_stack _ _ policy) fun _ => .pure _
  | taskOverTask v w => exact .bind (Build.quiet_stack _ _ _) fun _ => .pure _
  | stackOverTask id v | taskOverStack v id | stackOverStack id id' =>
    exact .bind (.look fun _ _ => Build.quiet_stack _ _ _) fun _ => .pure _
  | addLevel id v => exact .bind (Build.quiet_addLevel id _) fun _ => .pure _
  | addBound id c => exact .bind (Build.quiet_addBound id _) fun _ => .pure _
  | update state o => exact .bind (Build.quiet_update o) fun _ => .pure _
  | regenerate o => exact .bind (Build.quiet_regenerate o) fun _ => .pure _

/-- Nothing is noted in what calls build. -/
theorem Built.unnoted {s : Store α} {made : Set Object} (h : Built s made) : s.notes = [] := by
  induction h with
  | nothing => rfl
  | @call s t made call new before operands run ih =>
    have after := call.quiet s ih
    rwa [run] at after

end ControlHierarchy
