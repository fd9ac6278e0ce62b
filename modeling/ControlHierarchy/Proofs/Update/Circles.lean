import ControlHierarchy.Proofs.Update.Building
import ControlHierarchy.Proofs.Update.Shapes

/-!
# Updates that fail on the way

An update merges an aggregate of tasks after all that is below it. What is
attached to tasks may lead back to the aggregate, but then the walk runs in a
circle and is given up before anything on the circle is merged: a schedule
without a refusal does not depend on how deep the walk may go
(`Object.schedule_add`), so it cannot contain itself. Hence an update that fails
leaves the aggregate that it was asked of as it was, whatever hangs below it
(`Build.outcome_of_update`).
-/

namespace ControlHierarchy

variable {α : Type}

/-! ### What the walk may find -/

/-- A collection of objects with all that is below them, in which no cell has two
references. -/
structure Store.Closed (s : Store α) (members : Set Object) : Prop where
  parts : ∀ o ∈ members, ∀ p ∈ o.parts, p ∈ members
  attached : ∀ o ∈ members, ∀ p ∈ s.attachedTo o, p ∈ members
  same : ∀ a ∈ members, ∀ b ∈ members, a.same b → a = b

/-- A task is referred to without ambiguity, like all that is below it, and no array took
the place of a list that it keeps. -/
structure Store.Names (members : Set Object) (r : TaskRef) (s : Store α) : Prop where
  closed : s.Closed members
  member : .task r ∈ members
  lists : ∀ kept, s.arrayIn? (.task r) (.backing kept) = none

namespace Store

variable {s t : Store α} {members : Set Object} {r u : TaskRef} {o : Object}

/-- A new body attaches nothing and detaches nothing, if a leaf keeps its constraints. -/
theorem attachedTo_setTaskBody {body : TaskBody α}
    (constraints : ∀ i, u = .leaf i → body.constraints = (s.taskBody u).constraints) :
    (s.setTaskBody u body).attachedTo = s.attachedTo := by
  funext o
  cases o with
  | task v =>
    cases u with
    | leaf i =>
      cases v with
      | leaf j =>
        simp only [attachedTo, setTaskBody, Cells.read_write]
        split
        · next here => rw [here, constraints i rfl, taskBody]
        · rfl
      | merged j parts => rfl
    | merged i parts =>
      cases v with
      | leaf j => rfl
      | merged j parts =>
        simp only [attachedTo, setTaskBody, Cells.read_write]
        split
        · next here => rw [here]
        · rfl
  | _ => cases u <;> rfl

namespace Names

theorem of_links (h : s.Names members r) (links : s.SameLinks t)
    (lists : ∀ kept, t.arrayIn? (.task r) (.backing kept) = none) : t.Names members r where
  closed := ⟨h.closed.parts, fun o ho => links.attached o ▸ h.closed.attached o ho, h.closed.same⟩
  member := h.member
  lists := lists

theorem setTaskBody (h : s.Names members r) {body : TaskBody α}
    (constraints : ∀ i, u = .leaf i → body.constraints = (s.taskBody u).constraints) :
    (s.setTaskBody u body).Names members r where
  closed := by
    refine ⟨h.closed.parts, ?_, h.closed.same⟩
    rw [attachedTo_setTaskBody constraints]
    exact h.closed.attached
  member := h.member
  lists := by
    cases u
    · exact h.lists
    · exact h.lists

/-- What is attached to a task has to be referred to without ambiguity, too. -/
theorem withAttached (h : s.Names members r) (known : o ∈ members) :
    (s.withAttached u o).Names members r where
  closed := by
    refine ⟨h.closed.parts, fun p hp q hq => ?_, h.closed.same⟩
    rw [attachedTo_withAttached] at hq
    dsimp only at hq
    split at hq
    · rcases List.mem_append.1 hq with hq | hq
      · exact h.closed.attached p hp q hq
      · cases List.mem_singleton.1 hq
        exact known
    · exact h.closed.attached p hp q hq
  member := h.member
  lists := by
    cases u
    · exact h.lists
    · exact h.lists

end Names

end Store

/-- No step of a schedule refuses to go on. -/
def Passable (steps : List UpdateStep) : Prop := ∀ e, .refuse e ∉ steps

theorem passable_append {steps rest : List UpdateStep} :
    Passable (steps ++ rest) ↔ Passable steps ∧ Passable rest := by
  simp only [Passable, List.mem_append, not_or, forall_and]

theorem passable_flatMap {β : Type} {items : List β} {visit : β → List UpdateStep} :
    Passable (items.flatMap visit) ↔ ∀ b ∈ items, Passable (visit b) := by
  simp only [Passable, List.mem_flatMap, not_exists, not_and]
  exact ⟨fun h b hb e => h e b hb, fun h e b hb => h b hb e⟩

/-! ### The depth of a walk -/

section Depth

variable {s : Store α} {visit visit' : Object → List UpdateStep}

theorem stepsOfListed_congr (same : ∀ o, Passable (visit o) → visit' o = visit o)
    {listed : Except Error (List Object)} (h : Passable (stepsOfListed visit listed)) :
    stepsOfListed visit' listed = stepsOfListed visit listed := by
  cases listed with
  | error e => rfl
  | ok objects => exact List.flatMap_congr fun o ho => same o (passable_flatMap.1 h o ho)

/-- The steps of a task before its own merge. -/
def TaskRef.stepsAhead (s : Store α) (visit : Object → List UpdateStep) (i : Nat)
    (parts : List TaskRef) : List UpdateStep :=
  s.permit (.task (.merged i parts)) [.update, .refresh] ++
    stepsOfParts (s.taskParts (.merged i parts)) (TaskRef.scheduleAll s visit parts) ++
    stepsOfListed visit (s.ownConstraints (.merged i parts)) ++
    s.permit (.task (.merged i parts)) [.regenerate]

theorem TaskRef.schedule_merged (i : Nat) (parts : List TaskRef) :
    (TaskRef.merged i parts).schedule s visit =
      TaskRef.stepsAhead s visit i parts ++ [.mergeTask i parts] := rfl

theorem TaskRef.schedule_congr (same : ∀ o, Passable (visit o) → visit' o = visit o) (t : TaskRef)
    (h : Passable (t.schedule s visit)) : t.schedule s visit' = t.schedule s visit := by
  induction t using TaskRef.inductionOn with
  | leaf i =>
    rw [schedule, passable_append] at h
    rw [schedule, schedule, stepsOfListed_congr same h.2]
  | merged i parts ih =>
    rw [schedule_merged, stepsAhead] at h
    simp only [passable_append] at h
    obtain ⟨⟨⟨⟨-, below⟩, own⟩, -⟩, -⟩ := h
    have steps : stepsOfParts (s.taskParts (.merged i parts)) (scheduleAll s visit' parts) =
        stepsOfParts (s.taskParts (.merged i parts)) (scheduleAll s visit parts) := by
      unfold stepsOfParts at below ⊢
      split at below
      · rfl
      · rw [scheduleAll_eq_flatMap, passable_flatMap] at below
        rw [scheduleAll_eq_flatMap, scheduleAll_eq_flatMap]
        exact List.flatMap_congr fun p hp => ih p hp (below p hp)
      · rfl
    rw [schedule_merged, schedule_merged, stepsAhead, stepsAhead, steps,
      stepsOfListed_congr same own]

/-- A walk that was not given up finds the same when it may go one step deeper. -/
theorem Object.schedule_succ (depth : Nat) (o : Object) (h : Passable (Object.schedule s depth o)) :
    Object.schedule s (depth + 1) o = Object.schedule s depth o := by
  induction depth generalizing o with
  | zero =>
    cases o with
    | constraint c => rfl
    | _ => exact absurd (List.mem_singleton_self _) (h _)
  | succ depth ih =>
    cases o with
    | constraint c => rw [schedule_constraint, schedule_constraint]
    | task t =>
      rw [schedule_task] at h
      rw [schedule_task, schedule_task]
      exact TaskRef.schedule_congr ih t h
    | stack id =>
      rw [schedule_stack, Store.scheduleStack, passable_append, passable_append] at h
      rw [schedule_stack, schedule_stack, Store.scheduleStack, Store.scheduleStack,
        stepsOfListed_congr ih h.1.2]
    | _ => exact absurd (List.mem_singleton_self _) (h _)

theorem Object.schedule_add (depth more : Nat) (o : Object)
    (h : Passable (Object.schedule s depth o)) :
    Object.schedule s (depth + more) o = Object.schedule s depth o := by
  induction more with
  | zero => rfl
  | succ more ih =>
    rw [← ih] at h
    rw [← Nat.add_assoc, schedule_succ _ o h, ih]

end Depth

/-! ### What the steps of a walk are -/

theorem Store.eq_of_walk {β : Type} {s : Store α} {owner : Object} {field : Field}
    {items listed : List β} (h : s.walk owner field items = .ok listed) : listed = items := by
  unfold walk at h
  split at h
  · cases h
  · exact (Except.ok.inj h).symm

/-- A property of lists of steps that is put together like schedules are. -/
structure Composes (P : List UpdateStep → Prop) : Prop where
  nil : P []
  append : ∀ {steps rest}, P steps → P rest → P (steps ++ rest)
  single : ∀ step, (∀ i parts, step ≠ .mergeTask i parts) → P [step]

namespace Composes

variable {P : List UpdateStep → Prop} (composes : Composes P) {s : Store α} {members : Set Object}

include composes

theorem flatMap {β : Type} {visit : β → List UpdateStep} {items : List β}
    (each : ∀ b ∈ items, P (visit b)) : P (items.flatMap visit) := by
  induction items with
  | nil => exact composes.nil
  | cons b items ih =>
    rw [List.forall_mem_cons] at each
    rw [List.flatMap_cons]
    exact composes.append each.1 (ih each.2)

theorem permit (o : Object) (operations : List Operation) : P (s.permit o operations) := by
  unfold Store.permit
  split
  · exact composes.nil
  · exact composes.single _ fun _ _ => nofun

theorem ofParts {β : Type} {present : Except Error (List β)} {steps : List UpdateStep}
    (h : P steps) : P (stepsOfParts present steps) := by
  unfold stepsOfParts
  split
  · exact composes.nil
  · exact h
  · exact composes.single _ fun _ _ => nofun

theorem ofListed {visit : Object → List UpdateStep} {owner : Object} {field : Field}
    {items : List Object} (each : ∀ o ∈ items, P (visit o)) :
    P (stepsOfListed visit (s.walk owner field items)) := by
  cases listed : s.walk owner field items with
  | error e => exact composes.single _ fun _ _ => nofun
  | ok objects =>
    cases Store.eq_of_walk listed
    exact composes.flatMap each

theorem constraint (c : ConstraintRef) : P (c.schedule s) := by
  induction c using ConstraintRef.inductionOn with
  | leaf i => exact composes.append (composes.permit _ _) (composes.single _ fun _ _ => nofun)
  | merged i parts ih =>
    refine composes.append (composes.append (composes.append (composes.permit _ _)
      (composes.ofParts ?_)) (composes.permit _ _)) (composes.single _ fun _ _ => nofun)
    rw [ConstraintRef.scheduleAll_eq_flatMap]
    exact composes.flatMap ih

variable (closed : s.Closed members)

include closed

theorem task {visit : Object → List UpdateStep} (visits : ∀ o ∈ members, P (visit o))
    (merge : ∀ i parts, .task (.merged i parts) ∈ members →
      P (TaskRef.stepsAhead s visit i parts) →
        P (TaskRef.stepsAhead s visit i parts ++ [.mergeTask i parts]))
    (t : TaskRef) (member : .task t ∈ members) : P (t.schedule s visit) := by
  induction t using TaskRef.inductionOn with
  | leaf i =>
    exact composes.append (composes.append (composes.permit _ _)
      (composes.single _ fun _ _ => nofun))
      (composes.ofListed fun o ho => visits o (closed.attached _ member o ho))
  | merged i parts ih =>
    refine merge i parts member (composes.append (composes.append (composes.append
      (composes.permit _ _) (composes.ofParts ?_)) (composes.ofListed fun o ho =>
        visits o (closed.attached _ member o ho))) (composes.permit _ _))
    rw [TaskRef.scheduleAll_eq_flatMap]
    exact composes.flatMap fun p hp =>
      ih p hp (closed.parts _ member _ (List.mem_map_of_mem hp))

/-- What holds of steps as they are put together holds of every schedule, if it is not
lost when an aggregate of tasks is merged. -/
theorem schedule (depth : Nat) (merge : ∀ d < depth, ∀ i parts,
      .task (.merged i parts) ∈ members →
        P (TaskRef.stepsAhead s (Object.schedule s d) i parts) →
          P (TaskRef.stepsAhead s (Object.schedule s d) i parts ++ [.mergeTask i parts]))
    {o : Object} (member : o ∈ members) : P (Object.schedule s depth o) := by
  have outside : ∀ e, P [.refuse e] := fun e => composes.single _ fun _ _ => nofun
  induction depth generalizing o with
  | zero =>
    cases o with
    | constraint c => exact composes.constraint c
    | _ => exact outside _
  | succ depth ih =>
    have visits : ∀ o ∈ members, P (Object.schedule s depth o) :=
      fun o ho => ih (fun d less => merge d (Nat.lt_succ_of_lt less)) ho
    cases o with
    | constraint c => exact composes.constraint c
    | task t => exact composes.task closed visits (merge depth (Nat.lt_succ_self _)) t member
    | stack id =>
      rw [Object.schedule_stack]
      refine composes.append (composes.append (composes.permit _ _) (composes.ofListed
        fun o ho => visits o (closed.attached _ member o (List.mem_append_left _ ho)))) ?_
      unfold Store.scheduleBounds
      split
      · exact outside _
      · rw [ConstraintRef.scheduleAll_eq_flatMap]
        exact composes.flatMap fun c _ => composes.constraint c
    | _ => exact outside _

end Composes

/-! ### When an aggregate is merged -/

/-- Before the merge of an aggregate a schedule has a refusal, or a number of steps. -/
def MergesLate (i count : Nat) (steps : List UpdateStep) : Prop :=
  ∀ before after parts, steps = before ++ .mergeTask i parts :: after →
    ¬Passable before ∨ count ≤ before.length

namespace MergesLate

variable {i count : Nat} {steps rest : List UpdateStep}

theorem of_not_mem (h : ∀ parts, .mergeTask i parts ∉ steps) : MergesLate i count steps := by
  rintro before after parts rfl
  exact absurd (List.mem_append_right _ List.mem_cons_self) (h parts)

theorem append (first : MergesLate i count steps) (second : MergesLate i count rest) :
    MergesLate i count (steps ++ rest) := by
  intro before after parts split
  rcases List.append_eq_append_iff.1 split with ⟨more, rfl, tail⟩ | ⟨more, rfl, tail⟩
  · rw [passable_append, List.length_append]
    rcases second more after parts tail with refused | late
    · exact .inl fun h => refused h.2
    · exact .inr (late.trans (Nat.le_add_left _ _))
  · cases more with
    | nil =>
      rcases second [] after parts tail.symm with refused | late
      · exact absurd (fun _ => List.not_mem_nil) refused
      · exact .inr (late.trans (Nat.zero_le _))
    | cons step more =>
      cases tail
      exact first before more parts rfl

theorem composes : Composes (MergesLate i count) where
  nil := of_not_mem fun _ => List.not_mem_nil
  append := append
  single _ other := of_not_mem fun parts h => other i parts (List.mem_singleton.1 h).symm

theorem snoc (h : MergesLate i count steps) {parts : List TaskRef}
    (late : Passable steps → count ≤ steps.length) :
    MergesLate i count (steps ++ [.mergeTask i parts]) := by
  intro before after parts' split
  rcases List.eq_nil_or_concat' after with rfl | ⟨after, last, rfl⟩
  · obtain ⟨rfl, -⟩ := List.append_inj' split rfl
    exact (Classical.em (Passable steps)).symm.imp_right late
  · rw [← List.cons_append, ← List.append_assoc] at split
    exact h before after parts' (List.append_inj' split rfl).1

theorem of_snoc {step : UpdateStep} (h : MergesLate i count (steps ++ [step])) :
    MergesLate i count steps := by
  rintro before after parts rfl
  exact h before (after ++ [step]) parts (by simp)

/-- The rest of a schedule, after a step that does not refuse. -/
theorem of_cons {step : UpdateStep} (h : MergesLate i (count + 1) (step :: steps))
    (passed : ∀ e, step ≠ .refuse e) : MergesLate i count steps := by
  rintro before after parts rfl
  rcases h (step :: before) after parts rfl with refused | late
  · refine .inl fun passable => refused fun e he => ?_
    rcases List.mem_cons.1 he with here | he
    · exact passed e here.symm
    · exact passable e he
  · exact .inr (Nat.le_of_succ_le_succ late)

end MergesLate

/-- In an update of an aggregate of tasks, the aggregate is not merged before the end. -/
theorem TaskRef.mergesLate_stepsAhead {s : Store α} {members : Set Object} {i : Nat}
    {parts : List TaskRef} (closed : s.Closed members)
    (member : .task (.merged i parts) ∈ members) (depth : Nat) :
    MergesLate i (TaskRef.stepsAhead s (Object.schedule s depth) i parts).length
      (TaskRef.stepsAhead s (Object.schedule s depth) i parts) := by
  have whole : MergesLate i (TaskRef.stepsAhead s (Object.schedule s depth) i parts).length
      (Object.schedule s (depth + 1) (.task (.merged i parts))) := by
    refine MergesLate.composes.schedule closed (depth + 1) (fun d less j parts' member' late => ?_)
      member
    by_cases here : j = i
    · subst here
      obtain ⟨⟩ := closed.same _ member _ member' (by simp [Object.same, TaskRef.same])
      refine late.snoc fun passable => ?_
      -- this walk to the aggregate was not given up, so it is the whole one
      obtain ⟨more, rfl⟩ := Nat.exists_eq_add_of_le (Nat.le_of_lt_succ less)
      have whole : Passable ((TaskRef.merged j parts).schedule s (Object.schedule s d)) :=
        passable_append.2 ⟨passable, fun e he => by cases List.mem_singleton.1 he⟩
      have deeper := TaskRef.schedule_congr
        (fun o ho => Object.schedule_add d more o ho) _ whole
      rw [TaskRef.schedule_merged, TaskRef.schedule_merged] at deeper
      exact (congrArg List.length (List.append_inj' deeper rfl).1).le
    · refine late.append (.of_not_mem fun parts h => here ?_)
      cases List.mem_singleton.1 h
      rfl
  exact whole.of_snoc

/-! ### What a step writes -/

/-- What a step that succeeds writes: a leaf, or an aggregate after a merge of its parts. -/
inductive Store.Writes [Zero α] [One α] [Add α] [Mul α] [Neg α] (state : ArrayData α)
    (s : Store α) : UpdateStep → Store α → Prop
  | refreshConstraint (i : Nat) (c : LeafConstraint α) :
      Writes state s (.refreshConstraint i)
        { s with leafConstraints := s.leafConstraints.write i c }
  | mergeConstraint (i : Nat) (parts : List ConstraintRef) (d : MergedConstraint α) :
      Writes state s (.mergeConstraint i parts)
        { s with mergedConstraints := s.mergedConstraints.write i d }
  | refreshTask (i : Nat) (v : LeafTask α)
      (refreshed : (s.leafTasks.read i).refresh state = .ok v) :
      Writes state s (.refreshTask i) { s with leafTasks := s.leafTasks.write i v }
  | mergeTask (i : Nat) (parts present : List TaskRef) (d : MergedTask α) (events : List Event)
      (retired : List (TaskRef × List Object))
      (asked : s.taskParts (.merged i parts) = .ok present)
      (merged : (s.mergedTasks.read i).regenerate (present.map s.taskBody) = .ok (d, events)) :
      Writes state s (.mergeTask i parts) (s.afterMerge i parts d retired events)

namespace Store.Writes

variable [Zero α] [One α] [Add α] [Mul α] [Neg α] {s t : Store α} {state : ArrayData α}
  {step : UpdateStep} {i : Nat}

/-- A step attaches nothing and detaches nothing. -/
theorem sameLinks (h : s.Writes state step t) : s.SameLinks t := by
  cases h with
  | refreshConstraint i c => exact sameLinks_writeLeafConstraint c
  | mergeConstraint i parts d => exact sameLinks_writeMergedConstraint d
  | refreshTask i v refreshed =>
    exact sameLinks_writeLeafTask (LeafTask.refresh_refresh refreshed).1
  | mergeTask i parts present d events retired asked merged =>
    obtain ⟨r, -, rfl⟩ := MergedTask.withRows_of_regenerate merged
    exact sameLinks_afterMerge rfl

/-- No step puts an array in the place of a list. -/
theorem lists (h : s.Writes state step t) {owner : Object} {field : Field}
    (list : s.arrayIn? owner field = none) : t.arrayIn? owner field = none := by
  cases h with
  | mergeTask i parts present d events retired asked merged => exact arrayIn?_eraseAll list
  | _ => exact list

/-- Only its own merge changes an aggregate of tasks. -/
theorem mergedTask (h : s.Writes state step t) (apart : ∀ parts, step ≠ .mergeTask i parts) :
    t.mergedTasks.read i = s.mergedTasks.read i := by
  cases h with
  | mergeTask j parts present d events retired asked merged =>
    exact Cells.read_write_of_ne _ _ fun here => apart parts (here ▸ rfl)
  | _ => rfl

/-- No step changes a task with explicit arrays. -/
theorem leafTask (h : s.Writes state step t) (explicit : (s.leafTasks.read i).rule = .explicit) :
    t.leafTasks.read i = s.leafTasks.read i := by
  cases h with
  | refreshTask j v refreshed =>
    by_cases here : i = j
    · subst here
      rw [LeafTask.refresh, explicit] at refreshed
      cases refreshed
      exact Cells.read_write_self _ _ _
    · exact Cells.read_write_of_ne _ _ here
  | _ => rfl

end Store.Writes

namespace Build

section Merging

variable [Zero α] [One α] [Add α] [Mul α] {s t : Store α} {i : Nat} {parts : List TaskRef}

/-- A merge of tasks that fails changes nothing. -/
theorem eq_of_mergeTask {e : Error} (run : (mergeTask i parts).exec s = (.error e, t)) :
    t = s := by
  unfold mergeTask at run
  rw [exec_bind_ok exec_get, exec_lift_bind_eq_error] at run
  obtain ⟨-, same⟩ | ⟨_, -, run⟩ := run
  · exact same
  obtain ⟨-, same⟩ | ⟨_, -, run⟩ := exec_lift_bind_eq_error.1 run
  · exact same
  obtain ⟨-, same⟩ | ⟨_, -, run⟩ := exec_lift_bind_eq_error.1 run
  · exact same
  · cases run

/-- A merge of tasks that succeeds writes the aggregate. -/
theorem afterMerge_of_mergeTask (run : (mergeTask i parts).exec s = (.ok (), t)) :
    ∃ present d events retired, s.taskParts (.merged i parts) = .ok present ∧
      (s.mergedTasks.read i).regenerate (present.map s.taskBody) = .ok (d, events) ∧
      t = s.afterMerge i parts d retired events := by
  unfold mergeTask at run
  rw [exec_bind_ok exec_get] at run
  obtain ⟨_, -, run⟩ := exec_lift_bind_eq_ok.1 run
  obtain ⟨present, asked, run⟩ := exec_lift_bind_eq_ok.1 run
  obtain ⟨⟨d, events⟩, remerged, run⟩ := exec_lift_bind_eq_ok.1 run
  rw [Store.retire_eq] at run
  cases run
  obtain ⟨-, merged⟩ := then_eq_ok.1 remerged
  split at merged
  · exact ⟨present, d, events, _, asked, merged, rfl⟩
  · obtain ⟨_, -, merged⟩ := bind_eq_ok.1 merged
    cases merged

end Merging

variable [Zero α] [One α] [Add α] [Sub α] [Mul α] [Neg α] [BoundScalar α] {s t : Store α}
  {state : ArrayData α} {i count : Nat} {step : UpdateStep} {steps : List UpdateStep}

/-- A step that fails changes nothing. -/
theorem eq_of_perform {e : Error} (run : (perform state step).exec s = (.error e, t)) :
    t = s := by
  cases step with
  | refreshConstraint j =>
    change (refreshConstraint state j).exec s = _ at run
    unfold refreshConstraint at run
    rw [exec_bind_ok exec_get] at run
    obtain ⟨-, same⟩ | ⟨_, -, run⟩ := exec_lift_bind_eq_error.1 run
    · exact same
    · cases run
  | mergeConstraint j parts => exact eq_of_mergeConstraint run
  | refreshTask j =>
    change (refreshTask state j).exec s = _ at run
    unfold refreshTask at run
    rw [exec_bind_ok exec_get] at run
    obtain ⟨-, same⟩ | ⟨_, -, run⟩ := exec_lift_bind_eq_error.1 run
    · exact same
    · cases run
  | mergeTask j parts => exact eq_of_mergeTask run
  | refuse e' =>
    cases run
    rfl

theorem writes_of_perform (run : (perform state step).exec s = (.ok (), t)) :
    s.Writes state step t := by
  cases step with
  | refreshConstraint j =>
    obtain ⟨c, -, rfl⟩ := exec_refreshConstraint_eq_ok.1 run
    exact .refreshConstraint j c
  | mergeConstraint j parts =>
    change (mergeConstraint j parts).exec s = _ at run
    unfold mergeConstraint at run
    rw [exec_bind_ok exec_get] at run
    obtain ⟨_, -, run⟩ := exec_lift_bind_eq_ok.1 run
    obtain ⟨_, -, run⟩ := exec_lift_bind_eq_ok.1 run
    obtain ⟨d, -, run⟩ := exec_lift_bind_eq_ok.1 run
    cases run
    exact .mergeConstraint j parts d
  | refreshTask j =>
    obtain ⟨v, refreshed, rfl⟩ := exec_refreshTask_eq_ok.1 run
    exact .refreshTask j v refreshed
  | mergeTask j parts =>
    obtain ⟨present, d, events, retired, asked, merged, rfl⟩ := afterMerge_of_mergeTask run
    exact .mergeTask j parts present d events retired asked merged
  | refuse e => cases run

section Passes

variable {outcome : Except Error Unit} (run : (performAll state steps).exec s = (outcome, t))

include run

/-- What every step that succeeds leaves alone, a pass leaves alone, however it ends. -/
theorem performAll_induction {P : Store α → Store α → Prop} (refl : ∀ s, P s s)
    (trans : ∀ {s t u}, P s t → P t u → P s u)
    (each : ∀ {s t step}, s.Writes state step t → P s t) : P s t := by
  induction steps generalizing s with
  | nil =>
    cases run
    exact refl _
  | cons step steps ih =>
    rw [performAll, exec_bind] at run
    rcases first : (perform state step).exec s with ⟨e | ⟨⟩, u⟩
    all_goals rw [first] at run
    · cases run
      rw [eq_of_perform first]
      exact refl _
    · exact trans (each (writes_of_perform first)) (ih run)

theorem sameLinks_of_performAll : s.SameLinks t :=
  performAll_induction run .refl .trans Store.Writes.sameLinks

/-- After a pass a task is still referred to without ambiguity, however the pass ends. -/
theorem names_of_performAll {members : Set Object} {r : TaskRef} (h : s.Names members r) :
    t.Names members r :=
  performAll_induction run (P := fun s t => s.Names members r → t.Names members r)
    (fun _ => id) (fun first second h => second (first h))
    (fun writes h => h.of_links writes.sameLinks fun kept => writes.lists (h.lists kept)) h

/-- No pass changes a task with explicit arrays. -/
theorem leafTask_of_performAll (explicit : (s.leafTasks.read i).rule = .explicit) :
    t.leafTasks.read i = s.leafTasks.read i :=
  performAll_induction run
    (P := fun s t => (s.leafTasks.read i).rule = .explicit →
      t.leafTasks.read i = s.leafTasks.read i)
    (fun _ _ => rfl)
    (fun first second explicit =>
      (second ((congrArg LeafTask.rule (first explicit)).trans explicit)).trans (first explicit))
    (fun writes explicit => writes.leafTask explicit) explicit

end Passes

/-- A pass leaves an aggregate of tasks as it is when it would merge it late only. -/
theorem kept_of_performAll (late : MergesLate i count steps) (short : steps.length ≤ count) :
    ((performAll state steps).exec s).2.mergedTasks.read i = s.mergedTasks.read i := by
  induction steps generalizing s count with
  | nil => rfl
  | cons step steps ih =>
    obtain ⟨count, rfl⟩ := Nat.exists_eq_add_one_of_ne_zero
      (Nat.ne_of_gt (Nat.lt_of_lt_of_le (Nat.succ_pos _) short))
    have apart : ∀ parts, step ≠ .mergeTask i parts := by
      rintro parts rfl
      rcases late [] steps parts rfl with refused | ⟨⟨⟩⟩
      exact refused fun _ => List.not_mem_nil
    rw [performAll, exec_bind]
    rcases run : (perform state step).exec s with ⟨e | ⟨⟩, t⟩
    · rw [eq_of_perform run]
    · have passed : ∀ e, step ≠ .refuse e := by
        rintro e rfl
        cases run
      exact (ih (late.of_cons passed) (Nat.le_of_succ_le_succ short)).trans
        ((writes_of_perform run).mergedTask apart)

/-- An update of an aggregate of tasks merges it as it was, at the very end, or leaves
it as it was. -/
theorem outcome_of_update {members : Set Object} (closed : s.Closed members)
    {parts : List TaskRef} (member : .task (.merged i parts) ∈ members)
    {outcome : Except Error Unit}
    (run : (update state (.task (.merged i parts))).exec s = (outcome, t)) :
    (∃ e, outcome = .error e ∧ t.mergedTasks.read i = s.mergedTasks.read i) ∨
      outcome = .ok () ∧ ∃ steps u, (performAll state steps).exec s = (.ok (), u) ∧
        u.mergedTasks.read i = s.mergedTasks.read i ∧
          (mergeTask i parts).exec u = (.ok (), t) := by
  obtain ⟨depth, deep⟩ := Nat.exists_eq_add_of_le' s.two_le_depth
  have ahead : ((performAll state (TaskRef.stepsAhead s (Object.schedule s (depth + 1)) i
      parts)).exec s).2.mergedTasks.read i = s.mergedTasks.read i :=
    kept_of_performAll (TaskRef.mergesLate_stepsAhead closed member (depth + 1)) le_rfl
  rw [exec_update, deep, Object.schedule_task, TaskRef.schedule_merged, performAll_append,
    exec_bind] at run
  rcases first : (performAll state (TaskRef.stepsAhead s (Object.schedule s (depth + 1)) i
    parts)).exec s with ⟨e | ⟨⟩, u⟩
  all_goals rw [first] at ahead run
  · cases run
    exact .inl ⟨e, rfl, ahead⟩
  · rw [performAll_singleton] at run
    rcases outcome with e | ⟨⟩
    · rw [eq_of_mergeTask run]
      exact .inl ⟨e, rfl, ahead⟩
    · exact .inr ⟨rfl, _, u, first, ahead, run⟩

end Build

end ControlHierarchy
