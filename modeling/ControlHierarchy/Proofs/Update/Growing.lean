import ControlHierarchy.Proofs.Store.Extending
import ControlHierarchy.Proofs.Update.Circles

/-!
# Updates in stores that grow

What was there before a store grew holds nothing of what is new. So an update of
old objects has the same schedule in the store that extends another one as in
the other one (`Store.Extends.agreed`). What a step reads is the same in both,
and what it writes is the same: a pass that succeeds in the larger store succeeds
in the smaller one, and the former still extends the latter
(`Store.Extends.performAll`). A pass makes no new objects, and does not come to
objects that it does not bring up to date (`Build.has_iff_of_performAll`,
`Build.sameCell_of_performAll`).
-/

namespace ControlHierarchy

variable {α : Type}

/-- A collection of objects that are there, with all that is below them. Nothing is noted
on an object that is not there. -/
structure Store.Grounded (s : Store α) (members : Set Object) : Prop where
  parts : ∀ o ∈ members, ∀ p ∈ o.parts, p ∈ members
  attached : ∀ o ∈ members, ∀ p ∈ s.attachedTo o, p ∈ members
  exist : ∀ o ∈ members, s.Has o
  unnoted : ∀ o, ¬s.Has o → ∀ field, s.notes.read? o field = none

/-! ### The schedule -/

/-- Two schedules are the same, and bring members up to date only. -/
structure Agreed (members : Set Object) (steps steps' : List UpdateStep) : Prop where
  same : steps' = steps
  inside : ∀ o ∈ subjects steps, o ∈ members

namespace Agreed

variable {members : Set Object} {steps steps' rest rest' : List UpdateStep}

theorem nil : Agreed members [] [] := ⟨rfl, List.forall_mem_nil _⟩

theorem append (first : Agreed members steps steps') (second : Agreed members rest rest') :
    Agreed members (steps ++ rest) (steps' ++ rest') where
  same := congrArg₂ _ first.same second.same
  inside := by
    rw [subjects_append, List.forall_mem_append]
    exact ⟨first.inside, second.inside⟩

theorem single (step : UpdateStep) (inside : ∀ o ∈ step.subject?, o ∈ members) :
    Agreed members [step] [step] := by
  refine ⟨rfl, fun o ho => inside o ?_⟩
  rw [subjects_singleton] at ho
  exact Option.mem_toList.1 ho

theorem refuse (e : Error) : Agreed members [.refuse e] [.refuse e] := single _ fun _ => nofun

theorem flatMap {β : Type} {visit visit' : β → List UpdateStep} {items : List β}
    (each : ∀ b ∈ items, Agreed members (visit b) (visit' b)) :
    Agreed members (items.flatMap visit) (items.flatMap visit') := by
  induction items with
  | nil => exact nil
  | cons b items ih =>
    rw [List.forall_mem_cons] at each
    rw [List.flatMap_cons, List.flatMap_cons]
    exact each.1.append (ih each.2)

theorem permit (s : Store α) (o : Object) (operations : List Operation) :
    Agreed members (s.permit o operations) (s.permit o operations) := by
  unfold Store.permit
  split
  · exact nil
  · exact refuse _

theorem ofParts {β : Type} (present : Except Error (List β)) (h : Agreed members steps steps') :
    Agreed members (stepsOfParts present steps) (stepsOfParts present steps') := by
  unfold stepsOfParts
  split
  · exact nil
  · exact h
  · exact refuse _

theorem ofListed {visit visit' : Object → List UpdateStep} {s : Store α} {owner : Object}
    {field : Field} {items : List Object}
    (each : ∀ o ∈ items, Agreed members (visit o) (visit' o)) :
    Agreed members (stepsOfListed visit (s.walk owner field items))
      (stepsOfListed visit' (s.walk owner field items)) := by
  cases listed : s.walk owner field items with
  | error e => exact refuse _
  | ok objects =>
    cases Store.eq_of_walk listed
    exact flatMap each

end Agreed

namespace Store.Extends

variable {s t : Store α} {members : Set Object} {o : Object} (h : s.Extends t)

include h

theorem permit (exist : s.Has o) (operations : List Operation) :
    t.permit o operations = s.permit o operations := by
  have same : t.checkCallable o = s.checkCallable o := by
    funext operation
    rw [checkCallable, checkCallable, h.isReplaced exist]
  rw [Store.permit, Store.permit, same]

theorem walk {β : Type} (exist : s.Has o) (field : Field) (items : List β) :
    t.walk o field items = s.walk o field items := by
  rw [Store.walk, Store.walk, h.arrayIn? exist]

theorem asked {β : Type} (exist : s.Has o) (kept : Backing) (parts : List β) :
    t.asked o kept parts = s.asked o kept parts := by
  rw [Store.asked, Store.asked, h.arrayIn? exist]

theorem constraintParts {c : ConstraintRef} (exist : s.Has (.constraint c)) :
    t.constraintParts c = s.constraintParts c := by
  cases c with
  | leaf i => rfl
  | merged i parts => exact h.asked exist .constraints parts

theorem taskParts {r : TaskRef} (exist : s.Has (.task r)) : t.taskParts r = s.taskParts r := by
  cases r with
  | leaf i => rfl
  | merged i parts => exact h.asked exist .tasks parts

theorem ownConstraints {r : TaskRef} (exist : s.Has (.task r)) :
    t.ownConstraints r = s.ownConstraints r := by
  cases r with
  | leaf i => rfl
  | merged i parts =>
    rw [Store.ownConstraints, Store.ownConstraints, h.walk exist, h.mergedTasks.read i exist]

variable (grounded : s.Grounded members)

include grounded

theorem agreed_constraint (c : ConstraintRef) (member : .constraint c ∈ members) :
    Agreed members (c.schedule s) (c.schedule t) := by
  induction c using ConstraintRef.inductionOn with
  | leaf i =>
    rw [ConstraintRef.schedule, ConstraintRef.schedule, h.permit (grounded.exist _ member)]
    refine (Agreed.permit _ _ _).append (.single _ fun o ho => ?_)
    cases ho
    exact member
  | merged i parts ih =>
    have exist := grounded.exist _ member
    have below : ∀ p ∈ parts, Agreed members (p.schedule s) (p.schedule t) :=
      fun p hp => ih p hp (grounded.parts _ member _ (List.mem_map_of_mem hp))
    rw [ConstraintRef.schedule, ConstraintRef.schedule, h.permit exist, h.permit exist,
      h.constraintParts exist, ConstraintRef.scheduleAll_eq_flatMap,
      ConstraintRef.scheduleAll_eq_flatMap]
    refine (((Agreed.permit _ _ _).append (.ofParts _ (.flatMap below))).append
      (.permit _ _ _)).append (.single _ fun o ho => ?_)
    cases ho
    exact member

theorem agreed_task {visit visit' : Object → List UpdateStep}
    (visits : ∀ o ∈ members, Agreed members (visit o) (visit' o)) (r : TaskRef)
    (member : .task r ∈ members) : Agreed members (r.schedule s visit) (r.schedule t visit') := by
  induction r using TaskRef.inductionOn with
  | leaf i =>
    have exist := grounded.exist _ member
    rw [TaskRef.schedule, TaskRef.schedule, h.permit exist, h.attached exist]
    refine ((Agreed.permit _ _ _).append (.single _ fun o ho => ?_)).append
      (.ofListed fun o ho => visits o (grounded.attached _ member o ho))
    cases ho
    exact member
  | merged i parts ih =>
    have exist := grounded.exist _ member
    have below : ∀ p ∈ parts, Agreed members (p.schedule s visit) (p.schedule t visit') :=
      fun p hp => ih p hp (grounded.parts _ member _ (List.mem_map_of_mem hp))
    rw [TaskRef.schedule, TaskRef.schedule, h.permit exist, h.permit exist, h.taskParts exist,
      h.ownConstraints exist, TaskRef.scheduleAll_eq_flatMap, TaskRef.scheduleAll_eq_flatMap]
    refine ((((Agreed.permit _ _ _).append (.ofParts _ (.flatMap below))).append
      (.ofListed fun o ho => visits o (grounded.attached _ member o ho))).append
        (.permit _ _ _)).append (.single _ fun o ho => ?_)
    cases ho
    exact member

theorem agreed_bounds {id : Nat} (member : .stack id ∈ members) :
    Agreed members (s.scheduleBounds id) (t.scheduleBounds id) := by
  have exist := grounded.exist _ member
  rw [scheduleBounds, scheduleBounds, h.arrayIn? exist, h.stackCells.read id exist]
  split
  · exact .refuse _
  · rw [ConstraintRef.scheduleAll_eq_flatMap, ConstraintRef.scheduleAll_eq_flatMap]
    refine .flatMap fun c hc => h.agreed_constraint grounded c ?_
    exact grounded.attached _ member _ (List.mem_append_right _ (List.mem_map_of_mem hc))

/-- An object that was there is brought up to date by the same steps when the store has grown. -/
theorem agreed (depth : Nat) (o : Object) (member : o ∈ members) :
    Agreed members (Object.schedule s depth o) (Object.schedule t depth o) := by
  induction depth generalizing o with
  | zero =>
    cases o with
    | constraint c => exact h.agreed_constraint grounded c member
    | _ => exact .refuse _
  | succ depth ih =>
    cases o with
    | constraint c => exact h.agreed_constraint grounded c member
    | task r => exact h.agreed_task grounded ih r member
    | stack id =>
      have exist := grounded.exist _ member
      rw [Object.schedule_stack, Object.schedule_stack, scheduleStack, scheduleStack,
        h.permit exist, Store.levels, Store.levels, h.walk exist, h.stackCells.read id exist]
      exact ((Agreed.permit _ _ _).append (.ofListed fun o ho =>
        ih o (grounded.attached _ member o (List.mem_append_left _ ho)))).append
          (h.agreed_bounds grounded member)
    | _ => exact .refuse _

end Store.Extends

/-! ### Merges -/

namespace Store

variable {s t : Store α}

/-- What is asked are parts. -/
theorem mem_of_asked {β : Type} {owner : Object} {kept : Backing} {parts present : List β}
    (h : s.asked owner kept parts = .ok present) : ∀ p ∈ present, p ∈ parts := by
  unfold asked at h
  split at h
  · cases h
    exact fun _ => id
  · cases h
  · cases h
    exact List.forall_mem_nil _
  · cases h

theorem Extends.remerged [Zero α] [Neg α] [BoundScalar α] (h : s.Extends t)
    {parts : List ConstraintRef} (exist : ∀ p ∈ parts, s.Has (.constraint p))
    {lost : Operation → Bool} {c d : MergedConstraint α}
    (made : t.remerged lost c parts = .ok d) : s.remerged lost c parts = .ok d := by
  obtain ⟨askable, checkable, merged⟩ := remerged_eq_ok.1 made
  have same : ∀ p ∈ parts, t.part p = s.part p := fun p hp => (h.sameCell (exist p hp)).sameAsPart
  rw [List.map_congr_left same] at merged
  refine remerged_eq_ok.2 ⟨fun p hp => ?_, checkable, merged⟩
  rw [← stuckAt?_congr (h.isReplaced (exist p hp)) (congrArg Part.system (same p hp))]
  exact askable p hp

theorem Extends.remergedTask [Zero α] [One α] [Add α] [Mul α] (h : s.Extends t)
    {parts : List TaskRef} (exist : ∀ p ∈ parts, s.Has (.task p))
    {own : Except Error (List Object)} {c : MergedTask α} {made : MergedTask α × List Event}
    (run : t.remergedTask c parts own = .ok made) : s.remergedTask c parts own = .ok made := by
  obtain ⟨ready, merged⟩ := then_eq_ok.1 run
  have bodies : ∀ p ∈ parts, t.taskBody p = s.taskBody p := fun p hp => h.taskBody (exist p hp)
  rw [checkParts_eq_ok] at ready
  refine then_eq_ok.2 ⟨checkParts_eq_ok.2 fun p hp => ?_, ?_⟩
  · rw [Ready, ← bodies p hp, ← h.attached (exist p hp)]
    exact ready p hp
  · rw [← List.map_congr_left bodies]
    exact merged

end Store

namespace Build

variable {s t : Store α} {i : Nat}

theorem mergeConstraint_eq_ok [Zero α] [Neg α] [BoundScalar α] {parts : List ConstraintRef} :
    (mergeConstraint i parts).exec s = (.ok (), t) ↔
      (∃ blank : LinearSystem α, LinearSystem.free (s.mergedConstraints.read i).size = .ok blank) ∧
      ∃ present, s.constraintParts (.merged i parts) = .ok present ∧
        ∃ d, s.remerged (s.isReplaced (.constraint (.merged i parts)))
            (s.mergedConstraints.read i) present = .ok d ∧
          t = { s with mergedConstraints := s.mergedConstraints.write i d } := by
  unfold mergeConstraint
  simp only [exec_bind_ok exec_get, exec_lift_bind_eq_ok, exists_and_right]
  refine and_congr_right fun _ => exists_congr fun present => and_congr_right fun _ => ?_
  exact exists_congr fun d => and_congr_right fun _ => exec_set_eq_ok

theorem mergeTask_eq_ok [Zero α] [One α] [Add α] [Mul α] {parts : List TaskRef} :
    (mergeTask i parts).exec s = (.ok (), t) ↔
      (∃ blank : RowMatrix α,
        RowMatrix.withoutRows (s.mergedTasks.read i).body.size = .ok blank) ∧
      ∃ present, s.taskParts (.merged i parts) = .ok present ∧
        ∃ d events, s.remergedTask (s.mergedTasks.read i) present
            (s.ownConstraints (.merged i parts)) = .ok (d, events) ∧
          t = s.afterMerge i parts d (s.retire (.merged i parts)).retired events := by
  unfold mergeTask
  simp only [exec_bind_ok exec_get, exec_lift_bind_eq_ok, exists_and_right, Prod.exists]
  refine and_congr_right fun _ => exists_congr fun present => and_congr_right fun _ => ?_
  rw [Store.retire_eq]
  exact exists_congr fun d => exists_congr fun events => and_congr_right fun _ => exec_set_eq_ok

end Build

/-! ### Steps -/

theorem Cells.next_write_of_lt {β : Type} {c : Cells β} {i : Nat} (old : i < c.next) (v : β) :
    (c.write i v).next = c.next := by
  rw [next_write]
  exact max_eq_left old

section Passes

variable [Zero α] [One α] [Add α] [Sub α] [Mul α] [Neg α] [BoundScalar α] {s t s' t' : Store α}
  {state : ArrayData α} {step : UpdateStep} {steps : List UpdateStep} {o : Object}

namespace Store.Writes

omit [Sub α] [BoundScalar α]

/-- A step makes no new objects. -/
theorem has_iff (h : s.Writes state step t) (exist : ∀ o ∈ step.subject?, s.Has o) :
    t.Has o ↔ s.Has o := by
  refine ⟨?_, h.sameLinks.has o⟩
  cases h with
  | refreshConstraint i c =>
    have old : i < s.leafConstraints.next := exist _ rfl
    exact fun here => here.mono (Cells.next_write_of_lt old c).le le_rfl le_rfl le_rfl le_rfl
  | mergeConstraint i parts d =>
    have old : i < s.mergedConstraints.next := exist _ rfl
    exact fun here => here.mono le_rfl (Cells.next_write_of_lt old d).le le_rfl le_rfl le_rfl
  | refreshTask i v refreshed =>
    have old : i < s.leafTasks.next := exist _ rfl
    exact fun here => here.mono le_rfl le_rfl (Cells.next_write_of_lt old v).le le_rfl le_rfl
  | mergeTask i parts present d events retired asked merged =>
    have old : i < s.mergedTasks.next := exist _ rfl
    exact fun here => here.mono le_rfl le_rfl le_rfl (Cells.next_write_of_lt old d).le le_rfl

/-- A step writes to the cell of what it brings up to date only. -/
theorem sameCell (h : s.Writes state step t) (apart : ∀ p ∈ step.subject?, ¬o.same p) :
    s.SameCell t o := by
  cases h with
  | refreshConstraint i c => exact sameCell_writeLeafConstraint c (apart _ rfl)
  | mergeConstraint i parts d => exact sameCell_writeMergedConstraint d (apart _ rfl)
  | refreshTask i v refreshed => exact sameCell_writeLeafTask v (apart _ rfl)
  | mergeTask i parts present d events retired asked merged =>
    exact sameCell_afterMerge (apart _ rfl)

/-- A step takes no notes. -/
theorem read?_notes (h : s.Writes state step t) {field : Field}
    (gone : s.notes.read? o field = none) : t.notes.read? o field = none := by
  cases h with
  | mergeTask i parts present d events retired asked merged =>
    rcases s.notes.read?_eraseAll (.task (.merged i parts)) o [.constraints, .hessian] field with
      erased | same
    · exact erased
    · exact same.trans gone
  | _ => exact gone

end Store.Writes

namespace Store.Extends

/-- A step that succeeds in the larger store does the same in the smaller one, if it brings
something up to date that both have. -/
theorem perform (h : s.Extends t) (exist : ∀ o ∈ step.subject?, ∀ p ∈ o :: o.parts, s.Has p)
    (run : (Build.perform state step).exec t = (.ok (), t')) :
    ∃ s', (Build.perform state step).exec s = (.ok (), s') ∧ s'.Extends t' := by
  have old : ∀ o ∈ step.subject?, s.Has o := fun o ho => exist o ho o List.mem_cons_self
  have notes {u : Store α} (writes : s.Writes state step u) (o : Object) (field : Field) :
      t.notes.read? o field = s.notes.read? o field ∨
        ¬u.Has o ∧ t.notes.read? o field = none := by
    rw [writes.has_iff old]
    exact h.notes o field
  cases step with
  | refreshConstraint i =>
    obtain ⟨c, refreshed, rfl⟩ := Build.exec_refreshConstraint_eq_ok.1 run
    rw [h.leafConstraints] at refreshed
    refine ⟨_, Build.exec_refreshConstraint_eq_ok.2 ⟨c, refreshed, rfl⟩, { h with
      leafConstraints := congrArg (·.write i c) h.leafConstraints
      notes := notes (.refreshConstraint i c) }⟩
  | mergeConstraint i parts =>
    obtain ⟨this, parts'⟩ := List.forall_mem_cons.1 (exist _ rfl)
    obtain ⟨room, present, listed, d, remerged, rfl⟩ := Build.mergeConstraint_eq_ok.1 run
    rw [h.mergedConstraints.read i this] at room remerged
    rw [h.constraintParts this] at listed
    rw [h.isReplaced this] at remerged
    have merged := h.remerged
      (fun p hp => parts' _ (List.mem_map_of_mem (mem_of_asked listed p hp))) remerged
    exact ⟨_, Build.mergeConstraint_eq_ok.2 ⟨room, present, listed, d, merged, rfl⟩, { h with
      mergedConstraints := h.mergedConstraints.write_write (Nat.le_of_lt this) d
      notes := notes (.mergeConstraint i parts d) }⟩
  | refreshTask i =>
    obtain ⟨v, refreshed, rfl⟩ := Build.exec_refreshTask_eq_ok.1 run
    rw [h.leafTasks] at refreshed
    exact ⟨_, Build.exec_refreshTask_eq_ok.2 ⟨v, refreshed, rfl⟩, { h with
      leafTasks := congrArg (·.write i v) h.leafTasks
      notes := notes (.refreshTask i v refreshed) }⟩
  | mergeTask i parts =>
    obtain ⟨this, parts'⟩ := List.forall_mem_cons.1 (exist _ rfl)
    obtain ⟨room, present, listed, d, events, remerged, rfl⟩ := Build.mergeTask_eq_ok.1 run
    rw [h.mergedTasks.read i this] at room remerged
    rw [h.taskParts this] at listed
    rw [h.ownConstraints this] at remerged
    have merged := h.remergedTask
      (fun p hp => parts' _ (List.mem_map_of_mem (mem_of_asked listed p hp))) remerged
    have performed := Build.mergeTask_eq_ok.2 ⟨room, present, listed, d, events, merged, rfl⟩
    refine ⟨_, performed, { h with
      mergedTasks := h.mergedTasks.write_write (Nat.le_of_lt this) d
      notes := fun o field => ?_ }⟩
    rcases notes (Build.writes_of_perform performed) o field with same | ⟨new, gone⟩
    · exact .inl (Notes.read?_eraseAll_congr same)
    · refine .inr ⟨new, ?_⟩
      exact (t.notes.read?_eraseAll _ o _ field).elim id fun same => same.trans gone
  | refuse e => cases run

end Store.Extends

/-! ### Passes -/

theorem forall_mem_subjects_cons {P : Object → Prop} :
    (∀ o ∈ subjects (step :: steps), P o) ↔
      (∀ o ∈ step.subject?, P o) ∧ ∀ o ∈ subjects steps, P o := by
  rw [← List.singleton_append, subjects_append, subjects_singleton, List.forall_mem_append]
  simp only [Option.mem_toList, Option.mem_def]

namespace Build

/-- A pass makes no new objects. -/
theorem has_iff_of_performAll (exist : ∀ o ∈ subjects steps, s.Has o)
    (run : (performAll state steps).exec s = (.ok (), t)) : t.Has o ↔ s.Has o := by
  induction steps generalizing s with
  | nil =>
    cases run
    rfl
  | cons step steps ih =>
    obtain ⟨⟨⟩, u, performed, rest⟩ := exec_bind_eq_ok.1 run
    obtain ⟨first, later⟩ := forall_mem_subjects_cons.1 exist
    have writes := writes_of_perform performed
    exact (ih (fun p hp => writes.sameLinks.has p (later p hp)) rest).trans (writes.has_iff first)

/-- A pass leaves alone what it does not come to. -/
theorem sameCell_of_performAll (apart : ∀ p ∈ subjects steps, ¬o.same p)
    (run : (performAll state steps).exec s = (.ok (), t)) : s.SameCell t o := by
  induction steps generalizing s with
  | nil =>
    cases run
    exact .refl _ o
  | cons step steps ih =>
    obtain ⟨⟨⟩, u, performed, rest⟩ := exec_bind_eq_ok.1 run
    obtain ⟨first, later⟩ := forall_mem_subjects_cons.1 apart
    exact ((writes_of_perform performed).sameCell first).trans (ih later rest)

/-- A pass takes no notes. -/
theorem read?_notes_of_performAll {field : Field} (gone : s.notes.read? o field = none)
    (run : (performAll state steps).exec s = (.ok (), t)) : t.notes.read? o field = none :=
  performAll_induction run
    (P := fun s t => s.notes.read? o field = none → t.notes.read? o field = none)
    (fun _ => id) (fun first second gone => second (first gone))
    (fun writes gone => writes.read?_notes gone) gone

/-- A pass that gets beyond a check has done nothing there. -/
theorem eq_of_performAll_permit {operations : List Operation}
    (run : (performAll state (s.permit o operations)).exec s' = (.ok (), t)) : t = s' := by
  unfold Store.permit at run
  split at run
  · cases run
    rfl
  · cases run

/-- A pass depends on what is read of the state. -/
theorem performAll_congr {state' : ArrayData α} (same : state'.read = state.read) :
    performAll state' steps = performAll state steps := by
  have refresh : ∀ c : LeafConstraint α, c.refresh state' = c.refresh state := fun c => by
    unfold LeafConstraint.refresh
    rw [same]
  have refresh' : ∀ v : LeafTask α, v.refresh state' = v.refresh state := fun v => by
    unfold LeafTask.refresh
    rw [same]
  have each : perform state' = perform state := by
    funext step
    cases step with
    | refreshConstraint i => simp only [perform, refreshConstraint, refresh]
    | refreshTask i => simp only [perform, refreshTask, refresh']
    | _ => rfl
  induction steps with
  | nil => rfl
  | cons step steps ih => rw [performAll, performAll, each, ih]

end Build

namespace Store

/-- A pass that succeeds in the larger store succeeds in the smaller one. -/
theorem Extends.performAll (h : s.Extends t)
    (exist : ∀ o ∈ subjects steps, ∀ p ∈ o :: o.parts, s.Has p)
    (run : (Build.performAll state steps).exec t = (.ok (), t')) :
    ∃ s', (Build.performAll state steps).exec s = (.ok (), s') ∧ s'.Extends t' := by
  induction steps generalizing s t with
  | nil =>
    cases run
    exact ⟨s, rfl, h⟩
  | cons step steps ih =>
    obtain ⟨⟨⟩, u, performed, rest⟩ := Build.exec_bind_eq_ok.1 run
    obtain ⟨first, later⟩ := forall_mem_subjects_cons.1 exist
    obtain ⟨v, performed', extension⟩ := h.perform first performed
    have links := (Build.writes_of_perform performed').sameLinks
    obtain ⟨s', rest', extension'⟩ :=
      ih extension (fun o ho p hp => links.has p (later o ho p hp)) rest
    exact ⟨s', (Build.exec_bind_ok performed').trans rest', extension'⟩

/-- Two stores after a pass over old objects, where the second one has grown before. -/
structure Alongside (s t s' t' : Store α) : Prop where
  extension : s'.Extends t'
  has : ∀ o, s'.Has o ↔ s.Has o
  grown : ∀ o, t'.Has o ↔ t.Has o
  /-- The pass leaves alone what is new. -/
  cell : ∀ o, ¬s.Has o → t.SameCell t' o
  unnoted : ∀ o, ¬s.Has o → ∀ field, s'.notes.read? o field = none

/-- A pass over members can be performed before the store grows. -/
theorem Grounded.performAll {members : Set Object} {steps' : List UpdateStep}
    (grounded : s.Grounded members) (extension : s.Extends t)
    (agreed : Agreed members steps steps')
    (run : (Build.performAll state steps').exec t = (.ok (), t')) :
    ∃ s', (Build.performAll state steps).exec s = (.ok (), s') ∧ s.Alongside t s' t' := by
  obtain ⟨rfl, inside⟩ := agreed
  have exist : ∀ o ∈ subjects steps', s.Has o := fun o ho => grounded.exist o (inside o ho)
  obtain ⟨s', performed, extension'⟩ := extension.performAll (fun o ho => by
    rw [List.forall_mem_cons]
    exact ⟨exist o ho, fun p hp => grounded.exist p (grounded.parts o (inside o ho) p hp)⟩) run
  refine ⟨s', performed, extension', fun o => Build.has_iff_of_performAll exist performed,
    fun o => Build.has_iff_of_performAll (fun p hp => extension.has (exist p hp)) run,
    fun o new => Build.sameCell_of_performAll (fun p hp again => ?_) run,
    fun o new field => Build.read?_notes_of_performAll (grounded.unnoted o new field) performed⟩
  exact new ((has_congr again).2 (exist p hp))

end Store

end Passes

end ControlHierarchy
