import ControlHierarchy.Proofs.Store.Combining
import ControlHierarchy.Proofs.Task.Regeneration
import ControlHierarchy.Proofs.Update.Order

/-!
# Objects that are up to date with a state

An object is current when a refresh at the state, or a merge of its parts as
they are, would change nothing that is read of it (`Store.Current`). A step of
an update pass makes its subject current (`Store.current_of_perform`). It writes
to the cell of its subject only, and performed once more on a current object it
leaves what is read of it as it is (`Store.sameAsPart_of_perform`). So nothing
that is current becomes stale by it.
-/

namespace ControlHierarchy

variable {α : Type}

/-! ### Leaves -/

theorem getD_getD {β : Type} (stored : Option β) (old : β) :
    stored.getD (stored.getD old) = stored.getD old := by
  cases stored <;> rfl

/-- To store the same arrays again changes nothing. -/
theorem LinearSystem.store_store (s : LinearSystem α) (stored : SystemArray → Option (Tensor α)) :
    (s.store stored).store stored = s.store stored := by
  simp only [store, getD_getD]

theorem TaskBody.store_store (t : TaskBody α) (stored : TaskArray → Option (Tensor α)) :
    (t.store stored).store stored = t.store stored := by
  simp only [store, getD_getD]

/-- After a refresh another one at the same state changes no array. -/
theorem LeafConstraint.refresh_refresh [Zero α] [Add α] [Sub α] {state : ArrayData α}
    {c d : LeafConstraint α} (h : c.refresh state = .ok d) :
    ∃ e, d.refresh state = .ok e ∧ e.name = d.name ∧ e.system = d.system := by
  unfold refresh at h
  split at h
  · next rule =>
    cases h
    refine ⟨c, ?_, rfl, rfl⟩
    unfold refresh
    rw [rule]
  · next rule =>
    cases h
    refine ⟨c, ?_, rfl, rfl⟩
    unfold refresh
    rw [rule]
  · obtain ⟨x, read, h⟩ := bind_eq_ok.1 h
    obtain ⟨⟨lower, upper⟩, range, h⟩ := bind_eq_ok.1 h
    cases h
    exact ⟨_, bind_eq_ok.2 ⟨x, read, bind_eq_ok.2 ⟨_, range, rfl⟩⟩, rfl, rfl⟩
  · next rule =>
    obtain ⟨x, read, h⟩ := bind_eq_ok.1 h
    obtain ⟨⟨lower, upper⟩, range, h⟩ := bind_eq_ok.1 h
    cases h
    refine ⟨_, ?_, rfl, rfl⟩
    unfold refresh
    rw [rule]
    exact bind_eq_ok.2 ⟨x, read, bind_eq_ok.2 ⟨_, range, rfl⟩⟩
  · next rule =>
    obtain ⟨x, read, h⟩ := bind_eq_ok.1 h
    obtain ⟨stored, computed, h⟩ := bind_eq_ok.1 h
    cases h
    refine ⟨(c.store stored).store stored, ?_, rfl, c.system.store_store stored⟩
    have again : (c.store stored).rule = c.rule := rfl
    unfold refresh
    rw [again, rule]
    exact bind_eq_ok.2 ⟨x, read, bind_eq_ok.2 ⟨stored, computed, rfl⟩⟩

/-- After a refresh another one at the same state changes neither rows nor references. -/
theorem LeafTask.refresh_refresh [Zero α] [Neg α] {state : ArrayData α} {t u : LeafTask α}
    (h : t.refresh state = .ok u) :
    u.body.constraints = t.body.constraints ∧
      ∃ v, u.refresh state = .ok v ∧ v.body = u.body := by
  unfold refresh at h
  split at h
  · next rule =>
    cases h
    refine ⟨rfl, t, ?_, rfl⟩
    unfold refresh
    rw [rule]
  · obtain ⟨x, read, h⟩ := bind_eq_ok.1 h
    cases h
    exact ⟨rfl, _, bind_eq_ok.2 ⟨x, read, rfl⟩, rfl⟩
  · obtain ⟨x, read, h⟩ := bind_eq_ok.1 h
    obtain ⟨matrix, diagonal, h⟩ := bind_eq_ok.1 h
    cases h
    exact ⟨rfl, _, bind_eq_ok.2 ⟨x, read, bind_eq_ok.2 ⟨matrix, diagonal, rfl⟩⟩, rfl⟩
  · next rule =>
    obtain ⟨x, read, h⟩ := bind_eq_ok.1 h
    obtain ⟨stored, computed, h⟩ := bind_eq_ok.1 h
    cases h
    refine ⟨rfl, { t with body := (t.body.store stored).store stored }, ?_,
      t.body.store_store stored⟩
    unfold refresh
    rw [rule]
    exact bind_eq_ok.2 ⟨x, read, bind_eq_ok.2 ⟨stored, computed, rfl⟩⟩

/-! ### Steps -/

namespace Store

variable {s t : Store α} {i : Nat}

/-- A merge of an aggregate of constraints in the store succeeds, with a given outcome. -/
structure MergesTo [Zero α] [Neg α] [BoundScalar α] (s : Store α) (i : Nat)
    (parts : List ConstraintRef) (d : MergedConstraint α) : Prop where
  room : ∃ blank : LinearSystem α, LinearSystem.free (s.mergedConstraints.read i).size = .ok blank
  askable : ∀ p ∈ parts, s.stuckAt? (s.isReplaced (.constraint (.merged i parts))) p = none
  checkable : s.isReplaced (.constraint (.merged i parts)) .checkMerged = false
  merged : (s.mergedConstraints.read i).regenerate (parts.map s.part) = .ok d

/-- A merge of an aggregate of tasks in the store succeeds, with a given outcome. -/
structure MergesTasksTo [Zero α] [One α] [Add α] [Mul α] (s : Store α) (i : Nat)
    (parts : List TaskRef) (d : MergedTask α) (events : List Event) : Prop where
  room : ∃ blank : RowMatrix α, RowMatrix.withoutRows (s.mergedTasks.read i).body.size = .ok blank
  partsRoom : ∀ p ∈ parts, (s.taskBody p).checkRoom = .ok ()
  merged : (s.mergedTasks.read i).regenerate (parts.map s.taskBody) = .ok (d, events)

end Store

namespace Build

variable {s t : Store α} {i : Nat} {state : ArrayData α}

theorem exec_refreshConstraint_eq_ok [Zero α] [Add α] [Sub α] :
    (refreshConstraint state i).exec s = (.ok (), t) ↔
      ∃ c, (s.leafConstraints.read i).refresh state = .ok c ∧
        t = { s with leafConstraints := s.leafConstraints.write i c } := by
  unfold refreshConstraint
  rw [exec_bind_ok exec_get, exec_lift_bind_eq_ok]
  exact exists_congr fun c => and_congr_right fun _ => exec_set_eq_ok

theorem exec_refreshTask_eq_ok [Zero α] [Neg α] :
    (refreshTask state i).exec s = (.ok (), t) ↔
      ∃ u, (s.leafTasks.read i).refresh state = .ok u ∧
        t = { s with leafTasks := s.leafTasks.write i u } := by
  unfold refreshTask
  rw [exec_bind_ok exec_get, exec_lift_bind_eq_ok]
  exact exists_congr fun u => and_congr_right fun _ => exec_set_eq_ok

theorem exec_mergeConstraint_eq_ok [Zero α] [Neg α] [BoundScalar α] {parts : List ConstraintRef}
    (lists : s.KeepsLists (.constraint (.merged i parts))) :
    (mergeConstraint i parts).exec s = (.ok (), t) ↔
      ∃ d, s.MergesTo i parts d ∧
        t = { s with mergedConstraints := s.mergedConstraints.write i d } := by
  have listed : s.constraintParts (.merged i parts) = .ok parts :=
    Store.asked_eq_ok _ (lists _ (by simp))
  rw [Store.exec_mergeConstraint listed]
  constructor
  · rintro ⟨room, d, remerged, rest⟩
    obtain ⟨askable, checkable, merged⟩ := Store.remerged_eq_ok.1 remerged
    exact ⟨d, ⟨room, askable, checkable, merged⟩, rest⟩
  · rintro ⟨d, ⟨room, askable, checkable, merged⟩, rest⟩
    exact ⟨room, d, Store.remerged_eq_ok.2 ⟨askable, checkable, merged⟩, rest⟩

theorem exec_mergeTask_eq_ok [Zero α] [One α] [Add α] [Mul α] {parts : List TaskRef}
    (lists : ∀ u ∈ TaskRef.merged i parts :: parts, s.KeepsLists (.task u)) :
    (mergeTask i parts).exec s = (.ok (), t) ↔
      ∃ d events, s.MergesTasksTo i parts d events ∧
        t = s.afterMerge i parts d (s.retire (.merged i parts)).retired events := by
  rw [List.forall_mem_cons] at lists
  have ready : s.checkParts (s.mergedTasks.read i).body.size parts = .ok () ↔
      ∀ p ∈ parts, (s.taskBody p).checkRoom = .ok () := by
    rw [Store.checkParts_eq_ok]
    exact forall₂_congr fun p hp =>
      and_iff_left ⟨_, Store.walk_eq_ok _ (lists.2 p hp _ (by simp))⟩
  rw [Store.exec_mergeTask (lists.1 _ (by simp)) (lists.1 _ (by simp)), ready]
  constructor
  · rintro ⟨room, d, events, ⟨partsRoom, merged⟩, rest⟩
    exact ⟨d, events, ⟨room, partsRoom, merged⟩, rest⟩
  · rintro ⟨d, events, ⟨room, partsRoom, merged⟩, rest⟩
    exact ⟨room, d, events, ⟨partsRoom, merged⟩, rest⟩

end Build

namespace Store

/-! ### What a step changes -/

/-- An object has a cell. -/
def Has (s : Store α) : Object → Prop
  | .constraint (.leaf i) => i < s.leafConstraints.next
  | .constraint (.merged i _) => i < s.mergedConstraints.next
  | .task (.leaf i) => i < s.leafTasks.next
  | .task (.merged i _) => i < s.mergedTasks.next
  | .stack id => id < s.stackCells.next
  | _ => True

/-- The same is attached to the same objects and listed by the same stacks, the
same operations can be performed, and no object is lost. -/
structure SameLinks (s t : Store α) : Prop where
  attached : ∀ o, t.attachedTo o = s.attachedTo o
  listed : t.stackCells = s.stackCells
  operations : ∀ o, t.isReplaced o = s.isReplaced o
  lists : ∀ o, s.KeepsLists o → t.KeepsLists o
  has : ∀ o, s.Has o → t.Has o

/-- An object has the same cell, with the same contents. -/
def SameCell (s t : Store α) : Object → Prop
  | .constraint (.leaf i) => t.leafConstraints.read i = s.leafConstraints.read i
  | .constraint (.merged i _) => t.mergedConstraints.read i = s.mergedConstraints.read i
  | .task (.leaf i) => t.leafTasks.read i = s.leafTasks.read i
  | .task (.merged i _) => t.mergedTasks.read i = s.mergedTasks.read i
  | _ => True

/-- An aggregate of which an object is a part reads the same of it. -/
def SameAsPart (s t : Store α) : Object → Prop
  | .constraint c => t.part c = s.part c
  | .task u => t.taskBody u = s.taskBody u
  | _ => True

variable {s t u : Store α} {i : Nat} {o p : Object}

theorem Has.mono (h : s.Has o)
    (leafConstraints : s.leafConstraints.next ≤ t.leafConstraints.next)
    (mergedConstraints : s.mergedConstraints.next ≤ t.mergedConstraints.next)
    (leafTasks : s.leafTasks.next ≤ t.leafTasks.next)
    (mergedTasks : s.mergedTasks.next ≤ t.mergedTasks.next)
    (stackCells : s.stackCells.next ≤ t.stackCells.next) : t.Has o := by
  cases o with
  | constraint c =>
    cases c with
    | leaf i => exact Nat.lt_of_lt_of_le h leafConstraints
    | merged i parts => exact Nat.lt_of_lt_of_le h mergedConstraints
  | task v =>
    cases v with
    | leaf i => exact Nat.lt_of_lt_of_le h leafTasks
    | merged i parts => exact Nat.lt_of_lt_of_le h mergedTasks
  | stack id => exact Nat.lt_of_lt_of_le h stackCells
  | _ => trivial

theorem SameLinks.refl (s : Store α) : s.SameLinks s :=
  ⟨fun _ => rfl, rfl, fun _ => rfl, fun _ => id, fun _ => id⟩

theorem SameLinks.trans (h : s.SameLinks t) (h' : t.SameLinks u) : s.SameLinks u where
  attached o := (h'.attached o).trans (h.attached o)
  listed := h'.listed.trans h.listed
  operations o := (h'.operations o).trans (h.operations o)
  lists o kept := h'.lists o (h.lists o kept)
  has o exist := h'.has o (h.has o exist)

theorem SameCell.refl (s : Store α) (o : Object) : s.SameCell s o := by
  unfold SameCell
  split <;> trivial

theorem SameCell.trans (h : s.SameCell t o) (h' : t.SameCell u o) : s.SameCell u o := by
  unfold SameCell at h h' ⊢
  split <;> simp_all

theorem SameCell.sameAsPart (h : s.SameCell t o) : s.SameAsPart t o := by
  cases o with
  | constraint c =>
    cases c with
    | leaf i => exact congrArg (fun c => (⟨c.name, c.system⟩ : Part α)) h
    | merged i parts => exact congrArg (fun c => (⟨c.name, c.system⟩ : Part α)) h
  | task u =>
    cases u with
    | leaf i => exact congrArg LeafTask.body h
    | merged i parts => exact congrArg MergedTask.body h
  | _ => trivial

section Writes

theorem sameLinks_writeLeafConstraint (c : LeafConstraint α) :
    s.SameLinks { s with leafConstraints := s.leafConstraints.write i c } := by
  refine ⟨fun o => ?_, rfl, fun _ => rfl, fun _ => id, fun _ exist => exist.mono
    (Cells.next_le_next_write _ _ _) le_rfl le_rfl le_rfl le_rfl⟩
  unfold attachedTo
  rfl

theorem sameLinks_writeMergedConstraint (c : MergedConstraint α) :
    s.SameLinks { s with mergedConstraints := s.mergedConstraints.write i c } := by
  refine ⟨fun o => ?_, rfl, fun _ => rfl, fun _ => id, fun _ exist => exist.mono
    le_rfl (Cells.next_le_next_write _ _ _) le_rfl le_rfl le_rfl⟩
  unfold attachedTo
  rfl

theorem sameLinks_writeLeafTask {v : LeafTask α}
    (constraints : v.body.constraints = (s.leafTasks.read i).body.constraints) :
    s.SameLinks { s with leafTasks := s.leafTasks.write i v } := by
  refine ⟨fun o => ?_, rfl, fun _ => rfl, fun _ => id, fun _ exist => exist.mono
    le_rfl le_rfl (Cells.next_le_next_write _ _ _) le_rfl le_rfl⟩
  unfold attachedTo
  split
  · next j =>
    simp only [Cells.read_write]
    split
    · next here => rw [here, constraints]
    · rfl
  all_goals rfl

theorem sameLinks_afterMerge {parts : List TaskRef} {d : MergedTask α}
    {retired : List (TaskRef × List Object)} {events : List Event}
    (own : d.own = (s.mergedTasks.read i).own) :
    s.SameLinks (s.afterMerge i parts d retired events) := by
  refine ⟨fun o => ?_, rfl, fun o => ?_, fun o kept field listed => ?_, fun _ exist => exist.mono
    le_rfl le_rfl le_rfl (Cells.next_le_next_write _ _ _) le_rfl⟩
  · unfold attachedTo
    split
    · rfl
    · next j _ =>
      simp only [afterMerge, Cells.read_write]
      split
      · next here => rw [here, own]
      · rfl
    all_goals rfl
  · funext operation
    unfold isReplaced afterMerge
    rw [Notes.read?_eraseAll_of_not_mem _ _ _ (by simp)]
  · exact arrayIn?_eraseAll (kept field listed)

theorem sameCell_writeLeafConstraint (c : LeafConstraint α)
    (apart : ¬o.same (.constraint (.leaf i))) :
    s.SameCell { s with leafConstraints := s.leafConstraints.write i c } o := by
  unfold SameCell
  split
  · next j => exact Cells.read_write_of_ne _ _ fun here => apart (by simp [here, Object.same_self])
  all_goals trivial

theorem sameCell_writeMergedConstraint {parts : List ConstraintRef} (c : MergedConstraint α)
    (apart : ¬o.same (.constraint (.merged i parts))) :
    s.SameCell { s with mergedConstraints := s.mergedConstraints.write i c } o := by
  unfold SameCell
  split
  · rfl
  · next j _ =>
    exact Cells.read_write_of_ne _ _ fun here =>
      apart (by simp [here, Object.same, ConstraintRef.same])
  all_goals trivial

theorem sameCell_writeLeafTask (v : LeafTask α) (apart : ¬o.same (.task (.leaf i))) :
    s.SameCell { s with leafTasks := s.leafTasks.write i v } o := by
  unfold SameCell
  split
  · rfl
  · rfl
  · next j => exact Cells.read_write_of_ne _ _ fun here => apart (by simp [here, Object.same_self])
  all_goals trivial

theorem sameCell_afterMerge {parts : List TaskRef} {d : MergedTask α}
    {retired : List (TaskRef × List Object)} {events : List Event}
    (apart : ¬o.same (.task (.merged i parts))) :
    s.SameCell (s.afterMerge i parts d retired events) o := by
  unfold SameCell
  split
  · rfl
  · rfl
  · rfl
  · next j _ =>
    exact Cells.read_write_of_ne _ _ fun here => apart (by simp [here, Object.same, TaskRef.same])
  · trivial

end Writes

/-! ### Current objects -/

variable [Zero α] [One α] [Add α] [Sub α] [Mul α] [Neg α] [BoundScalar α]

/-- Brought up to date with a state once more, an object would keep all that is
read of it. -/
def Current (state : ArrayData α) (s : Store α) : Object → Prop
  | .constraint (.leaf i) => ∃ c, (s.leafConstraints.read i).refresh state = .ok c ∧
      c.name = (s.leafConstraints.read i).name ∧ c.system = (s.leafConstraints.read i).system
  | .constraint (.merged i parts) => s.MergesTo i parts (s.mergedConstraints.read i)
  | .task (.leaf i) => ∃ v, (s.leafTasks.read i).refresh state = .ok v ∧
      v.body = (s.leafTasks.read i).body
  | .task (.merged i parts) => ∃ events, s.MergesTasksTo i parts (s.mergedTasks.read i) events
  | _ => True

variable {state : ArrayData α}

omit [One α] [Add α] [Sub α] [Mul α] in
theorem MergesTo.congr {parts : List ConstraintRef} {d : MergedConstraint α}
    (h : s.MergesTo i parts d)
    (size : (t.mergedConstraints.read i).size = (s.mergedConstraints.read i).size)
    (merged : (t.mergedConstraints.read i).regenerate (parts.map s.part) = .ok d)
    (same : ∀ p ∈ parts, t.part p = s.part p)
    (operations : ∀ o, t.isReplaced o = s.isReplaced o) : t.MergesTo i parts d where
  room := by rw [size]; exact h.room
  askable p hp := by
    rw [operations, stuckAt?_congr (operations _) (congrArg Part.system (same p hp))]
    exact h.askable p hp
  checkable := by rw [operations]; exact h.checkable
  merged := by rw [List.map_congr_left same, merged]

omit [Sub α] [Neg α] [BoundScalar α] in
theorem MergesTasksTo.congr {parts : List TaskRef} {d : MergedTask α}
    {events more : List Event} (h : s.MergesTasksTo i parts d events)
    (size : (t.mergedTasks.read i).body.size = (s.mergedTasks.read i).body.size)
    (merged : (t.mergedTasks.read i).regenerate (parts.map s.taskBody) = .ok (d, more))
    (same : ∀ p ∈ parts, t.taskBody p = s.taskBody p) : t.MergesTasksTo i parts d more where
  room := by rw [size]; exact h.room
  partsRoom p hp := by rw [same p hp]; exact h.partsRoom p hp
  merged := by rw [List.map_congr_left same, merged]

/-- Whether an object is current depends on its own cell and on what is read of its parts. -/
theorem Current.congr (h : s.Current state o) (cell : s.SameCell t o)
    (parts : ∀ p ∈ o.parts, s.SameAsPart t p) (operations : ∀ o, t.isReplaced o = s.isReplaced o) :
    t.Current state o := by
  cases o with
  | constraint c =>
    cases c with
    | leaf i =>
      rw [Current, show t.leafConstraints.read i = s.leafConstraints.read i from cell]
      exact h
    | merged i parts' =>
      have cell : t.mergedConstraints.read i = s.mergedConstraints.read i := cell
      rw [Current, cell]
      refine MergesTo.congr h (congrArg _ cell) ?_ (List.forall_mem_map.1 parts) operations
      rw [cell, h.merged]
  | task u =>
    cases u with
    | leaf i =>
      rw [Current, show t.leafTasks.read i = s.leafTasks.read i from cell]
      exact h
    | merged i parts' =>
      have cell : t.mergedTasks.read i = s.mergedTasks.read i := cell
      obtain ⟨events, h⟩ := h
      rw [Current, cell]
      refine ⟨events, h.congr (by rw [cell]) ?_ (List.forall_mem_map.1 parts)⟩
      rw [cell, h.merged]
  | _ => trivial

/-- A store in which an object was brought up to date: nothing but its cell is
written, the object is current as long as the same is read of its parts, and the
same is read of it when it was current before. -/
structure Refreshed (state : ArrayData α) (s : Store α) (o : Object) (t : Store α) : Prop where
  links : s.SameLinks t
  cells : ∀ p, ¬p.same o → s.SameCell t p
  current : (∀ p ∈ o.parts, s.SameAsPart t p) → t.Current state o
  kept : s.Current state o → s.SameAsPart t o

end Store

namespace Build

variable [Zero α] [One α] [Add α] [Sub α] [Mul α] [Neg α] [BoundScalar α] {s t : Store α}
  {state : ArrayData α} {i : Nat} {o : Object}

theorem refreshed_refreshConstraint (run : (refreshConstraint state i).exec s = (.ok (), t)) :
    s.Refreshed state (.constraint (.leaf i)) t := by
  obtain ⟨c, refreshed, rest⟩ := exec_refreshConstraint_eq_ok.1 run
  have read : t.leafConstraints.read i = c := by rw [rest, Cells.read_write_self]
  refine ⟨rest ▸ Store.sameLinks_writeLeafConstraint c,
    fun p apart => rest ▸ Store.sameCell_writeLeafConstraint c apart, fun _ => ?_, ?_⟩
  · rw [Store.Current, read]
    exact LeafConstraint.refresh_refresh refreshed
  · rintro ⟨d, refreshed', name, system⟩
    cases refreshed.symm.trans refreshed'
    exact congrArg₂ Part.mk ((congrArg _ read).trans name) ((congrArg _ read).trans system)

theorem refreshed_refreshTask (run : (refreshTask state i).exec s = (.ok (), t)) :
    s.Refreshed state (.task (.leaf i)) t := by
  obtain ⟨v, refreshed, rest⟩ := exec_refreshTask_eq_ok.1 run
  obtain ⟨constraints, again⟩ := LeafTask.refresh_refresh refreshed
  have read : t.leafTasks.read i = v := by rw [rest, Cells.read_write_self]
  refine ⟨rest ▸ Store.sameLinks_writeLeafTask constraints,
    fun p apart => rest ▸ Store.sameCell_writeLeafTask v apart, fun _ => ?_, ?_⟩
  · rw [Store.Current, read]
    exact again
  · rintro ⟨v', refreshed', body⟩
    cases refreshed.symm.trans refreshed'
    exact (congrArg LeafTask.body read).trans body

theorem refreshed_mergeConstraint {parts : List ConstraintRef}
    (lists : s.KeepsLists (.constraint (.merged i parts)))
    (run : (mergeConstraint i parts).exec s = (.ok (), t)) :
    s.Refreshed state (.constraint (.merged i parts)) t := by
  obtain ⟨d, merges, rest⟩ := (exec_mergeConstraint_eq_ok lists).1 run
  have read : t.mergedConstraints.read i = d := by rw [rest, Cells.read_write_self]
  have links : s.SameLinks t := rest ▸ Store.sameLinks_writeMergedConstraint d
  refine ⟨links, fun p apart => rest ▸ Store.sameCell_writeMergedConstraint d apart,
    fun same => ?_, ?_⟩
  · obtain ⟨system, -, kept⟩ := MergedConstraint.regenerate_eq_ok.1 merges.merged
    rw [Store.Current, read]
    refine merges.congr ?_ ?_ (List.forall_mem_map.1 same) links.operations
    · rw [read, kept]
    · rw [read]
      exact MergedConstraint.regenerate_regenerate merges.merged
  · intro current
    cases merges.merged.symm.trans current.merged
    exact Store.SameCell.sameAsPart (o := .constraint (.merged i parts)) read

theorem refreshed_mergeTask {parts : List TaskRef}
    (lists : ∀ u ∈ TaskRef.merged i parts :: parts, s.KeepsLists (.task u))
    (run : (mergeTask i parts).exec s = (.ok (), t)) :
    s.Refreshed state (.task (.merged i parts)) t := by
  obtain ⟨d, events, merges, rest⟩ := (exec_mergeTask_eq_ok lists).1 run
  obtain ⟨r, -, rows⟩ := MergedTask.withRows_of_regenerate merges.merged
  have read : t.mergedTasks.read i = d := by rw [rest, Store.afterMerge, Cells.read_write_self]
  refine ⟨rest ▸ Store.sameLinks_afterMerge (by rw [rows]; rfl),
    fun p apart => rest ▸ Store.sameCell_afterMerge apart, fun same => ?_, ?_⟩
  · obtain ⟨more, again⟩ := MergedTask.regenerate_of_regenerate merges.merged
    rw [Store.Current, read]
    refine ⟨more, merges.congr ?_ ?_ (List.forall_mem_map.1 same)⟩
    · rw [read, rows]
      rfl
    · rw [read]
      exact again
  · rintro ⟨events', current⟩
    cases merges.merged.symm.trans current.merged
    exact Store.SameCell.sameAsPart (o := .task (.merged i parts)) read

/-- What a successful step of a pass does, whatever it brings up to date. -/
theorem refreshed_perform {step : UpdateStep} (subject : step.subject? = some o)
    (lists : ∀ p ∈ o :: o.parts, s.KeepsLists p)
    (run : (perform state step).exec s = (.ok (), t)) : s.Refreshed state o t := by
  rw [List.forall_mem_cons] at lists
  cases step with
  | refreshConstraint i =>
    cases subject
    exact refreshed_refreshConstraint run
  | mergeConstraint i parts =>
    cases subject
    exact refreshed_mergeConstraint lists.1 run
  | refreshTask i =>
    cases subject
    exact refreshed_refreshTask run
  | mergeTask i parts =>
    cases subject
    exact refreshed_mergeTask (List.forall_mem_cons.2 ⟨lists.1, List.forall_mem_map.1 lists.2⟩) run
  | refuse e => cases subject

end Build

end ControlHierarchy
