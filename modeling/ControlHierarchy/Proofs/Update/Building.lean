import ControlHierarchy.Proofs.Store.Attaching
import ControlHierarchy.Proofs.Update.Assembled

/-!
# Hierarchies are what the operations build

The members of a collection are sound when each of them has a cell of its own and
holds members only (`Store.Sound`). They form a hierarchy then. Nothing is sound
to begin with, and an operation that creates an object from members makes it a
member. What attaches members to tasks or only changes arrays keeps them sound.
So does what lists members in a stack, unless it fails between the listing of a
bound and the merge that the bound calls for.
-/

namespace ControlHierarchy

variable {α : Type}

namespace Store

/-- What an object holds besides its parts are members: constraints if it is a
task, and tasks and merged bounds if it is a stack. -/
def Tidy (s : Store α) (members : Set Object) : Object → Prop
  | .task v => ∀ p ∈ s.attachedTo (.task v), p ∈ members ∧ ∃ c, p = .constraint c
  | .stack id =>
    (∀ p ∈ (s.stackCells.read id).levels, p ∈ members ∧ ∃ v, p = .task v) ∧
      (∀ c ∈ (s.stackCells.read id).merged, .constraint c ∈ members) ∧ s.BoundsMerged id
  | _ => True

/-- Members have cells of their own, and hold members only. -/
structure Sound (s : Store α) (members : Set Object) : Prop where
  parts : ∀ o ∈ members, ∀ p ∈ o.parts, p ∈ members
  same : ∀ a ∈ members, ∀ b ∈ members, a.same b → a = b
  exist : ∀ o ∈ members, s.Has o
  tidy : ∀ o ∈ members, s.Tidy members o
  intact : ∀ o, s.KeepsLists o

variable {s t : Store α} {members more : Set Object} {o : Object}

theorem has_congr {a b : Object} (h : a.same b) : s.Has a ↔ s.Has b := by
  cases a with
  | constraint c =>
    cases b with
    | constraint d => cases c <;> cases d <;> simp_all [Object.same, ConstraintRef.same, Has]
    | _ => cases h
  | task v =>
    cases b with
    | task w => cases v <;> cases w <;> simp_all [Object.same, TaskRef.same, Has]
    | _ => cases h
  | _ => cases b <;> simp_all [Object.same, Has]

theorem Tidy.mono (h : s.Tidy members o) (fewer : members ⊆ more) : s.Tidy more o := by
  cases o with
  | task v => exact fun p hp => (h p hp).imp_left (fewer ·)
  | stack id =>
    exact ⟨fun p hp => (h.1 p hp).imp_left (fewer ·), fun c hc => fewer (h.2.1 c hc), h.2.2⟩
  | _ => trivial

theorem Tidy.congr (h : s.Tidy members o) (attached : t.attachedTo o = s.attachedTo o)
    (listed : ∀ id, o = .stack id → t.stackCells.read id = s.stackCells.read id) :
    t.Tidy members o := by
  cases o with
  | task v =>
    rw [Tidy, attached]
    exact h
  | stack id =>
    rw [Tidy, BoundsMerged, listed id rfl]
    exact h
  | _ => trivial

theorem Sound.hierarchy (h : s.Sound members) : s.Hierarchy members where
  parts := h.parts
  attached o ho := by
    have tidy := h.tidy o ho
    cases o with
    | task v => exact fun p hp => (tidy p hp).1
    | stack id =>
      refine List.forall_mem_append.2 ⟨fun p hp => (tidy.1 p hp).1, List.forall_mem_map.2 ?_⟩
      exact fun c hc => tidy.2.1 c (Option.mem_toList.1 hc)
    | _ => exact List.forall_mem_nil _
  levels id ho p hp := ((h.tidy _ ho).1 p hp).2
  bounds id ho := (h.tidy _ ho).2.2
  constraints v ho p hp := (h.tidy _ ho p hp).2
  lists o _ := h.intact o
  same := h.same

/-- The bounds of a member are members, as parts of their aggregate. -/
theorem Sound.bounds_mem (h : s.Sound members) {id : Nat} (stack : .stack id ∈ members) :
    ∀ p ∈ (s.stackCells.read id).bounds, p ∈ members := by
  intro p hp
  obtain ⟨-, merged, bounds⟩ := h.tidy _ stack
  obtain ⟨c, kept, part⟩ := bounds p hp
  exact h.parts _ (merged c kept) p part

/-- At first there are no members. -/
theorem sound_empty [One α] : (empty : Store α).Sound ∅ :=
  ⟨fun _ h => h.elim, fun _ h => h.elim, fun _ h => h.elim, fun _ h => h.elim, fun _ _ _ => rfl⟩

/-- An object with members as parts is one more member, if it has a cell of its own. -/
theorem Sound.insert_of (h : s.Sound members) (apart : ∀ p ∈ members, p.same o → p = o)
    (here : t.Has o) (has : ∀ p, s.Has p → t.Has p) (parts : ∀ p ∈ o.parts, p ∈ members)
    (tidy : ∀ p, s.Has p → s.Tidy members p → t.Tidy members p) (own : t.Tidy members o)
    (intact : ∀ p, t.KeepsLists p) : t.Sound (insert o members) where
  parts := by
    rintro p (rfl | hp) q hq
    · exact .inr (parts q hq)
    · exact .inr (h.parts p hp q hq)
  same := by
    rintro a (rfl | ha) b (rfl | hb) again
    · rfl
    · exact (apart b hb (Object.same_symm again)).symm
    · exact apart a ha again
    · exact h.same a ha b hb again
  exist := by
    rintro p (rfl | hp)
    · exact here
    · exact has p (h.exist p hp)
  tidy := by
    rintro p (rfl | hp)
    · exact own.mono (Set.subset_insert _ _)
    · exact (tidy p (h.exist p hp) (h.tidy p hp)).mono (Set.subset_insert _ _)
  intact := intact

/-- An object without a cell before has one of its own then. -/
theorem Sound.apart (h : s.Sound members) (new : ¬s.Has o) : ∀ p ∈ members, p.same o → p = o :=
  fun p hp again => absurd ((has_congr again).1 (h.exist p hp)) new

/-- What changes neither what is attached nor what is listed keeps members sound. -/
theorem Sound.of_links (h : s.Sound members) (links : s.SameLinks t) : t.Sound members where
  parts := h.parts
  same := h.same
  exist o ho := links.has o (h.exist o ho)
  tidy o ho := (h.tidy o ho).congr (links.attached o) fun _ _ => by rw [links.listed]
  intact o := links.lists o (h.intact o)

theorem Sound.withLog (h : s.Sound members) (events : List Event) :
    (s.withLog events).Sound members :=
  h.of_links ⟨fun o => by unfold attachedTo; rfl, rfl, fun _ => rfl, fun _ => id,
    fun _ has => has.mono le_rfl le_rfl le_rfl le_rfl le_rfl⟩

end Store

/-! ### New objects -/

namespace Build

open Store (Sound)

variable {s t : Store α} {members : Set Object}

/-- A leaf constraint is made of nothing. -/
theorem sound_newLeafConstraint {c : LeafConstraint α} {r : ConstraintRef} (h : s.Sound members)
    (run : (newLeafConstraint c).exec s = (.ok r, t)) :
    t.Sound (insert (.constraint r) members) := by
  cases run
  have links := Store.sameLinks_writeLeafConstraint (s := s) (i := s.leafConstraints.next) c
  exact h.insert_of (h.apart (Nat.lt_irrefl _)) (Cells.lt_next_write _ _ _) links.has
    (List.forall_mem_nil _) (fun p _ tidy => tidy.congr (links.attached p) fun _ _ => rfl) trivial
    fun p => links.lists p (h.intact p)

/-- A leaf task has nothing attached to it at first. -/
theorem sound_newLeafTask {v : LeafTask α} {r : TaskRef} (h : s.Sound members)
    (bare : v.body.constraints = []) (run : (newLeafTask v).exec s = (.ok r, t)) :
    t.Sound (insert (.task r) members) := by
  cases run
  refine h.insert_of (h.apart (Nat.lt_irrefl _)) (Cells.lt_next_write _ _ _)
    (fun p has => has.mono le_rfl le_rfl (Cells.next_le_next_write _ _ _) le_rfl le_rfl)
    (List.forall_mem_nil _) (fun p has tidy => tidy.congr ?_ fun _ _ => rfl) ?_ h.intact
  · unfold Store.attachedTo
    split
    · next j =>
      have apart : j ≠ s.leafTasks.next := Nat.ne_of_lt has
      simp only [Cells.read_write_of_ne _ _ apart]
    all_goals rfl
  · intro p hp
    simp only [Store.attachedTo, Cells.read_write_self, bare] at hp
    cases hp

theorem sound_newMergedConstraint {parts : List ConstraintRef} {d : MergedConstraint α}
    {r : ConstraintRef} (h : s.Sound members) (inside : ∀ p ∈ parts, .constraint p ∈ members)
    (run : (newMergedConstraint parts d).exec s = (.ok r, t)) :
    t.Sound (insert (.constraint r) members) := by
  cases run
  have links := Store.sameLinks_writeMergedConstraint (s := s) (i := s.mergedConstraints.next) d
  exact h.insert_of (h.apart (Nat.lt_irrefl _)) (Cells.lt_next_write _ _ _) links.has
    (List.forall_mem_map.2 inside) (fun p _ tidy => tidy.congr (links.attached p) fun _ _ => rfl)
    trivial fun p => links.lists p (h.intact p)

theorem sound_newMergedTask {parts : List TaskRef} {d : MergedTask α} {r : TaskRef}
    (h : s.Sound members) (inside : ∀ p ∈ parts, .task p ∈ members)
    (own : ∀ o ∈ d.own, o ∈ members ∧ ∃ c, o = .constraint c)
    (run : (newMergedTask parts d).exec s = (.ok r, t)) :
    t.Sound (insert (.task r) members) := by
  cases run
  refine h.insert_of (h.apart (Nat.lt_irrefl _)) (Cells.lt_next_write _ _ _)
    (fun p has => has.mono le_rfl le_rfl le_rfl (Cells.next_le_next_write _ _ _) le_rfl)
    (List.forall_mem_map.2 inside) (fun p has tidy => tidy.congr ?_ fun _ _ => rfl) ?_ h.intact
  · unfold Store.attachedTo
    split
    · rfl
    · next j _ =>
      have apart : j ≠ s.mergedTasks.next := Nat.ne_of_lt has
      simp only [Cells.read_write_of_ne _ _ apart]
    all_goals rfl
  · intro p hp
    simp only [Store.attachedTo, Cells.read_write_self] at hp
    exact own p hp

/-- A merge of members is a member. -/
theorem sound_mergeConstraints [Zero α] [Neg α] [BoundScalar α] {parts : List ConstraintRef}
    {n : Int} {policy : Literal} {r : ConstraintRef} (h : s.Sound members)
    (inside : ∀ p ∈ parts, .constraint p ∈ members)
    (run : (mergeConstraints parts n policy).exec s = (.ok r, t)) :
    t.Sound (insert (.constraint r) members) := by
  obtain ⟨d, u, merged, stored⟩ := exec_bind_eq_ok.1 run
  obtain ⟨events, rfl⟩ := (onlyLogs_mergedConstraint parts n policy).of_exec merged
  exact sound_newMergedConstraint (h.withLog events) inside stored

section Tasks

variable [Zero α] [One α] [Add α] [Mul α] [Scalar α] {r : TaskRef}

/-- An aggregate of members is a member, if members are attached to it. -/
theorem sound_of_assembled {name : String} {n : Int} {parts : List TaskRef} {own : List Object}
    (h : s.Sound members) (inside : ∀ p ∈ parts, .task p ∈ members)
    (kept : ∀ o ∈ own, o ∈ members ∧ ∃ c, o = .constraint c)
    (assembled : s.Assembled name n parts own r t) : t.Sound (insert (.task r) members) := by
  obtain ⟨-, -, rfl, rows, events, -, rfl⟩ := assembled
  exact sound_newMergedTask (h.withLog events) inside kept rfl

theorem sound_mergeTasks {parts : List TaskRef} {n : Int} (h : s.Sound members)
    (inside : ∀ p ∈ parts, .task p ∈ members)
    (run : (mergeTasks parts n).exec s = (.ok r, t)) : t.Sound (insert (.task r) members) :=
  sound_of_assembled h inside (List.forall_mem_nil _) (assembled_mergeTasks run)

omit [Zero α] [One α] [Add α] [Mul α] [Scalar α] in
/-- What a member brings into a sum are members. -/
theorem members_of_summands {a : TaskRef} {parts : List TaskRef} {own : List Object}
    (h : s.Sound members) (member : .task a ∈ members) (found : summands s a = .ok (parts, own)) :
    (∀ p ∈ parts, .task p ∈ members) ∧ ∀ o ∈ own, o ∈ members ∧ ∃ c, o = .constraint c := by
  unfold summands at found
  split at found
  · next apart =>
    cases a with
    | leaf i => cases apart
    | merged i list =>
      have listed : s.taskParts (.merged i list) = .ok list :=
        Store.asked_eq_ok _ (h.intact _ _ (by simp))
      have kept : s.ownConstraints (.merged i list) = .ok (s.mergedTasks.read i).own :=
        Store.walk_eq_ok _ (h.intact _ _ (by simp))
      rw [listed, kept] at found
      cases found
      exact ⟨List.forall_mem_map.1 (h.parts _ member), h.tidy _ member⟩
  · cases found
    exact ⟨List.forall_mem_singleton.2 member, List.forall_mem_nil _⟩

/-- The sum of members is a member. -/
theorem sound_addTasks {a b : TaskRef} (h : s.Sound members) (ha : .task a ∈ members)
    (hb : .task b ∈ members) (run : (addTasks a b).exec s = (.ok r, t)) :
    t.Sound (insert (.task r) members) := by
  obtain ⟨parts, own, parts', own', first, second, assembled⟩ := assembled_addTasks run
  obtain ⟨inside, kept⟩ := members_of_summands h ha first
  obtain ⟨inside', kept'⟩ := members_of_summands h hb second
  exact sound_of_assembled h (List.forall_mem_append.2 ⟨inside, inside'⟩)
    (List.forall_mem_append.2 ⟨kept, kept'⟩) assembled

end Tasks

end Build

/-! ### Attaching and listing -/

namespace Store

variable {s : Store α} {members : Set Object} {id : Nat} {o : Object}

theorem attachedTo_withAttached (v : TaskRef) :
    (s.withAttached v o).attachedTo = fun p =>
      if p.same (.task v) then s.attachedTo p ++ [o] else s.attachedTo p := by
  funext p
  cases p with
  | task w =>
    cases v <;> cases w <;>
      simp only [Object.same, TaskRef.same, attachedTo, withAttached, Cells.read_write, beq_iff_eq,
        Bool.false_eq_true, if_false]
    all_goals split
    all_goals simp_all [TaskBody.withAttached, MergedTask.attachAll]
  | _ => cases v <;> rfl

/-- A member that is attached to another one is held by it from then on. -/
theorem Sound.withAttached (h : s.Sound members) {v : TaskRef} {c : ConstraintRef}
    (constraint : .constraint c ∈ members) :
    (s.withAttached v (.constraint c)).Sound members where
  parts := h.parts
  same := h.same
  exist p hp := by
    refine (h.exist p hp).mono ?_ ?_ ?_ ?_ ?_ <;> cases v
    all_goals first | exact le_rfl | exact Cells.next_le_next_write _ _ _
  tidy p hp := by
    have tidy := h.tidy p hp
    cases p with
    | task w =>
      intro q hq
      rw [attachedTo_withAttached] at hq
      dsimp only at hq
      split at hq
      · rcases List.mem_append.1 hq with hq | hq
        · exact tidy q hq
        · cases List.mem_singleton.1 hq
          exact ⟨constraint, c, rfl⟩
      · exact tidy q hq
    | stack id =>
      cases v
      · exact tidy
      · exact tidy
    | _ => trivial
  intact p := by
    cases v
    · exact h.intact p
    · exact h.intact p

/-- No stack is held by anything, so one of them can be left out. -/
theorem Tidy.withoutStack (h : s.Tidy members o) (id : Nat) :
    s.Tidy (members \ {.stack id}) o := by
  cases o with
  | task v =>
    intro p hp
    obtain ⟨member, c, rfl⟩ := h p hp
    exact ⟨⟨member, by simp⟩, c, rfl⟩
  | stack j =>
    refine ⟨fun p hp => ?_, fun c hc => ⟨h.2.1 c hc, by simp⟩, h.2.2⟩
    obtain ⟨member, v, rfl⟩ := h.1 p hp
    exact ⟨⟨member, by simp⟩, v, rfl⟩
  | _ => trivial

/-- The other members are sound, whatever a stack holds. -/
theorem Sound.withoutStack (h : s.Sound members) (id : Nat) (cell : Stack) :
    { s with stackCells := s.stackCells.write id cell }.Sound (members \ {Object.stack id}) where
  parts p hp q hq := ⟨h.parts p hp.1 q hq, Object.ne_stack_of_mem_parts hq id⟩
  same a ha b hb := h.same a ha.1 b hb.1
  exist p hp :=
    (h.exist p hp.1).mono le_rfl le_rfl le_rfl le_rfl (Cells.next_le_next_write _ _ _)
  tidy p hp := by
    refine Tidy.withoutStack ?_ id
    cases p with
    | task v =>
      refine (h.tidy _ hp.1).congr ?_ fun _ other => by cases other
      cases v <;> rfl
    | stack j =>
      have apart : j ≠ id := fun here => hp.2 (congrArg Object.stack here)
      unfold Tidy BoundsMerged
      simp only [Cells.read_write_of_ne _ _ apart]
      exact h.tidy _ hp.1
    | _ => trivial
  intact := h.intact

/-- A stack may have members as levels, and bounds that are merged to a member. -/
theorem Sound.writeStack (h : s.Sound members) (id : Nat) (cell : Stack)
    (levels : ∀ p ∈ cell.levels, p ∈ members ∧ ∃ v, p = .task v)
    (merged : ∀ c ∈ cell.merged, .constraint c ∈ members)
    (bounds : ∀ p ∈ cell.bounds, ∃ c ∈ cell.merged, p ∈ (Object.constraint c).parts) :
    { s with stackCells := s.stackCells.write id cell }.Sound
      (insert (Object.stack id) members) := by
  have own : { s with stackCells := s.stackCells.write id cell }.Tidy members (.stack id) := by
    unfold Tidy BoundsMerged
    simp only [Cells.read_write_self]
    exact ⟨levels, merged, bounds⟩
  have whole := (h.withoutStack id cell).insert_of (fun _ _ => Object.eq_of_same_stack)
    (Cells.lt_next_write _ _ _) (fun _ has => has) (List.forall_mem_nil _) (fun _ _ tidy => tidy)
    (own.withoutStack id) h.intact
  rwa [Set.insert_sdiff_singleton] at whole

theorem Sound.eraseNotes (h : s.Sound members) (owner : Object) (fields : List Field) :
    { s with notes := s.notes.eraseAll owner fields }.Sound members where
  parts := h.parts
  same := h.same
  exist p hp := (h.exist p hp).mono le_rfl le_rfl le_rfl le_rfl le_rfl
  tidy p hp := (h.tidy p hp).congr (by unfold attachedTo; rfl) fun _ _ => rfl
  intact p field listed := arrayIn?_eraseAll (h.intact p field listed)

end Store

namespace Build

open Store (Sound)

variable {s t : Store α} {members : Set Object} {id : Nat} {o : Object}

theorem sound_attach {v : TaskRef} {c : ConstraintRef} (h : s.Sound members)
    (constraint : .constraint c ∈ members)
    (run : (attach v (.constraint c)).exec s = (.ok (), t)) : t.Sound members := by
  obtain ⟨-, -, rfl⟩ := exec_attach run
  exact h.withAttached constraint

theorem sound_addLevel (h : s.Sound members) (stack : .stack id ∈ members) {v : TaskRef}
    (task : .task v ∈ members) (run : (addLevel id (.task v)).exec s = (.ok (), t)) :
    t.Sound members := by
  unfold addLevel at run
  rw [exec_bind_ok exec_get] at run
  obtain ⟨size, -, run⟩ := exec_lift_bind_eq_ok.1 run
  split at run
  · obtain ⟨_, -, run⟩ := exec_lift_bind_eq_ok.1 run
    cases run
  · obtain ⟨_, u, room, run⟩ := exec_bind_eq_ok.1 run
    rw [exec_checkExtensible] at room
    obtain ⟨-, rfl⟩ := Prod.mk.inj room
    cases run
    obtain ⟨levels, merged, bounds⟩ := h.tidy _ stack
    have levels := List.forall_mem_append.2 ⟨levels, List.forall_mem_singleton.2 ⟨task, v, rfl⟩⟩
    have listed := h.writeStack id { s.stackCells.read id with levels := _ } levels merged bounds
    rwa [Set.insert_eq_of_mem stack] at listed

variable [Zero α] [Neg α] [BoundScalar α]

/-- A stack whose levels and bounds are members is a member once its bounds are
merged, and so is their aggregate. -/
theorem sound_mergeBounds (h : s.Sound members)
    (levels : ∀ p ∈ (s.stackCells.read id).levels, p ∈ members ∧ ∃ v, p = .task v)
    (bounds : ∀ c, .constraint c ∈ (s.stackCells.read id).bounds → .constraint c ∈ members)
    (run : (mergeBounds id).exec s = (.ok (), t)) :
    ∃ c, t.Sound (insert (.stack id) (insert (.constraint c) members)) := by
  obtain ⟨parts, d, u, listed, made, rfl⟩ := mergeBounds_eq_ok.1 run
  obtain ⟨events, rfl⟩ := (onlyLogs_mergedConstraint _ _ _).of_exec made
  rw [listed] at bounds
  have sound := sound_newMergedConstraint (d := d) (h.withLog events)
    (fun p hp => bounds p (List.mem_map_of_mem hp)) rfl
  have written := sound.writeStack id { s.stackCells.read id with
      merged := some (.merged s.mergedConstraints.next parts) }
    (fun p hp => (levels p hp).imp_left .inr)
    (fun d here => Option.some.inj here ▸ Set.mem_insert _ _)
    (fun p hp => ⟨_, rfl, by rwa [listed] at hp⟩)
  exact ⟨_, (written.eraseNotes (.stack id) [.backing .mergedBounds]).withLog _⟩

/-- A bound that is added becomes a part of a new member, the aggregate of the bounds. -/
theorem sound_addBound (h : s.Sound members) (stack : .stack id ∈ members) (bound : o ∈ members)
    (run : (addBound id o).exec s = (.ok (), t)) :
    ∃ c, t.Sound (insert (.constraint c) members) := by
  obtain ⟨_, u, listed, run⟩ := exec_bind_eq_ok.1 run
  have can : s.CanList id o := by
    by_contra refused
    obtain ⟨e, refused⟩ := exec_listBound_refused refused
    cases refused.symm.trans listed
  cases (exec_listBound can).symm.trans listed
  -- the stack is no member in between, when it lists a bound that is not merged
  have others : (s.withBound id o).Sound (members \ {.stack id}) := h.withoutStack id _
  have kept := (h.tidy _ stack).withoutStack id
  have bounds := List.forall_mem_append.2
    ⟨h.bounds_mem stack, List.forall_mem_singleton.2 bound⟩
  have read : (s.withBound id o).stackCells.read id = _ := Cells.read_write_self _ _ _
  obtain ⟨c, sound⟩ := sound_mergeBounds others (by rw [read]; exact kept.1)
    (fun c hc => ⟨bounds _ (by rwa [read] at hc), by simp⟩) run
  rw [Set.insert_comm, Set.insert_sdiff_singleton, Set.insert_eq_of_mem stack] at sound
  exact ⟨c, sound⟩

/-! ### Stacks -/

omit [Zero α] [Neg α] [BoundScalar α] in
/-- A stack lists nothing at first. -/
theorem sound_newStack {size policy : Int} (h : s.Sound members)
    (run : (newStack ⟨size, policy, [], [], none⟩).exec s = (.ok id, t)) :
    t.Sound (insert (.stack id) members) := by
  cases run
  exact h.writeStack _ ⟨size, policy, [], [], none⟩ (List.forall_mem_nil _)
    (fun _ none => by cases none) (List.forall_mem_nil _)

omit [Zero α] [Neg α] [BoundScalar α] in
theorem sound_forM_addLevel {levels : List Object} (h : s.Sound members)
    (stack : .stack id ∈ members) (tasks : ∀ o ∈ levels, o ∈ members ∧ ∃ v, o = .task v)
    (run : (levels.forM (addLevel id)).exec s = (.ok (), t)) : t.Sound members := by
  induction levels generalizing s with
  | nil =>
    cases run
    exact h
  | cons o levels ih =>
    rw [List.forall_mem_cons] at tasks
    obtain ⟨_, u, first, rest⟩ := exec_bind_eq_ok.1 run
    obtain ⟨⟨task, v, rfl⟩, tasks⟩ := tasks
    exact ih (sound_addLevel h stack task first) tasks rest

theorem sound_forM_addBound {bounds : List Object} (h : s.Sound members)
    (stack : .stack id ∈ members) (inside : ∀ o ∈ bounds, o ∈ members)
    (run : (bounds.forM (addBound id)).exec s = (.ok (), t)) :
    ∃ more, members ⊆ more ∧ t.Sound more := by
  induction bounds generalizing s members with
  | nil =>
    cases run
    exact ⟨members, subset_rfl, h⟩
  | cons o bounds ih =>
    rw [List.forall_mem_cons] at inside
    obtain ⟨_, u, first, rest⟩ := exec_bind_eq_ok.1 run
    obtain ⟨c, sound⟩ := sound_addBound h stack inside.1 first
    obtain ⟨more, fewer, sound⟩ := ih sound (.inr stack) (fun p hp => .inr (inside.2 p hp)) rest
    exact ⟨more, (Set.subset_insert _ _).trans fewer, sound⟩

/-- A stack of members is a member, as are the aggregates of its bounds. -/
theorem sound_stack {levels bounds : List Object} {policy : Literal} (h : s.Sound members)
    (tasks : ∀ o ∈ levels, o ∈ members ∧ ∃ v, o = .task v) (inside : ∀ o ∈ bounds, o ∈ members)
    (run : (stack levels bounds policy).exec s = (.ok id, t)) :
    ∃ more, insert (.stack id) members ⊆ more ∧ t.Sound more := by
  unfold stack at run
  split at run
  · cases run
  · next first rest =>
    rw [exec_bind_ok exec_get] at run
    obtain ⟨size, -, run⟩ := exec_lift_bind_eq_ok.1 run
    obtain ⟨p, -, run⟩ := exec_lift_bind_eq_ok.1 run
    obtain ⟨j, u, made, run⟩ := exec_bind_eq_ok.1 run
    obtain ⟨_, u', listed, run⟩ := exec_bind_eq_ok.1 run
    obtain ⟨_, u'', bounded, run⟩ := exec_bind_eq_ok.1 run
    cases run
    have new := sound_newStack h made
    have member : Object.stack id ∈ insert (.stack id) members := Set.mem_insert _ _
    have levels := sound_forM_addLevel new member (fun o ho => (tasks o ho).imp_left .inr) listed
    exact sound_forM_addBound levels member (fun o ho => .inr (inside o ho)) bounded

section Compositions

variable {j : Nat} {v w : TaskRef}

theorem sound_taskOverTask (h : s.Sound members) (hv : .task v ∈ members) (hw : .task w ∈ members)
    (run : (taskOverTask v w).exec s = (.ok j, t)) :
    ∃ more, insert (.stack j) members ⊆ more ∧ t.Sound more :=
  sound_stack h (List.forall_mem_cons.2 ⟨⟨hv, v, rfl⟩, List.forall_mem_singleton.2 ⟨hw, w, rfl⟩⟩)
    (List.forall_mem_nil _) run

theorem sound_stackOverTask (h : s.Sound members) (stack : .stack id ∈ members)
    (task : .task v ∈ members) (run : (stackOverTask id v).exec s = (.ok j, t)) :
    ∃ more, insert (.stack j) members ⊆ more ∧ t.Sound more := by
  unfold stackOverTask at run
  rw [exec_bind_ok exec_get] at run
  obtain ⟨levels, -⟩ := h.tidy _ stack
  have levels := List.forall_mem_append.2 ⟨levels, List.forall_mem_singleton.2 ⟨task, v, rfl⟩⟩
  exact sound_stack h levels (h.bounds_mem stack) run

theorem sound_taskOverStack (h : s.Sound members) (task : .task v ∈ members)
    (stack : .stack id ∈ members) (run : (taskOverStack v id).exec s = (.ok j, t)) :
    ∃ more, insert (.stack j) members ⊆ more ∧ t.Sound more := by
  unfold taskOverStack at run
  rw [exec_bind_ok exec_get] at run
  obtain ⟨levels, -⟩ := h.tidy _ stack
  exact sound_stack h (List.forall_mem_cons.2 ⟨⟨task, v, rfl⟩, levels⟩) (h.bounds_mem stack) run

theorem sound_stackOverStack {id' : Nat} (h : s.Sound members) (stack : .stack id ∈ members)
    (stack' : .stack id' ∈ members) (run : (stackOverStack id id').exec s = (.ok j, t)) :
    ∃ more, insert (.stack j) members ⊆ more ∧ t.Sound more := by
  unfold stackOverStack at run
  rw [exec_bind_ok exec_get] at run
  obtain ⟨levels, -⟩ := h.tidy _ stack
  obtain ⟨levels', -⟩ := h.tidy _ stack'
  exact sound_stack h (List.forall_mem_append.2 ⟨levels, levels'⟩)
    (List.forall_mem_append.2 ⟨h.bounds_mem stack, h.bounds_mem stack'⟩) run

end Compositions

/-! ### Updates and merges -/

variable [One α] [Add α] [Sub α] [Mul α] {state : ArrayData α}

theorem sound_performAll {steps : List UpdateStep} (h : s.Sound members)
    (run : (performAll state steps).exec s = (.ok (), t)) : t.Sound members := by
  induction steps generalizing s with
  | nil =>
    cases run
    exact h
  | cons step steps ih =>
    obtain ⟨_, u, performed, rest⟩ := exec_bind_eq_ok.1 run
    refine ih ?_ rest
    cases subject : step.subject? with
    | none =>
      cases step with
      | refuse e => cases performed
      | _ => cases subject
    | some o => exact h.of_links (refreshed_perform subject (fun p _ => h.intact p) performed).links

/-- An update keeps members sound. -/
theorem sound_update (h : s.Sound members) (run : (update state o).exec s = (.ok (), t)) :
    t.Sound members := by
  rw [exec_update] at run
  exact sound_performAll h run

/-- So does a merge on request. -/
theorem sound_regenerate (h : s.Sound members) (run : (regenerate o).exec s = (.ok (), t)) :
    t.Sound members := by
  rw [exec_regenerate (.list [])] at run
  exact sound_performAll h run

theorem sound_mergeConstraintsAtState {parts : List ConstraintRef} {policy : Literal}
    {r : ConstraintRef} (h : s.Sound members) (inside : ∀ p ∈ parts, .constraint p ∈ members)
    (run : (mergeConstraintsAtState parts state policy).exec s = (.ok r, t)) :
    t.Sound (insert (.constraint r) members) := by
  unfold mergeConstraintsAtState at run
  obtain ⟨x, -, run⟩ := exec_lift_bind_eq_ok.1 run
  obtain ⟨n, -, run⟩ := exec_lift_bind_eq_ok.1 run
  obtain ⟨c, u, prepared, run⟩ := exec_bind_eq_ok.1 run
  obtain ⟨-, -, events, rfl⟩ := exec_prepareConstraint prepared
  rw [exec_bind_ok exec_get] at run
  obtain ⟨_, u, updated, run⟩ := exec_bind_eq_ok.1 run
  rw [exec_bind_ok exec_get] at run
  obtain ⟨d, -, stored⟩ := exec_lift_bind_eq_ok.1 run
  exact sound_newMergedConstraint (sound_performAll (h.withLog _) updated) inside stored

theorem sound_mergeTasksAtState [Scalar α] {parts : List TaskRef} {r : TaskRef}
    (h : s.Sound members) (inside : ∀ p ∈ parts, .task p ∈ members)
    (run : (mergeTasksAtState parts state).exec s = (.ok r, t)) :
    t.Sound (insert (.task r) members) := by
  obtain ⟨n, x, event, steps, u, updated, assembled⟩ := assembled_mergeTasksAtState run
  exact sound_of_assembled (sound_performAll (h.withLog _) updated) inside (List.forall_mem_nil _)
    assembled

end Build

end ControlHierarchy
