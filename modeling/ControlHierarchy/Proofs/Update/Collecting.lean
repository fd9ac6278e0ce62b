import ControlHierarchy.Proofs.Update.Labelling
import ControlHierarchy.Proofs.Update.Trace

/-!
# What an aggregate of tasks collects

An aggregate keeps two lists: its own, of what was attached to the aggregate itself, and
one of all that it imposes, which also has what is attached to its parts. The second
list is appended to by an attachment and made anew by a merge.

A run starts when the aggregate is built. From then on nothing is attached but by calls,
which may concern any object of the hierarchy and end in any way (`Collecting`). The run
writes down what was attached to the aggregate itself, and what was attached to its parts
when it was merged last: an update of anything, and a merge of anything, leaves a trace
that says whether the aggregate was merged on the way, and when (`ListCall.trace`). At
every point of every run the two lists are what was written down
(`Collecting.accounted`).
-/

namespace ControlHierarchy

variable {α : Type}

/-- The calls that attach, or go through what is attached. -/
inductive ListCall (α : Type)
  | attach (t : TaskRef) (o : Object)
  | regenerate (o : Object)
  | update (state : ArrayData α) (o : Object)

namespace ListCall

def operands : ListCall α → List Object
  | attach t o => [.task t, o]
  | regenerate o => [o]
  | update _ o => [o]

/-- A call asks for a merge of a task. -/
def Merges (r : TaskRef) : ListCall α → Prop
  | attach _ _ => False
  | regenerate o => o = .task r
  | update _ o => o = .task r

/-- What a call adds to the own list of a task if it ends like this. -/
def adds (r : TaskRef) : ListCall α → Except Error Unit → List Object
  | attach t o, .ok _ => if t.same r then [o] else []
  | _, _ => []

theorem adds_of_not_same {r t : TaskRef} (apart : ¬t.same r) (outcome : Except Error Unit)
    (o : Object) : (attach t o : ListCall α).adds r outcome = [] := by
  cases outcome with
  | error e => rfl
  | ok _ => exact if_neg apart

theorem adds_self (r : TaskRef) (o : Object) : (attach r o : ListCall α).adds r (.ok ()) = [o] :=
  if_pos (Object.same_self (.task r))

section Performing

variable [Zero α] [One α] [Add α] [Sub α] [Mul α] [Neg α] [BoundScalar α]

def perform : ListCall α → Build α Unit
  | attach t o => Build.attach t o
  | regenerate o => Build.regenerate o
  | update state o => Build.update state o

/-- The steps that a call performs in a store, each with the store right after it. -/
def trace (s : Store α) : ListCall α → List (UpdateStep × Store α)
  | attach _ _ => []
  | regenerate o => Build.trace (.list []) (o.regeneration s) s
  | update state o => Build.trace state (o.schedule s s.depth) s

end Performing

end ListCall

namespace Store

variable {s t : Store α} {members : Set Object} {i : Nat} {parts : List TaskRef} {u : TaskRef}

/-- The parts of an aggregate are other tasks. -/
theorem Names.apart (h : s.Names members (.merged i parts)) {p : TaskRef} (part : p ∈ parts) :
    ¬(Object.task p).same (.task (.merged i parts)) := by
  intro same
  have below : .task p ∈ (Object.task (.merged i parts)).parts := List.mem_map_of_mem part
  have here := h.closed.same _ (h.closed.parts _ h.member _ below) _ h.member same
  rw [here] at below
  exact Object.not_mem_parts_self _ below

/-- In every schedule an aggregate is merged with its parts. -/
theorem Names.parts_of_schedule (h : s.Names members (.merged i parts)) (depth : Nat)
    {o : Object} (member : o ∈ members) {more : List TaskRef}
    (merged : .mergeTask i more ∈ Object.schedule s depth o) : more = parts := by
  have composes : Composes fun steps => ∀ more, .mergeTask i more ∈ steps → more = parts :=
    { nil := fun _ here => by cases here
      append := fun first second more here =>
        (List.mem_append.1 here).elim (first more) (second more)
      single := fun step other more here => absurd (List.mem_singleton.1 here).symm (other i more) }
  refine composes.schedule h.closed depth (fun d _ j more below ahead => ?_) member more merged
  refine composes.append ahead fun more' here => ?_
  cases List.mem_singleton.1 here
  cases h.closed.same _ below _ h.member (by simp [Object.same, TaskRef.same])
  rfl

/-- To permit a call merges nothing. -/
theorem mergeTask_not_mem_permit (o : Object) (operations : List Operation) :
    .mergeTask i parts ∉ s.permit o operations := by
  unfold permit
  split <;> simp

/-- An aggregate that is asked for a merge is merged with its parts. -/
theorem Names.parts_of_regeneration (h : s.Names members (.merged i parts)) {o : Object}
    (member : o ∈ members) {more : List TaskRef} (merged : .mergeTask i more ∈ o.regeneration s) :
    more = parts := by
  have step : .mergeTask i more = o.mergeStep :=
    List.mem_singleton.1 ((List.mem_append.1 merged).resolve_left (mergeTask_not_mem_permit _ _))
  unfold Object.mergeStep at step
  split at step
  · cases step
  · cases step
    cases h.closed.same _ member _ h.member (by simp [Object.same, TaskRef.same])
    rfl
  · cases step

/-- To attach to another task does not change an aggregate. -/
theorem mergedTasks_setTaskBody (body : TaskBody α) (apart : ¬u.same (.merged i parts)) :
    (s.setTaskBody u body).mergedTasks.read i = s.mergedTasks.read i := by
  cases u with
  | leaf j => rfl
  | merged j more =>
    exact Cells.read_write_of_ne _ _ fun here => apart (by simp [TaskRef.same, here])

theorem mergedTasks_withAttached (o : Object) (apart : ¬u.same (.merged i parts)) :
    (s.withAttached u o).mergedTasks.read i = s.mergedTasks.read i := by
  cases u with
  | leaf j => rfl
  | merged j more =>
    exact Cells.read_write_of_ne _ _ fun here => apart (by simp [TaskRef.same, here])

theorem has_setTaskBody {o : Object} (body : TaskBody α) (h : s.Has o) :
    (s.setTaskBody u body).Has o := by
  cases u with
  | leaf j => exact h.mono le_rfl le_rfl (Cells.next_le_next_write _ _ _) le_rfl le_rfl
  | merged j more => exact h.mono le_rfl le_rfl le_rfl (Cells.next_le_next_write _ _ _) le_rfl

theorem has_withAttached {o : Object} (p : Object) (h : s.Has o) : (s.withAttached u p).Has o := by
  cases u with
  | leaf j => exact h.mono le_rfl le_rfl (Cells.next_le_next_write _ _ _) le_rfl le_rfl
  | merged j more => exact h.mono le_rfl le_rfl le_rfl (Cells.next_le_next_write _ _ _) le_rfl

/-! ### What happens in between -/

/-- The tasks among the members that exist go on to exist, and what is attached to them, or
collected by them, stays the same. -/
structure SparesLists (s : Store α) (members : Set Object) (t : Store α) : Prop where
  exist : ∀ u, .task u ∈ members → s.Has (.task u) → t.Has (.task u)
  own : ∀ u, .task u ∈ members → s.Has (.task u) →
    t.attachedTo (.task u) = s.attachedTo (.task u)
  constraints : ∀ u, .task u ∈ members → s.Has (.task u) →
    (t.taskBody u).constraints = (s.taskBody u).constraints

section Assembled

variable [Zero α] [One α] [Add α] [Mul α] [Scalar α] {name : String} {n : Int}
  {own : List Object} {r : TaskRef}

theorem Assembled.attachedTo (h : s.Assembled name n parts own r t) (o : Object) :
    t.attachedTo o = if o.same (.task r) then own else s.attachedTo o := by
  obtain ⟨-, -, rfl, rows, events, -, rfl⟩ := h
  cases o with
  | task v =>
    cases v with
    | leaf j => rfl
    | merged j more =>
      simp only [Store.attachedTo, Cells.read_write, Object.same, TaskRef.same, beq_iff_eq]
      split <;> rfl
  | _ => rfl

/-- Another aggregate may be built. -/
theorem Assembled.sparesLists (h : s.Assembled name n parts own r t) (members : Set Object) :
    s.SparesLists members t where
  exist u _ exist := by
    obtain ⟨-, -, -, rows, events, -, rfl⟩ := h
    exact exist.mono le_rfl le_rfl le_rfl (Cells.next_le_next_write _ _ _) le_rfl
  own u _ exist := by
    rw [h.attachedTo, if_neg]
    intro same
    obtain ⟨-, -, rfl, -⟩ := h
    cases u with
    | leaf j => cases same
    | merged j more =>
      have here : j = s.mergedTasks.next := beq_iff_eq.1 same
      exact Nat.lt_irrefl _ (here ▸ exist)
  constraints u _ exist := by rw [h.taskBody_of_has exist]

/-- What comes with another aggregate has to be referred to without ambiguity, too. -/
theorem Assembled.names (h : s.Assembled name n parts own r t) {u : TaskRef}
    (names : s.Names members u) (known : ∀ o ∈ own, o ∈ members) : t.Names members u where
  closed := by
    refine ⟨names.closed.parts, fun o ho p hp => ?_, names.closed.same⟩
    rw [h.attachedTo] at hp
    split at hp
    · exact known p hp
    · exact names.closed.attached o ho p hp
  member := names.member
  lists := by
    obtain ⟨-, -, -, rows, events, -, rfl⟩ := h
    exact names.lists

end Assembled

/-! ### The account -/

/-- The two lists of an aggregate, given what was attached to it and what was attached to
its parts when it was merged. -/
structure Accounts (members : Set Object) (i : Nat) (parts : List TaskRef) (s : Store α)
    (added last : List Object) : Prop where
  names : s.Names members (.merged i parts)
  exist : s.Has (.task (.merged i parts))
  own : (s.mergedTasks.read i).own = added
  constraints : (s.mergedTasks.read i).body.constraints = last ++ added

variable {added last : List Object} {outcome : Except Error Unit}

namespace Accounts

theorem of_cell (h : s.Accounts members i parts added last)
    (cell : t.mergedTasks.read i = s.mergedTasks.read i)
    (names : t.Names members (.merged i parts)) (exist : t.Has (.task (.merged i parts))) :
    t.Accounts members i parts added last :=
  ⟨names, exist, (congrArg MergedTask.own cell).trans h.own,
    (congrArg (·.body.constraints) cell).trans h.constraints⟩

theorem of_spared (h : s.Accounts members i parts added last) (spares : s.SparesLists members t)
    (names : t.Names members (.merged i parts)) : t.Accounts members i parts added last :=
  ⟨names, spares.exist _ h.names.member h.exist, (spares.own _ h.names.member h.exist).trans h.own,
    (spares.constraints _ h.names.member h.exist).trans h.constraints⟩

/-- To attach something to another task leaves the aggregate alone, even halfway. -/
theorem attach_other (h : s.Accounts members i parts added last) {u : TaskRef} {o : Object}
    (apart : ¬u.same (.merged i parts)) (known : o ∈ members)
    (run : (Build.attach u o).exec s = (outcome, t)) : t.Accounts members i parts added last := by
  rcases outcome with e | ⟨⟩
  · rcases Build.of_attach_error run with rfl | ⟨-, j, more, rfl, rfl⟩
    · exact h
    · exact h.of_cell (mergedTasks_setTaskBody _ apart) (h.names.setTaskBody nofun)
        (has_setTaskBody _ h.exist)
  · obtain ⟨-, -, rfl⟩ := Build.exec_attach run
    exact h.of_cell (mergedTasks_withAttached _ apart) (h.names.withAttached known)
      (has_withAttached _ h.exist)

theorem attach (h : s.Accounts members i parts added last) {u : TaskRef} {o : Object}
    (task : .task u ∈ members) (known : o ∈ members)
    (run : (Build.attach u o).exec s = (outcome, t)) :
    t.Accounts members i parts
      (added ++ (ListCall.attach u o : ListCall α).adds (.merged i parts) outcome) last := by
  by_cases apart : u.same (.merged i parts)
  · cases h.names.closed.same _ task _ h.names.member apart
    rcases outcome with e | ⟨⟩
    · rw [Build.eq_of_attach (h.names.lists _) run]
      exact (List.append_nil added).symm ▸ h
    · rw [ListCall.adds_self]
      obtain ⟨-, -, rfl⟩ := Build.exec_attach run
      refine ⟨h.names.withAttached known, has_withAttached _ h.exist, ?_, ?_⟩
      · simp only [withAttached, Cells.read_write_self, MergedTask.attachAll, h.own]
      · simp only [withAttached, Cells.read_write_self, MergedTask.attachAll, h.constraints,
          List.append_assoc]
  · rw [ListCall.adds_of_not_same apart, List.append_nil]
    exact h.attach_other apart known run

variable [Zero α] [One α] [Add α] [Mul α]

/-- A merge makes the list of all anew. -/
theorem remerge (h : s.Accounts members i parts added last)
    (run : (Build.mergeTask i parts).exec s = (.ok (), t)) :
    t.Accounts members i parts added (t.partLists parts) := by
  obtain ⟨present, d, events, retired, asked, merged, rfl⟩ := Build.afterMerge_of_mergeTask run
  obtain rfl := Except.ok.inj ((asked_eq_ok parts (h.names.lists .tasks)).symm.trans asked)
  obtain ⟨rows, -, rfl⟩ := MergedTask.withRows_of_regenerate merged
  refine ⟨h.names.of_links (sameLinks_afterMerge rfl) fun kept =>
    arrayIn?_eraseAll (h.names.lists kept), Cells.lt_next_write _ _ _, ?_, ?_⟩
  · simp only [afterMerge, Cells.read_write_self]
    exact h.own
  · rw [partLists_congr fun p hp =>
      (sameCell_afterMerge (h.names.apart hp)).sameAsPart]
    simp only [afterMerge, Cells.read_write_self, ← h.own]
    rfl

variable [Sub α] [Neg α] [BoundScalar α] {state : ArrayData α}

/-- A step that succeeds merges the aggregate or leaves it alone. -/
theorem perform (h : s.Accounts members i parts added last) {step : UpdateStep}
    (known : ∀ more, step = .mergeTask i more → more = parts)
    (run : (Build.perform state step).exec s = (.ok (), t)) :
    t.Accounts members i parts added (broughtBy i parts [(step, t)] last) := by
  by_cases own : step = .mergeTask i parts
  · subst own
    rw [broughtBy_merge]
    exact h.remerge run
  · have other : ∀ more, step ≠ .mergeTask i more := fun more here =>
      own (known more here ▸ here)
    rw [broughtBy_of_not_mem fun more u member =>
      other more (Prod.mk.inj (List.mem_singleton.1 member)).1.symm]
    have writes := Build.writes_of_perform run
    exact h.of_cell (writes.mergedTask other) (h.names.of_links writes.sameLinks fun kept =>
      writes.lists (h.names.lists kept)) (writes.sameLinks.has _ h.exist)

/-- After a pass, however it ends, the aggregate has what the pass brought last. -/
theorem performAll (h : s.Accounts members i parts added last) {steps : List UpdateStep}
    (known : ∀ more, .mergeTask i more ∈ steps → more = parts)
    (run : (Build.performAll state steps).exec s = (outcome, t)) :
    t.Accounts members i parts added (broughtBy i parts (Build.trace state steps s) last) := by
  induction steps generalizing s last with
  | nil =>
    cases run
    exact h
  | cons step steps ih =>
    rw [Build.performAll, Build.exec_bind] at run
    rcases first : (Build.perform state step).exec s with ⟨e | ⟨⟩, u⟩
    all_goals rw [first] at run
    · cases run
      rw [Build.trace_cons_of_error first, Build.eq_of_perform first]
      exact h
    · rw [Build.trace_cons_of_ok first, ← List.singleton_append, broughtBy_append]
      exact ih (h.perform (fun more here => known more (here ▸ List.mem_cons_self)) first)
        (fun more there => known more (List.mem_cons_of_mem _ there)) run

/-- After any call, however it ends, the account goes on with what the call added, and with
what it brought. -/
theorem call (h : s.Accounts members i parts added last) {call : ListCall α}
    (known : ∀ o ∈ call.operands, o ∈ members) (run : call.perform.exec s = (outcome, t)) :
    t.Accounts members i parts (added ++ call.adds (.merged i parts) outcome)
      (broughtBy i parts (call.trace s) last) := by
  cases call with
  | attach u o =>
    obtain ⟨task, attached⟩ := List.forall_mem_cons.1 known
    exact h.attach task (List.forall_mem_singleton.1 attached) run
  | regenerate o =>
    simp only [ListCall.adds, List.append_nil]
    have run := (Build.exec_regenerate (.list []) o).symm.trans run
    exact h.performAll
      (fun more => h.names.parts_of_regeneration (List.forall_mem_singleton.1 known)) run
  | update state o =>
    simp only [ListCall.adds, List.append_nil]
    have run := (Build.exec_update o).symm.trans run
    exact h.performAll
      (fun more => h.names.parts_of_schedule s.depth (List.forall_mem_singleton.1 known)) run

end Accounts

/-- A call that asks for a merge of the aggregate merges it at its end only. -/
theorem Names.brought_of_merges [Zero α] [One α] [Add α] [Sub α] [Mul α] [Neg α]
    [BoundScalar α] (h : s.Names members (.merged i parts)) {call : ListCall α}
    (merges : call.Merges (.merged i parts)) (run : call.perform.exec s = (outcome, t)) :
    broughtBy i parts (call.trace s) last = if outcome.isOk then t.partLists parts else last := by
  cases call with
  | attach u o => cases merges
  | regenerate o =>
    cases merges
    refine broughtBy_snoc (fun more u member => ?_)
      ((Build.exec_regenerate (.list []) _).symm.trans run)
    obtain ⟨before, after, -, split, -⟩ := Build.exists_of_mem_trace member
    exact mergeTask_not_mem_permit _ _ (split ▸ List.mem_append_right _ List.mem_cons_self)
  | update state o =>
    cases merges
    obtain ⟨depth, deep⟩ := Nat.exists_eq_add_of_le' s.two_le_depth
    have run := (Build.exec_update _).symm.trans run
    rw [ListCall.trace]
    rw [deep, Object.schedule_task, TaskRef.schedule_merged] at run ⊢
    exact broughtBy_snoc (fun more u => Build.not_mem_trace_of_mergesLate
      (TaskRef.mergesLate_stepsAhead h.closed h.member (depth + 1)) le_rfl more) run

end Store

/-! ### Runs -/

section Runs

variable [Zero α] [One α] [Add α] [Sub α] [Mul α] [Neg α] [Scalar α] [BoundScalar α]

/-- The stores of an aggregate, with what was attached to it since it was built, and what
was attached to its parts right after it was merged last. A sum takes over what was
attached to its operands. Then any call may be made on any objects, and end in any way.
Between the calls anything may happen that leaves such lists of the tasks alone. -/
inductive Collecting (members : Set Object) (i : Nat) (parts : List TaskRef) :
    Store α → List Object → List Object → Prop
  | merge {s t : Store α} {n : Int} (exist : ∀ p ∈ parts, s.Has (.task p))
      (run : (Build.mergeTasks parts n).exec s = (.ok (.merged i parts), t))
      (names : t.Names members (.merged i parts)) :
      Collecting members i parts t [] (t.partLists parts)
  | mergeAtState {s t : Store α} {state : ArrayData α} (exist : ∀ p ∈ parts, s.Has (.task p))
      (run : (Build.mergeTasksAtState parts state).exec s = (.ok (.merged i parts), t))
      (names : t.Names members (.merged i parts)) :
      Collecting members i parts t [] (t.partLists parts)
  | add {s t : Store α} {a b : TaskRef} {first second : List TaskRef} {own own' : List Object}
      (brings : Build.summands s a = .ok (first, own))
      (brings' : Build.summands s b = .ok (second, own'))
      (exist : ∀ p ∈ parts, s.Has (.task p))
      (run : (Build.addTasks a b).exec s = (.ok (.merged i parts), t))
      (names : t.Names members (.merged i parts)) :
      Collecting members i parts t (own ++ own') (t.partLists parts)
  | call {s t : Store α} {call : ListCall α} {outcome : Except Error Unit}
      {added last : List Object} (before : Collecting members i parts s added last)
      (known : ∀ o ∈ call.operands, o ∈ members) (run : call.perform.exec s = (outcome, t)) :
      Collecting members i parts t (added ++ call.adds (.merged i parts) outcome)
        (broughtBy i parts (call.trace s) last)
  | elsewhere {s t : Store α} {added last : List Object}
      (before : Collecting members i parts s added last) (spares : s.SparesLists members t)
      (names : t.Names members (.merged i parts)) : Collecting members i parts t added last

variable {s t : Store α} {members : Set Object} {i : Nat} {parts : List TaskRef}
  {added last : List Object}

omit [Sub α] [Neg α] [BoundScalar α] in
/-- An aggregate that was just built has what its parts have, and what came with it. -/
theorem Store.Assembled.accounts {name : String} {n : Int} {own : List Object}
    (h : s.Assembled name n parts own (.merged i parts) t) (exist : ∀ p ∈ parts, s.Has (.task p))
    (names : t.Names members (.merged i parts)) :
    t.Accounts members i parts own (t.partLists parts) := by
  rw [Store.partLists_congr fun p hp => h.taskBody_of_has (exist p hp)]
  obtain ⟨-, -, ⟨⟩, rows, events, -, rfl⟩ := h
  refine ⟨names, Cells.lt_next_write _ _ _, ?_, ?_⟩
  · simp only [Cells.read_write_self]
  · simp only [Cells.read_write_self]
    rfl

/-- The account is right. -/
theorem Collecting.accounts (h : Collecting members i parts s added last) :
    s.Accounts members i parts added last := by
  induction h with
  | merge exist run names => exact (Build.assembled_mergeTasks run).accounts exist names
  | mergeAtState exist run names =>
    obtain ⟨_, x, event, steps, u, performed, assembled⟩ := Build.assembled_mergeTasksAtState run
    have links := Build.sameLinks_of_performAll performed
    exact assembled.accounts (fun p hp => links.has _ (exist p hp)) names
  | add brings brings' exist run names =>
    obtain ⟨_, _, _, _, first, second, assembled⟩ := Build.assembled_addTasks run
    cases brings.symm.trans first
    cases brings'.symm.trans second
    have parts := assembled.new
    cases parts
    exact assembled.accounts exist names
  | call before known run ih => exact ih.call known run
  | elsewhere before spares names ih => exact ih.of_spared spares names

/-- At every point of a run the own list of the aggregate is what was attached to it, in
order, and the list of all is what was attached to its parts when it was merged last,
followed by its own list. This stays so with every call, on whatever object and however it
ends: an attachment adds to the own list if it was made to the aggregate and succeeds, and
what the parts brought changes only as the trace of the call says, with the last merge of
the aggregate in it. A merge or an update that the aggregate itself is asked for brings
what is attached to the parts at its end, and nothing if it fails. -/
theorem Collecting.accounted (h : Collecting members i parts s added last) :
    (s.attachedTo (.task (.merged i parts)) = added ∧
      (s.taskBody (.merged i parts)).constraints = last ++ added) ∧
    ∀ (call : ListCall α) (outcome : Except Error Unit) (t : Store α),
      (∀ o ∈ call.operands, o ∈ members) → call.perform.exec s = (outcome, t) →
      (t.attachedTo (.task (.merged i parts)) = added ++ call.adds (.merged i parts) outcome ∧
        (t.taskBody (.merged i parts)).constraints =
          broughtBy i parts (call.trace s) last ++ t.attachedTo (.task (.merged i parts))) ∧
      (call.Merges (.merged i parts) → broughtBy i parts (call.trace s) last =
        if outcome.isOk then t.partLists parts else last) := by
  refine ⟨⟨h.accounts.own, h.accounts.constraints⟩, fun call outcome t known run => ?_⟩
  have after := h.accounts.call known run
  refine ⟨⟨after.own, after.constraints.trans ?_⟩, fun merges =>
    h.accounts.names.brought_of_merges merges run⟩
  rw [← after.own]
  rfl

end Runs

/-! ### A task, its aggregate, and an aggregate of the aggregate -/

/-- Two constraints and a task over two variables. -/
def boxedPair : Store ℚ :=
  { (Store.empty : Store ℚ) with
    leafConstraints := (Store.empty.leafConstraints.write 0
      ⟨"lower", 2, Store.blankSystem, .unvalidated, []⟩).write 1
        ⟨"upper", 2, Store.blankSystem, .unvalidated, []⟩
    leafTasks := Store.empty.leafTasks.write 0 pairTask }

/-- The aggregate of the task. -/
def boxedAggregate : TaskRef := .merged 0 [.leaf 0]

/-- The aggregate that has the other one as its only part. -/
def outerAggregate : TaskRef := .merged 1 [boxedAggregate]

/-- The aggregates, the task and the two constraints. -/
def boxedMembers : Set Object :=
  {.task outerAggregate, .task boxedAggregate, .task (.leaf 0), .constraint (.leaf 0),
    .constraint (.leaf 1)}

theorem closed_boxedMembers {s : Store ℚ}
    (attached : ∀ o ∈ boxedMembers, s.attachedTo o = []) : s.Closed boxedMembers where
  parts := by
    rintro o (rfl | rfl | rfl | rfl | rfl)
    · exact List.forall_mem_singleton.2 (.inr (.inl rfl))
    · exact List.forall_mem_singleton.2 (.inr (.inr (.inl rfl)))
    all_goals exact List.forall_mem_nil _
  attached o ho := by
    rw [attached o ho]
    exact List.forall_mem_nil _
  same := by
    rintro a (rfl | rfl | rfl | rfl | rfl) b (rfl | rfl | rfl | rfl | rfl) same
    all_goals first | rfl | cases same

/-- The aggregate is built. -/
def builtPair : Store ℚ := ((Build.mergeTasks [.leaf 0] 2).exec boxedPair).2

/-- The first constraint is attached to the aggregate. -/
def ownedPair : Store ℚ :=
  ((Build.attach boxedAggregate (.constraint (.leaf 0))).exec builtPair).2

/-- The second constraint is attached to the task. -/
def attachedPair : Store ℚ := ((Build.attach (.leaf 0) (.constraint (.leaf 1))).exec ownedPair).2

/-- Another aggregate is built around the aggregate. -/
def nestedPair : Store ℚ := ((Build.mergeTasks [boxedAggregate] 2).exec attachedPair).2

theorem collecting_builtPair : Collecting boxedMembers 0 [.leaf 0] builtPair [] [] := by
  have exist : boxedPair.Has (.task (.leaf 0)) := Nat.zero_lt_one
  have run : (Build.mergeTasks [.leaf 0] 2).exec boxedPair = (.ok boxedAggregate, builtPair) :=
    Prod.ext (by with_unfolding_all rfl) rfl
  have names : builtPair.Names boxedMembers boxedAggregate := by
    refine ⟨closed_boxedMembers ?_, .inr (.inl rfl), fun kept => rfl⟩
    rintro o (rfl | rfl | rfl | rfl | rfl)
    all_goals with_unfolding_all rfl
  have brought : builtPair.partLists [.leaf 0] = [] := by with_unfolding_all rfl
  rw [← brought]
  exact .merge (List.forall_mem_singleton.2 exist) run names

theorem collecting_nestedPair :
    Collecting boxedMembers 0 [.leaf 0] nestedPair [.constraint (.leaf 0)] [] := by
  have own : (ListCall.attach boxedAggregate (.constraint (.leaf 0))).perform.exec builtPair =
      (.ok (), ownedPair) := Prod.ext (by with_unfolding_all rfl) rfl
  have below : (ListCall.attach (.leaf 0) (.constraint (.leaf 1))).perform.exec ownedPair =
      (.ok (), attachedPair) := Prod.ext (by with_unfolding_all rfl) rfl
  have outer : (Build.mergeTasks [boxedAggregate] 2).exec attachedPair =
      (.ok outerAggregate, nestedPair) := Prod.ext (by with_unfolding_all rfl) rfl
  have attached : Collecting boxedMembers 0 [.leaf 0] attachedPair [.constraint (.leaf 0)] [] :=
    (collecting_builtPair.call (by simp [ListCall.operands, boxedMembers]) own).call
      (by simp [ListCall.operands, boxedMembers]) below
  have assembled := Build.assembled_mergeTasks outer
  exact attached.elsewhere (assembled.sparesLists _)
    (assembled.names attached.accounts.names (List.forall_mem_nil _))

/-- The aggregate has the constraint that was attached to it. Once the aggregate around it
is updated, it has the one that was attached to the task, and then its own. -/
theorem nestedPair_collects :
    (nestedPair.taskBody boxedAggregate).constraints = [.constraint (.leaf 0)] ∧
    (nestedPair.taskBody (.leaf 0)).constraints = [.constraint (.leaf 1)] ∧
    ∃ t, (Build.update (.shaped (.vector [1, 2])) (.task outerAggregate)).exec nestedPair =
        (.ok (), t) ∧
      (t.taskBody boxedAggregate).constraints =
        [.constraint (.leaf 1), .constraint (.leaf 0)] := by
  obtain ⟨⟨⟩, t, run⟩ := Build.exists_exec_of_isOk
    (Build.update (.shaped (.vector [1, 2])) (.task outerAggregate)) nestedPair
    (by decide +kernel)
  have brought : broughtBy 0 [.leaf 0]
      ((ListCall.update (.shaped (.vector [1, 2])) (.task outerAggregate)).trace nestedPair) [] =
      [.constraint (.leaf 1)] := by with_unfolding_all rfl
  obtain ⟨⟨-, before⟩, after⟩ := collecting_nestedPair.accounted
  obtain ⟨⟨own, all⟩, -⟩ := after (.update (.shaped (.vector [1, 2])) (.task outerAggregate))
    (.ok ()) t (by simp [ListCall.operands, boxedMembers]) run
  refine ⟨before, by with_unfolding_all rfl, t, run, all.trans ?_⟩
  rw [brought, own]
  rfl

end ControlHierarchy
