import ControlHierarchy.Proofs.Constraint.Setters
import ControlHierarchy.Proofs.Store.Acceptance
import ControlHierarchy.Proofs.Update.Current

/-!
# Constraints that always merge

Constraints over `n` variables that are declared and set through validating
setters, and aggregates of them, all have arrays that fit into any merge
(`Store.AllFit`). Every call keeps it so (`ConstraintCall.outcome`): a merge
succeeds, and a declaration or a setter that is refused leaves the store as it
was. So no merge fails in any state that such calls lead to
(`Reached.merges_succeed`).
-/

namespace ControlHierarchy

variable {α : Type}

/-- A leaf constraint with setters, the arrays of which fit. -/
structure LeafConstraint.Fits (n : Nat) (c : LeafConstraint α) : Prop where
  size : c.size = n
  rule : c.rule = .validated
  system : c.system.Fits n

/-- An aggregate of constraints, the arrays of which fit. -/
structure MergedConstraint.Fits (n : Nat) (c : MergedConstraint α) : Prop where
  size : c.size = n
  system : c.system.Fits n

namespace Store

/-- Constraints over `n` variables were made, with parts among them, so that the
arrays of all of them fit; and nothing was assigned to a field of any object. -/
structure AllFit (s : Store α) (n : Nat) (made : Set ConstraintRef) : Prop where
  unnoted : s.notes = []
  room : ∀ c ∈ made, ∃ blank : LinearSystem α, LinearSystem.free n = .ok blank
  leaves : ∀ i, .leaf i ∈ made → (s.leafConstraints.read i).Fits n
  aggregates : ∀ i parts, .merged i parts ∈ made → (s.mergedConstraints.read i).Fits n
  parts : ∀ i parts, .merged i parts ∈ made → ∀ p ∈ parts, p ∈ made

variable {s : Store α} {n i : Nat} {made : Set ConstraintRef} {c : ConstraintRef}
  {parts : List ConstraintRef}

theorem isReplaced_of_unnoted (h : s.notes = []) (o : Object) (operation : Operation) :
    s.isReplaced o operation = false := by
  rw [isReplaced, h]
  rfl

theorem intact_of_unnoted (h : s.notes = []) (o : Object) : s.Intact o where
  operations p _ operation := isReplaced_of_unnoted h p operation
  lists p _ field _ := by
    rw [arrayIn?, cellIn?, h]
    rfl

namespace AllFit

theorem start [One α] : (empty : Store α).AllFit n ∅ := ⟨rfl, by simp, by simp, by simp, by simp⟩

theorem constraintSize (h : s.AllFit n made) (member : c ∈ made) : s.constraintSize c = n := by
  cases c with
  | leaf i => exact (h.leaves i member).size
  | merged i parts => exact (h.aggregates i parts member).size

theorem constraintSystem (h : s.AllFit n made) (member : c ∈ made) :
    (s.constraintSystem c).Fits n := by
  cases c with
  | leaf i => exact (h.leaves i member).system
  | merged i parts => exact (h.aggregates i parts member).system

theorem withLog (h : s.AllFit n made) (events : List Event) : (s.withLog events).AllFit n made :=
  ⟨h.unnoted, h.room, h.leaves, h.aggregates, h.parts⟩

theorem writeLeaf (h : s.AllFit n made) (i : Nat) {d : LeafConstraint α} (fits : d.Fits n) :
    { s with leafConstraints := s.leafConstraints.write i d }.AllFit n made where
  unnoted := h.unnoted
  room := h.room
  leaves j hj := by
    rw [Cells.read_write]
    split
    · exact fits
    · exact h.leaves j hj
  aggregates := h.aggregates
  parts := h.parts

theorem writeAggregate (h : s.AllFit n made) (i : Nat) {d : MergedConstraint α}
    (fits : d.Fits n) :
    { s with mergedConstraints := s.mergedConstraints.write i d }.AllFit n made where
  unnoted := h.unnoted
  room := h.room
  leaves := h.leaves
  aggregates j parts hj := by
    rw [Cells.read_write]
    split
    · exact fits
    · exact h.aggregates j parts hj
  parts := h.parts

theorem insertLeaf (h : s.AllFit n made) (fits : (s.leafConstraints.read i).Fits n)
    (room : ∃ blank : LinearSystem α, LinearSystem.free n = .ok blank) :
    s.AllFit n (insert (.leaf i) made) where
  unnoted := h.unnoted
  room _ _ := room
  leaves j hj := by
    rcases hj with ⟨⟨⟩⟩ | hj
    · exact fits
    · exact h.leaves j hj
  aggregates j parts hj := h.aggregates j parts (hj.resolve_left (nomatch ·))
  parts j parts hj p hp := .inr (h.parts j parts (hj.resolve_left (nomatch ·)) p hp)

theorem insertAggregate (h : s.AllFit n made) (fits : (s.mergedConstraints.read i).Fits n)
    (nonempty : parts ≠ []) (inside : ∀ p ∈ parts, p ∈ made) :
    s.AllFit n (insert (.merged i parts) made) where
  unnoted := h.unnoted
  room _ _ := by
    obtain ⟨p, hp⟩ := List.exists_mem_of_ne_nil parts nonempty
    exact h.room p (inside p hp)
  leaves j hj := h.leaves j (hj.resolve_left (nomatch ·))
  aggregates j more hj := by
    rcases hj with ⟨⟨⟩⟩ | hj
    · exact fits
    · exact h.aggregates j more hj
  parts j more hj p hp := by
    rcases hj with ⟨⟨⟩⟩ | hj
    · exact .inr (inside p hp)
    · exact .inr (h.parts j more hj p hp)

/-- What parts that fit are merged to fits as well, whatever the policy. -/
theorem regenerate_ok [Zero α] [Neg α] [BoundScalar α] (h : s.AllFit n made)
    (inside : ∀ p ∈ parts, p ∈ made) {blank : LinearSystem α}
    (room : LinearSystem.free n = .ok blank) {c : MergedConstraint α} (size : c.size = n) :
    ∃ d, c.regenerate (parts.map s.part) = .ok d ∧ d.Fits n := by
  obtain ⟨system, merged, presents⟩ := LinearSystem.merge_ok (Policy.ofWord c.policy) c.name room
    (List.forall_mem_map.2 fun p hp => h.constraintSystem (inside p hp) :
      ∀ p ∈ parts.map s.part, p.system.Fits n)
  rw [← size] at merged
  exact ⟨_, MergedConstraint.regenerate_eq_ok.2 ⟨system, merged, rfl⟩, size,
    presents.fits (Faces.normal_merge _ _)⟩

theorem askable (h : s.AllFit n made) (c : ConstraintRef) :
    s.stuckAt? (fun _ => false) c = none :=
  stuckAt?_of_intact (isReplaced_of_unnoted h.unnoted _)

end AllFit

end Store

namespace Build

open Store (AllFit)

variable [Zero α] [Neg α] [BoundScalar α] {s : Store α} {n i : Nat} {made : Set ConstraintRef}
  {c : ConstraintRef} {parts : List ConstraintRef} {state : ArrayData α}

/-! ### Declarations and setters -/

omit [Zero α] [Neg α] [BoundScalar α] in
theorem allFit_newLeafConstraint {d : LeafConstraint α} (h : s.AllFit n made) (fits : d.Fits n)
    (room : ∃ blank : LinearSystem α, LinearSystem.free n = .ok blank) :
    ∃ c t, (newLeafConstraint d).exec s = (.ok c, t) ∧ t.AllFit n (insert c made) := by
  refine ⟨_, _, rfl, (h.writeLeaf _ fits).insertLeaf ?_ room⟩
  rw [Cells.read_write_self]
  exact fits

omit [Zero α] [Neg α] [BoundScalar α] in
/-- A setter that lets only arrays through that fit sets all arrays or none. -/
theorem allFit_setSystem
    {setter : LinearSystem α → String → Int → Except Error (LinearSystem α)}
    (sound : ∀ {system system'} name, system.Fits n → setter system name n = .ok system' →
      system'.Fits n)
    (h : s.AllFit n made) (member : .leaf i ∈ made) :
    (∃ t, (setSystem i setter).exec s = (.ok (), t) ∧ t.AllFit n made) ∨
      ∃ e, (setSystem i setter).exec s = (.error e, s) := by
  obtain ⟨size, rule, fits⟩ := h.leaves i member
  unfold setSystem
  rw [exec_bind_ok exec_get]
  simp only []
  rw [size, exec_bind, exec_lift]
  cases run : setter (s.leafConstraints.read i).system (s.leafConstraints.read i).name n with
  | error e => exact .inr ⟨e, rfl⟩
  | ok system => exact .inl ⟨_, rfl, h.writeLeaf i ⟨size, rule, sound _ fits run⟩⟩

/-! ### Merges and updates -/

theorem allFit_mergeConstraint (h : s.AllFit n made) (member : .merged i parts ∈ made) :
    ∃ t, (mergeConstraint i parts).exec s = (.ok (), t) ∧ t.AllFit n made := by
  have size := (h.aggregates i parts member).size
  obtain ⟨blank, room⟩ := h.room _ member
  obtain ⟨d, merged, fits⟩ := h.regenerate_ok (h.parts i parts member) room size
  have lost : s.isReplaced (.constraint (.merged i parts)) = fun _ => false :=
    funext (Store.isReplaced_of_unnoted h.unnoted _)
  have merges : s.MergesTo i parts d := by
    refine ⟨⟨blank, size ▸ room⟩, ?_, ?_, merged⟩
    · rw [lost]
      exact fun p _ => h.askable p
    · rw [lost]
  have intact := Store.intact_of_unnoted h.unnoted (.constraint (.merged i parts))
  have lists := intact.lists _ List.mem_cons_self
  exact ⟨_, (exec_mergeConstraint_eq_ok lists).2 ⟨d, merges, rfl⟩, h.writeAggregate i fits⟩

/-- To merge parts that fit, and to store what they are merged to. -/
theorem allFit_storeMerged {d : MergedConstraint α} (h : s.AllFit n made) (nonempty : parts ≠ [])
    (inside : ∀ p ∈ parts, p ∈ made) (size : d.size = n) :
    ∃ c t, exec (do
        let s ← get
        let d ← s.remerged (fun _ => false) d parts
        newMergedConstraint parts d) s = (.ok c, t) ∧ t.AllFit n (insert c made) := by
  obtain ⟨p, hp⟩ := List.exists_mem_of_ne_nil parts nonempty
  obtain ⟨blank, room⟩ := h.room p (inside p hp)
  obtain ⟨e, merged, fits⟩ := h.regenerate_ok inside room size
  have remerged : s.remerged (fun _ => false) d parts = .ok e :=
    Store.remerged_eq_ok.2 ⟨fun p _ => h.askable p, rfl, merged⟩
  rw [exec_bind_ok exec_get, exec_lift_ok remerged]
  refine ⟨_, _, rfl, (h.writeAggregate _ fits).insertAggregate ?_ nonempty inside⟩
  rw [Cells.read_write_self]
  exact fits

omit [Zero α] [Neg α] [BoundScalar α] in
/-- Parts that fit pass all checks in front of a merge. -/
theorem prepareConstraint_ok (h : s.AllFit n made) (nonempty : parts ≠ [])
    (inside : ∀ p ∈ parts, p ∈ made) (policy : Policy) :
    ∃ d t, (prepareConstraint parts n (.integer policy.word)).exec s = (.ok d, t) ∧ d.size = n ∧
      t.AllFit n made := by
  obtain ⟨p, hp⟩ := List.exists_mem_of_ne_nil parts nonempty
  obtain ⟨blank, room⟩ := h.room p (inside p hp)
  obtain ⟨name, events, prepared⟩ := prepareConstraint_succeeds nonempty room
    fun p hp => h.constraintSize (inside p hp)
  exact ⟨_, _, prepared, rfl, h.withLog events⟩

theorem allFit_mergeConstraints (h : s.AllFit n made) (nonempty : parts ≠ [])
    (inside : ∀ p ∈ parts, p ∈ made) (policy : Policy) :
    ∃ c t, (mergeConstraints parts n (.integer policy.word)).exec s = (.ok c, t) ∧
      t.AllFit n (insert c made) := by
  obtain ⟨d, t, prepared, size, fits⟩ := prepareConstraint_ok h nonempty inside policy
  unfold mergeConstraints mergedConstraint
  rw [bind_assoc, exec_bind_ok prepared]
  exact allFit_storeMerged fits nonempty inside size

section Updates

variable [One α] [Add α] [Sub α] [Mul α]

/-- A step of an update pass concerns one of the constraints that were made. -/
def Concerns (made : Set ConstraintRef) : UpdateStep → Prop
  | .refreshConstraint i => .leaf i ∈ made
  | .mergeConstraint i parts => .merged i parts ∈ made
  | _ => False

theorem allFit_perform {step : UpdateStep} (state : ArrayData α) (h : s.AllFit n made)
    (concerns : Concerns made step) :
    ∃ t, (perform state step).exec s = (.ok (), t) ∧ t.AllFit n made := by
  cases step with
  | refreshConstraint i =>
    have fits := h.leaves i concerns
    have same : (s.leafConstraints.read i).refresh state = .ok (s.leafConstraints.read i) := by
      rw [LeafConstraint.refresh, fits.rule]
    exact ⟨_, exec_refreshConstraint_eq_ok.2 ⟨_, same, rfl⟩, h.writeLeaf i fits⟩
  | mergeConstraint i parts => exact allFit_mergeConstraint h concerns
  | refreshTask i => exact concerns.elim
  | mergeTask i parts => exact concerns.elim
  | refuse e => exact concerns.elim

theorem allFit_performAll {steps : List UpdateStep} (state : ArrayData α) (h : s.AllFit n made)
    (concerns : ∀ step ∈ steps, Concerns made step) :
    ∃ t, (performAll state steps).exec s = (.ok (), t) ∧ t.AllFit n made := by
  induction steps generalizing s with
  | nil => exact ⟨s, rfl, h⟩
  | cons step steps ih =>
    rw [List.forall_mem_cons] at concerns
    obtain ⟨t, performed, fits⟩ := allFit_perform state h concerns.1
    obtain ⟨u, rest, fits'⟩ := ih fits concerns.2
    refine ⟨u, ?_, fits'⟩
    unfold performAll
    rw [exec_bind_ok performed, rest]

omit [Zero α] [Neg α] [BoundScalar α] [One α] [Add α] [Sub α] [Mul α] in
/-- No step of the schedule of a constraint refuses to go on. -/
theorem concerns_schedule (h : s.AllFit n made) (member : c ∈ made) :
    ∀ step ∈ c.schedule s, Concerns made step := by
  have permitted (o : Object) (operation : Operation) : s.permit o [operation] = [] := by
    have callable : s.checkCallable o operation = .ok () :=
      (Store.intact_of_unnoted h.unnoted o).checkCallable_eq_ok operation
    simp [Store.permit, callable]
  induction c using ConstraintRef.inductionOn with
  | leaf i =>
    rw [ConstraintRef.schedule, permitted]
    exact List.forall_mem_singleton.2 member
  | merged i parts ih =>
    have intact := Store.intact_of_unnoted h.unnoted (.constraint (.merged i parts))
    have listed : s.constraintParts (.merged i parts) = .ok parts :=
      Store.asked_eq_ok _ (intact.lists _ List.mem_cons_self _ (by simp))
    rw [ConstraintRef.schedule, permitted, permitted, listed, ConstraintRef.scheduleAll_eq_flatMap,
      Store.stepsOfParts_flatMap]
    simp only [List.nil_append, List.append_nil, List.forall_mem_append, List.forall_mem_flatMap]
    refine ⟨fun p hp => ih p hp (h.parts i parts member p hp), ?_⟩
    exact List.forall_mem_singleton.2 member

theorem allFit_update (h : s.AllFit n made) (member : c ∈ made) :
    ∃ t, (update state (.constraint c)).exec s = (.ok (), t) ∧ t.AllFit n made := by
  rw [exec_update, Object.schedule_constraint]
  exact allFit_performAll state h (concerns_schedule h member)

omit [Sub α] in
theorem allFit_regenerate (h : s.AllFit n made) (member : .merged i parts ∈ made) :
    ∃ t, (regenerate (.constraint (.merged i parts))).exec s = (.ok (), t) ∧ t.AllFit n made := by
  have intact := Store.intact_of_unnoted h.unnoted (.constraint (.merged i parts))
  unfold regenerate
  rw [exec_bind_ok exec_get, exec_lift_ok (intact.checkCallable_eq_ok _)]
  exact allFit_mergeConstraint h member

theorem allFit_mergeConstraintsAtState {v : List α} (h : s.AllFit n made) (nonempty : parts ≠ [])
    (inside : ∀ p ∈ parts, p ∈ made) (policy : Policy) (vector : state.read = .ok (.vector v))
    (length : v.length = n) :
    ∃ c t, (mergeConstraintsAtState parts state (.integer policy.word)).exec s = (.ok c, t) ∧
      t.AllFit n (insert c made) := by
  obtain ⟨d, t, prepared, size, fits⟩ := prepareConstraint_ok h nonempty inside policy
  have leading : (Tensor.vector v).leading = .ok n := by
    rw [Tensor.leading_of_shape rfl, length]
  have concerns : ∀ step ∈ ConstraintRef.scheduleAll t parts, Concerns made step := by
    rw [ConstraintRef.scheduleAll_eq_flatMap, List.forall_mem_flatMap]
    exact fun p hp => concerns_schedule fits (inside p hp)
  obtain ⟨u, updated, fits'⟩ := allFit_performAll (.shaped (.vector v)) fits concerns
  unfold mergeConstraintsAtState
  rw [exec_lift_ok vector, exec_lift_ok leading, exec_bind_ok prepared, exec_bind_ok exec_get,
    exec_bind_ok updated]
  exact allFit_storeMerged fits' nonempty inside size

end Updates

end Build

/-! ### Calls -/

/-- A call that declares or sets a constraint, or merges constraints. -/
inductive ConstraintCall (α : Type)
  | declare (name : String) (data : SystemData α)
  | setBox (id : Nat) (lower upper : Option (ArrayData α))
  | setEqualities (id : Nat) (matrix rightHandSide : Option (ArrayData α))
  | setInequalities (id : Nat) (matrix lower upper : Option (ArrayData α))
  | merge (parts : List ConstraintRef) (policy : Policy)
  | mergeAtState (parts : List ConstraintRef) (state : ArrayData α) (policy : Policy)
  | update (state : ArrayData α) (c : ConstraintRef)
  | regenerate (id : Nat) (parts : List ConstraintRef)

namespace ConstraintCall

/-- A call merges constraints, or brings them up to date. -/
def Merges : ConstraintCall α → Prop
  | merge .. | mergeAtState .. | update .. | regenerate .. => True
  | _ => False

/-- A call is about constraints that were made, and aggregates have parts. A state
of which the size of an aggregate is taken is a vector with `n` entries. -/
def Allowed (n : Nat) (made : Set ConstraintRef) : ConstraintCall α → Prop
  | declare .. => True
  | setBox i .. | setEqualities i .. | setInequalities i .. => .leaf i ∈ made
  | merge parts _ => parts ≠ [] ∧ ∀ p ∈ parts, p ∈ made
  | mergeAtState parts state _ => (parts ≠ [] ∧ ∀ p ∈ parts, p ∈ made) ∧
      ∃ v, state.read = .ok (.vector v) ∧ v.length = n
  | update _ c => c ∈ made
  | regenerate i parts => .merged i parts ∈ made

variable [Zero α] [One α] [Add α] [Sub α] [Mul α] [Neg α] [BoundScalar α] {s t : Store α} {n : Nat}
  {made : Set ConstraintRef} {call : ConstraintCall α}

/-- Performs a call over `n` variables, which returns the constraint that it
makes, if it makes one. -/
def perform (n : Nat) : ConstraintCall α → Build α (Option ConstraintRef)
  | declare name data => do
    return some (← Build.newLeafConstraint (← LeafConstraint.validated name n data))
  | setBox i lower upper => do
    Build.setSystem i fun system name size => system.setBox name size lower upper
    return none
  | setEqualities i matrix rightHandSide => do
    Build.setSystem i fun system name size => system.setEqualities name size matrix rightHandSide
    return none
  | setInequalities i matrix lower upper => do
    Build.setSystem i fun system name size => system.setInequalities name size matrix lower upper
    return none
  | merge parts policy => do
    return some (← Build.mergeConstraints parts n (.integer policy.word))
  | mergeAtState parts state policy => do
    return some (← Build.mergeConstraintsAtState parts state (.integer policy.word))
  | update state c => do
    Build.update state (.constraint c)
    return none
  | regenerate i parts => do
    Build.regenerate (.constraint (.merged i parts))
    return none

/-- The constraints that were made after a call with an outcome. -/
def madeBy (made : Set ConstraintRef) : Except Error (Option ConstraintRef) → Set ConstraintRef
  | .ok (some c) => insert c made
  | _ => made

/-- What a call does that goes through: all constraints fit, also one that it made. -/
def Keeps (s : Store α) (n : Nat) (made : Set ConstraintRef)
    (action : Build α (Option ConstraintRef)) : Prop :=
  ∃ new t, action.exec s = (.ok new, t) ∧ t.AllFit n (madeBy made (.ok new))

omit [Zero α] [One α] [Add α] [Sub α] [Mul α] [Neg α] [BoundScalar α] in
theorem keeps_of_made {action : Build α ConstraintRef}
    (h : ∃ c t, action.exec s = (.ok c, t) ∧ t.AllFit n (insert c made)) :
    Keeps s n made (do return some (← action)) := by
  obtain ⟨c, t, run, fits⟩ := h
  exact ⟨some c, t, by rw [Build.exec_bind_ok run]; rfl, fits⟩

omit [Zero α] [One α] [Add α] [Sub α] [Mul α] [Neg α] [BoundScalar α] in
theorem keeps_of_done {action : Build α Unit}
    (h : ∃ t, action.exec s = (.ok (), t) ∧ t.AllFit n made) :
    Keeps s n made (do action; return none) := by
  obtain ⟨t, run, fits⟩ := h
  exact ⟨none, t, by rw [Build.exec_bind_ok run]; rfl, fits⟩

omit [Zero α] [One α] [Add α] [Sub α] [Mul α] [Neg α] [BoundScalar α] in
theorem outcome_of_setSystem {i : Nat}
    {setter : LinearSystem α → String → Int → Except Error (LinearSystem α)}
    (h : s.AllFit n made) (member : .leaf i ∈ made)
    (sound : ∀ {system system'} name, system.Fits n → setter system name n = .ok system' →
      system'.Fits n) :
    Keeps s n made (do Build.setSystem i setter; return none) ∨
      ∃ e, Build.exec (do Build.setSystem i setter; return (none : Option ConstraintRef)) s =
        (.error e, s) := by
  obtain done | ⟨e, refused⟩ := Build.allFit_setSystem sound h member
  · exact .inl (keeps_of_done done)
  · exact .inr ⟨e, by rw [Build.exec_bind, refused]⟩

/-- A call keeps all constraints fitting. If it merges it succeeds, and otherwise
it may be refused and then leaves the store as it was. -/
theorem outcome (h : s.AllFit n made) (allowed : call.Allowed n made) :
    Keeps s n made (call.perform n) ∨
      ¬call.Merges ∧ ∃ e, (call.perform n).exec s = (.error e, s) := by
  cases call with
  | declare name data =>
    cases declared : LeafConstraint.validated name n data with
    | error e =>
      refine .inr ⟨id, e, ?_⟩
      rw [perform, declared]
      rfl
    | ok d =>
      obtain ⟨room, size, rule, system⟩ := LeafConstraint.fits_validated declared
      have made := Build.allFit_newLeafConstraint h ⟨size, rule, system⟩ room
      rw [perform, declared]
      exact .inl (keeps_of_made made)
  | setBox i lower upper =>
    refine (outcome_of_setSystem h allowed ?_).imp_right fun refused => ⟨id, refused⟩
    exact fun name => LinearSystem.fits_setBox
  | setEqualities i matrix rightHandSide =>
    refine (outcome_of_setSystem h allowed ?_).imp_right fun refused => ⟨id, refused⟩
    exact fun name => LinearSystem.fits_setEqualities
  | setInequalities i matrix lower upper =>
    refine (outcome_of_setSystem h allowed ?_).imp_right fun refused => ⟨id, refused⟩
    exact fun name => LinearSystem.fits_setInequalities
  | merge parts policy =>
    exact .inl (keeps_of_made (Build.allFit_mergeConstraints h allowed.1 allowed.2 policy))
  | mergeAtState parts state policy =>
    obtain ⟨⟨nonempty, inside⟩, v, vector, length⟩ := allowed
    exact .inl (keeps_of_made
      (Build.allFit_mergeConstraintsAtState h nonempty inside policy vector length))
  | update state c => exact .inl (keeps_of_done (Build.allFit_update h allowed))
  | regenerate i parts => exact .inl (keeps_of_done (Build.allFit_regenerate h allowed))

end ConstraintCall

section Reached

variable [Zero α] [One α] [Add α] [Sub α] [Mul α] [Neg α] [BoundScalar α] {s : Store α} {n : Nat}
  {made : Set ConstraintRef} {call : ConstraintCall α}

/-- The stores that calls over `n` variables lead to, refused ones included, with
the constraints that were made. -/
inductive Reached (n : Nat) : Store α → Set ConstraintRef → Prop
  | start : Reached n .empty ∅
  | call {s t : Store α} {made : Set ConstraintRef} {call : ConstraintCall α}
      {outcome : Except Error (Option ConstraintRef)} (before : Reached n s made)
      (allowed : call.Allowed n made) (run : (call.perform n).exec s = (outcome, t)) :
      Reached n t (ConstraintCall.madeBy made outcome)

theorem Reached.allFit (h : Reached n s made) : s.AllFit n made := by
  induction h with
  | start => exact Store.AllFit.start
  | call before allowed run ih =>
    obtain ⟨new, t, run', fits⟩ | ⟨-, e, run'⟩ := ConstraintCall.outcome ih allowed
    · cases run.symm.trans run'
      exact fits
    · cases run.symm.trans run'
      exact ih

/-- Whatever calls went before, with whatever arrays and outcomes, no merge of
validated constraints and their aggregates fails, at any depth and under any
policy; and a call that is refused leaves the whole store as it was. -/
theorem Reached.merges_succeed (h : Reached n s made) (allowed : call.Allowed n made) :
    (call.Merges → ∃ new t, (call.perform n).exec s = (.ok new, t)) ∧
      ∀ e t, (call.perform n).exec s = (.error e, t) → t = s := by
  obtain ⟨new, t, run, -⟩ | ⟨other, e, run⟩ := ConstraintCall.outcome h.allFit allowed
  · refine ⟨fun _ => ⟨new, t, run⟩, fun e u failed => ?_⟩
    cases run.symm.trans failed
  · refine ⟨fun merges => absurd merges other, fun e' u failed => ?_⟩
    cases run.symm.trans failed
    rfl

end Reached

/-! ### A box that is declared -/

/-- The declaration of a box over two variables. -/
def declareBox : ConstraintCall Float :=
  .declare "box"
    ⟨some (.shaped (.vector [0, 0])), some (.shaped (.vector [1, 1])), none, none, none, none, none⟩

/-- A call that would leave the box with one side, and that with too many entries. -/
def setLongSide : ConstraintCall Float := .setBox 0 (some (.shaped (.vector [0, 0, 0]))) none

def mergeTwice : ConstraintCall Float := .merge [.leaf 0, .leaf 0] .standard

/-- The wrong box is refused and leaves no trace, and the right one is merged. -/
theorem declareBox_merges : ∃ s : Store Float,
    (declareBox.perform 2).exec .empty = (.ok (some (.leaf 0)), s) ∧
      (∃ e, (setLongSide.perform 2).exec s = (.error e, s)) ∧
        ∃ new t, (mergeTwice.perform 2).exec s = (.ok new, t) := by
  have undemanding : declareBox.Allowed 2 ∅ := trivial
  obtain ⟨s, declared⟩ : ∃ s, (declareBox.perform 2).exec .empty = (.ok (some (.leaf 0)), s) :=
    ⟨_, rfl⟩
  have reached : Reached 2 s {.leaf 0} := by
    have after := Reached.call .start undemanding declared
    rwa [ConstraintCall.madeBy, insert_empty_eq] at after
  have allowed : mergeTwice.Allowed 2 {.leaf 0} := ⟨by simp, by simp⟩
  refine ⟨s, declared, ?_, (reached.merges_succeed allowed).1 trivial⟩
  cases declared
  exact ⟨_, rfl⟩

end ControlHierarchy
