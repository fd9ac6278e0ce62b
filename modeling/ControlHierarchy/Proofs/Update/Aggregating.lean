import ControlHierarchy.Proofs.Store.Assigning
import ControlHierarchy.Proofs.Update.Shapes

/-!
# Runs of aggregates

In a run aggregates of constraints are built, updated and merged again, by calls
that may fail anywhere, and between the calls everything but the aggregates
themselves may change in any way (`Aggregating`). After every call, whatever its
outcome, the arrays of every aggregate have the shapes of a merge, and an update
or a merge that fails leaves the aggregate that it was asked of exactly as it was
(`Aggregating.stays_shaped`).
-/

namespace ControlHierarchy

variable {α : Type}

/-! ### Calls -/

/-- A call that builds an aggregate of constraints, or merges some again. -/
inductive AggregateCall (α : Type)
  | merge (parts : List ConstraintRef) (size : Int) (policy : Literal)
  | mergeAtState (parts : List ConstraintRef) (state : ArrayData α) (policy : Literal)
  | update (state : ArrayData α) (o : Object)
  | regenerate (o : Object)

namespace AggregateCall

/-- The parts of an aggregate that is to be built are leaves, or were built before. -/
def Allowed (built : Set ConstraintRef) : AggregateCall α → Prop
  | merge parts .. | mergeAtState parts .. => ∀ p ∈ parts, p ∈ built ∨ ∃ i, p = .leaf i
  | _ => True

/-- A call asks for an aggregate to be merged as a whole. -/
def Asks (c : ConstraintRef) : AggregateCall α → Prop
  | update _ o | regenerate o => o = .constraint c
  | _ => False

variable [Zero α] [One α] [Add α] [Sub α] [Mul α] [Neg α] [BoundScalar α]

/-- Performs a call, which returns the aggregate that it builds, if it builds one. -/
def perform : AggregateCall α → Build α (Option ConstraintRef)
  | merge parts size policy => do
    return some (← Build.mergeConstraints parts size policy)
  | mergeAtState parts state policy => do
    return some (← Build.mergeConstraintsAtState parts state policy)
  | update state o => do
    Build.update state o
    return none
  | regenerate o => do
    Build.regenerate o
    return none

end AggregateCall

/-- The aggregates that were built, after a call with an outcome. -/
def builtBy (built : Set ConstraintRef) :
    Except Error (Option ConstraintRef) → Set ConstraintRef
  | .ok (some c) => insert c built
  | _ => built

/-! ### The invariant -/

/-- Aggregates were built after their parts, and those that nothing was assigned to
have arrays that belong together. -/
structure Store.Formed (s : Store α) (built : Set ConstraintRef) (touched : Set Nat) : Prop where
  old : ∀ i parts, .merged i parts ∈ built → i < s.mergedConstraints.next
  below : ∀ i parts, .merged i parts ∈ built → ∀ j ∈ ConstraintRef.aggregatesAll parts, j < i
  shaped : ∀ i parts, .merged i parts ∈ built → i ∉ touched →
    (s.mergedConstraints.read i).Shaped

namespace Store.Formed

variable {s t : Store α} {built : Set ConstraintRef} {touched more : Set Nat} {ids : List Nat}

theorem start [One α] : (Store.empty : Store α).Formed ∅ ∅ := ⟨by simp, by simp, by simp⟩

theorem reshapes (h : s.Formed built touched) (change : Reshapes ids s t) :
    t.Formed built touched where
  old i parts hi := (h.old i parts hi).trans_le change.next
  below := h.below
  shaped i parts hi apart := by
    rcases change.cells i (h.old i parts hi) with same | ⟨-, shaped, -⟩
    · rw [same]
      exact h.shaped i parts hi apart
    · exact shaped

theorem spares (h : s.Formed built touched) (fewer : touched ⊆ more) (change : Spares more s t) :
    t.Formed built more where
  old i parts hi := (h.old i parts hi).trans_le change.next
  below := h.below
  shaped i parts hi apart := by
    rw [change.cells i (h.old i parts hi) apart]
    exact h.shaped i parts hi fun inside => apart (fewer inside)

/-- All that an aggregate contains was built before. -/
theorem aggregates_lt (h : s.Formed built touched) {c : ConstraintRef}
    (known : c ∈ built ∨ ∃ i, c = .leaf i) : ∀ j ∈ c.aggregates, j < s.mergedConstraints.next := by
  cases c with
  | leaf i => simp [ConstraintRef.aggregates]
  | merged i parts =>
    have member : .merged i parts ∈ built := known.resolve_right (by simp)
    rw [ConstraintRef.aggregates, List.forall_mem_cons]
    refine ⟨h.old i parts member, fun j hj => ?_⟩
    exact (h.below i parts member j hj).trans (h.old i parts member)

/-- Another aggregate that was built after its parts. -/
theorem insert (h : s.Formed built touched) {i : Nat} {parts : List ConstraintRef}
    (old : i < s.mergedConstraints.next) (below : ∀ j ∈ ConstraintRef.aggregatesAll parts, j < i)
    (shaped : (s.mergedConstraints.read i).Shaped) :
    s.Formed (Insert.insert (.merged i parts) built) touched where
  old j more hj := by
    rcases hj with ⟨⟨⟩⟩ | hj
    · exact old
    · exact h.old j more hj
  below j more hj := by
    rcases hj with ⟨⟨⟩⟩ | hj
    · exact below
    · exact h.below j more hj
  shaped j more hj apart := by
    rcases hj with ⟨⟨⟩⟩ | hj
    · exact shaped
    · exact h.shaped j more hj apart

end Store.Formed

/-! ### What calls do -/

namespace Build

/-- What an action ends with that builds an aggregate of some parts, or fails to. -/
structure Yields (parts : List ConstraintRef) (s : Store α)
    (result : Except Error ConstraintRef × Store α) : Prop where
  change : ∃ ids, Store.Reshapes ids s result.2
  new : ∀ c, result.1 = .ok c → ∃ i, c = .merged i parts ∧ s.mergedConstraints.next ≤ i ∧
    i < result.2.mergedConstraints.next ∧ (result.2.mergedConstraints.read i).Shaped

variable {β : Type} {parts : List ConstraintRef}

theorem reshaping_of_onlyLogs {action : Build α β} (logs : OnlyLogs action) :
    Reshaping action := by
  intro s
  obtain ⟨events, rest⟩ := logs s
  exact ⟨[], .of_eq (by rw [rest]; rfl)⟩

/-- An action that reshapes aggregates at most may come before one that builds one. -/
theorem yields_bind {action : Build α β} {rest : β → Build α ConstraintRef}
    (first : Reshaping action) (second : ∀ b s, Yields parts s ((rest b).exec s)) (s : Store α) :
    Yields parts s ((action >>= rest).exec s) := by
  obtain ⟨ids, change⟩ := first s
  rw [exec_bind]
  rcases run : action.exec s with ⟨e | b, t⟩
  all_goals rw [run] at change
  · exact ⟨⟨ids, change⟩, nofun⟩
  · obtain ⟨⟨more, change'⟩, new⟩ := second b t
    refine ⟨⟨_, change.trans change'⟩, fun c made => ?_⟩
    obtain ⟨i, rfl, later, old, shaped⟩ := new c made
    exact ⟨i, rfl, change.next.trans later, old, shaped⟩

variable [Zero α] [Neg α] [BoundScalar α]

theorem yields_storeMerged (d : MergedConstraint α) (s : Store α) :
    Yields parts s (exec (do
      let s ← get
      let d ← s.remerged (fun _ => false) d parts
      newMergedConstraint parts d) s) := by
  rw [exec_bind_ok exec_get, exec_bind, exec_lift]
  cases merged : s.remerged (fun _ => false) d parts with
  | error e => exact ⟨⟨[], .of_eq rfl⟩, nofun⟩
  | ok e =>
    obtain ⟨-, shaped⟩ :=
      MergedConstraint.shaped_of_regenerate (Store.regenerate_of_remerged merged)
    refine ⟨⟨[], Cells.next_le_next_write _ _ _, fun i old => .inl ?_⟩, ?_⟩
    · exact Cells.read_write_of_ne _ _ (Nat.ne_of_lt old)
    · rintro _ ⟨⟩
      refine ⟨_, rfl, le_rfl, Cells.lt_next_write _ _ _, ?_⟩
      exact (Cells.read_write_self _ _ _).symm ▸ shaped

theorem yields_mergeConstraints (parts : List ConstraintRef) (size : Int) (policy : Literal)
    (s : Store α) : Yields parts s ((mergeConstraints parts size policy).exec s) := by
  unfold mergeConstraints mergedConstraint
  rw [bind_assoc]
  exact yields_bind (reshaping_of_onlyLogs (onlyLogs_prepareConstraint parts size policy))
    yields_storeMerged s

variable [One α] [Add α] [Sub α] [Mul α]

theorem yields_mergeConstraintsAtState (parts : List ConstraintRef) (state : ArrayData α)
    (policy : Literal) (s : Store α) :
    Yields parts s ((mergeConstraintsAtState parts state policy).exec s) := by
  unfold mergeConstraintsAtState
  refine yields_bind (reshaping_of_onlyLogs (onlyLogs_lift _)) (fun x => ?_) s
  refine yields_bind (reshaping_of_onlyLogs (onlyLogs_lift _)) fun size => ?_
  refine yields_bind (reshaping_of_onlyLogs (onlyLogs_prepareConstraint _ _ _)) fun d => ?_
  refine yields_bind (reshaping_of_onlyLogs onlyLogs_get) fun u => ?_
  exact yields_bind (fun v => ⟨_, reshapes_performAll _⟩) fun _ => yields_storeMerged d

end Build

namespace AggregateCall

variable [Zero α] [One α] [Add α] [Sub α] [Mul α] [Neg α] [BoundScalar α] {s t : Store α}
  {built : Set ConstraintRef} {touched : Set Nat} {call : AggregateCall α}
  {outcome : Except Error (Option ConstraintRef)}

/-- A call keeps the sizes and the policies of all aggregates, and new arrays that
it gives to one belong together. -/
theorem reshaping_perform (call : AggregateCall α) : Build.Reshaping call.perform := by
  intro s
  cases call with
  | merge parts size policy =>
    rw [perform, Build.exec_bind_pure]
    exact (Build.yields_mergeConstraints parts size policy s).change
  | mergeAtState parts state policy =>
    rw [perform, Build.exec_bind_pure]
    exact (Build.yields_mergeConstraintsAtState parts state policy s).change
  | update state o =>
    rw [perform, Build.exec_bind_pure]
    exact Build.reshaping_update state o s
  | regenerate o =>
    rw [perform, Build.exec_bind_pure]
    exact Build.reshaping_regenerate o s

omit [Zero α] [One α] [Add α] [Sub α] [Mul α] [Neg α] [BoundScalar α] in
theorem formed_of_yields {parts : List ConstraintRef}
    {result : Except Error ConstraintRef × Store α} (h : s.Formed built touched)
    (known : ∀ p ∈ parts, p ∈ built ∨ ∃ i, p = .leaf i) (made : Build.Yields parts s result) :
    result.2.Formed (builtBy built (result.1.map some)) touched := by
  obtain ⟨outcome, t⟩ := result
  obtain ⟨⟨ids, change⟩, new⟩ := made
  have kept := h.reshapes change
  cases outcome with
  | error e => exact kept
  | ok c =>
    obtain ⟨i, rfl, later, old, shaped⟩ := new c rfl
    refine kept.insert old ?_ shaped
    rw [ConstraintRef.aggregatesAll_eq_flatMap, List.forall_mem_flatMap]
    exact fun p hp j hj => (h.aggregates_lt (known p hp) j hj).trans_le later

theorem formed_perform (h : s.Formed built touched) (allowed : call.Allowed built) :
    (call.perform.exec s).2.Formed (builtBy built (call.perform.exec s).1) touched := by
  have unbuilt : ∀ r : Except Error Unit, builtBy built (r.map fun _ => none) = built := by
    rintro (_ | _) <;> rfl
  cases call with
  | merge parts size policy =>
    rw [perform, Build.exec_bind_pure]
    exact formed_of_yields h allowed (Build.yields_mergeConstraints parts size policy s)
  | mergeAtState parts state policy =>
    rw [perform, Build.exec_bind_pure]
    exact formed_of_yields h allowed (Build.yields_mergeConstraintsAtState parts state policy s)
  | update state o =>
    rw [perform, Build.exec_bind_pure, unbuilt]
    obtain ⟨ids, change⟩ := Build.reshaping_update state o s
    exact h.reshapes change
  | regenerate o =>
    rw [perform, Build.exec_bind_pure, unbuilt]
    obtain ⟨ids, change⟩ := Build.reshaping_regenerate o s
    exact h.reshapes change

/-- A call that fails to merge an aggregate leaves the aggregate as it was. -/
theorem kept_of_perform (h : s.Formed built touched) {i : Nat} {parts : List ConstraintRef}
    (member : .merged i parts ∈ built) (asks : call.Asks (.merged i parts)) {e : Error}
    (run : call.perform.exec s = (.error e, t)) :
    t.mergedConstraints.read i = s.mergedConstraints.read i := by
  have failed {β : Type} {action : Build α β} {x : Option ConstraintRef}
      (run : (do let _ ← action; return x).exec s = (.error e, t)) :
      action.exec s = (.error e, t) := by
    obtain failed | ⟨_, _, -, run⟩ := Build.exec_bind_eq_error.1 run
    · exact failed
    · cases run
  cases call with
  | merge parts size policy => exact asks.elim
  | mergeAtState parts state policy => exact asks.elim
  | update state o =>
    obtain rfl : o = .constraint (.merged i parts) := asks
    have apart : i ∉ ConstraintRef.aggregatesAll parts := fun inside =>
      Nat.lt_irrefl i (h.below i parts member i inside)
    exact Build.kept_of_update (h.old i parts member) apart (failed run)
  | regenerate o =>
    obtain rfl : o = .constraint (.merged i parts) := asks
    rw [Build.eq_of_regenerate (failed run)]

end AggregateCall

/-! ### Runs -/

section Runs

variable [Zero α] [One α] [Add α] [Sub α] [Mul α] [Neg α] [BoundScalar α] {s t : Store α}
  {built : Set ConstraintRef} {touched : Set Nat} {call : AggregateCall α}
  {outcome : Except Error (Option ConstraintRef)}

/-- The stores that calls lead to, failed ones included, with the aggregates that
were built. Between the calls anything may happen to everything else, and also to
the aggregates in some cells. -/
inductive Aggregating : Store α → Set ConstraintRef → Set Nat → Prop
  | start : Aggregating .empty ∅ ∅
  | elsewhere {s t : Store α} {built : Set ConstraintRef} {touched more : Set Nat}
      (before : Aggregating s built touched) (fewer : touched ⊆ more)
      (change : Store.Spares more s t) : Aggregating t built more
  | call {s t : Store α} {built : Set ConstraintRef} {touched : Set Nat} {call : AggregateCall α}
      {outcome : Except Error (Option ConstraintRef)} (before : Aggregating s built touched)
      (allowed : call.Allowed built) (run : call.perform.exec s = (outcome, t)) :
      Aggregating t (builtBy built outcome) touched

/-- An assignment of any value to any field of any object belongs to what may happen
between the calls. -/
theorem Aggregating.assign (h : Aggregating s built touched) (owner : Object) (field : Field)
    (value : Assigned α) :
    Aggregating ((Build.assign owner field value).exec s).2 built
      (touched ∪ {i | ∃ parts, owner = .constraint (.merged i parts)}) :=
  h.elsewhere Set.subset_union_left
    ((Build.sparing_assign owner field value s).mono Set.subset_union_right)

theorem Aggregating.formed (h : Aggregating s built touched) : s.Formed built touched := by
  induction h with
  | start => exact Store.Formed.start
  | elsewhere before fewer change ih => exact ih.spares fewer change
  | call before allowed run ih =>
    have formed := AggregateCall.formed_perform ih allowed
    rw [run] at formed
    exact formed

/-- After any call in any run, whether it succeeds or fails, every aggregate to
which nothing was assigned itself has arrays that belong together, over its
variables and under its policy; the call leaves both as they were. If the call was
asked to merge an aggregate and fails, the aggregate is exactly as it was before. -/
theorem Aggregating.stays_shaped (h : Aggregating s built touched) (allowed : call.Allowed built)
    (run : call.perform.exec s = (outcome, t)) :
    (∀ i parts, .merged i parts ∈ builtBy built outcome → i ∉ touched →
      (t.mergedConstraints.read i).Shaped) ∧
    (∀ i parts, .merged i parts ∈ built →
      (t.mergedConstraints.read i).size = (s.mergedConstraints.read i).size ∧
        (t.mergedConstraints.read i).policy = (s.mergedConstraints.read i).policy) ∧
    ∀ i parts, .merged i parts ∈ built → call.Asks (.merged i parts) →
      ∀ e, outcome = .error e → t.mergedConstraints.read i = s.mergedConstraints.read i := by
  refine ⟨(h.call allowed run).formed.shaped, fun i parts member => ?_, ?_⟩
  · obtain ⟨ids, change⟩ := call.reshaping_perform s
    rw [run] at change
    rcases change.cells i (h.formed.old i parts member) with same | ⟨-, -, rest⟩
    · rw [same]
      exact ⟨rfl, rfl⟩
    · rw [rest]
      exact ⟨rfl, rfl⟩
  · rintro i parts member asks e rfl
    exact AggregateCall.kept_of_perform h.formed member asks run

end Runs

/-! ### A failure below an aggregate -/

/-- A box over one variable. -/
def unitBox : LeafConstraint Float where
  name := "unit"
  size := 1
  system := ⟨.vector [0], .vector [1], .matrix (.empty 1), .vector [], .matrix (.empty 1),
    .vector [], .vector []⟩
  rule := .unvalidated
  numbers := []

def mergeUnit : AggregateCall Float := .merge [.leaf 0] 1 (.integer 3)

def mergeUnitAgain : AggregateCall Float := .regenerate (.constraint (.merged 0 [.leaf 0]))

/-- The box with a lower side of a wrong length. -/
def bentBox : LeafConstraint Float :=
  { unitBox with system := { unitBox.system with boxLower := .vector [0, 0, 0] } }

/-- The box is aggregated and then loses its shape, so that it cannot be merged
again; the aggregate keeps its arrays. -/
theorem bentBox_kept : ∃ s t : Store Float, ∃ e, s.leafConstraints.read 0 = bentBox ∧
    mergeUnitAgain.perform.exec s = (.error e, t) ∧
      t.mergedConstraints.read 0 = s.mergedConstraints.read 0 ∧
      (t.mergedConstraints.read 0).Shaped := by
  let s : Store Float := { (Store.empty : Store Float) with
    leafConstraints := Store.empty.leafConstraints.write 0 unitBox }
  obtain ⟨t, merged⟩ : ∃ t, mergeUnit.perform.exec s = (.ok (some (.merged 0 [.leaf 0])), t) :=
    ⟨_, rfl⟩
  let u : Store Float := { t with leafConstraints := t.leafConstraints.write 0 bentBox }
  have declared : Aggregating s ∅ ∅ := Aggregating.start.elsewhere subset_rfl (.of_eq rfl)
  have allowed : mergeUnit.Allowed ∅ := List.forall_mem_singleton.2 (.inr ⟨0, rfl⟩)
  have bent : Aggregating u {.merged 0 [.leaf 0]} ∅ := by
    have built := declared.call allowed merged
    rw [builtBy, insert_empty_eq] at built
    exact built.elsewhere subset_rfl (.of_eq rfl)
  obtain ⟨e, v, failed⟩ : ∃ e v, mergeUnitAgain.perform.exec u = (.error e, v) := by
    cases merged
    exact ⟨_, _, rfl⟩
  have undemanding : mergeUnitAgain.Allowed {.merged 0 [.leaf 0]} := trivial
  obtain ⟨shaped, -, kept⟩ := bent.stays_shaped undemanding failed
  exact ⟨u, v, e, Cells.read_write_self _ _ _, failed, kept 0 _ rfl rfl e rfl,
    shaped 0 _ rfl (Set.notMem_empty 0)⟩

end ControlHierarchy
