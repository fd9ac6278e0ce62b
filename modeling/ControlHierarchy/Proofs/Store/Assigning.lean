import ControlHierarchy.Proofs.Store.Action
import ControlHierarchy.Proofs.Task.Regeneration
import ControlHierarchy.Store.Assignment
import Mathlib.Data.Set.Basic

/-!
# What an assignment leaves alone

An assignment puts a value to use in the object whose field it is and nowhere
else. So it leaves every aggregate of constraints as it is, but for the one that
it is made to (`Build.sparing_assign`).
-/

namespace ControlHierarchy

variable {α : Type}

namespace Store

/-- The aggregates of one store are in the other as they were, but for those of
some cells. -/
structure Spares (touched : Set Nat) (s t : Store α) : Prop where
  next : s.mergedConstraints.next ≤ t.mergedConstraints.next
  cells : ∀ i < s.mergedConstraints.next, i ∉ touched →
    t.mergedConstraints.read i = s.mergedConstraints.read i

variable {s t u : Store α} {touched : Set Nat}

theorem Spares.of_eq (same : t.mergedConstraints = s.mergedConstraints) :
    Spares touched s t where
  next := by rw [same]
  cells i _ _ := by rw [same]

theorem Spares.trans (h : Spares touched s t) (h' : Spares touched t u) : Spares touched s u where
  next := h.next.trans h'.next
  cells i old apart := (h'.cells i (old.trans_le h.next) apart).trans (h.cells i old apart)

theorem Spares.mono {more : Set Nat} (h : Spares touched s t) (fewer : touched ⊆ more) :
    Spares more s t where
  next := h.next
  cells i old apart := h.cells i old fun inside => apart (fewer inside)

end Store

namespace Build

/-- An action leaves the aggregates as they are, but for those of some cells. -/
def Sparing {β : Type} (touched : Set Nat) (action : Build α β) : Prop :=
  ∀ s, Store.Spares touched s (action.exec s).2

variable {β γ : Type} {touched : Set Nat}

theorem sparing_of_onlyLogs {action : Build α β} (logs : OnlyLogs action) :
    Sparing touched action := by
  intro s
  obtain ⟨events, rest⟩ := logs s
  rw [rest]
  exact .of_eq rfl

theorem sparing_bind {x : Build α β} {f : β → Build α γ} (first : Sparing touched x)
    (second : ∀ b, Sparing touched (f b)) : Sparing touched (x >>= f) := by
  intro s
  have before := first s
  rw [exec_bind]
  rcases run : x.exec s with ⟨_ | b, t⟩
  all_goals rw [run] at before
  · exact before
  · exact before.trans (second b t)

/-- The store that is read at the start is the one that the rest goes on with. -/
theorem sparing_get_bind {f : Store α → Build α γ}
    (rest : ∀ s, Store.Spares touched s ((f s).exec s).2) : Sparing touched (get >>= f) := by
  intro s
  rw [exec_bind_ok exec_get]
  exact rest s

theorem sparing_mapM {f : β → Build α γ} (each : ∀ b, Sparing touched (f b)) (items : List β) :
    Sparing touched (items.mapM f) := by
  induction items with
  | nil => exact sparing_of_onlyLogs (onlyLogs_pure _)
  | cons b items ih =>
    rw [List.mapM_cons]
    exact sparing_bind (each b) fun c => sparing_bind ih fun cs =>
      sparing_of_onlyLogs (onlyLogs_pure _)

/-! ### Values -/

theorem sparing_newValue (value : Plain α) : Sparing touched (newValue value) := by
  refine sparing_get_bind fun s => ?_
  split
  · exact .of_eq rfl
  · exact .of_eq rfl

theorem sparing_newArray (t : Tensor α) : Sparing touched (newArray t) := by
  refine sparing_get_bind fun s => ?_
  have stored : Store.Spares touched _ _ := sparing_newValue (.array s.arrays.next [])
    { s with arrays := s.arrays.write s.arrays.next t }
  exact ⟨stored.next, stored.cells⟩

theorem sparing_keepAssigned (value : Assigned α) : Sparing touched (keepAssigned value) := by
  cases value with
  | whole n => exact sparing_newValue _
  | array t => exact sparing_newArray t

theorem sparing_arrayItem (id : Nat) (position : List Nat) (index : Int) :
    Sparing touched (arrayItem id position index : Build α Object) := by
  refine sparing_bind (sparing_of_onlyLogs onlyLogs_get) fun s => ?_
  refine sparing_bind (sparing_of_onlyLogs (onlyLogs_lift _)) fun _ => ?_
  refine sparing_bind (sparing_of_onlyLogs (onlyLogs_lift _)) fun n => ?_
  refine sparing_bind (sparing_of_onlyLogs (onlyLogs_lift _)) fun i => ?_
  refine sparing_bind (sparing_of_onlyLogs (onlyLogs_lift _)) fun part => ?_
  split
  · exact sparing_newValue _
  · exact sparing_newValue _

theorem sparing_arrayElements (id : Nat) :
    Sparing touched (arrayElements id : Build α (List Object)) := by
  refine sparing_bind (sparing_of_onlyLogs onlyLogs_get) fun s => ?_
  split
  · exact sparing_of_onlyLogs (onlyLogs_pure _)
  · exact sparing_mapM (fun (i : Nat) => sparing_arrayItem id [] i) _

theorem sparing_useElements (owner : Object) (field : Field) (elements : List Object) :
    Sparing touched (useElements owner field elements : Build α Unit) := by
  refine sparing_get_bind fun s => ?_
  split
  · next t => cases t <;> exact .of_eq rfl
  all_goals exact .of_eq rfl

theorem sparing_useArray (owner : Object) (field : Field) (value : Object) :
    Sparing touched (useArray owner field value : Build α Unit) := by
  refine sparing_bind (sparing_of_onlyLogs onlyLogs_get) fun s => ?_
  split
  · exact sparing_bind (sparing_arrayElements _) (sparing_useElements owner field)
  · exact sparing_of_onlyLogs (onlyLogs_pure _)

end Build

namespace Store

theorem spares_write (s : Store α) (i : Nat) (parts : List ConstraintRef)
    (d : MergedConstraint α) :
    Spares {j | ∃ more, Object.constraint (.merged i parts) = .constraint (.merged j more)} s
      { s with mergedConstraints := s.mergedConstraints.write i d } where
  next := Cells.next_le_next_write _ _ _
  cells j _ apart := by
    refine Cells.read_write_of_ne _ _ fun here => apart ?_
    exact ⟨parts, by rw [here]⟩

theorem spares_useInConstraint (c : ConstraintRef) (field : Field) (value : Assigned α)
    (s : Store α) :
    Spares {i | ∃ parts, Object.constraint c = .constraint (.merged i parts)} s
      (s.useInConstraint c field value) := by
  unfold useInConstraint
  split
  · cases c with
    | leaf i => exact .of_eq rfl
    | merged i parts => exact spares_write s i parts _
  · cases c with
    | leaf i => exact .of_eq rfl
    | merged i parts => exact spares_write s i parts _
  · exact .of_eq rfl
  · exact spares_write s _ _ _
  · exact .of_eq rfl

/-- What is put to use in an object leaves all aggregates alone, but for the object
itself. -/
theorem spares_use (owner : Object) (field : Field) (value : Assigned α) (s : Store α) :
    Spares {i | ∃ parts, owner = .constraint (.merged i parts)} s (s.use owner field value) := by
  unfold use
  split
  · exact spares_useInConstraint _ field value s
  · next t =>
    refine .of_eq ?_
    unfold useInTask
    split
    all_goals cases t <;> rfl
  · refine .of_eq ?_
    unfold useInStack
    split <;> rfl
  · exact .of_eq rfl

end Store

namespace Build

theorem sparing_note (owner : Object) (field : Field) (value : Assigned α) :
    Sparing {i | ∃ parts, owner = .constraint (.merged i parts)} (note owner field value) := by
  have used (o : Object) (s : Store α) :
      Store.Spares {i | ∃ parts, owner = .constraint (.merged i parts)} s
        ({ s with notes := s.notes.write owner field o }.use owner field value) :=
    have put := Store.spares_use owner field value { s with notes := s.notes.write owner field o }
    ⟨put.next, put.cells⟩
  unfold note
  refine sparing_bind (sparing_keepAssigned value) fun o => ?_
  split
  · next t =>
    split
    · refine sparing_bind (fun s => .of_eq ?_) fun _ =>
        sparing_bind (used o) fun _ => sparing_useArray _ field o
      change (s.retire t).mergedConstraints = _
      rw [Store.retire_eq]
    · exact sparing_bind (used o) fun _ => sparing_useArray _ field o
  · exact sparing_bind (used o) fun _ => sparing_useArray owner field o

/-- An assignment to any field of any object, of any value and with any outcome,
leaves all aggregates as they are, but for the one that it is made to. -/
theorem sparing_assign [Zero α] (owner : Object) (field : Field) (value : Assigned α) :
    Sparing {i | ∃ parts, owner = .constraint (.merged i parts)} (assign owner field value) := by
  refine sparing_get_bind fun s => ?_
  split
  · exact exec_lift_bind_snd (.of_eq rfl) fun _ _ => .of_eq rfl
  · dsimp only
    split
    · exact .of_eq rfl
    · split
      · exact .of_eq rfl
      · exact sparing_note owner field _ s

end Build

end ControlHierarchy
