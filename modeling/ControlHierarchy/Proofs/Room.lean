import ControlHierarchy.Proofs.Task.Refusal

/-!
# What a check for room changes

A computation that is checked for room first ends like the computation itself, or with
a fault (`InRoom`). So whatever is proved of the functions that know arrays of any size
holds of the checked ones as far as memory goes, and no check for room raises an error
of the library.

A merge of tasks has the check for room built in. What it asks for is one inequality
for each part whose weight was never set (`TaskBody.fits_iff`).
-/

namespace ControlHierarchy

variable {α β : Type}

/-- A checked computation is the computation, or ends with a fault. -/
def InRoom (checked result : Except Error β) : Prop :=
  checked = result ∨ ∃ e, e.kind = none ∧ checked = .error e

theorem InRoom.guarded {room : Except Error Unit} (faults : ∀ e, room = .error e → e.kind = none)
    (result : Except Error β) : InRoom (do room; result) result := by
  cases room with
  | ok _ => exact .inl rfl
  | error e => exact .inr ⟨e, faults e rfl, rfl⟩

namespace Tensor

theorem kind_of_checkProduct {shape shape' : List Nat} {e : Error}
    (failed : checkProduct shape shape' = .error e) : e.kind = none := by
  unfold checkProduct at failed
  cases product : productShape? shape shape' with
  | none =>
    rw [product] at failed
    cases failed
  | some shape =>
    rw [product] at failed
    exact kind_of_checkShape failed

theorem inRoom_product [Zero α] [Add α] [Mul α] (left right : Tensor α) :
    InRoom (left.productInRoom right) (left.product right) :=
  .guarded (fun _ => kind_of_checkProduct) _

end Tensor

/-- A square matrix that there is room for can exist on any machine. -/
theorem Index.addressable_square {k : Nat} (room : k * k < capacity) :
    addressable [k, k] = true := by
  have least : capacity < 0x1000000000000000 := by decide
  by_cases none : k = 0
  · simp [addressable, none]
  · simpa [addressable, none] using Nat.lt_trans room least

theorem checkShape_square {k : Nat} : checkShape [k, k] = .ok () ↔ k * k < Index.capacity := by
  unfold checkShape
  by_cases room : k * k < Index.capacity
  · simp [Index.addressable_square room, Index.affordable, room]
  · have large : Index.affordable [k, k] = false := by simpa [Index.affordable] using room
    rw [large]
    split <;> simp [room]

namespace TaskBody

theorem checkRoom_of_shape {t : TaskBody α} {k n : Nat} (shape : t.matrix.shape = [k, n]) :
    t.checkRoom = .ok () ↔ (t.weight = none → k * k < Index.capacity) := by
  unfold checkRoom
  rw [shape]
  cases t.weight with
  | none => simpa using checkShape_square
  | some w => simp

/-- A task fits into a merge when its arrays have the right shapes, and an identity matrix
in the place of a weight that was never set has fewer entries than there is room for. -/
theorem fits_iff {t : TaskBody α} {n : Nat} :
    t.Fits n ↔ ∃ k, t.matrix.shape = [k, n] ∧ t.reference.shape = [k] ∧
      (∀ w ∈ t.weight, w.shape = [k, k]) ∧ (t.weight = none → k * k < Index.capacity) := by
  constructor
  · rintro ⟨room, k, shape, reference, weight⟩
    exact ⟨k, shape, reference, weight, (checkRoom_of_shape shape).1 room⟩
  · rintro ⟨k, shape, reference, weight, room⟩
    exact ⟨(checkRoom_of_shape shape).2 room, k, shape, reference, weight⟩

end TaskBody

theorem TaskBody.inRoom_objective [Zero α] [One α] [Add α] [Mul α] [Neg α] (t : TaskBody α) :
    InRoom t.objectiveInRoom t.objective := by
  refine .guarded (fun e failed => ?_) _
  obtain failed | ⟨_, -, failed⟩ := bind_eq_error.1 failed
  · exact kind_of_checkRoom failed
  · split at failed
    · exact Tensor.kind_of_checkShape failed
    · cases failed

theorem Objective.inRoom_value [Zero α] [Add α] [Mul α] [Scalar α] (o : Objective α)
    (x : Tensor α) : InRoom (o.valueInRoom x) (o.value x) := by
  refine .guarded (fun e failed => ?_) _
  unfold checkPoint at failed
  split at failed
  · obtain failed | ⟨_, -, failed⟩ := bind_eq_error.1 failed
    · exact Tensor.kind_of_checkShape failed
    · obtain failed | ⟨_, -, failed⟩ := bind_eq_error.1 failed
      · exact Tensor.kind_of_checkProduct failed
      · exact Tensor.kind_of_checkProduct failed
  · exact Tensor.kind_of_checkProduct failed

namespace AffineMap

variable [Zero α] [Add α] [Mul α] (e : AffineMap α)

theorem inRoom_multiply (factor : Tensor α) :
    InRoom (e.multiplyInRoom factor) (e.multiply factor) := by
  refine .guarded (fun e failed => ?_) _
  unfold checkFactor at failed
  split at failed
  · exact Tensor.kind_of_checkProduct failed
  · cases failed

theorem inRoom_value (x : Tensor α) : InRoom (e.valueInRoom x) (e.value x) :=
  .guarded (fun _ => Tensor.kind_of_checkProduct) _

end AffineMap

/-- A variable that is not there is refused like without the check. -/
theorem VariableLayout.inRoom_select [Zero α] [One α] (l : VariableLayout) (name : String) :
    InRoom (l.selectInRoom name : Except Error (AffineMap α)) (l.select name) := by
  cases located : l.locate name with
  | error e =>
    left
    unfold selectInRoom checkSelection variableSize select
    rw [located]
    rfl
  | ok segment =>
    refine .guarded (fun e failed => ?_) _
    unfold checkSelection variableSize at failed
    rw [located] at failed
    exact Tensor.kind_of_checkShape failed

end ControlHierarchy
