import ControlHierarchy.Tensor.Assign

/-!
# Items of an array

An array is a sequence of arrays with one dimension less, its items. An index
counts from the end when it is negative.
-/

namespace ControlHierarchy.Tensor

variable {α : Type}

def item (t : Tensor α) (index : Int) : Except Error (Tensor α) :=
  match t.shape with
  | [] => .error (.fault .badIndex)
  | length :: shape => do
    checkIndex index
    let i ← resolveIndex length index
    let count := Index.volume shape
    match ofShape? shape ((t.entries.drop (i * count)).take count) with
    | some item => return item
    | none => throw (.fault .badIndex)

/-- The items of an array, to be gone through one by one; without dimensions it has none. -/
def items (t : Tensor α) : Except Error (List (Tensor α)) :=
  match t.shape with
  | [] => .error (.fault .badType)
  | length :: _ => (List.range length).mapM fun (i : Nat) => t.item i

end ControlHierarchy.Tensor
