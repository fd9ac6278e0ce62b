import ControlHierarchy.Tensor.Assign
import ControlHierarchy.Tensor.Product

/-!
# Views of an array

The entries of an array can be assigned through views of it: as a whole, with
the dimensions reversed, or as one row of entries in row-major order. What is
assigned to entries in a row is repeated as often as it takes. The part of an
array at the start of an index tuple is a view as well, and `replacePart` writes
it back.
-/

namespace ControlHierarchy.Tensor

variable {α : Type}

/-- Puts a part of an array, which starts at some first indices, in the place of
the one there is. -/
def replacePart (t : Tensor α) (position : List Nat) (part : Tensor α) : Tensor α :=
  let count := Index.volume (t.shape.drop position.length)
  let start := Index.offset (t.shape.take position.length) position * count
  (ofShape? t.shape (t.entries.take start ++ part.entries ++ t.entries.drop (start + count))).getD t

variable [Zero α]

/-- Assigns values to all entries, over which they are spread. -/
def assignAll (t values : Tensor α) : Except Error (Tensor α) := do
  let values ← (values.trimmed t.rank).spread t.shape
  return t.put ⟨0, [], 0, t.shape⟩ [([], [])] values

/-- Assigns values to entries in a row, given by their places, the values being
repeated. Without values nothing is assigned. -/
def assignPlaces (t : Tensor α) (places : List Nat) (values : List α) : Tensor α :=
  if values.isEmpty then t
  else
    let latest := (places.zipIdx.map fun p => (p.1, values.getD (p.2 % values.length) 0)).reverse
    (ofShape? t.shape (t.entries.zipIdx.map fun e => (latest.lookup e.2).getD e.1)).getD t

/-- Assigns values to all entries in a row, the values being repeated. -/
def assignRow (t : Tensor α) (values : List α) : Tensor α :=
  if values.isEmpty then t
  else (ofShape? t.shape (t.entries.zipIdx.map fun e => values.getD (e.2 % values.length) 0)).getD t

/-- Assigns a value at a position among all entries in a row: everywhere, at an
index, or at several indices. -/
def assignInRow (t : Tensor α) (position : Position) (value : ArrayData α) :
    Except Error (Tensor α) := do
  match position with
  | [] => return t.assignRow (← value.read).entries
  | [.integer i] =>
    let place ← resolveIndex t.size i
    match ← value.read with
    | .scalar x => return t.assignPlaces [place] [x]
    | _ => throw (.fault .badValue)
  | [.sequence items] =>
    let values ← value.read
    match ← Subscript.ofLiteral (.sequence items) with
    | .indices _ (i :: rest) =>
      if values.size = 0 then return t
      return t.assignPlaces (← (i :: rest).mapM (resolveIndex t.size)) values.entries
    | _ => throw (.fault .badIndex)
  | _ => throw (.fault .badIndex)

def assignTransposed (t : Tensor α) (position : Position) (value : ArrayData α) :
    Tensor α × Except Error Unit :=
  let (assigned, outcome) := t.transpose.assign position value
  (assigned.transpose, outcome)

end ControlHierarchy.Tensor
