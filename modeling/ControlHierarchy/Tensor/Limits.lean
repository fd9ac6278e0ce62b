import ControlHierarchy.Error
import ControlHierarchy.Tensor.Index

/-!
# Limits of arrays

Not every shape is the shape of an array. Some have more entries than can be
addressed, which is a fact about all machines. Others have more entries than there
is memory for, which is one about the machine at hand: `Index.capacity` stands for
its memory, and all that general theorems use of this number is that it is below the
first limit.
-/

namespace ControlHierarchy

namespace Index

/-- Whether an array of a shape can exist: it has 64 dimensions at most and,
empty dimensions not counted, fewer entries than the 60th power of two. -/
def addressable (shape : List Nat) : Bool :=
  shape.length ≤ 64 && volume (shape.filter (· ≠ 0)) < 0x1000000000000000

/-- The number of entries that there is no room for any more. -/
def capacity : Nat := 0x100000000

/-- Whether there is room for an array of a shape. -/
def affordable (shape : List Nat) : Bool := volume shape < capacity

end Index

/-- A shape is refused when no array can have it, and then when there is no room for one. -/
def checkShape (shape : List Nat) : Except Error Unit :=
  if !Index.addressable shape then .error (.fault .badValue)
  else if !Index.affordable shape then .error (.fault .noRoom)
  else .ok ()

end ControlHierarchy
