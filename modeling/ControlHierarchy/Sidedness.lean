import ControlHierarchy.Scalar
import ControlHierarchy.Tensor.Pile

/-!
# Sides of inequality rows

Rows `l ≤ A x ≤ u` come with a lower bound, an upper bound or both. Two normal
forms remove the distinction. In the bilateral form every row has both bounds, a
missing one being filled with a sentinel. In the unilateral form rows are
bounded above only: rows bounded below are flipped, and rows bounded on both
sides appear twice. An equality is a row with two equal bounds, and takes either
form.
-/

namespace ControlHierarchy

/-- Rows with a lower and an upper bound. -/
structure BilateralRows (α : Type) where
  matrix : Tensor α
  lower : Tensor α
  upper : Tensor α

/-- Rows with an upper bound. -/
structure UnilateralRows (α : Type) where
  matrix : Tensor α
  upper : Tensor α

namespace Sidedness

variable {α : Type}

/-- Turns `l ≤ A x` into `-A x ≤ -l`. -/
def flip [Neg α] (matrix bound : Tensor α) : UnilateralRows α :=
  ⟨matrix.map (-·), bound.map (-·)⟩

def upperSentinel [BoundScalar α] (n : Nat) : Tensor α :=
  .vector (List.replicate n BoundScalar.unboundedAbove)

def lowerSentinel [BoundScalar α] (n : Nat) : Tensor α :=
  .vector (List.replicate n BoundScalar.unboundedBelow)

/-- A sentinel for a number of rows; a negative number cannot be had, nor one
that is too large. -/
def sentinelFor (n : Int) (sentinel : Nat → Tensor α) : Except Error (Tensor α) := do
  if n < 0 then throw (.fault .badValue)
  checkShape [n.toNat]
  return sentinel n.toNat

/-- A bound that is present has one entry for each row. -/
def checkBound (matrix : Tensor α) (side : Side) (bound : Tensor α) : Except Error Unit := do
  if bound.size ≠ 0 then
    let entries ← bound.leading
    let rows ← matrix.leading
    if entries ≠ rows then throw (.boundEntries rows side entries)

/-- Rows need a bound, and bounds have to fit the rows. -/
def checkBounds (matrix lower upper : Tensor α) : Except Error Unit := do
  if lower.size = 0 && upper.size = 0 then throw (.rowsUnbounded (← matrix.leading))
  checkBound matrix .lower lower
  checkBound matrix .upper upper

/-- The bilateral form of rows, of which one bound may be missing. -/
def toBilateral [BoundScalar α] (matrix lower upper : Tensor α) :
    Except Error (BilateralRows α) := do
  checkBounds matrix lower upper
  if upper.size = 0 then return ⟨matrix, lower, upperSentinel (← matrix.leading)⟩
  else if lower.size = 0 then return ⟨matrix, lowerSentinel (← matrix.leading), upper⟩
  else return ⟨matrix, lower, upper⟩

def UnilateralRows.pile (top bottom : UnilateralRows α) : Except Error (UnilateralRows α) := do
  let matrix ← top.matrix.pile bottom.matrix
  let upper ← top.upper.pile bottom.upper
  return ⟨matrix, upper⟩

/-- The unilateral form of rows, of which one bound may be missing. -/
def toUnilateral [Neg α] (matrix lower upper : Tensor α) : Except Error (UnilateralRows α) := do
  checkBounds matrix lower upper
  if upper.size = 0 then return flip matrix lower
  else if lower.size = 0 then return ⟨matrix, upper⟩
  else UnilateralRows.pile ⟨matrix, upper⟩ (flip matrix lower)

/-- The bilateral form of an equality: both bounds are its right-hand side. -/
def equalityToBilateral (matrix rightHandSide : Tensor α) : BilateralRows α :=
  ⟨matrix, rightHandSide, rightHandSide⟩

/-- The unilateral form of an equality: its rows, followed by the flipped ones. -/
def equalityToUnilateral [Neg α] (matrix rightHandSide : Tensor α) :
    Except Error (UnilateralRows α) :=
  UnilateralRows.pile ⟨matrix, rightHandSide⟩ (flip matrix rightHandSide)

end Sidedness

end ControlHierarchy
