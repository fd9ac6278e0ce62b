import ControlHierarchy.Double

/-!
# Scalars

Arrays are generic in their entries. Sums, products and signs are the usual
operations of the entry type; this module adds the two families of decisions
that are not arithmetic: `Scalar`, for the tests that a task makes on its gain
and on its weight, and `BoundScalar`, for the order and the sentinels of bounds.
Keeping them apart lets a statement about tasks hold over any exact field, where
no value stands for "unbounded".

The running instances are the IEEE doubles.
-/

namespace ControlHierarchy

/-- The decisions that a task makes on numbers. -/
class Scalar (α : Type) where
  /-- One half, the factor of the quadratic part of an objective. -/
  half : α
  /-- Whether a gain lies between zero and one, both included. -/
  inUnitInterval : α → Bool
  /-- Whether the first number is equal to the second up to rounding. -/
  close : α → α → Bool

/-- The order and the sentinels of bounds. -/
class BoundScalar (α : Type) where
  /-- The upper bound that excludes nothing. -/
  unboundedAbove : α
  /-- The lower bound that stands for "unbounded below". -/
  unboundedBelow : α
  /-- The larger of two lower bounds. -/
  larger : α → α → α
  /-- The smaller of two upper bounds. -/
  smaller : α → α → α
  /-- Whether an upper bound restricts a row at all. -/
  restricts : α → Bool

instance : Scalar Float where
  half := 0.5
  inUnitInterval g := decide (0 ≤ g) && decide (g ≤ 1)
  close := Double.isClose

/-- Unbounded above is `+∞`, unbounded below is the most negative finite double,
and an upper bound restricts a row when it lies strictly below the largest
double. -/
instance : BoundScalar Float where
  unboundedAbove := Double.infinity
  unboundedBelow := -Double.largest
  larger := Double.larger
  smaller := Double.smaller
  restricts h := decide (h < Double.largest)

end ControlHierarchy
