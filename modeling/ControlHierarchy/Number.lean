import ControlHierarchy.Double
import ControlHierarchy.Error

/-!
# Numbers

A number outside of arrays is whole or a double. Sums, differences and products
of whole numbers are whole, and so are whole numbers that are shifted by whole
numbers; everything else is computed with doubles. The quotient of two whole
numbers is rounded once, however large they are. Nothing can be divided by zero,
and a whole number beyond the range of the doubles cannot be combined with a
double.
-/

namespace ControlHierarchy

/-- A number outside of arrays. -/
inductive Number (α : Type) where
  | whole (value : Int)
  | real (value : α)

/-- The binary operators. -/
inductive Operator where
  | add
  | subtract
  | times
  | over
  | attach
  deriving DecidableEq

namespace Number

def doubleOf (n : Int) : Except Error Float :=
  match Double.ofInt n with
  | some x => .ok x
  | none => .error (.fault .tooLarge)

def double : Number Float → Except Error Float
  | whole n => doubleOf n
  | real x => .ok x

/-- The double nearest to a number, which is infinite for a whole number beyond
the range of the doubles. -/
def nearest : Number Float → Float
  | whole n => (Double.ofInt n).getD (if n < 0 then -Double.infinity else Double.infinity)
  | real x => x

def neg : Number Float → Number Float
  | whole n => whole (-n)
  | real x => real (-x)

/-- A whole number times a power of two, if there is room for it. -/
def shift (n count : Int) : Except Error Int :=
  if count < 0 then .error (.fault .badValue)
  else if n = 0 then .ok 0
  else if 0x1000000 < count then .error (.fault .noRoom)
  else .ok (n * Int.ofNat (Nat.pow 2 count.toNat))

def quotient (m n : Int) : Except Error Float :=
  if n = 0 then .error (.fault .zeroDivisor)
  else
    match Double.ofQuotient m n with
    | some x => .ok x
    | none => .error (.fault .tooLarge)

end Number

namespace Operator

def onDoubles? : Operator → Option (Float → Float → Float)
  | .add => some (· + ·)
  | .subtract => some (· - ·)
  | .times => some (· * ·)
  | .over => some (· / ·)
  | .attach => none

def onNumbers (operator : Operator) (left right : Number Float) : Except Error (Number Float) := do
  match operator, left, right with
  | .add, .whole m, .whole n => return .whole (m + n)
  | .subtract, .whole m, .whole n => return .whole (m - n)
  | .times, .whole m, .whole n => return .whole (m * n)
  | .over, .whole m, .whole n => return .real (← Number.quotient m n)
  | .attach, .whole m, .whole n => return .whole (← Number.shift m n)
  | operator, left, right =>
    let some f := operator.onDoubles? | throw (.fault .badType)
    let x ← left.double
    let y ← right.double
    if operator = .over && y == 0 then throw (.fault .zeroDivisor)
    return .real (f x y)

end Operator

end ControlHierarchy
