/-!
# Doubles, taken apart

The running scalars are IEEE doubles. This module names the special ones,
defines the comparisons that bounds and weights use, reads a double as an exact
number, which is a sign, a natural mantissa and a power of two, and finds the
double nearest to a quotient of whole numbers.
-/

namespace ControlHierarchy.Double

def infinity : Float := Float.ofBits 0x7FF0000000000000

def largest : Float := Float.ofBits 0x7FEFFFFFFFFFFFFF

/-- Not a number, the value of an absent entry. -/
def undefined : Float := Float.ofBits 0x7FF8000000000000

/-- The absolute value; a NaN is returned as it is. -/
def magnitude (a : Float) : Float := if a < 0 then -a else a

/-- Closeness of `a` to `b`: within `1e-8 + 1e-5 * |b|` of a finite `b`, or equal. -/
def isClose (a b : Float) : Bool :=
  (decide (magnitude (a - b) ≤ 1e-8 + 1e-5 * magnitude b) && b.isFinite) || a == b

/-- The larger of two doubles; a NaN on either side wins. -/
def larger (a b : Float) : Float := if a.isNaN || decide (b ≤ a) then a else b

/-- The smaller of two doubles; a NaN on either side wins. -/
def smaller (a b : Float) : Float := if a.isNaN || decide (a ≤ b) then a else b

/-- What a double stands for. A finite one is `± mantissa * 2 ^ exponent`; of a
zero the sign is kept. -/
inductive Value where
  | undefined
  | infinite (negative : Bool)
  | finite (negative : Bool) (mantissa : Nat) (exponent : Int)

/-- The weight of the leading bit of the mantissa of a normal double, the 52nd
power of two. -/
def leadingBit : Nat := 0x10000000000000

/-- The number that a double stands for, with the exponent of its last place:
the mantissa lies below `2 * leadingBit`. -/
def value (x : Float) : Value :=
  let bits := x.toBits.toNat
  let negative := bits / 0x8000000000000000 == 1
  let biased : Nat := bits / leadingBit % 0x800
  let fraction : Nat := bits % leadingBit
  if biased = 0x7FF then
    if fraction = 0 then .infinite negative else .undefined
  else if biased = 0 then .finite negative fraction (-1074)
  else .finite negative (leadingBit + fraction) (Int.ofNat biased - 1075)

/-- The exponent of the leading bit of a positive quotient. -/
def leadingExponent (num den : Nat) : Int :=
  let guess : Int := Int.ofNat num.log2 - Int.ofNat den.log2
  if num * Nat.pow 2 (-guess).toNat < den * Nat.pow 2 guess.toNat then guess - 1 else guess

/-- The whole number nearest to a quotient; of two equally near ones the even one. -/
def nearestWhole (num den : Nat) : Nat :=
  let below := num / den
  let twice := 2 * (num % den)
  if den < twice || (twice = den && below % 2 = 1) then below + 1 else below

/-- The bits of the double nearest to a positive quotient. The exponent of its
last place is counted from the one of the least double, and a mantissa that
fills all of its places carries into the exponent by itself. -/
def bitsOfQuotient (num den : Nat) : Nat :=
  let place := max (leadingExponent num den - 52) (-1074)
  let mantissa := nearestWhole (num * Nat.pow 2 (-place).toNat) (den * Nat.pow 2 place.toNat)
  (place + 1074).toNat * leadingBit + mantissa

/-- The double nearest to a quotient, unless it is too large. Of a zero the sign
is that of the quotient of the signs. -/
def ofQuotient (num den : Int) : Option Float :=
  let bits := if num = 0 then 0 else bitsOfQuotient num.natAbs den.natAbs
  let magnitude := Float.ofBits bits.toUInt64
  if 0x7FF0000000000000 ≤ bits then none
  else some (if decide (num < 0) == decide (den < 0) then magnitude else -magnitude)

/-- The double nearest to a whole number, unless it is too large. -/
def ofInt (n : Int) : Option Float := ofQuotient n 1

def ofWord? : String → Option Float
  | "inf" => some infinity
  | "-inf" => some (-infinity)
  | "nan" => some undefined
  | "-0" => some (-0.0)
  | "max" => some largest
  | "-max" => some (-largest)
  | _ => none

/-- Takes factors of two out of a mantissa, as many as `fuel` allows. -/
def oddPart : (fuel : Nat) → (mantissa : Nat) → (exponent : Int) → Nat × Int
  | 0, m, e => (m, e)
  | fuel + 1, m, e => if m % 2 = 0 then oddPart fuel (m / 2) (e + 1) else (m, e)

end ControlHierarchy.Double
