import ControlHierarchy.Double

/-!
# Shortest decimals

A finite double stands for every real number that rounds to it. Among the
decimals of that interval, `shortest` takes one with the fewest digits, and of
those the nearest to the double itself. The search looks, digit count by digit
count, at the two points of the decimal grid next to the value, in exact integer
arithmetic.

`Format` holds the remaining choices of a printed form: where positional text
ends and how an exponent is written.
-/

namespace ControlHierarchy.Decimal

/-- The rational `num / den`. -/
structure Ratio where
  num : Nat
  den : Nat

/-- The product of a natural number with a power of a base. -/
def Ratio.scaled (n base : Nat) : Int → Ratio
  | .ofNat e => ⟨n * Nat.pow base e, 1⟩
  | .negSucc e => ⟨n, Nat.pow base (e + 1)⟩

def Ratio.le (a b : Ratio) : Bool := a.num * b.den ≤ b.num * a.den

/-- Strict order of ratios with positive denominators. -/
def Ratio.lt (a b : Ratio) : Bool := a.num * b.den < b.num * a.den

/-- The ends of the interval of reals that round to `mantissa * 2 ^ exponent`,
in quarters of its last place. Below a power of two the neighbours are twice as
dense. -/
def quarterEnds (mantissa : Nat) (exponent : Int) : Nat × Nat :=
  if mantissa = Double.leadingBit && exponent ≠ -1074 then (4 * mantissa - 1, 4 * mantissa + 2)
  else (4 * mantissa - 2, 4 * mantissa + 2)

/-- Whether `digits * 10 ^ place` rounds to the double; an even mantissa owns
the ends of its interval. -/
def readsBack (mantissa : Nat) (exponent : Int) (digits : Nat) (place : Int) : Bool :=
  let ends := quarterEnds mantissa exponent
  let low := Ratio.scaled ends.1 2 (exponent - 2)
  let high := Ratio.scaled ends.2 2 (exponent - 2)
  let point := Ratio.scaled digits 10 place
  if mantissa % 2 = 0 then low.le point && point.le high else low.lt point && point.lt high

/-- The decimal exponent of the leading digit of a positive value. -/
def leadingPlace (mantissa : Nat) (exponent : Int) : Int :=
  let value := Ratio.scaled mantissa 2 exponent
  let guess := (mantissa.log2 + exponent) * 30103 / 100000
  if value.lt (Ratio.scaled 1 10 guess) then guess - 1
  else if (Ratio.scaled 1 10 (guess + 1)).le value then guess + 1
  else guess

/-- The value divided by `10 ^ place`, rounded down. -/
def floorAt (mantissa : Nat) (exponent place : Int) : Nat :=
  let value := Ratio.scaled mantissa 2 exponent
  let unit := Ratio.scaled 1 10 place
  value.num * unit.den / (value.den * unit.num)

/-- Whether the value lies nearer to `digits + 1` than to `digits`, in units of
`10 ^ place`; of two equally near ones the even one is taken. -/
def roundsUp (mantissa : Nat) (exponent : Int) (digits : Nat) (place : Int) : Bool :=
  let value := Ratio.scaled (2 * mantissa) 2 exponent
  let middle := Ratio.scaled (2 * digits + 1) 10 place
  middle.lt value || (middle.le value && digits % 2 = 1)

def gridPoint (mantissa : Nat) (exponent place : Int) : Option Nat :=
  let below := floorAt mantissa exponent place
  let reads := readsBack mantissa exponent
  match reads below place, reads (below + 1) place with
  | true, true => some (if roundsUp mantissa exponent below place then below + 1 else below)
  | true, false => some below
  | false, true => some (below + 1)
  | false, false => none

/-- Tries `fuel` grids, each ten times finer than the one before. -/
def searchGrid (mantissa : Nat) (exponent : Int) : (fuel : Nat) → (place : Int) → Nat × Int
  | 0, place => (floorAt mantissa exponent place, place)
  | fuel + 1, place =>
    match gridPoint mantissa exponent place with
    | some digits => (digits, place)
    | none => searchGrid mantissa exponent fuel (place - 1)

/-- Moves zeros at the end of the digits into the place, as many as `fuel` allows. -/
def withoutZeros : (fuel : Nat) → (digits : Nat) → (place : Int) → Nat × Int
  | 0, digits, place => (digits, place)
  | fuel + 1, digits, place =>
    if digits % 10 = 0 then withoutZeros fuel (digits / 10) (place + 1) else (digits, place)

/-- The shortest decimal `digits * 10 ^ place` of a positive double. Seventeen
digits always suffice; a grid point that carries into the place before the
leading one ends in a zero, which is dropped. -/
def shortest (mantissa : Nat) (exponent : Int) : Nat × Int :=
  let point := searchGrid mantissa exponent 17 (leadingPlace mantissa exponent)
  withoutZeros 17 point.1 point.2

/-- The choices of a printed form. -/
structure Format where
  /-- Values whose leading digit stands at one of the places from `smallest` up
  to, not including, `largest` are written positionally. -/
  smallest : Int
  largest : Int
  /-- The fewest digits of a written exponent. -/
  exponentDigits : Nat
  /-- The texts of the special values. -/
  infinity : String
  undefined : String

/-- Digits with the point after the first `whole` of them; a whole number keeps
a zero behind its point. -/
def positional (digits : String) (whole : Int) : String :=
  if whole ≤ 0 then "0." ++ String.ofList (List.replicate (-whole).toNat '0') ++ digits
  else
    let n := whole.toNat
    let padded := digits.toList ++ List.replicate (n - digits.length) '0'
    let fraction := padded.drop n
    String.ofList (padded.take n) ++ "." ++
      (if fraction.isEmpty then "0" else String.ofList fraction)

/-- Digits with the point after the first one, and the exponent of ten that
makes up for it. -/
def scientific (format : Format) (digits : String) (exponent : Int) : String :=
  let size := toString exponent.natAbs
  let padded := String.ofList (List.replicate (format.exponentDigits - size.length) '0') ++ size
  let fraction := digits.toList.drop 1
  String.ofList (digits.toList.take 1) ++
    (if fraction.isEmpty then "" else "." ++ String.ofList fraction) ++ "e" ++ (if exponent < 0 then "-" else "+") ++ padded

def Format.render (format : Format) (x : Float) : String :=
  match Double.value x with
  | .undefined => format.undefined
  | .infinite negative => (if negative then "-" else "") ++ format.infinity
  | .finite negative mantissa exponent =>
    let sign := if negative then "-" else ""
    if mantissa = 0 then sign ++ "0.0"
    else
      let (n, place) := shortest mantissa exponent
      let digits := toString n
      let leading := place + (digits.length - 1 : Nat)
      sign ++ (if format.smallest ≤ leading && leading < format.largest then
          positional digits (leading + 1)
        else scientific format digits leading)

end ControlHierarchy.Decimal
