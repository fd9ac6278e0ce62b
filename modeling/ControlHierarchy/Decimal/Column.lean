import ControlHierarchy.Decimal.Shortest

/-!
# Columns of decimals

Numbers that stand beside each other are written in one form and with one width.
A `Column` holds these choices for a list of numbers: eight digits after the
point at most, as few as all of the numbers need, and exponents when the numbers
are large or small or lie far apart. Points are aligned, and what a number lacks
before or behind its point is filled with blanks. Before an exponent there are
no blanks: as many digits are written as the column has places, those of the
double itself once its shortest decimal is used up.
-/

namespace ControlHierarchy.Decimal

/-- The most digits behind a point. -/
def precision : Nat := 8

/-- The decimal with its last digit at a place that is nearest to a positive double. -/
def nearestAt (mantissa : Nat) (exponent place : Int) : Nat :=
  let below := floorAt mantissa exponent place
  if roundsUp mantissa exponent below place then below + 1 else below

/-- The decimal of a positive double whose last digit stands at `lowest` or
before: the shortest one, or else the nearest. -/
def roundedAt (mantissa : Nat) (exponent lowest : Int) : Nat × Int :=
  let (digits, place) := shortest mantissa exponent
  if lowest ≤ place then (digits, place)
  else
    let nearest := nearestAt mantissa exponent lowest
    withoutZeros (toString nearest).length nearest lowest

/-- The decimal with a number of digits behind the first one that is nearest to
a positive double. A carry into a new first digit leaves a zero at the end,
which is dropped. -/
def exactTo (places mantissa : Nat) (exponent : Int) : Nat × Int :=
  let place := leadingPlace mantissa exponent - places
  let digits := nearestAt mantissa exponent place
  if (toString digits).length = places + 1 then (digits, place) else (digits / 10, place + 1)

/-- A number taken apart at its point. -/
structure Written where
  /-- The sign and what stands before the point. -/
  whole : String
  fraction : String
  exponent : Int

def zeros (count : Nat) : String := String.ofList (List.replicate count '0')

def blanks (count : Nat) : String := String.ofList (List.replicate count ' ')

def Written.plain (sign : String) (digits : Nat) (place : Int) : Written :=
  let text := toString digits
  if 0 ≤ place then ⟨sign ++ text ++ zeros place.toNat, "", 0⟩
  else
    let behind := (-place).toNat
    let padded := (zeros (behind + 1 - text.length) ++ text).toList
    let before := padded.length - behind
    ⟨sign ++ String.ofList (padded.take before), String.ofList (padded.drop before), 0⟩

/-- Digits and their place as a number with the point behind its first digit. -/
def Written.normalized (sign : String) (digits : Nat) (place : Int) : Written :=
  let text := (toString digits).toList
  ⟨sign ++ String.ofList (text.take 1), String.ofList (text.drop 1),
    place + (text.length - 1 : Nat)⟩

/-- The decimal of a positive double with some digits behind its point at most. -/
def shortTo (scientific : Bool) (places mantissa : Nat) (exponent : Int) : Nat × Int :=
  roundedAt mantissa exponent
    (if scientific then leadingPlace mantissa exponent - places else -places)

/-- A finite double, given how its decimal is found. -/
def Written.ofDouble? (scientific : Bool) (decimal : Nat → Int → Nat × Int) (x : Float) :
    Option Written :=
  match Double.value x with
  | .undefined | .infinite _ => none
  | .finite negative mantissa exponent =>
    let sign := if negative then "-" else ""
    if mantissa = 0 then some ⟨sign ++ "0", "", 0⟩
    else
      let (digits, place) := decimal mantissa exponent
      some (if scientific then .normalized sign digits place else .plain sign digits place)

/-- The common form of several numbers. -/
structure Column where
  scientific : Bool
  /-- The characters before the point. -/
  left : Nat
  /-- The digits behind the point. -/
  places : Nat
  exponentDigits : Nat

namespace Column

def widest (widths : List Nat) : Nat := widths.foldl max 0

def needsExponents (numbers : List Float) : Bool :=
  let sizes := (numbers.filter fun x => x.isFinite && x != 0).map Double.magnitude
  match sizes with
  | [] => false
  | first :: rest =>
    let largest := rest.foldl max first
    let smallest := rest.foldl min first
    decide (1e8 ≤ largest) || decide (smallest < 1e-4) || decide (1000 < largest / smallest)

/-- The characters behind the characters before the point. -/
def right (c : Column) : Nat := c.places + 1 + if c.scientific then c.exponentDigits + 2 else 0

def special (x : Float) : String := if x.isNaN then "nan" else if x < 0 then "-inf" else "inf"

def ofNumbers (numbers : List Float) : Column :=
  let scientific := needsExponents numbers
  let written := numbers.filterMap (Written.ofDouble? scientific (shortTo scientific precision))
  let exponents :=
    if scientific then written.map fun w => (toString w.exponent.natAbs).length else []
  let column : Column :=
    ⟨scientific, widest (written.map (·.whole.length)), widest (written.map (·.fraction.length)),
    widest (2 :: exponents)⟩
  let specials := numbers.filter fun x => !x.isFinite
  if specials.isEmpty then column
  else
    let longest := widest (3 :: specials.map fun x => (special x).length)
    if written.isEmpty then { column with left := longest - 1 }
    else { column with left := max column.left (longest - column.right) }

def render (c : Column) (x : Float) : String :=
  match Written.ofDouble? c.scientific
      ((if c.scientific then exactTo else shortTo false) c.places) x with
  | none => blanks (c.left + c.right - (special x).length) ++ special x
  | some w =>
    let whole := blanks (c.left - w.whole.length) ++ w.whole ++ "." ++ w.fraction
    if c.scientific then
      let size := toString w.exponent.natAbs
      whole ++ zeros (c.places - w.fraction.length) ++ "e" ++
        (if w.exponent < 0 then "-" else "+") ++ zeros (c.exponentDigits - size.length) ++ size
    else whole ++ blanks (c.places - w.fraction.length)

end Column

end ControlHierarchy.Decimal
