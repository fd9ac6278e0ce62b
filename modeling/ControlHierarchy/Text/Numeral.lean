import ControlHierarchy.Double

/-!
# Numerals

A text may spell a number: `1.5`, `-2e3`, `.5`, `1_000`, or one of the words for
infinity and for what is no number, in letters of either case. Blanks around it
do not count, and a low line may stand between two digits. The number is the
double nearest to what is spelled; a numeral beyond the range of the doubles is
infinite.
-/

namespace ControlHierarchy.Text.Numeral

/-- Whether a character may stand around a numeral. -/
def isBlank (c : Char) : Bool := c.isWhitespace || c = '\x0b' || c = '\x0c'

def trimmed (text : List Char) : List Char :=
  ((text.dropWhile isBlank).reverse.dropWhile isBlank).reverse

def signed : List Char → Bool × List Char
  | '-' :: rest => (true, rest)
  | '+' :: rest => (false, rest)
  | rest => (false, rest)

/-- The digits of a text in which low lines stand between digits only. -/
def digits? : List Char → Option (List Char)
  | [] => some []
  | [c] => if c.isDigit then some [c] else none
  | c :: '_' :: d :: rest =>
    if c.isDigit && d.isDigit then (digits? (d :: rest)).map (c :: ·) else none
  | c :: rest => if c.isDigit then (digits? rest).map (c :: ·) else none

def natural (digits : List Char) : Nat := digits.foldl (fun n c => 10 * n + (c.toNat - '0'.toNat)) 0

/-- The part of a text before a separator and the one behind it, which is `none`
if there is no separator. -/
def cut (separator : Char) (text : List Char) : List Char × Option (List Char) :=
  let before := text.takeWhile (· ≠ separator)
  (before, (text.drop before.length).tail?)

/-- The power of ten that an exponent stands for; a missing one stands for zero. -/
def power? : Option (List Char) → Option Int
  | none => some 0
  | some text =>
    let (negative, text) := signed text
    match digits? text with
    | some [] | none => none
    | some digits => some (if negative then -(natural digits : Int) else natural digits)

/-- The double nearest to a natural number times a power of ten. Powers that are
far out of range need not be computed. -/
def scaled (digits : List Char) (power : Int) : Float :=
  let n := natural digits
  if n = 0 || power + digits.length < -400 then 0
  else if 400 < power then Double.infinity
  else (Double.ofQuotient (n * Nat.pow 10 power.toNat) (Nat.pow 10 (-power).toNat)).getD
    Double.infinity

/-- The double that a decimal without a sign spells. -/
def decimal? (text : List Char) : Option Float := do
  let (mantissa, exponent) := cut 'e' text
  let (whole, fraction) := cut '.' mantissa
  let whole ← digits? whole
  let fraction ← digits? (fraction.getD [])
  if whole.isEmpty && fraction.isEmpty then none
  let power ← power? exponent
  return scaled (whole ++ fraction) (power - fraction.length)

/-- The double that a text without a sign spells. -/
def magnitude? (text : List Char) : Option Float :=
  match String.ofList text with
  | "inf" | "infinity" => some Double.infinity
  | "nan" => some Double.undefined
  | _ => decimal? text

def value? (text : String) : Option Float :=
  let (negative, rest) := signed (trimmed (text.toList.map Char.toLower))
  (magnitude? rest).map fun x => if negative then -x else x

end ControlHierarchy.Text.Numeral
