import ControlHierarchy.Problem

/-!
# Records

Objectives and quadratic programs are handed over as records of plain values. A
record loses no digit: a double that is a whole number of moderate size is
written as such, and any other one as an odd number and the power of two that it
is multiplied with, `3p-1` being one and a half. An array is a record of its
shape and its entries.
-/

namespace ControlHierarchy

namespace Literal

/-- The largest whole number below which no double is missing, the 53rd power of two. -/
def exactWhole : Nat := 2 * Double.leadingBit

def exact (x : Float) : Literal :=
  match Double.value x with
  | .undefined => .text "nan"
  | .infinite negative => .text (if negative then "-inf" else "inf")
  | .finite negative mantissa exponent =>
    if mantissa = 0 then if negative then .text "-0" else .integer 0
    else
      let (odd, power) := Double.oddPart 64 mantissa exponent
      let signed : Int := if negative then -odd else odd
      let factor := Nat.pow 2 power.toNat
      if 0 ≤ power && odd * factor ≤ exactWhole then .integer (signed * Int.ofNat factor)
      else .text (toString signed ++ "p" ++ toString power)

/-- An array as an exact plain value. -/
def ofTensor (t : Tensor Float) : Literal :=
  .record [("shape", .sequence (t.shape.map fun d => .integer (Int.ofNat d))),
    ("data", .sequence (t.entries.map exact))]

/-- An array that may be absent as an exact plain value. -/
def ofTensor? : Option (Tensor Float) → Literal
  | some t => ofTensor t
  | none => .absent

mutual

/-- The plain value that is kept in a record for a given one: numbers, and texts
that stand for numbers, are doubles, and arrays are exact. -/
def kept : Literal → Literal
  | .integer n => .real ((Double.ofInt n).getD Double.undefined)
  | .text s => (Double.ofWord? s).elim (.text s) .real
  | .sequence items | .tuple items => .sequence (keptAll items)
  | .record fields =>
    match (ArrayData.ofLiteral (.record fields)).read with
    | .ok t => ofTensor t
    | .error _ => .absent
  | value => value

/-- The plain values that are kept in a record for given ones. -/
def keptAll : List Literal → List Literal
  | [] => []
  | item :: rest => kept item :: keptAll rest

end

/-- The number of elements of a plain value that has some. A text that stands
for a number has none. -/
def length? (value : Literal) : Option Nat :=
  match value with
  | .sequence items | .tuple items => some items.length
  | .text s => if (Double.ofWord? s).isSome then none else some s.length
  | .record _ => (ArrayData.ofLiteral value).read.toOption.bind fun t => t.shape.head?
  | _ => none

/-- The name and the value that an item stands for which a record is brought up
to date with: a pair that starts with a text, or a text of two characters. -/
def asField (item : Literal) : Except Fault (String × Literal) :=
  match item.length?, item with
  | some 2, .sequence [.text name, value] => .ok (name, kept value)
  | some 2, .text s =>
    .ok (String.ofList (s.toList.take 1), .text (String.ofList (s.toList.drop 1)))
  | some 2, _ | none, _ => .error .badType
  | some _, _ => .error .badValue

/-- The items that a record is brought up to date with; only those of lists can
be names with values. -/
def asFields (value : Literal) : Except Fault (List (String × Literal)) :=
  match value.length?, value with
  | none, _ => .error .badType
  | some _, .sequence items => items.mapM asField
  | some 0, _ => .ok []
  | some _, .record _ =>
    match (ArrayData.ofLiteral value).read with
    | .ok t => if (t.shape.drop 1).all (· = 2) then .error .badType else .error .badValue
    | .error _ => .error .badType
  | some _, _ => .error .badValue

/-- Puts a named value into a record, in the place of the one with the same name
or behind all others. -/
def setField (fields : List (String × Literal)) (name : String) (value : Literal) :
    List (String × Literal) :=
  if fields.any (·.1 == name) then fields.map fun f => if f.1 == name then (name, value) else f
  else fields ++ [(name, value)]

end Literal

def Objective.record (o : Objective Float) (value : Option Float) : List (String × Literal) :=
  [("H", .ofTensor o.hessian), ("c", .ofTensor o.linear)] ++
    (value.map fun v => ("value", Literal.exact v)).toList

def Problem.record (p : Problem Float) : List (String × Literal) := [
  ("P", .ofTensor p.objective.hessian),
  ("q", .ofTensor p.objective.linear),
  ("G", .ofTensor? (p.inequalities.map (·.matrix))),
  ("h", .ofTensor? (p.inequalities.map (·.upper))),
  ("A", .ofTensor? (p.equalities.map Prod.fst)),
  ("b", .ofTensor? (p.equalities.map Prod.snd)),
  ("lb", .ofTensor? (p.box.map Prod.fst)),
  ("ub", .ofTensor? (p.box.map Prod.snd))]

end ControlHierarchy
