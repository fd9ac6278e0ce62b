import ControlHierarchy.Session.Command
import ControlHierarchy.Session.Script

/-!
# Plain values as operands

An operand that is no name is a plain value and becomes a new object. As an
operand of an operator, a whole number is a double, a text may stand for one,
and a record is an array; as a factor, a value that is no number itself is taken
for what it is.
-/

namespace ControlHierarchy

namespace Session

open Script

mutual

def literalObject : Literal → Script Object
  | .absent => return .nothing
  | .flag b => newValue (.flag b)
  | .integer n => do newValue (.number (← accept (Number.doubleOf n)))
  | .real x => newValue (.number x)
  | .text word => newValue ((Double.ofWord? word).elim (.text word) .number)
  | .sequence items | .tuple items => do newValue (.sequence (← literalObjects items))
  | .record fields => do
    build (Build.newArray (← accept (ArrayData.ofLiteral (.record fields)).read))

/-- Plain values as new objects, for an operator. -/
def literalObjects : List Literal → Script (List Object)
  | [] => return []
  | item :: rest => do
    let object ← literalObject item
    return object :: (← literalObjects rest)

end

mutual

def rawObject : Literal → Script Object
  | .absent => return .nothing
  | .flag b => newValue (.flag b)
  | .integer n => newValue (.integer n)
  | .real x => newValue (.number x)
  | .text text => newValue (.text text)
  | .sequence items | .tuple items => do newValue (.sequence (← rawObjects items))
  | .record fields => newValue (.record fields)

/-- Plain values as new objects, each taken for what it is. -/
def rawObjects : List Literal → Script (List Object)
  | [] => return []
  | item :: rest => do
    let object ← rawObject item
    return object :: (← rawObjects rest)

end

def operand : Operand → Script Object
  | .named name => find name
  | .literal value => literalObject value

/-- The number that a plain value is, or stands for. -/
def loneNumber? : Literal → Except Error (Option Float)
  | .flag b => .ok (some (if b then 1 else 0))
  | .integer n => return some (← Number.doubleOf n)
  | .real x => .ok (some x)
  | .text word => .ok (Double.ofWord? word)
  | _ => .ok none

def factorObject (value : Literal) : Script Object := do
  match ← accept (loneNumber? value) with
  | some x => newValue (.number x)
  | none => rawObject value

end Session

end ControlHierarchy
