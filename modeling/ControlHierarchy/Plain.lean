import ControlHierarchy.Number
import ControlHierarchy.Reference
import ControlHierarchy.Task.Body

/-!
# Plain values

What an operation gives out besides constraints, tasks and the like is a plain
value: a number, a text, a list of objects, an array, a record. Two of them hold
nothing themselves and show what others hold at the moment: the list of what is
attached to a task, and an array, which is a window into a cell of entries.

A value never changes, but a value is one object and another one with the same
contents is a second object, except where there is only one object with these
contents: `shared` says when.
-/

namespace ControlHierarchy

/-- A plain value. -/
inductive Plain (α : Type) where
  | flag (value : Bool)
  | integer (value : Int)
  /-- The word of a policy that was validated. -/
  | policy (word : Int)
  | number (value : α)
  /-- A number that was taken out of an array. -/
  | entry (value : α)
  | text (value : String)
  | label (value : HessianLabel)
  | sequence (items : List Object)
  | tuple (items : List Object)
  /-- The list of what is attached to a task: the one that the task had after it
  gave up `version` lists. -/
  | attached (t : TaskRef) (version : Nat)
  /-- The entries of an array whose positions start with the given one. -/
  | array (id : Nat) (position : List Nat)
  /-- An array of objects. It is the result of an operation on objects, and so
  has numbers as entries, if it has any. -/
  | objects (array : Tensor (Number α))
  | record (fields : List (String × Literal))

namespace Plain

variable {α : Type}

def ofNumber : Number α → Plain α
  | .whole n => integer n
  | .real x => number x

def whole? : Plain α → Option Int
  | flag b => some (if b then 1 else 0)
  | integer n | policy n => some n
  | _ => none

/-- The answer of a check that found nothing. -/
def passed : Plain α := text "ok"

/-- Whether there is only one text with the characters of this one: it has one
character at most, of the first 256. -/
def isSharedText (s : String) : Bool := s.length ≤ 1 && s.toList.all (·.toNat < 256)

/-- Whether two values are one object because there is only one with their contents. -/
def shared : Plain α → Plain α → Bool
  | flag a, flag b => a == b
  | integer m, integer n => m == n && -5 ≤ m && m ≤ 256
  | policy m, policy n => m == n
  | text s, text t => s == t && isSharedText s
  | label a, label b => a == b
  | tuple [], tuple [] => true
  | attached t i, attached u j => t.same u && i == j
  | _, _ => false

end Plain

end ControlHierarchy
