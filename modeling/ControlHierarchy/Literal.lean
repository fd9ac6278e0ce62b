import ControlHierarchy.Decimal.Shortest
import ControlHierarchy.Text.Quoted

/-!
# Literals

A value that was passed where something else was expected appears in the error
text. A `Literal` is any such plain value, and it has two written forms:
`spelled`, unambiguous, with texts in quotes; and `shown`, in which a text that
stands alone is written as it is.
-/

namespace ControlHierarchy

/-- A plain value. -/
inductive Literal where
  | absent
  | flag (value : Bool)
  | integer (value : Int)
  | real (value : Float)
  | text (value : String)
  | sequence (items : List Literal)
  | tuple (items : List Literal)
  | record (fields : List (String × Literal))

namespace Literal

/-- Doubles are written positionally from `1e-4` up to below `1e16`; an exponent
has two digits at least. -/
def realFormat : Decimal.Format := ⟨-4, 16, 2, "inf", "nan"⟩

/-- Items between parentheses; a single one is followed by a comma. -/
def enclosed : List String → String
  | [item] => "(" ++ item ++ ",)"
  | items => "(" ++ ", ".intercalate items ++ ")"

mutual

def spelled : Literal → String
  | .absent => "None"
  | .flag true => "True"
  | .flag false => "False"
  | .integer n => toString n
  | .real x => realFormat.render x
  | .text s => Text.quoted s
  | .sequence items => "[" ++ ", ".intercalate (spelledAll items) ++ "]"
  | .tuple items => enclosed (spelledAll items)
  | .record fields => "\x7b" ++ ", ".intercalate (spelledFields fields) ++ "\x7d"

/-- The unambiguous forms of several values. -/
def spelledAll : List Literal → List String
  | [] => []
  | item :: rest => spelled item :: spelledAll rest

/-- The named values of a record, each behind its name. -/
def spelledFields : List (String × Literal) → List String
  | [] => []
  | (name, item) :: rest => (Text.quoted name ++ ": " ++ spelled item) :: spelledFields rest

end

def shown : Literal → String
  | .text s => s
  | value => spelled value

mutual

def leaves : Literal → List Literal
  | .sequence items | .tuple items => leavesAll items
  | value => [value]

/-- The values at the ends of several lists of lists, in order. -/
def leavesAll : List Literal → List Literal
  | [] => []
  | item :: rest => leaves item ++ leavesAll rest

end

end Literal

end ControlHierarchy
