import ControlHierarchy.Decimal.Column
import ControlHierarchy.Tensor.Basic

/-!
# Arrays as text

An array of numbers is written with brackets around each dimension. The numbers
have the form of one column. Rows stand below each other, and a row that does
not fit on a line goes on below its first number. A large array is abridged: of
a long dimension only some items at both ends are written, and the others do not
count for the form of the column. What the brackets do not show is written
behind them: the shape of an array that is abridged or without entries, and in
the latter case what the entries would be.
-/

namespace ControlHierarchy.Tensor

/-- The most entries of an array that is written in full. -/
def mostWritten : Nat := 1000

/-- How many items are written at each end of a long dimension of an abridged array. -/
def edge : Nat := 3

def lineWidth : Nat := 75

/-- The items that are written, with a gap in the place of those that are left out. -/
def abridge {β : Type} (short : Bool) (items : List β) : List (Option β) :=
  if short && 2 * edge < items.length then
    (items.take edge).map some ++ none :: (items.drop (items.length - edge)).map some
  else items.map some

def written {α : Type} (short : Bool) : (shape : List Nat) → (entries : List α) → List α
  | [], entries => entries
  | count :: shape, entries =>
    ((abridge short (pieces (Index.volume shape) count entries)).filterMap id).flatMap
      (written short shape)

/-- Appends a word to the lines of a row; the lines before the last one are done. -/
def extend (width : Nat) (indent : String) (lines : String × String) (word : String) :
    String × String :=
  let (done, line) := lines
  if width < line.length + word.length && indent.length < line.length then
    (done ++ String.ofList (line.toList.reverse.dropWhile (· = ' ')).reverse ++ "\n",
      indent ++ word)
  else (done, line ++ word)

/-- Words behind each other, on lines of a width that start below the first word. -/
def row (width : Nat) (indent : String) : List String → String
  | [] => ""
  | first :: rest =>
    let (done, line) := rest.foldl
      (fun lines word => extend width indent (lines.1, lines.2 ++ ", ") word)
      (extend width indent ("", indent) first)
    String.ofList ((done ++ line).toList.drop indent.length)

def wordOrGap {β : Type} (word : β → String) : Option β → String
  | some item => word item
  | none => "..."

def bracketed {α : Type} (short : Bool) (word : α → String) (width : Nat) (indent : String) :
    (shape : List Nat) → (entries : List α) → String
  | [], entries => String.join (entries.map word)
  | [_], entries =>
    "[" ++ row (width - 1) indent ((abridge short entries).map (wordOrGap word)) ++ "]"
  | count :: shape, entries =>
    let items := abridge short (pieces (Index.volume shape) count entries)
    let lines := items.map (wordOrGap (bracketed short word (width - 1) (indent ++ " ") shape))
    "[" ++ ("," ++ String.ofList (List.replicate shape.length '\n') ++ indent).intercalate lines ++
      "]"

def opening : String := "array("

/-- The text of an array made of its entries in brackets and of remarks, which
go on another line if they do not fit. -/
def withRemarks (brackets : String) (remarks : List String) : String :=
  let text := opening ++ brackets
  if remarks.isEmpty then text ++ ")"
  else
    let last := (text.toList.reverse.takeWhile (· ≠ '\n')).length + 1
    let remark := ", ".intercalate remarks ++ ")"
    text ++ "," ++
      (if lineWidth < last + remark.length + 1 then "\n" ++ Decimal.blanks opening.length
        else " ") ++ remark

/-- The text of an array without entries, given what the entries would be. -/
def emptyText {α : Type} (entries : String) (t : Tensor α) : String :=
  withRemarks "[]"
    ((if t.rank = 1 then [] else ["shape=" ++ shapeText t.shape]) ++ ["dtype=" ++ entries])

/-- The remarks on the shape of an array, which it needs if it is abridged. -/
def remarksOnShape {α : Type} (short : Bool) (t : Tensor α) : List String :=
  if short then ["shape=" ++ shapeText t.shape] else []

def text (t : Tensor Float) : String :=
  if t.size = 0 then t.emptyText "float64"
  else
    let short := decide (mostWritten < t.size)
    let column := Decimal.Column.ofNumbers (written short t.shape t.entries)
    withRemarks
      (bracketed short column.render (lineWidth - 1) (Decimal.blanks (opening.length + 1)) t.shape
        t.entries)
      (t.remarksOnShape short)

/-- The text of an array of other things than numbers, given by their texts. -/
def objectsText (t : Tensor String) : String :=
  if t.size = 0 then t.emptyText "object"
  else
    let short := decide (mostWritten < t.size)
    withRemarks
      (bracketed short id (lineWidth - 1) (Decimal.blanks (opening.length + 1)) t.shape t.entries)
      (t.remarksOnShape short ++ ["dtype=object"])

end ControlHierarchy.Tensor
