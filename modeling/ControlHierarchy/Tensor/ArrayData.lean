import ControlHierarchy.Double
import ControlHierarchy.Tensor.Basic
import ControlHierarchy.Text.Numeral

/-!
# Reading arrays

Callers write arrays as numbers in nested lists, or as a shape with the entries
that fill it. `ArrayData.read` accepts such data when all lists at one depth
have the same length and all entries are numbers; the depth and the lengths are
the shape. The two functions below it, `readVector` and `readMatrix`, are what
the setters of constraints and tasks use: an absent array is empty, and a matrix
without entries takes the number of columns that its owner expects, whatever its
shape was.

Some data is refused for itself, wherever it stands: a number out of range, and
entries that do not fill their shape. An operation may notice this as soon as it
is given the data (`checkUsable`), while lists are only looked at when they are
read.

Two rules make data of a plain value. `ofLiteral` knows the words for special
numbers and the records of a shape and its entries. `ofRaw` takes a value for
what it is, so that it has no records, and as texts only numerals; it is the
rule for what stands deep in the entries of a record.
-/

namespace ControlHierarchy

/-- Array data as callers write it. -/
inductive ArrayData (α : Type) where
  | number (value : α)
  /-- An entry that stands for no number, and what is wrong with it. -/
  | unreadable (cause : Fault)
  | list (items : List (ArrayData α))
  | shaped (array : Tensor α)
  | refused (cause : Fault)

namespace ArrayData

variable {α : Type}

/-- A whole number as an entry; it may be out of range. -/
def ofInt (n : Int) : ArrayData Float :=
  match Double.ofInt n with
  | some x => .number x
  | none => .refused .tooLarge

mutual

/-- Why data is refused for itself, if it is; the first such cause. -/
def refusal? : ArrayData α → Option Fault
  | .refused cause => some cause
  | .list items => anyRefusal? items
  | _ => none

/-- Why one of several pieces of data is refused for itself, if one is. -/
def anyRefusal? : List (ArrayData α) → Option Fault
  | [] => none
  | item :: rest => (refusal? item).or (anyRefusal? rest)

end

def checkUsable (data : List (ArrayData α)) : Except Error Unit :=
  match anyRefusal? data with
  | some cause => .error (.fault cause)
  | none => .ok ()

/-- Arrays of one shape, given as shape and entries, put behind each other along
a new first dimension. -/
def stack? : List (List Nat × List α) → Option (List Nat × List α)
  | [] => some ([0], [])
  | (shape, entries) :: rest =>
    if rest.all fun item => item.1 == shape then
      some ((rest.length + 1) :: shape, entries ++ rest.flatMap Prod.snd)
    else none

mutual

/-- The shape and the entries of array data, unless it is ragged. -/
def parts? : ArrayData α → Option (List Nat × List (Except Fault α))
  | .number a => some ([], [.ok a])
  | .unreadable cause | .refused cause => some ([], [.error cause])
  | .shaped t => some (t.shape, t.entries.map .ok)
  | .list items => (allParts? items).bind stack?

def allParts? : List (ArrayData α) → Option (List (List Nat × List (Except Fault α)))
  | [] => some []
  | item :: rest =>
    match parts? item, allParts? rest with
    | some part, some parts => some (part :: parts)
    | _, _ => none

end

def array? (shape : List Nat) (entries : List α) : Option (Tensor α) :=
  if Index.addressable shape && Index.affordable shape then Tensor.ofShape? shape entries else none

/-- The entries of an array, unless one of them is no number; the first such one
decides what is wrong. -/
def readEntries (entries : List (Except Fault α)) : Except Error (List α) :=
  (entries.mapM id).mapError .fault

def read (d : ArrayData α) : Except Error (Tensor α) := do
  if let .shaped t := d then return t
  checkUsable [d]
  match d.parts? with
  | none => throw (.fault .badValue)
  | some (shape, entries) =>
    match array? shape (← readEntries entries) with
    | some t => return t
    | none => throw (.fault .badValue)

/-- The dimensions of a shape in which one dimension may be left open, by a
negative number, to be found from the number of entries. -/
def closeShape (shape : List Int) (count : Nat) : Option (List Nat) :=
  match shape.filter (· < 0) with
  | [] => some (shape.map Int.toNat)
  | [_] =>
    let known := Index.volume ((shape.filter (0 ≤ ·)).map Int.toNat)
    if known = 0 || count % known ≠ 0 then none
    else some (shape.map fun d => if d < 0 then count / known else d.toNat)
  | _ => none

/-- The data of an array whose entries are put into another shape, if they fill it. -/
def reshaped (shape : List Int) (t : Tensor α) : ArrayData α :=
  match (closeShape shape t.size).bind fun shape => array? shape t.entries with
  | some t => .shaped t
  | none => .refused .badValue

/-- The dimension that a plain value stands for: a whole number that fits in a word. -/
def dimension : Literal → Except Fault Int
  | .integer n =>
    if -0x8000000000000000 ≤ n && n < 0x8000000000000000 then .ok n else .error .badValue
  | _ => .error .badType

/-- The shape that a plain value stands for; a single number is that of a
vector, and an absent one leaves the shape as it is. -/
def dimensions : Literal → Except Fault (Option (List Int))
  | .absent => .ok none
  | .sequence items => return some (← items.mapM dimension)
  | value => return some [← dimension value]

def ofText (text : String) : ArrayData Float :=
  (Text.Numeral.value? text).elim (.unreadable .badValue) .number

mutual

/-- A plain value as array data, taken for what it is. An absent entry is no number. -/
def ofRaw : Literal → ArrayData Float
  | .absent => .number Double.undefined
  | .flag b => .number (if b then 1 else 0)
  | .integer n => (Double.ofInt n).elim (.unreadable .tooLarge) .number
  | .real x => .number x
  | .text text => ofText text
  | .sequence items | .tuple items => .list (ofRawItems items)
  | .record _ => .unreadable .badType

/-- Plain values as array data, each taken for what it is. -/
def ofRawItems : List Literal → List (ArrayData Float)
  | [] => []
  | item :: rest => ofRaw item :: ofRawItems rest

end

/-- A plain value that is no list as array data, words of numbers being known. -/
def ofScalar : Literal → ArrayData Float
  | .integer n => ofInt n
  | .text word => (Double.ofWord? word).elim (ofText word) .number
  | value => ofRaw value

/-- The entries of a record, which have to be listed; a text lists its
characters, and a record its names. -/
def entriesOf : Literal → Except Fault (List (ArrayData Float))
  | .sequence items | .tuple items => .ok (items.map ofScalar)
  | .text text => .ok (text.toList.map fun c => ofScalar (.text (String.singleton c)))
  | .record fields => .ok (fields.map fun field => ofScalar (.text field.1))
  | _ => .error .badType

/-- The array data of a record with a shape and the entries that fill it in
row-major order. -/
def ofRecord (fields : List (String × Literal)) : Except Fault (ArrayData Float) := do
  let some data := fields.lookup "data" | throw .noKey
  match (ArrayData.list (← entriesOf data)).read with
  | .error (.fault cause) => throw cause
  | .error _ => throw .badValue
  | .ok t =>
    let some shape := fields.lookup "shape" | throw .noKey
    match ← dimensions shape with
    | some shape => return reshaped shape t
    | none => return .shaped t

mutual

def ofLiteral : Literal → ArrayData Float
  | .sequence items | .tuple items => .list (ofLiterals items)
  | .record fields =>
    match ofRecord fields with
    | .ok data => data
    | .error cause => .refused cause
  | value => ofScalar value

/-- Pieces of array data, each written as a plain value. -/
def ofLiterals : List Literal → List (ArrayData Float)
  | [] => []
  | item :: rest => ofLiteral item :: ofLiterals rest

end

/-- The entries of a vector; an absent one is empty. -/
def readVector : Option (ArrayData α) → Except Error (List α)
  | none => .ok []
  | some d => do
    match ← d.read with
    | .vector v => .ok v
    | t => .error (.notVector t.shape)

/-- A matrix; an absent one and one without entries have no rows and `columns` columns. -/
def readMatrix (columns : Int) : Option (ArrayData α) → Except Error (RowMatrix α)
  | none => RowMatrix.withoutRows columns
  | some d => do
    let t ← d.read
    if t.size = 0 then RowMatrix.withoutRows columns
    else
      match t with
      | .matrix m => .ok m
      | t => .error (.notMatrix t.shape)

end ArrayData

end ControlHierarchy
