import ControlHierarchy.Tensor.ArrayData

/-!
# Assigning entries

A position is a list of plain values, its subscripts, which go along the
dimensions of an array from the first one on. A whole number is an index of one
dimension; a negative one counts from the end. A list of whole numbers, in any
arrangement, gives several indices of one dimension, and a list of marks gives
the indices of the marked entries of as many dimensions as the arrangement of
the marks has. Where several subscripts give several indices, they are taken in
step: their arrangements have a common shape, and each place of it is a step. An
absent value uses no dimension and selects everything; a single mark uses no
dimension either and makes one step or none.

A `Selection` holds what has been found out about a position, and
`Selection.tuples` are the index tuples that it stands for. The entries whose
index tuples start with one of these are assigned. They form an array of their
own, of the shape `Selection.frame`, and what is assigned to them is a number,
or a list that is spread over this array. When a list that fills the array turns
out to hold something else than numbers, its items before that one are assigned
nevertheless.
-/

namespace ControlHierarchy

/-- The subscripts for the first dimensions of an array. -/
abbrev Position := List Literal

/-- A subscript that has been read. -/
inductive Subscript where
  | index (i : Int)
  | everything
  /-- Several indices of one dimension, in row-major order. -/
  | indices (shape : List Nat) (list : List Int)
  /-- Marks of entries of several dimensions, in row-major order. -/
  | marks (shape : List Nat) (list : List Bool)

/-- An index of a single entry fits in a word with a sign; one that only fits in
a word without a sign is too large. -/
def checkIndex (i : Int) : Except Error Unit :=
  if -0x8000000000000000 ≤ i && i < 0x8000000000000000 then .ok ()
  else if 0 ≤ i && i < 0x10000000000000000 then .error (.fault .tooLarge)
  else .error (.fault .badIndex)

namespace Subscript

mutual

def arranged : Literal → ArrayData Literal
  | .sequence items => .list (arrangedAll items)
  | value => .number value

def arrangedAll : List Literal → List (ArrayData Literal)
  | [] => []
  | item :: rest => arranged item :: arrangedAll rest

end

def mark? : Literal → Option Bool
  | .flag b => some b
  | _ => none

/-- The index that a plain value is; a mark among indices counts as one or zero. -/
def index? : Literal → Option Int
  | .flag b => some (if b then 1 else 0)
  | .integer n => some n
  | _ => none

/-- A whole number that is an index by itself, and no mark. -/
def whole? : Literal → Option Int
  | .integer n => some n
  | _ => none

/-- The index that a word without a sign is, read as the word with a sign that
has the same bits. -/
def ofWord (i : Int) : Int := if 0x8000000000000000 ≤ i then i - 0x10000000000000000 else i

/-- Several indices of one dimension, of which `numbers` are not marks. These
have to fit in words with a sign; or none of them does, but all in words
without. -/
def ofIndices (shape : List Nat) (numbers list : List Int) : Except Error Subscript :=
  if numbers.all fun i => -0x8000000000000000 ≤ i && i < 0x8000000000000000 then
    .ok (.indices shape list)
  else if numbers.all fun i => 0x8000000000000000 ≤ i && i < 0x10000000000000000 then
    .ok (.indices shape (list.map ofWord))
  else .error (.fault .badIndex)

def ofEntries (shape : List Nat) (entries : List Literal) : Except Error Subscript :=
  if entries.isEmpty then .ok (.indices shape [])
  else
    match entries.mapM mark?, entries.mapM index? with
    | some list, _ => .ok (.marks shape list)
    | none, some list => ofIndices shape (entries.filterMap whole?) list
    | none, none => .error (.fault .badIndex)

def ofLiteral : Literal → Except Error Subscript
  | .integer i => do
    checkIndex i
    return .index i
  | .absent => .ok .everything
  | .flag b => .ok (.marks [] [b])
  | .sequence items => do
    let t ← (arranged (.sequence items)).read
    ofEntries t.shape t.entries
  | _ => .error (.fault .badIndex)

end Subscript

/-- An index counted from the front, if it is in range. -/
def resolveIndex (length : Nat) (i : Int) : Except Error Nat :=
  if 0 ≤ i && i < length then .ok i.toNat
  else if i < 0 && -(length : Int) ≤ i then .ok (i + length).toNat
  else .error (.fault .badIndex)

/-- What is selected along a dimension. -/
inductive Choice where
  /-- The same index in every step. -/
  | fixed (i : Nat)
  /-- Indices into a dimension of a given length, one for each place of a shape. -/
  | stepwise (length : Nat) (shape : List Nat) (list : List Int)

/-- The index that is chosen in the step at a place of the common shape. -/
def Choice.at (place : List Nat) : Choice → Except Error Nat
  | fixed i => .ok i
  | stepwise length shape list =>
    match list[Index.offset shape (Index.align shape place)]? with
    | some i => resolveIndex length i
    | none => .error (.fault .badIndex)

/-- What subscripts select. -/
structure Selection where
  /-- The choices along the first dimensions. -/
  choices : List Choice
  /-- The shapes of what is taken in step. -/
  shapes : List (List Nat)
  /-- How many subscripts use no dimension and select everything. -/
  added : Nat

namespace Selection

def all : Selection := ⟨[], [], 0⟩

/-- The choices along several dimensions that marks stand for, one for each dimension. -/
def ofMarks (shape : List Nat) (list : List Bool) : List Choice :=
  let marked := ((Index.positions shape).zip list).filterMap fun p => if p.2 then some p.1 else none
  (List.range shape.length).map fun axis =>
    .stepwise (shape.getD axis 0) [marked.length]
      (marked.map fun position => Int.ofNat (position.getD axis 0))

/-- The selection of subscripts in an array of a given shape. A subscript with
several indices for each of several dimensions counts once for each of them;
marks have to cover their dimensions. -/
def ofSubscripts : (dimensions : List Nat) → List Subscript → Except Error Selection
  | _, [] => .ok all
  | dimensions, .everything :: rest => do
    let s ← ofSubscripts dimensions rest
    return { s with added := s.added + 1 }
  | dimensions, .marks shape list :: rest => do
    if dimensions.take shape.length ≠ shape then throw (.fault .badIndex)
    let s ← ofSubscripts (dimensions.drop shape.length) rest
    return { s with
      choices := ofMarks shape list ++ s.choices
      shapes := List.replicate (max 1 shape.length) [list.countP id] ++ s.shapes }
  | length :: dimensions, .index i :: rest => do
    let i ← resolveIndex length i
    let s ← ofSubscripts dimensions rest
    return { s with choices := .fixed i :: s.choices }
  | length :: dimensions, .indices shape list :: rest => do
    let s ← ofSubscripts dimensions rest
    return { s with
      choices := .stepwise length shape list :: s.choices
      shapes := shape :: s.shapes }
  | [], _ :: _ => .error (.fault .badIndex)

def steps (s : Selection) : Except Error (List Nat) :=
  match s.shapes.foldlM Index.join [] with
  | some shape => .ok shape
  | none => .error (.fault .badIndex)

/-- There are at most 64 subscripts with several indices, and at most 64
dimensions in what is selected. -/
def checkLimits (rank : Nat) (s : Selection) : Except Error Unit :=
  let left := rank - s.choices.length
  let dimensions := s.added + left + (s.shapes.map List.length).foldl max 0
  let plain := s.added = 0 && s.shapes.isEmpty
  if 64 < s.shapes.length || (!plain && 64 < dimensions) then .error (.fault .badIndex) else .ok ()

def tuples (s : Selection) : Except Error (List (List Nat)) := do
  (Index.positions (← s.steps)).mapM fun place => s.choices.mapM (Choice.at place)

/-- Without several indices for any dimension, there is just one step. -/
theorem tuples_fixed (tuple : List Nat) (added : Nat) :
    tuples ⟨tuple.map .fixed, [], added⟩ = .ok [tuple] := by
  have chosen : (tuple.map Choice.fixed).mapM (Choice.at []) = Except.ok tuple := by
    induction tuple with
    | nil => rfl
    | cons i tuple ih => rw [List.map_cons, List.mapM_cons, ih]; rfl
  show (List.mapM (fun place => (tuple.map Choice.fixed).mapM (Choice.at place))
    [[]] : Except Error _) = _
  rw [List.mapM_cons, chosen]
  rfl

/-- How many dimensions of length one come before the steps in what is selected.
Where the subscripts with indices do not stand together, the steps come first. -/
def ahead (subscripts : List Subscript) : Nat :=
  let front := subscripts.takeWhile (· matches .everything)
  let behind := (subscripts.drop front.length).dropWhile fun s => !(s matches .everything)
  if behind.all (· matches .everything) then front.length else 0

end Selection

/-- The shape of what is selected: dimensions of length one, the steps,
dimensions of length one, and the dimensions for which there are no subscripts. -/
structure Frame where
  before : Nat
  steps : List Nat
  after : Nat
  rest : List Nat

namespace Frame

def ofSelection (shape : List Nat) (subscripts : List Subscript) (s : Selection) :
    Except Error Frame := do
  let before := Selection.ahead subscripts
  return ⟨before, ← s.steps, s.added - before, shape.drop s.choices.length⟩

def shape (f : Frame) : List Nat :=
  List.replicate f.before 1 ++ f.steps ++ List.replicate f.after 1 ++ f.rest

/-- The index tuple in a frame of an entry with a given step and given indices
in the other dimensions. -/
def position (f : Frame) (step rest : List Nat) : List Nat :=
  List.replicate f.before 0 ++ step ++ List.replicate f.after 0 ++ rest

end Frame

namespace Tensor

variable {α : Type} [Zero α]

/-- An array spread over a shape, as a function of the index tuple. Each of its
dimensions, counted from the last one, has to be that of the shape or one. -/
def spread (shape : List Nat) (values : Tensor α) : Except Error (List Nat → Option α) :=
  if Index.join values.shape shape = some shape then
    .ok fun position => some (values.entry (Index.align values.shape position))
  else .error (.fault .badValue)

/-- An array without the dimensions of length one at its front, as far as there
are too many dimensions. -/
def trimmed (rank : Nat) (values : Tensor α) : Tensor α :=
  let surplus := values.rank - rank
  if (values.shape.take surplus).all (· = 1) then
    (ofShape? (values.shape.drop surplus) values.entries).getD values
  else values

/-- Puts values, given by their index tuples in a frame, where index tuples of
an array start with one of the targets, each of which comes with its step. Of
several such targets the last one counts. -/
def put (t : Tensor α) (f : Frame) (targets : List (List Nat × List Nat))
    (values : List Nat → Option α) : Tensor α :=
  let latest := targets.reverse
  let entries := (t.entries.zip (Index.positions t.shape)).map fun p =>
    match latest.find? fun target => target.1.isPrefixOf p.2 with
    | some (tuple, step) => (values (f.position step (p.2.drop tuple.length))).getD p.1
    | none => p.1
  (ofShape? t.shape entries).getD t

def select (t : Tensor α) (position : Position) : Except Error (List Subscript × Selection) := do
  if 128 < position.length then throw (.fault .badIndex)
  let subscripts ← position.mapM Subscript.ofLiteral
  let selection ← Selection.ofSubscripts t.shape subscripts
  selection.checkLimits t.rank
  return (subscripts, selection)

/-- Assigns to entries that are selected in steps. Marks of all entries take a
list that is no deeper than one. -/
def assignSteps (t : Tensor α) (subscripts : List Subscript) (s : Selection) (value : ArrayData α) :
    Except Error (Tensor α) := do
  let values ← value.read
  if let [.marks shape _] := subscripts then
    if shape = t.shape && 1 < values.rank then throw (.fault .badValue)
  let frame ← Frame.ofSelection t.shape subscripts s
  let values ← (values.trimmed frame.shape.length).spread frame.shape
  return t.put frame ((← s.tuples).zip (Index.positions frame.steps)) values

/-- What a list assigns to a part of an array that it fills until an item is no number. -/
def begun (shape : List Nat) (value : ArrayData α) : List Nat → Option α :=
  match value.parts? with
  | none => fun _ => none
  | some (own, entries) =>
    let values := (entries.map Except.toOption).takeWhile Option.isSome
    fun position => if own = shape then (values[Index.offset shape position]?).join else none

/-- What a list, no deeper than a part of an array has dimensions, assigns to the part. -/
def valuesFor (shape : List Nat) (value : ArrayData α) : Except Error (List Nat → Option α) := do
  if let some (own, _) := value.parts? then
    if shape.length < own.length then throw (.fault .badValue)
  (← value.read).spread shape

/-- Assigns to a part of an array, or to a single entry. What comes second is
the outcome; if it is a refusal, some entries may have been assigned. -/
def assignPart (t : Tensor α) (frame : Frame) (targets : List (List Nat × List Nat))
    (value : ArrayData α) : Tensor α × Except Error Unit :=
  match valuesFor frame.shape value with
  | .ok values => (t.put frame targets values, .ok ())
  | .error e => (t.put frame targets (begun frame.shape value), .error e)

/-- An array after an assignment that was carried out or refused as a whole. -/
def carried (t : Tensor α) : Except Error (Tensor α) → Tensor α × Except Error Unit
  | .ok assigned => (assigned, .ok ())
  | .error e => (t, .error e)

/-- Assigns a value to all entries at a position: the array afterwards, and the outcome. -/
def assign (t : Tensor α) (position : Position) (value : ArrayData α) :
    Tensor α × Except Error Unit :=
  match t.select position with
  | .error e => (t, .error e)
  | .ok (subscripts, selection) =>
    if !selection.shapes.isEmpty then t.carried (t.assignSteps subscripts selection value)
    else
      match Frame.ofSelection t.shape subscripts selection, selection.tuples with
      | .ok frame, .ok tuples => t.assignPart frame (tuples.map (·, [])) value
      | .error e, _ | _, .error e => (t, .error e)

end Tensor

end ControlHierarchy
