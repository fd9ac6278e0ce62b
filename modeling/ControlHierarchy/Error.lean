import ControlHierarchy.Literal

/-!
# Errors

An `Error` is a cause, with the names, sizes and shapes that explain it. Two
functions read it: `Error.kind`, the family that a caller catches (`ErrorKind`,
with its more general families in `ErrorKind.ancestors`), and `Error.message`,
the text. A `Fault` is a misuse that no family covers, such as an index out of
range; it has no text.
-/

namespace ControlHierarchy

/-- A misuse of a value, outside of the families of errors. -/
inductive Fault where
  /-- A value that cannot be read, or shapes that do not fit together. -/
  | badValue
  /-- An index or an axis out of range. -/
  | badIndex
  /-- An operand of a type that the operation does not know. -/
  | badType
  /-- An operation that the object does not have. -/
  | noMember
  /-- An assignment to a field of an immutable object. -/
  | frozen
  /-- A walk through objects that contain themselves. -/
  | endless
  /-- A quadratic program whose linear part is no vector. -/
  | badProgram
  /-- An array for which there is no room. -/
  | noRoom
  /-- A division of one number by zero. -/
  | zeroDivisor
  /-- A whole number beyond the range of the doubles. -/
  | tooLarge
  /-- An operation on arrays that their entries do not have. -/
  | noEntrywise
  /-- A key that a record does not have. -/
  | noKey
  deriving DecidableEq

/-- The families of errors. -/
inductive ErrorKind where
  | library
  | configuration
  | sizeMismatch
  | dimensionMismatch
  | duplicateVariable
  | constraintDefinition
  | taskDefinition
  | invalidGain
  | variableNotFound
  deriving DecidableEq

/-- The families that contain a family, the narrowest first. -/
def ErrorKind.ancestors : ErrorKind → List ErrorKind
  | .library => []
  | .configuration | .variableNotFound => [.library]
  | .sizeMismatch | .dimensionMismatch | .duplicateVariable | .constraintDefinition |
    .taskDefinition =>
    [.configuration, .library]
  | .invalidGain => [.taskDefinition, .configuration, .library]

/-- One of the two sides of a bound. -/
inductive Side where
  | lower
  | upper
  deriving DecidableEq

def Side.word : Side → String
  | .lower => "lower"
  | .upper => "upper"

/-- The two kinds of rows of a constraint. -/
inductive RowKind where
  | equality
  | inequality
  deriving DecidableEq

def RowKind.word : RowKind → String
  | .equality => "equality"
  | .inequality => "inequality"

/-- What is put together from parts, of which there has to be one at least. -/
inductive Assembly where
  | constraint
  | task
  | stack
  deriving DecidableEq

/-- A shape as a text: its dimensions in parentheses, a single one followed by a comma. -/
def shapeText (shape : List Nat) : String := Literal.enclosed (shape.map toString)

/-- Why an operation was refused. -/
inductive Error where
  | fault (cause : Fault)
  /-- An assembly without parts. -/
  | nothingToAssemble (assembly : Assembly)
  | negativeSize (name : String) (size : Int)
  | policyNotInteger (value : Literal)
  | policyOutOfRange (word : Int)
  | negativeVariable (name : String) (size : Int)
  | sizeMismatch (owner : String) (expected : Int) (element : String) (actual : Int)
  | duplicateVariable (name : String)
  | variableNotFound (name : String) (available : List String)
  /-- Arrays of the wrong rank. -/
  | notVector (shape : List Nat)
  | notMatrix (shape : List Nat)
  /-- Blocks that cannot be piled. -/
  | pileRanks (top bottom : List Nat)
  | pileColumns (top bottom : Nat)
  /-- Inequality rows whose bounds do not fit them. -/
  | boundEntries (rows : Nat) (side : Side) (entries : Nat)
  | rowsUnbounded (rows : Nat)
  /-- A part of a merge that is malformed. -/
  | orphanBounds (name : String)
  | partBox (name : String) (size : Int) (lower upper : List Nat)
  | partColumns (name : String) (rows : RowKind) (size : Int) (shape : List Nat)
  | partRightHandSide (name : String) (rows : RowKind) (count entries : Nat)
  /-- Merged arrays that do not fit together. -/
  | mergedBox (name : String) (side : Side) (entries : Nat) (size : Int)
  | mergedEqualities (name : String) (matrix rightHandSide : List Nat)
  | mergedInequalities (name : String) (matrix upper : List Nat)
  | mergedLower (name : String) (entries expected : Nat)
  /-- Arrays that a constraint refuses. -/
  | boxOneSided (name : String)
  | boxShape (name : String) (size : Int) (lower upper : List Nat)
  | equalityShapes (name : String) (size : Int) (matrix rightHandSide : List Nat)
  | inequalityColumns (name : String) (size : Int) (columns : Nat)
  | inequalityUnbounded (name : String)
  | inequalityBound (name : String) (rows : Nat) (shape : List Nat)
  /-- Arrays that a task refuses. -/
  | taskRank (name : String) (shape : List Nat)
  | taskShapes (name : String) (size : Int) (matrix reference : List Nat)
  | weightShape (name : String) (rows : Nat) (shape : List Nat)
  | weightAsymmetric (name : String)
  | weightOutgrown (name : String) (weight : List Nat) (rows : Nat)
  | objectiveWeight (name : String) (weight : List Nat) (rows : Nat)
  | gainOutOfRange
  /-- Weights that do not fit the rows of a merge. -/
  | partWeight (name : String) (weight : List Nat) (rows : Nat)
  | mergedWeight (name : String) (weight rows : Nat)
  /-- Affine maps and layouts. -/
  | affineShapes (matrix offset : List Nat)
  | affineShapesDiffer (left right : List Nat)
  | affineFactor (shape : List Nat) (outputs : Nat)
  | decisionShape (size : Nat) (shape : List Nat)

namespace Error

/-- The family of an error; a fault has none. -/
def kind : Error → Option ErrorKind
  | .fault _ => none
  | .nothingToAssemble _ | .negativeSize .. | .policyNotInteger _ | .policyOutOfRange _ |
    .negativeVariable .. =>
    some .configuration
  | .sizeMismatch .. => some .sizeMismatch
  | .duplicateVariable _ => some .duplicateVariable
  | .variableNotFound .. => some .variableNotFound
  | .notVector _ | .notMatrix _ | .pileRanks .. | .pileColumns .. | .boundEntries .. |
    .orphanBounds _ | .partBox .. | .partColumns .. | .partRightHandSide .. | .mergedBox .. |
    .mergedEqualities .. | .mergedInequalities .. | .mergedLower .. | .partWeight .. |
    .mergedWeight .. | .affineShapes .. | .affineShapesDiffer .. | .affineFactor .. |
    .decisionShape .. => some .dimensionMismatch
  | .rowsUnbounded _ | .boxOneSided _ | .boxShape .. | .equalityShapes .. | .inequalityColumns .. |
    .inequalityUnbounded _ | .inequalityBound .. => some .constraintDefinition
  | .taskRank .. | .taskShapes .. | .weightShape .. | .weightAsymmetric _ | .weightOutgrown .. |
    .objectiveWeight .. => some .taskDefinition
  | .gainOutOfRange => some .invalidGain

/-- The sentence about an element whose size differs from its owner's. -/
def sizeMismatchText (owner expected element actual : String) : String :=
  s!"{owner} has x_size {expected} but {element} has x_size {actual}."

/-- The sentence about a variable that is registered twice. -/
def duplicateVariableText (name : String) : String :=
  s!"Duplicate variable name '{name}' is not allowed."

def variableNotFoundText (name available : String) : String :=
  s!"Variable '{name}' does not exist. Available variables: {available}."

/-- The sentence about an assembly without parts. -/
def nothingToAssembleText : Assembly → String
  | .constraint => "AggregatedConstraint needs at least one constraint."
  | .task => "AggregatedTask needs at least one task."
  | .stack => "Stack needs at least one task."

/-- The text of an error; a fault has none. -/
def message : Error → String
  | .fault _ => ""
  | .nothingToAssemble assembly => nothingToAssembleText assembly
  | .negativeSize name size => s!"{name} x_size must be >= 0. Got {size}."
  | .policyNotInteger value => s!"Aggregation policy must be an integer flag. Got {value.spelled}."
  | .policyOutOfRange word => s!"Invalid aggregation policy {word}."
  | .negativeVariable name size => s!"Variable '{name}' must have a size >= 0. Got {size}."
  | .sizeMismatch owner expected element actual =>
    sizeMismatchText owner (toString expected) element (toString actual)
  | .duplicateVariable name => duplicateVariableText name
  | .variableNotFound name available =>
    variableNotFoundText name (Literal.tuple (available.map Literal.text)).spelled
  | .notVector shape => s!"Expected a vector but got an array of shape {shapeText shape}."
  | .notMatrix shape => s!"Expected a matrix but got an array of shape {shapeText shape}."
  | .pileRanks top bottom =>
    s!"Cannot pile an array of shape {shapeText top} with one of shape {shapeText bottom}."
  | .pileColumns top bottom =>
    s!"Cannot pile a matrix with {top} columns on a matrix with {bottom} columns."
  | .boundEntries rows side entries =>
    s!"Inequality matrix has {rows} rows but its {side.word} bound has {entries} entries."
  | .rowsUnbounded rows => s!"Inequality matrix has {rows} rows but no lower or upper bound."
  | .orphanBounds name => s!"{name} has inequality bounds but no inequality rows."
  | .partBox name size lower upper | .boxShape name size lower upper =>
    s!"{name} box bounds must have shape ({size},). Got {shapeText lower} and {shapeText upper}."
  | .partColumns name rows size shape =>
    s!"{name} {rows.word} matrix must have {size} columns. Got shape {shapeText shape}."
  | .partRightHandSide name rows count entries =>
    s!"{name} {rows.word} matrix has {count} rows but its right-hand side has {entries} entries."
  | .mergedBox name side entries size =>
    s!"{name} merged {side.word} bound has {entries} entries, expected 0 or {size}."
  | .mergedEqualities name matrix rightHandSide =>
    s!"{name} merged equalities have shapes {shapeText matrix} and {shapeText rightHandSide}."
  | .mergedInequalities name matrix upper =>
    s!"{name} merged inequalities have shapes {shapeText matrix} and {shapeText upper}."
  | .mergedLower name entries expected =>
    s!"{name} merged inequality lower bound has {entries} entries, expected {expected}."
  | .boxOneSided name => s!"{name} box bounds must have both a lower and an upper side."
  | .equalityShapes name size matrix rightHandSide =>
    s!"{name} equalities must have shapes (m, {size}) and (m,). Got {shapeText matrix} and " ++
      s!"{shapeText rightHandSide}."
  | .inequalityColumns name size columns =>
    s!"{name} inequality matrix must have {size} columns. Got {columns}."
  | .inequalityUnbounded name => s!"{name} inequalities need a lower or an upper bound."
  | .inequalityBound name rows shape =>
    s!"{name} inequality bounds must have shape ({rows},). Got {shapeText shape}."
  | .taskRank name shape => s!"{name} matrix must be 2-dimensional. Got shape {shapeText shape}."
  | .taskShapes name size matrix reference =>
    s!"{name} expects A of shape (k, {size}) and b of shape (k,). Got {shapeText matrix} and {shapeText reference}."
  | .weightShape name rows shape =>
    s!"{name} weight must have shape ({rows}, {rows}). Got {shapeText shape}."
  | .weightAsymmetric name => s!"{name} weight must be symmetric"
  | .weightOutgrown name weight rows =>
    s!"{name} weight has shape {shapeText weight} but the task now has {rows} rows."
  | .objectiveWeight name weight rows | .partWeight name weight rows =>
    s!"{name} weight has shape {shapeText weight} but the task has {rows} rows."
  | .gainOutOfRange => "`lambda_` must be in the range [0, 1]"
  | .mergedWeight name weight rows =>
    s!"{name} weight was set for {weight} rows but the merged task now has {rows} rows."
  | .affineShapes matrix offset =>
    s!"Expected M of shape (n, m) and q of shape (n,) but got {shapeText matrix} and {shapeText offset}."
  | .affineShapesDiffer left right =>
    s!"Cannot combine affine expressions of shapes {shapeText left} and {shapeText right}."
  | .affineFactor shape outputs =>
    s!"Cannot multiply a matrix of shape {shapeText shape} with an affine expression of output size {outputs}."
  | .decisionShape size shape =>
    s!"Expected a decision vector of shape ({size},) but got {shapeText shape}."

end Error

end ControlHierarchy
