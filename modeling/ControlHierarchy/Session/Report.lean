import ControlHierarchy.Room
import ControlHierarchy.Store.Values

/-!
# Reports

A report shows everything about an object at one moment; parts of it appear by
their names, and items of a list by reports of their own. A report on an object
whose arrays lack a dimension that the report asks for is refused, and one on an
object with parts that have no such name, whatever the command before it did.
-/

namespace ControlHierarchy

inductive ConstraintSort where
  | validated
  | unvalidated
  | boxAround
  | rowsAround
  | computed (kind : String)
  | merged
  deriving DecidableEq

inductive TaskSort where
  | explicit
  | opposing
  | onTarget
  | computed (kind : String)
  | merged
  deriving DecidableEq

def ConstraintSort.word : ConstraintSort → String
  | .validated => "LinearConstraint"
  | .unvalidated => "RawConstraint"
  | .boxAround => "StateBounds"
  | .rowsAround => "StateLimits"
  | .computed kind => kind
  | .merged => "AggregatedConstraint"

def TaskSort.word : TaskSort → String
  | .explicit => "LinearTask"
  | .opposing => "StateTask"
  | .onTarget => "TargetTask"
  | .computed kind => kind
  | .merged => "AggregatedTask"

/-- What a report says about an aggregate of constraints. -/
structure MergedConstraintReport where
  policy : Int
  parts : List String

structure ConstraintReport where
  sort : ConstraintSort
  name : String
  size : Int
  system : LinearSystem Float
  hasBox : Bool
  hasEqualities : Bool
  hasInequalities : Bool
  updates : Option Nat
  merged : Option MergedConstraintReport

/-- What a report says about an aggregate of tasks. -/
structure MergedTaskReport where
  parts : List String
  own : List String

structure TaskReport where
  sort : TaskSort
  body : TaskBody Float
  rows : Nat
  gain : Float
  weight : Tensor Float
  hessian : HessianLabel
  constraints : List String
  updates : Option Nat
  merged : Option MergedTaskReport

/-- What a report says about the bounds of a stack. -/
inductive BoundsReport where
  | none
  | merged (report : ConstraintReport)
  /-- An array in the place of the aggregate. -/
  | array (value : Tensor Float)

structure StackReport where
  size : Int
  policy : Int
  levels : List String
  bounds : BoundsReport

/-- What a command answers. -/
inductive Report where
  | nothing
  | flag (value : Bool)
  | integer (value : Int)
  | number (value : Float)
  | text (value : String)
  | array (value : Tensor Float)
  | list (items : List Report)
  | constraint (report : ConstraintReport)
  | task (report : TaskReport)
  | stack (report : StackReport)
  | affine (map : AffineMap Float)
  | layout (size : Report) (names : List Report)
  | record (fields : List (String × Literal))

namespace Store

def constraintSort (s : Store Float) : ConstraintRef → ConstraintSort
  | .merged _ _ => .merged
  | .leaf i =>
    match (s.leafConstraints.read i).rule with
    | .validated => .validated
    | .unvalidated => .unvalidated
    | .boxAround .. => .boxAround
    | .rowsAround _ => .rowsAround
    | .computed kind _ => .computed kind

def taskSort (s : Store Float) : TaskRef → TaskSort
  | .merged _ _ => .merged
  | .leaf i =>
    match (s.leafTasks.read i).rule with
    | .explicit => .explicit
    | .opposing _ => .opposing
    | .onTarget => .onTarget
    | .computed kind _ => .computed kind

/-- How often a constraint that counts its updates was updated. -/
def constraintUpdates {α : Type} (s : Store α) : ConstraintRef → Option Nat
  | .merged _ _ => none
  | .leaf i =>
    match (s.leafConstraints.read i).rule with
    | .boxAround _ updates => some updates
    | _ => none

/-- How often a task that counts its updates was updated. -/
def taskUpdates {α : Type} (s : Store α) : TaskRef → Option Nat
  | .merged _ _ => none
  | .leaf i =>
    match (s.leafTasks.read i).rule with
    | .opposing updates => some updates
    | _ => none

def reportMerged (s : Store Float) (c : ConstraintRef) :
    Except Error (Option MergedConstraintReport) :=
  match c with
  | .leaf _ => .ok none
  | .merged i _ => do
    let parts ← s.constraintParts c
    return some ⟨(s.mergedConstraints.read i).policy, parts.map s.constraintName⟩

def reportConstraint (s : Store Float) (c : ConstraintRef) : Except Error ConstraintReport := do
  let system := s.constraintSystem c
  s.checkCallable (.constraint c) .hasBox
  s.checkCallable (.constraint c) .hasEqualities
  let hasEqualities ← system.hasEqualities
  s.checkCallable (.constraint c) .hasInequalities
  let hasInequalities ← system.hasInequalities
  let merged ← s.reportMerged c
  return ⟨constraintSort s c, s.constraintName c, s.constraintSize c, system, system.hasBox,
    hasEqualities, hasInequalities, constraintUpdates s c, merged⟩

/-- What a report on an aggregate of tasks says besides. -/
def reportMergedTask (s : Store Float) (t : TaskRef) : Except Error (Option MergedTaskReport) :=
  match t with
  | .leaf _ => .ok none
  | .merged .. => do
    let parts ← s.taskParts t
    let own ← (← s.ownConstraints t).mapM s.nameAsConstraint
    return some ⟨parts.map fun p => (s.taskBody p).name, own⟩

def gainNumber : Tensor Float → Except Error Float
  | .scalar gain => .ok gain
  | _ => .error (.fault .badType)

/-- The label of the Hessian, unless something else was assigned in its place. -/
def hessianLabel : Option HessianLabel → Except Error HessianLabel
  | some label => .ok label
  | none => .error (.fault .noMember)

def reportTask (s : Store Float) (t : TaskRef) : Except Error TaskReport := do
  let body := s.taskBody t
  let rows ← body.rows
  let gain ← gainNumber body.gain
  body.checkRoom
  let weight ← body.weightInForce
  let hessian ← hessianLabel body.hessian
  let constraints ← (← s.attached t).mapM s.nameAsConstraint
  let merged ← reportMergedTask s t
  return ⟨taskSort s t, body, rows, gain, weight, hessian, constraints, taskUpdates s t, merged⟩

/-- What a report says about the bounds of a stack. -/
def reportBounds (s : Store Float) (id : Nat) : Except Error BoundsReport :=
  match s.arrayIn? (.stack id) (.backing .mergedBounds), (s.stackCells.read id).merged with
  | some array, _ => .ok (.array array)
  | none, some c => return .merged (← s.reportConstraint c)
  | none, none => .ok .none

def reportStack (s : Store Float) (id : Nat) : Except Error StackReport := do
  let stack := s.stackCells.read id
  let levels ← (← s.levels id).mapM s.nameAsTask
  return ⟨stack.size, stack.policy, levels, ← s.reportBounds id⟩

/-- A report on an array; without dimensions it is a number. -/
def reportArray : Tensor Float → Report
  | .scalar x => .number x
  | t => .array t

/-- A report on a layout. Arrays in the place of its size and of the list of its
names are shown as such. -/
def reportLayout (s : Store Float) (id : Nat) : Except Error Report := do
  let layout := s.layouts.read id
  let size :=
    ((s.arrayIn? (.layout id) (.backing .totalSize)).map Report.array).getD (.integer layout.size)
  match s.arrayIn? (.layout id) (.backing .names) with
  | some names => return .layout size ((← names.items).map reportArray)
  | none => return .layout size (layout.names.map .text)

def reportPlain (s : Store Float) : Plain Float → Report
  | .flag b => .flag b
  | .integer n | .policy n => .integer n
  | .number x | .entry x => .number x
  | .text text => .text text
  | .label l => .text l.word
  | .array id position => .array (s.window id position)
  | .objects t => .array (t.map Number.nearest)
  | .record fields => .record fields
  | .sequence _ | .tuple _ | .attached .. => .list []

/-- A report on an object, in which lists are nested to a bounded depth. -/
def reportTo (s : Store Float) : (depth : Nat) → Object → Except Error Report
  | _, .constraint c => return .constraint (← reportConstraint s c)
  | _, .task t => return .task (← reportTask s t)
  | _, .stack id => return .stack (← s.reportStack id)
  | _, .affine id => return .affine (s.affines.read id)
  | _, .layout id => s.reportLayout id
  | _, .nothing => return .nothing
  | 0, .value _ => throw (.fault .endless)
  | depth + 1, .value id =>
    let value := s.values.read id
    match s.items? value with
    | some items => return .list (← items.mapM (reportTo s depth))
    | none => return reportPlain s value

/-- A depth that the nesting of lists does not exceed: a list is made of objects
that were there before. -/
def nesting (s : Store Float) : Nat := s.values.next

def report (s : Store Float) (object : Object) : Except Error Report := reportTo s s.nesting object

end Store

end ControlHierarchy
