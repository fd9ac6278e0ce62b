import ControlHierarchy.Record
import ControlHierarchy.Session.Arithmetic
import ControlHierarchy.Session.Describe
import ControlHierarchy.Session.Listing
import ControlHierarchy.Session.Operand
import ControlHierarchy.Store.Entries
import ControlHierarchy.Store.Stacking

/-!
# Commands on any object

Stacks, the commands that constraints, tasks and stacks share, and the
operators. What an object does not do it refuses: an operation that it does not
have is no member of it, and an operand that an operator does not know is of a
bad type.
-/

namespace ControlHierarchy

namespace Session

open Script

def isUpdated : Object → Bool
  | .constraint _ | .task _ | .stack _ => true
  | _ => false

/-- Brings a record up to date with other named values. -/
def updateRecord (id : Nat) (fields : List (String × Literal)) (state : Literal) : Script Unit := do
  let news ← accept ((Literal.asFields state).mapError .fault)
  let s ← getStore
  let fields := news.foldl (fun fields f => Literal.setField fields f.1 f.2) fields
  setStore { s with values := s.values.write id (.record fields) }

def update (object : Object) (state : Literal) : Script Unit := do
  let data := ArrayData.ofLiteral state
  match object, (← getStore).plain? object with
  | .value id, some (.record fields) =>
    accept (ArrayData.checkUsable [data])
    updateRecord id fields state
  | _, _ =>
    requireCallable object .update [data]
    if !isUpdated object then fault .noMember
    accept (ArrayData.checkUsable [data])
    build (Build.update data object)

def regenerate (object : Object) : Script Unit := build (Build.regenerate object)

def checkPartSizes (object : Object) : Script Unit := do
  requireCallable object .checkSizes []
  let s ← getStore
  match object with
  | .constraint c =>
    let .merged i _ := c | fault .noMember
    let merged := s.mergedConstraints.read i
    accept (checkSizes merged.name merged.size (s.constraintSizes (← accept (s.constraintParts c))))
  | .task t =>
    let .merged i _ := t | fault .noMember
    let body := (s.mergedTasks.read i).body
    accept (checkSizes body.name body.size (s.taskSizes (← accept (s.taskParts t))))
  | _ => fault .noMember

/-- What a stack keeps as its levels or as its bounds: a list, or an array in its place. -/
def keptBy (id : Nat) (kept : Backing) (items : List Object) : Script Object := do
  match (← getStore).notes.read? (.stack id) (.backing kept) with
  | some noted => return noted
  | none => newValue (.sequence items)

def levelsOf : Object → Script Object
  | .stack id => do keptBy id .levels ((← getStore).stackCells.read id).levels
  | object => newValue (.sequence [object])

def boundsOf : Object → Script Object
  | .stack id => do keptBy id .bounds ((← getStore).stackCells.read id).bounds
  | _ => newValue (.sequence [])

/-- Why an array cannot be the levels of a stack: it has to count as true, and
its elements are no tasks. -/
def levelsError (levels : Tensor Float) : Error :=
  match levels.entries with
  | [x] =>
    if x == 0 then .nothingToAssemble .stack
    else if levels.rank = 0 then .fault .badIndex
    else .fault .noMember
  | _ => .fault .badValue

def arrayOf (s : Store Float) (object : Object) : Tensor Float :=
  match s.plain? object with
  | some (.array id position) => s.window id position
  | some (.entry x) => .scalar x
  | _ => .vector []

/-- Why an array cannot be the bounds of a stack, if it cannot: it has to have
no elements. -/
def boundsFault? (bounds : Tensor Float) : Option Fault :=
  match bounds.shape with
  | [] => some .badType
  | 0 :: _ => none
  | _ => some .noMember

def stackOf (levels bounds : Object) (policy : Int) : Script Object := do
  let s ← getStore
  let itemsOf := fun object => (s.plain? object).bind s.items?
  let some items := itemsOf levels | refuse (levelsError (arrayOf s levels))
  let id ← build (Build.stack items ((itemsOf bounds).getD []) (.integer policy))
  if (itemsOf bounds).isNone then
    if let some cause := boundsFault? (arrayOf s bounds) then fault cause
  return .stack id

/-- A task or stack above another one, where an array took the place of a list. -/
def composeArrays (upper lower : Object) (policy : Int) : Script Object := do
  let levels ← combine .add (← levelsOf upper) (← levelsOf lower)
  let bounds ← match upper, lower with
    | .stack _, .stack _ => do combine .add (← boundsOf upper) (← boundsOf lower)
    | .stack _, _ => boundsOf upper
    | _, _ => boundsOf lower
  stackOf levels bounds policy

/-- Whether an array took the place of the levels or of the bounds of an object. -/
def keepsArray (s : Store Float) (object : Object) : Bool :=
  (s.cellIn? object (.backing .levels)).isSome || (s.cellIn? object (.backing .bounds)).isSome

def compose (upper lower : Object) : Script Object := do
  let s ← getStore
  let policyOf := fun id => (s.stackCells.read id).policy
  match upper, lower, keepsArray s upper || keepsArray s lower with
  | .stack id, lower, true => composeArrays (.stack id) lower (policyOf id)
  | upper, .stack id, true => composeArrays upper (.stack id) (policyOf id)
  | upper, lower, _ => build (Build.compose upper lower)

def isLevel : Object → Bool
  | .task _ | .stack _ => true
  | _ => false

/-- Combines two operands; what operands an operator takes depends on their sorts. -/
def operate (operator : Operator) (left right : Object) : Script Object := do
  let s ← getStore
  match operator, left, right with
  | .add, .task t, .task u => return .task (← build (Build.addTasks t u))
  | .add, .affine i, .affine j => newAffine ((s.affines.read i).add (s.affines.read j))
  | .subtract, .affine i, .affine j => newAffine ((s.affines.read i).sub (s.affines.read j))
  | .attach, .task t, object =>
    build (Build.attach t object)
    return .task t
  | .attach, .stack id, .constraint c =>
    requireCallable (.stack id) .addBound []
    build (Build.addBound id (.constraint c))
    return .stack id
  | operator, left, right =>
    if operator = .over && isLevel left && isLevel right then
      compose left right
    else combine operator left right

/-- The opposite of an affine map, a number or an array. -/
def negate (object : Object) : Script Object := do
  match object with
  | .affine id => newAffine (.ok ((← getStore).affines.read id).neg)
  | object => negateValue object

def readAssigned : AssignedData → Except Error (Assigned Float)
  | .whole n => .ok (.whole n)
  | .array data => return .array (← data.read)

def performStack : StackCommand → Script Object
  | .build levels bounds policy => do
    let levels ← levels.mapM find
    let bounds ← bounds.mapM find
    return .stack (← build (Build.stack levels bounds policy))
  | .addLevel target task => do
    let object ← find target
    let other ← find task
    requireCallable object .addLevel []
    build (Build.addLevel (← accept object.asStack) other)
    return object
  | .addBound target constraint => do
    let object ← find target
    let other ← find constraint
    requireCallable object .addBound []
    build (Build.addBound (← accept object.asStack) other)
    return object
  | .item target index => do item (← find target) index

def performObject : ObjectCommand → Script Object
  | .update target state => do
    let object ← find target
    update object state
    return object
  | .regenerate target => do
    let object ← find target
    regenerate object
    return object
  | .checkSizes target => do
    checkPartSizes (← find target)
    return Store.passed
  | .inspect target => find target
  | .describe target => do
    let object ← find target
    newValue (.text (← accept ((← getStore).describe object)))
  | .count target => do newValue (.integer (← count (← find target)))
  | .enumerate target => do enumerate (← find target)
  | .part target field index => do part (← find target) field index
  | .same left right => do
    let object ← find left
    let other ← find right
    newValue (.flag (object.same other))
  | .assign target field value => do
    let object ← find target
    let value ← accept (readAssigned value)
    build (Build.assign object field value)
    return object
  | .assignEntry target field position value => do
    let object ← find target
    accept (ArrayData.checkUsable [value])
    build (Build.assignEntry object field position value)
    return object
  | .operate operator left right => do
    let left ← operand left
    operate operator left (← operand right)
  | .negate target => do negate (← find target)

end Session

end ControlHierarchy
