import ControlHierarchy.Store.Assembly

/-!
# Stacks of levels

A stack takes its size from its first level. Levels and bounds are added one at
a time, and each new bound makes a new aggregate of all bounds; the previous
aggregate, which someone may still hold, is left as it is. A bound is listed
before the aggregate is built, and stays listed when the aggregate cannot be
built.

Stacks and tasks compose into new stacks, and the operands are not changed. The
policy is that of the stack operand, of the left one if there are two.
-/

namespace ControlHierarchy

namespace Build

variable {α : Type}

/-- Appends a level of lower priority than all others. -/
def addLevel (id : Nat) (o : Object) : Build α Unit := do
  let s ← get
  let stack := s.stackCells.read id
  let size ← s.objectSize o
  if size ≠ stack.size then throw (.sizeMismatch "stack" stack.size (← s.nameAsTask o) size)
  checkExtensible (.stack id) (.backing .levels)
  set { s with stackCells := s.stackCells.write id { stack with levels := stack.levels ++ [o] } }

def listBound (id : Nat) (o : Object) : Build α Unit := do
  let s ← get
  let stack := s.stackCells.read id
  let size ← s.objectSize o
  if size ≠ stack.size then throw (.sizeMismatch "stack" stack.size (← s.nameAsConstraint o) size)
  checkExtensible (.stack id) (.backing .bounds)
  set { s with stackCells := s.stackCells.write id { stack with bounds := stack.bounds ++ [o] } }

variable [Zero α] [Neg α] [BoundScalar α]

/-- Makes a new aggregate of all listed bounds of a stack, which takes the place
of whatever there was. -/
def mergeBounds (id : Nat) : Build α Unit := do
  let stack := (← get).stackCells.read id
  let policy := Literal.integer stack.policy
  let merged ← mergeConstraints (← objectsToMerge stack.bounds policy) stack.size policy
  let s ← get
  set { s with
    stackCells := s.stackCells.write id { s.stackCells.read id with merged := some merged }
    notes := s.notes.erase (.stack id) (.backing .mergedBounds) }
  log (.stackBounds (s.constraintName merged))

def addBound (id : Nat) (o : Object) : Build α Unit := do
  listBound id o
  mergeBounds id

def stack (levels bounds : List Object) (policy : Literal) : Build α Nat := do
  match levels with
  | [] => throw (.nothingToAssemble .stack)
  | first :: _ =>
    let size ← (← get).objectSize first
    let p ← Policy.validate policy
    let id ← newStack ⟨size, p.word, [], [], none⟩
    levels.forM (addLevel id)
    bounds.forM (addBound id)
    return id

def taskOverTask (a b : TaskRef) : Build α Nat :=
  stack [.task a, .task b] [] (.integer Policy.standard.word)

def stackOverTask (id : Nat) (t : TaskRef) : Build α Nat := do
  let upper := (← get).stackCells.read id
  stack (upper.levels ++ [.task t]) upper.bounds (.integer upper.policy)

def taskOverStack (t : TaskRef) (id : Nat) : Build α Nat := do
  let lower := (← get).stackCells.read id
  stack (.task t :: lower.levels) lower.bounds (.integer lower.policy)

def stackOverStack (id id' : Nat) : Build α Nat := do
  let s ← get
  let upper := s.stackCells.read id
  let lower := s.stackCells.read id'
  stack (upper.levels ++ lower.levels) (upper.bounds ++ lower.bounds) (.integer upper.policy)

/-- A task or a stack above another one. -/
def compose : Object → Object → Build α Object
  | .task t, .task u => do return .stack (← taskOverTask t u)
  | .task t, .stack id => do return .stack (← taskOverStack t id)
  | .stack id, .task t => do return .stack (← stackOverTask id t)
  | .stack id, .stack id' => do return .stack (← stackOverStack id id')
  | _, _ => throw (.fault .badType)

end Build

end ControlHierarchy
