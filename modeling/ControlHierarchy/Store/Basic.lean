import ControlHierarchy.Constraint.Node
import ControlHierarchy.Plain
import ControlHierarchy.Store.Cells
import ControlHierarchy.Store.Notes
import ControlHierarchy.Task.Node
import ControlHierarchy.VariableLayout

/-!
# The store

All objects live in cells of a `Store`, together with what is noted down beside
them, the lists that tasks gave up, and the journal of what happened. Operations
that change it are `Build` actions: they end with a value or an error, and in
both cases with the store as it is by then. An action that fails halfway keeps
what it has done so far, so whether an operation is atomic can be read off its
definition.
-/

namespace ControlHierarchy

/-- A stack of levels, the first one having the highest priority, with bounds
for all of them. -/
structure Stack where
  size : Int
  policy : Int
  levels : List Object
  /-- The bounds in the order in which they were added. -/
  bounds : List Object
  /-- The aggregate of the bounds. -/
  merged : Option ConstraintRef

/-- Everything that can change. -/
structure Store (α : Type) where
  leafConstraints : Cells (LeafConstraint α)
  mergedConstraints : Cells (MergedConstraint α)
  leafTasks : Cells (LeafTask α)
  mergedTasks : Cells (MergedTask α)
  stackCells : Cells Stack
  layouts : Cells VariableLayout
  affines : Cells (AffineMap α)
  arrays : Cells (Tensor α)
  values : Cells (Plain α)
  notes : Notes
  /-- The lists of what was attached to tasks, once another list or an array has
  taken their places; the oldest one first. -/
  retired : List (TaskRef × List Object)
  journal : List Event

abbrev Build (α β : Type) := ExceptT Error (StateM (Store α)) β

namespace Store

variable {α : Type}

def blankSystem : LinearSystem α :=
  ⟨.vector [], .vector [], .vector [], .vector [], .vector [], .vector [], .vector []⟩

def blankBody [One α] : TaskBody α :=
  ⟨"", 0, .vector [], .vector [], .scalar 1, none, some .unknown, []⟩

/-- The store in which nothing has been built. There is one plain value, the
answer of checks that find nothing. -/
def empty [One α] : Store α where
  leafConstraints := .unwritten ⟨"", 0, blankSystem, .unvalidated, []⟩
  mergedConstraints := .unwritten ⟨"", 0, blankSystem, 0⟩
  leafTasks := .unwritten ⟨blankBody, .explicit, none⟩
  mergedTasks := .unwritten ⟨blankBody, []⟩
  stackCells := .unwritten ⟨0, 0, [], [], none⟩
  layouts := .unwritten .empty
  affines := .unwritten ⟨.empty 0, [], rfl⟩
  arrays := .unwritten (.vector [])
  values := (Cells.unwritten .passed).write 0 .passed
  notes := []
  retired := []
  journal := []

/-- The answer of a check that found nothing, the same object each time. -/
def passed : Object := .value 0

theorem plain_passed [One α] : (empty (α := α)).values.read 0 = .passed :=
  Cells.read_write_self _ _ _

def constraintName (s : Store α) : ConstraintRef → String
  | .leaf i => (s.leafConstraints.read i).name
  | .merged i _ => (s.mergedConstraints.read i).name

def constraintSize (s : Store α) : ConstraintRef → Int
  | .leaf i => (s.leafConstraints.read i).size
  | .merged i _ => (s.mergedConstraints.read i).size

def constraintSystem (s : Store α) : ConstraintRef → LinearSystem α
  | .leaf i => (s.leafConstraints.read i).system
  | .merged i _ => (s.mergedConstraints.read i).system

def part (s : Store α) (c : ConstraintRef) : Part α := ⟨s.constraintName c, s.constraintSystem c⟩

def taskBody (s : Store α) : TaskRef → TaskBody α
  | .leaf i => (s.leafTasks.read i).body
  | .merged i _ => (s.mergedTasks.read i).body

def plain? (s : Store α) : Object → Option (Plain α)
  | .value id => some (s.values.read id)
  | _ => none

/-- The size of an object. A layout has one only if it was assigned. -/
def objectSize (s : Store α) : Object → Except Error Int
  | .constraint c => .ok (s.constraintSize c)
  | .task t => .ok (s.taskBody t).size
  | .stack id => .ok (s.stackCells.read id).size
  | object =>
    match (s.notes.read? object .size).bind s.plain? with
    | some (.integer size) => .ok size
    | _ => .error (.fault .noMember)

def nameAsConstraint (s : Store α) (object : Object) : Except Error String :=
  return s.constraintName (← object.asConstraint)

def nameAsTask (s : Store α) (object : Object) : Except Error String :=
  return (s.taskBody (← object.asTask)).name

def objectName (s : Store α) : Object → Except Error String
  | .task t => .ok (s.taskBody t).name
  | object => s.nameAsConstraint object

def setConstraintSystem (c : ConstraintRef) (system : LinearSystem α) (s : Store α) : Store α :=
  match c with
  | .leaf i =>
    { s with
      leafConstraints := s.leafConstraints.write i
        { s.leafConstraints.read i with system := system } }
  | .merged i _ =>
    { s with
      mergedConstraints := s.mergedConstraints.write i
        { s.mergedConstraints.read i with system := system } }

def setConstraintSize (c : ConstraintRef) (size : Int) (s : Store α) : Store α :=
  match c with
  | .leaf i =>
    { s with
      leafConstraints := s.leafConstraints.write i
        { s.leafConstraints.read i with size := size } }
  | .merged i _ =>
    { s with
      mergedConstraints := s.mergedConstraints.write i
        { s.mergedConstraints.read i with size := size } }

def setTaskBody (t : TaskRef) (body : TaskBody α) (s : Store α) : Store α :=
  match t with
  | .leaf i => { s with leafTasks := s.leafTasks.write i { s.leafTasks.read i with body := body } }
  | .merged i _ =>
    { s with mergedTasks := s.mergedTasks.write i { s.mergedTasks.read i with body := body } }

theorem constraintSystem_setConstraintSystem (c : ConstraintRef) (system : LinearSystem α)
    (s : Store α) :
    (s.setConstraintSystem c system).constraintSystem c = system := by
  cases c <;> simp [setConstraintSystem, constraintSystem, Cells.read_write_self]

theorem constraintSize_setConstraintSize (c : ConstraintRef) (size : Int) (s : Store α) :
    (s.setConstraintSize c size).constraintSize c = size := by
  cases c <;> simp [setConstraintSize, constraintSize, Cells.read_write_self]

theorem taskBody_setTaskBody (t : TaskRef) (body : TaskBody α) (s : Store α) :
    (s.setTaskBody t body).taskBody t = body := by
  cases t <;> simp [setTaskBody, taskBody, Cells.read_write_self]

end Store

namespace Build

variable {α : Type}

def log (event : Event) : Build α Unit := modify fun s => { s with journal := s.journal ++ [event] }

def newLeafConstraint (c : LeafConstraint α) : Build α ConstraintRef := do
  let s ← get
  let id := s.leafConstraints.next
  set { s with leafConstraints := s.leafConstraints.write id c }
  return .leaf id

/-- Replaces the arrays of a leaf constraint by what a setter makes of them, given
its name and its size. A setter that refuses leaves everything as it is. -/
def setSystem (id : Nat)
    (setter : LinearSystem α → String → Int → Except Error (LinearSystem α)) : Build α Unit := do
  let s ← get
  let c := s.leafConstraints.read id
  set (s.setConstraintSystem (.leaf id) (← setter c.system c.name c.size))

def newMergedConstraint (parts : List ConstraintRef) (c : MergedConstraint α) :
    Build α ConstraintRef := do
  let s ← get
  let id := s.mergedConstraints.next
  set { s with mergedConstraints := s.mergedConstraints.write id c }
  return .merged id parts

def newLeafTask (t : LeafTask α) : Build α TaskRef := do
  let s ← get
  let id := s.leafTasks.next
  set { s with leafTasks := s.leafTasks.write id t }
  return .leaf id

def newMergedTask (parts : List TaskRef) (t : MergedTask α) : Build α TaskRef := do
  let s ← get
  let id := s.mergedTasks.next
  set { s with mergedTasks := s.mergedTasks.write id t }
  return .merged id parts

def newLayout (l : VariableLayout) : Build α Nat := do
  let s ← get
  let id := s.layouts.next
  set { s with layouts := s.layouts.write id l }
  return id

def newAffine (e : AffineMap α) : Build α Object := do
  let s ← get
  let id := s.affines.next
  set { s with affines := s.affines.write id e }
  return .affine id

/-- Stores a plain value, unless it is there already and there is only one with
its contents. -/
def newValue (value : Plain α) : Build α Object := do
  let s ← get
  match s.values.find? value.shared with
  | some id => return .value id
  | none =>
    let id := s.values.next
    set { s with values := s.values.write id value }
    return .value id

def newArray (t : Tensor α) : Build α Object := do
  let s ← get
  let id := s.arrays.next
  set { s with arrays := s.arrays.write id t }
  newValue (.array id [])

def newStack (stack : Stack) : Build α Nat := do
  let s ← get
  let id := s.stackCells.next
  set { s with stackCells := s.stackCells.write id stack }
  return id

end Build

end ControlHierarchy
