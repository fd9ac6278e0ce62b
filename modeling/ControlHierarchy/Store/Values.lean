import ControlHierarchy.Store.InPlace
import ControlHierarchy.Tensor.Item

/-!
# Looking at plain values

The items of a list and the entries of an array are questions to the store:
lists of tasks grow, and arrays that share a cell share their entries.
-/

namespace ControlHierarchy

namespace Store

variable {α : Type}

/-- The array that a window into a cell shows; a position outside of it shows no entries. -/
def window (s : Store α) (id : Nat) (position : List Nat) : Tensor α :=
  match position.foldlM (fun t i => t.item i) (s.arrays.read id) with
  | .ok t => t
  | .error _ => .vector []

@[simp] theorem window_nil (s : Store α) (id : Nat) : s.window id [] = s.arrays.read id := rfl

/-- The list that a task had after it gave up a number of them. -/
def attachedAt (s : Store α) (t : TaskRef) (version : Nat) : List Object :=
  match (s.retiredLists t)[version]? with
  | some items => items
  | none => (s.taskBody t).constraints

/-- The list that a task has now is the one after all that it gave up. -/
theorem attachedAt_length (s : Store α) (t : TaskRef) :
    s.attachedAt t (s.retiredLists t).length = (s.taskBody t).constraints := by
  simp [attachedAt]

def items? (s : Store α) : Plain α → Option (List Object)
  | .sequence items | .tuple items => some items
  | .attached t version => some (s.attachedAt t version)
  | _ => none

/-- The field in which an object keeps the list that it is gone through by. -/
def mainList? : Object → Option Backing
  | .constraint (.merged ..) => some .constraints
  | .task (.merged ..) => some .tasks
  | .stack _ => some .levels
  | _ => none

/-- The cell of the array that took the place of the list that an object is gone
through by. -/
def cellInPlace? (s : Store α) (object : Object) : Option Nat :=
  (mainList? object).bind fun kept => s.cellIn? object (.backing kept)

/-- The parts of an aggregate, the levels of a stack, or the items of a list. -/
def elements? (s : Store α) : Object → Option (List Object)
  | .constraint (.merged _ parts) => some (parts.map Object.constraint)
  | .task (.merged _ parts) => some (parts.map Object.task)
  | .stack id => some (s.stackCells.read id).levels
  | .value id => s.items? (s.values.read id)
  | _ => none

end Store

namespace Build

variable {α : Type}

/-- An item of an array: a number, or a window with one dimension less. -/
def arrayItem (id : Nat) (position : List Nat) (index : Int) : Build α Object := do
  let t := (← get).window id position
  checkIndex index
  let i ← resolveIndex (← t.leading) index
  match ← t.item i with
  | .scalar value => newValue (.entry value)
  | _ => newValue (.array id (position ++ [i]))

/-- The most elements of an array that are gone through one by one. -/
def mostElements : Nat := 0x4000

/-- The elements of an array in the order of their indices. Rows without entries
may be too many to be listed; since no element of an array is anything but a
number or an array, whatever looks for something else is done with the first
ones. -/
def arrayElements (id : Nat) : Build α (List Object) := do
  match ((← get).arrays.read id).shape with
  | [] => return []
  | length :: _ => (List.range (min length mostElements)).mapM fun (i : Nat) => arrayItem id [] i

/-- The elements of the array in the place of a list, gone through one by one. -/
def walkArray (id : Nat) : Build α (List Object) := do
  if ((← get).arrays.read id).rank = 0 then throw (.fault .badType)
  arrayElements id

/-- The items of a list that an object keeps in a field; those of an array in
its place are given out anew each time. -/
def itemsIn (owner : Object) (kept : Backing) (items : List Object) : Build α (List Object) := do
  match (← get).cellIn? owner (.backing kept) with
  | some id => walkArray id
  | none => return items

def elements (object : Object) : Build α (Option (List Object)) := do
  let s ← get
  match s.cellInPlace? object with
  | some id => return some (← walkArray id)
  | none => return s.elements? object

end Build

end ControlHierarchy
