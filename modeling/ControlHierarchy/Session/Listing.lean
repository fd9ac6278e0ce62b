import ControlHierarchy.Session.Describe
import ControlHierarchy.Session.Script

/-!
# Lists that objects give out

Aggregates have parts, tasks have constraints, stacks have levels. An aggregate
or a stack can be counted, enumerated and searched as a whole, and so can a
plain value that is a list; single lists and their items are asked for by the
field. A field for which something is noted down is answered with just that.
-/

namespace ControlHierarchy

namespace Session

open Script

/-- The names of the parts of a value that is a record. -/
def keys? : Plain Float → Option (List String)
  | .record fields => some (fields.map Prod.fst)
  | _ => none

def lengthOfArray {α : Type} (t : Tensor α) : Except Error Nat :=
  match t.shape with
  | length :: _ => .ok length
  | [] => .error (.fault .badType)

/-- The number of elements of a plain value that is no list of objects; those of
a policy are its flags. -/
def lengthOf (s : Store Float) : Plain Float → Except Error Nat
  | .text text => .ok text.length
  | .policy word =>
    .ok ((Policy.ofWord word).foldsEqualities.toNat + (Policy.ofWord word).bilateral.toNat)
  | .array id position => lengthOfArray (s.window id position)
  | .objects t => lengthOfArray t
  | value =>
    match keys? value with
    | some keys => .ok keys.length
    | none => .error (.fault .badType)

def count (object : Object) : Script Nat := do
  let s ← getStore
  match s.cellInPlace? object, s.elements? object, s.plain? object with
  | some id, _, _ => accept (lengthOfArray (s.arrays.read id))
  | none, some items, _ => return items.length
  | none, none, some value => accept (lengthOf s value)
  | none, none, none => fault .badType

def nameField : Object → Field
  | .task _ => .taskName
  | _ => .constraintName

/-- The name of a constraint or of a task, the same object each time. An
aggregate of a single part has the name of the part. -/
def nameOf (object : Object) : Script Object := do
  let s ← getStore
  let name := Plain.text (← accept (s.objectName object))
  let field := nameField object
  let source := object.namesake
  match s.notes.read? object field, (s.notes.read? source field).bind s.plain? with
  | some noted, _ => return noted
  | none, none | none, some (.text _) => kept source field name
  | none, some _ => kept object field name

/-- The names of the elements of an object; only constraints and tasks have one. -/
def enumerate (object : Object) : Script Object := do
  match ← build (Build.elements object) with
  | some items => newValue (.sequence (← items.mapM nameOf))
  | none =>
    let length ← count object
    if length = 0 then newValue (.sequence []) else fault .noMember

/-- The element of a stack or of a plain value at an index. -/
def item (object : Object) (index : Int) : Script Object := do
  let s ← getStore
  match object, s.plain? object with
  | .stack id, _ =>
    match s.cellIn? object (.backing .levels) with
    | some cell => build (Build.arrayItem cell [] index)
    | none => itemAt (s.stackCells.read id).levels index
  | _, some (.text text) => newValue (.text (String.singleton (← itemAt text.toList index)))
  | _, some (.array id position) => build (Build.arrayItem id position index)
  | _, some (.objects t) => newNumbers (← accept (t.item index))
  | _, some (.entry _) => fault .badIndex
  | _, some (.record _) => fault .noKey
  | _, some value =>
    match s.items? value with
    | some items => itemAt items index
    | none => fault .badType
  | _, none => fault .badType

/-- What a stack holds in the place of the aggregate of its bounds. -/
def heldBounds (id : Nat) : Script Object := do
  let s ← getStore
  match s.notes.read? (.stack id) (.backing .mergedBounds), (s.stackCells.read id).merged with
  | some noted, _ => return noted
  | none, some c => return .constraint c
  | none, none => return .nothing

/-- What an object holds in a field of its own. A task gives out the list itself
that new objects are added to. -/
def held (object : Object) (field : Field) : Script Object := do
  let s ← getStore
  let tuple := fun (kept : Backing) (items : List Object) => do
    newValue (.tuple (← build (Build.itemsIn object kept items)))
  match field, object with
  | .constraints, .constraint (.merged _ parts) => tuple .constraints (parts.map Object.constraint)
  | .constraints, .task t => newValue (.attached t (s.retiredLists t).length)
  | .tasks, .task (.merged _ parts) => tuple .tasks (parts.map Object.task)
  | .ownConstraints, .task (.merged i _) => tuple .ownConstraints (s.mergedTasks.read i).own
  | .levels, .stack id => tuple .levels (s.stackCells.read id).levels
  | .bounds, .stack id => heldBounds id
  | .policy, .constraint (.merged i _) => newValue (.policy (s.mergedConstraints.read i).policy)
  | .policy, .stack id => newValue (.policy (s.stackCells.read id).policy)
  | _, _ => fault .noMember

def part (object : Object) (field : Field) (index : Option Int) : Script Object := do
  let whole ← match (← getStore).notes.read? object field with
    | some noted => pure noted
    | none => held object field
  match index with
  | none => return whole
  | some i => item whole i

/-- Whether an item of a list is a given text. An array can be compared with a
text only if it has a single entry. -/
def equalsText (s : Store Float) (name : String) (item : Object) : Except Error Bool :=
  match s.plain? item with
  | some (.text text) => .ok (text == name)
  | some (.array id position) =>
    if (s.window id position).size = 1 then .ok false else .error (.fault .badValue)
  | some (.objects t) => if t.size = 1 then .ok false else .error (.fault .badValue)
  | _ => .ok false

/-- Whether one of the items of a list is a given text; the items after the
first such one are not compared with it. -/
def hasText (s : Store Float) (name : String) : List Object → Except Error Bool
  | [] => .ok false
  | item :: rest => do
    if ← equalsText s name item then return true
    hasText s name rest

/-- Whether a layout has a variable of a given name, a list of texts has it as
an item, or a text as a part; it is none of the flags of a policy, and is not
compared with them. -/
def hasVariable (object : Object) (name : String) : Script Object := do
  let s ← getStore
  match object, s.plain? object with
  | .layout id, _ =>
    let known := (s.arrayIn? object (.backing .offsets)).isNone
    newValue (.flag (known && (s.layouts.read id).contains name))
  | _, some (.text text) => newValue (.flag (name.isEmpty || (text.splitOn name).length > 1))
  | _, some (.array ..) | _, some (.objects _) => newValue (.flag false)
  | _, some (.policy _) => fault .badType
  | object, value =>
    let _ ← count object
    let keys := (value.bind keys?).getD []
    let items ← build (Build.elements object)
    let found ← accept (hasText (← getStore) name (items.getD []))
    newValue (.flag (keys.contains name || found))

end Session

end ControlHierarchy
