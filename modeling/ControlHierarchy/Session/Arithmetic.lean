import ControlHierarchy.Room
import ControlHierarchy.Session.Command
import ControlHierarchy.Session.Script

/-!
# Arithmetic of plain values

Numbers are added, subtracted, multiplied, divided and shifted, lists and texts
are joined and repeated. As soon as one operand is an array, or was taken out of
one, the operation is one of arrays: the other operand counts as an array as
well, a list as the array of its items, and a stack as the list of its levels.

Arrays of numbers are combined as arrays of doubles. If there is anything else
in one of two arrays, their entries are combined one by one as what they are;
since nothing can be combined with something that is no number, the result is an
array of numbers outside of arrays. Texts are never combined with numbers in
this way.
-/

namespace ControlHierarchy

namespace Session

open Script

def number? : Plain Float → Option (Number Float)
  | .number x => some (.real x)
  | value => value.whole?.map .whole

/-! ### Entries -/

/-- An entry of an array, as an operand or as a result. -/
inductive Entry where
  | number (value : Number Float)
  /-- Something that is no number. -/
  | other (object : Object)
  /-- The sum of no products. -/
  | emptySum
  /-- What is left of an operation that was refused. -/
  | refused (error : Error)

namespace Entry

/-- An operator applied to entries. Nothing can be attached to a task that has no size. -/
def combine (operator : Operator) : Entry → Entry → Entry
  | refused e, _ | _, refused e => refused e
  | number x, number y =>
    match operator.onNumbers x y with
    | .ok z => number z
    | .error e => refused e
  | other (.task _), _ => refused (.fault (if operator = .attach then .noMember else .badType))
  | _, _ => refused (.fault .badType)

instance : Zero Entry := ⟨emptySum⟩

/-- A sum starts with its first summand. -/
instance : Add Entry where
  add
    | emptySum, y => y
    | x, y => combine .add x y

instance : Mul Entry := ⟨combine .times⟩

/-- The number that an entry of a result is: a sum of no products is a whole zero. -/
def value : Entry → Except Error (Number Float)
  | number x => .ok x
  | emptySum => .ok (.whole 0)
  | refused e => .error e
  | other _ => .error (.fault .badType)

def double (entry : Entry) : Except Error Float := do (← entry.value).double

end Entry

/-- The array of the results of a function on the entries of an array, unless
one of them is refused. -/
def traverse {α β : Type} (f : α → Except Error β) (t : Tensor α) : Except Error (Tensor β) := do
  match Tensor.ofShape? t.shape (← t.entries.mapM f) with
  | some t => return t
  | none => throw (.fault .badValue)

/-! ### Operands -/

def listOf? (s : Store Float) : Object → Option (List Object)
  | .stack id => some (s.stackCells.read id).levels
  | .value id => s.items? (s.values.read id)
  | _ => none

def entryData (s : Store Float) (object : Object) : ArrayData Entry :=
  match s.plain? object with
  | some (.array id position) => .shaped ((s.window id position).map fun x => .number (.real x))
  | some (.objects t) => .shaped (t.map .number)
  | some (.entry x) => .number (.number (.real x))
  | some value => .number (((number? value).map .number).getD (.other object))
  | none => .number (.other object)

/-- The data of an object as an array. Lists that are nested too deep make none. -/
def arrayDataOf (s : Store Float) (depth : Nat) (object : Object) : ArrayData Entry :=
  match depth, listOf? s object with
  | depth + 1, some items => .list (items.map (arrayDataOf s depth))
  | 0, some _ => .unreadable .badValue
  | _, none => entryData s object

def leaves (s : Store Float) : (depth : Nat) → Object → List Object
  | 0, object => [object]
  | depth + 1, object =>
    match listOf? s object with
    | some items => items.flatMap (leaves s depth)
    | none => [object]

/-- Whether an object is a number or an array of doubles. -/
def isNumeric (s : Store Float) (object : Object) : Bool :=
  match s.plain? object with
  | some (.entry _) | some (.array ..) => true
  | some value => (number? value).isSome
  | none => false

def isText (s : Store Float) (object : Object) : Bool :=
  match s.plain? object with
  | some (.text _) => true
  | _ => false

/-- What an operand of an array operation is made of. -/
inductive Content where
  | numbers
  | texts
  | objects

/-- An operand of an array operation. -/
structure ArrayOperand where
  content : Content
  entries : Tensor Entry

def ArrayOperand.ofTensor (t : Tensor Float) : ArrayOperand :=
  ⟨.numbers, t.map fun x => .number (.real x)⟩

/-- How deep lists may be nested that count as arrays. -/
def deepest : Nat := 64

def arrayOperand (s : Store Float) (object : Object) : Except Error ArrayOperand := do
  let entries ← (arrayDataOf s deepest object).read
  let content := match (leaves s deepest object).filter fun o => !isNumeric s o with
    | [] => .numbers
    | others => if others.all (isText s) then .texts else .objects
  return ⟨content, entries⟩

/-! ### Operations on arrays -/

structure ArrayOperation where
  onDoubles : Tensor Float → Tensor Float → Except Error (Tensor Float)
  onEntries : Tensor Entry → Tensor Entry → Except Error (Tensor Entry)
  /-- The misuse that texts are as entries. -/
  texts : Fault

/-- What an operation on arrays results in. -/
inductive ArrayResult where
  | doubles (array : Tensor Float)
  | numbers (array : Tensor (Number Float))

def ArrayOperation.ofOperator (operator : Operator) : ArrayOperation where
  onDoubles := match operator.onDoubles? with
    | some f => Tensor.combine f
    | none => fun _ _ => .error (.fault .badType)
  onEntries := Tensor.combine (Entry.combine operator)
  texts := match operator with
    | .add | .subtract | .times => .noEntrywise
    | .over | .attach => .badType

def ArrayOperation.product : ArrayOperation :=
  ⟨Tensor.productInRoom, Tensor.productInRoom, .noEntrywise⟩

def ArrayOperation.apply (operation : ArrayOperation) (left right : ArrayOperand) :
    Except Error ArrayResult := do
  match left.content, right.content with
  | .numbers, .numbers =>
    return .doubles (← operation.onDoubles (← traverse Entry.double left.entries)
      (← traverse Entry.double right.entries))
  | .objects, _ | _, .objects =>
    return .numbers (← traverse Entry.value (← operation.onEntries left.entries right.entries))
  | _, _ => throw (.fault operation.texts)

def newResult : ArrayResult → Script Object
  | .doubles t => newTensor t
  | .numbers t => newNumbers t

/-! ### Operations on objects -/

def isArray (s : Store Float) (object : Object) : Bool :=
  match s.plain? object with
  | some (.entry _) | some (.array ..) | some (.objects _) => true
  | _ => false

/-- Whether an object is an affine map, which no array operation takes. -/
def isAffine : Object → Bool
  | .affine _ => true
  | _ => false

/-- Joins two lists of one kind or two texts. A tuple or a text without items
makes no new object. -/
def join (left right : Object) : Script Object := do
  let s ← getStore
  match s.plain? left, s.plain? right with
  | some (.text text), some (.text text') =>
    if text.isEmpty then return right
    else if text'.isEmpty then return left
    else newValue (.text (text ++ text'))
  | some (.tuple items), some (.tuple items') =>
    if items.isEmpty then return right
    else if items'.isEmpty then return left
    else newValue (.tuple (items ++ items'))
  | some (.tuple _), _ | _, some (.tuple _) => fault .badType
  | some value, some value' =>
    match s.items? value, s.items? value' with
    | some items, some items' => newValue (.sequence (items ++ items'))
    | _, _ => fault .badType
  | _, _ => fault .badType

/-- The elements of a list or of a text, a number of times; there has to be room
for all of them. -/
def repeated {β : Type} (items : List β) (times : Int) : Except Error (List β) :=
  if 0x10000000 < items.length * times then .error (.fault .noRoom)
  else .ok (List.replicate times.toNat items).flatten

/-- A list or a text, put behind itself as often as a whole number says. -/
def repeatValue (left right : Object) : Script Object := do
  let s ← getStore
  match s.plain? left, (s.plain? right).bind Plain.whole? with
  | some (.text text), some n =>
    newValue (.text (String.ofList (← accept (repeated text.toList n))))
  | some (.sequence items), some n => newValue (.sequence (← accept (repeated items n)))
  | _, _ => fault .badType

/-- An operator applied to plain values, or to an array and something else. -/
def combine (operator : Operator) (left right : Object) : Script Object := do
  let s ← getStore
  if isArray s left || isArray s right then
    if isAffine left || isAffine right then fault .badType
    newResult (← accept (do
      (ArrayOperation.ofOperator operator).apply (← arrayOperand s left) (← arrayOperand s right)))
  else
    match (s.plain? left).bind number?, (s.plain? right).bind number?, operator with
    | some x, some y, operator => newValue (.ofNumber (← accept (operator.onNumbers x y)))
    | _, _, .add => join left right
    | _, _, .times => repeatValue left right
    | _, _, _ => fault .badType

def negateValue (object : Object) : Script Object := do
  let s ← getStore
  match s.plain? object with
  | some (.entry x) => newValue (.entry (-x))
  | some (.array id position) => newTensor ((s.window id position).map (-·))
  | some (.objects t) => newNumbers (t.map Number.neg)
  | some value =>
    match number? value with
    | some n => newValue (.ofNumber n.neg)
    | none => fault .badType
  | none => fault .badType

def productWith (operation : ArrayOperation) (factor : Tensor Float) (object : Object) :
    Script Object := do
  let s ← getStore
  newResult (← accept (do operation.apply (.ofTensor factor) (← arrayOperand s object)))

end Session

end ControlHierarchy
