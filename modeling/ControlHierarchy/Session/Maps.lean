import ControlHierarchy.Session.Objects

/-!
# Commands on layouts and affine maps

Every operation on affine maps makes a new one. A layout makes the maps that
select its variables, and the numbers that it gives out for a variable are
always the same objects.

A product with an array on the left is asked of any object: what is no affine
map takes it as an array.
-/

namespace ControlHierarchy

namespace Session

open Script

/-- Where a variable starts, as a layout looks it up. Names cannot be looked up
in an array. -/
def lookUp (id : Nat) (name : String) : Script Nat := do
  requireCallable (.layout id) .lookUp []
  let s ← getStore
  if (s.arrayIn? (.layout id) (.backing .offsets)).isSome then fault .badIndex
  accept ((s.layouts.read id).offset name)

/-- How long a variable is, as a layout looks it up after its start. -/
def lookUpSize (id : Nat) (name : String) : Script Nat := do
  let _ ← lookUp id name
  let s ← getStore
  if (s.arrayIn? (.layout id) (.backing .sizes)).isSome then fault .badIndex
  accept ((s.layouts.read id).variableSize name)

/-- The layout in which a variable can be selected: its size has to be a number. -/
def selectable (id : Nat) (name : String) : Script VariableLayout := do
  let _ ← lookUpSize id name
  let s ← getStore
  if (s.arrayIn? (.layout id) (.backing .totalSize)).isSome then fault .badType
  return s.layouts.read id

def select (id : Nat) (name : String) : Script Object := do
  newAffine ((← selectable id name).selectInRoom name)

/-- The segment of a decision vector that holds a variable, which is selected
once the shape of the vector is known. -/
def extract (id : Nat) (name : String) (x : ArrayData Float) : Script Object := do
  let layout := (← getStore).layouts.read id
  let x ← accept x.read
  if x.shape = [layout.size] then
    requireCallable (.layout id) .select []
    let _ ← selectable id name
  newTensor (← accept (layout.extract name (.shaped x)))

def layoutFor (target : String) (operation : Operation) (arguments : List (ArrayData Float)) :
    Script Nat := do
  let object ← find target
  requireCallable object operation arguments
  accept object.asLayout

def multiply (object : Object) (factor : Tensor Float) : Script Object := do
  match object with
  | .affine id => newAffine (((← getStore).affines.read id).multiplyInRoom factor)
  | object => productWith .product factor object

def multiplyEntries (object : Object) (factor : Tensor Float) : Script Object := do
  match object with
  | .affine id => newAffine (((← getStore).affines.read id).multiplyInRoom factor)
  | object => productWith (.ofOperator .times) factor object

/-- A multiple of an affine map. A factor that is no number is applied to its
outputs, unless it is a text. -/
def scaleMap (e : AffineMap Float) (factor : Literal) : Script Object := do
  match ← accept (loneNumber? factor), factor with
  | some x, _ => newAffine (.ok (e.scale x))
  | none, .text _ => fault .noEntrywise
  | none, factor => newAffine (e.multiplyInRoom (← accept (ArrayData.ofRaw factor).read))

def scale (object : Object) (factor : Literal) : Script Object := do
  match object with
  | .affine id => scaleMap ((← getStore).affines.read id) factor
  | object => combine .times (← factorObject factor) object

/-- The value of an affine map at an input. The value of a policy is its word,
which takes no input. -/
def valueAt (object : Object) (x : ArrayData Float) : Script Object := do
  requireCallable object .value [x]
  let s ← getStore
  match s.plain? object with
  | some (.policy _) =>
    accept (ArrayData.checkUsable [x])
    fault .badType
  | _ =>
    let e := s.affines.read (← accept object.asAffine)
    newTensor (← accept (do e.valueInRoom (← x.read)))

/-- An array of coefficients that was assigned to an object which is no affine map. -/
def assignedCoefficients (object : Object) (field : Field) : Script (Tensor Float) := do
  let s ← getStore
  match (s.notes.read? object field).bind s.plain? with
  | some (.array id position) => return s.window id position
  | _ => fault .noMember

/-- The outputs of a map followed by those of another, or by those that the
coefficients assigned to an object describe. -/
def pile (e : AffineMap Float) (object : Object) : Script Object := do
  match object with
  | .affine id => newAffine (e.pile ((← getStore).affines.read id))
  | object =>
    let matrix ← accept ((Tensor.matrix e.matrix).pile (← assignedCoefficients object .mapMatrix))
    let offset ← accept ((Tensor.vector e.offset).pile (← assignedCoefficients object .mapOffset))
    newAffine (AffineMap.ofTensors matrix offset)

def performMap : MapCommand → Script Object
  | .layout segments => do
    return .layout (← build (Build.newLayout (← accept (VariableLayout.ofPairs segments))))
  | .hasVariable target name => do hasVariable (← find target) name
  | .variableOffset target name => do
    let id ← layoutFor target .offset []
    kept (.layout id) (.offsetOf name) (.integer (← lookUp id name))
  | .variableSize target name => do
    let id ← layoutFor target .variableSize []
    kept (.layout id) (.sizeOf name) (.integer (← lookUpSize id name))
  | .select target name => do select (← layoutFor target .select []) name
  | .extract target name x => do extract (← layoutFor target .extract [x]) name x
  | .affine matrix offset => do
    accept (ArrayData.checkUsable [matrix, offset])
    let m ← accept matrix.read
    newAffine (AffineMap.ofTensors m (← accept offset.read))
  | .zero outputs inputs => newAffine (AffineMap.zero? outputs inputs)
  | .value target x => do valueAt (← find target) x
  | .pile top bottom => do
    let object ← find top
    let other ← find bottom
    requireCallable object .pile []
    let id ← accept object.asAffine
    pile ((← getStore).affines.read id) other
  | .scale target factor => do scale (← find target) factor
  | .multiply target factor => do
    let object ← find target
    multiply object (← accept factor.read)
  | .multiplyEntries target factor => do
    let object ← find target
    multiplyEntries object (← accept factor.read)

end Session

end ControlHierarchy
