import ControlHierarchy.Session.Report

/-!
# Sessions

A session runs commands over named objects of one store. A name denotes an
object, not its state, so that two names may share an object. The numbers of a
session are doubles.
-/

namespace ControlHierarchy

/-- The objects built so far and their names, the latest meaning of a name first. -/
structure Session where
  store : Store Float
  names : List (String × Object)

def Session.start : Session := ⟨.empty, []⟩

/-- Why a command was refused. -/
inductive Failure where
  /-- A name that denotes nothing. -/
  | unknownName (name : String)
  | refused (error : Error)

/-- Actions on a session: they end with a value or a failure, and with the
session as it is by then. -/
abbrev Script := ExceptT Failure (StateM Session)

namespace Script

def refuse {β : Type} (error : Error) : Script β := throw (.refused error)

def fault {β : Type} (cause : Fault) : Script β := refuse (.fault cause)

def accept {β : Type} : Except Error β → Script β
  | .ok value => pure value
  | .error error => refuse error

/-- Runs an action on the store; what it changes stays also when it is refused. -/
def build {β : Type} (action : Build Float β) : Script β := do
  let session ← get
  let (result, store) := action.run.run session.store
  set { session with store := store }
  accept result

def getStore : Script (Store Float) := return (← get).store

/-- An operation that something else took the place of is refused, once its
arguments were looked at. -/
def requireCallable (object : Object) (operation : Operation) (arguments : List (ArrayData Float)) :
    Script Unit := do
  if (← getStore).isReplaced object operation then
    accept (ArrayData.checkUsable arguments)
    fault .badType

def setStore (store : Store Float) : Script Unit :=
  modify fun session => { session with store := store }

def find (name : String) : Script Object := do
  match (← get).names.lookup name with
  | some object => return object
  | none => throw (.unknownName name)

/-- Gives an object a name, whatever the name meant before. -/
def bind (name : String) (object : Object) : Script Unit :=
  modify fun session => { session with names := (name, object) :: session.names }

def newValue (value : Plain Float) : Script Object := build (Build.newValue value)

/-- A plain value that an object keeps in a field and gives out each time it is asked. -/
def kept (object : Object) (field : Field) (value : Plain Float) : Script Object := do
  match (← getStore).notes.read? object field with
  | some noted => return noted
  | none =>
    let noted ← newValue value
    let s ← getStore
    setStore { s with notes := s.notes.write object field noted }
    return noted

/-- An array as a new object; without dimensions it is a number. -/
def newTensor : Tensor Float → Script Object
  | .scalar value => newValue (.entry value)
  | t => build (Build.newArray t)

/-- An array of numbers that were combined one by one as a new object; without
dimensions it is a number. -/
def newNumbers : Tensor (Number Float) → Script Object
  | .scalar value => newValue (.ofNumber value)
  | t => newValue (.objects t)

def newAffine (e : Except Error (AffineMap Float)) : Script Object := do
  build (Build.newAffine (← accept e))

/-- An item of a list; a negative index counts from the end. -/
def itemAt {β : Type} (items : List β) (index : Int) : Script β := do
  let i ← accept (resolveIndex items.length index)
  match items[i]? with
  | some item => return item
  | none => fault .badIndex

end Script

end ControlHierarchy
