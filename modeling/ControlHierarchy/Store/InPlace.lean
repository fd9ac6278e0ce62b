import ControlHierarchy.Store.Basic

/-!
# What takes the place of something else

An array can be assigned in the place of a list that an object keeps: the parts
of an aggregate, the levels and bounds of a stack, what is attached to a task.
The elements of the array then are the items of the list, as long as it has a
dimension along which they can be gone through (`walk`). They are numbers or
arrays, and these are neither constraints nor tasks, so that parts cannot be
asked for anything unless there are none (`asked`).

An array can also be assigned in the place of an operation, which then cannot be
performed (`checkCallable`).
-/

namespace ControlHierarchy.Store

variable {α β : Type}

def cellIn? (s : Store α) (owner : Object) (field : Field) : Option Nat :=
  match (s.notes.read? owner field).bind s.plain? with
  | some (.array id _) => some id
  | _ => none

def arrayIn? (s : Store α) (owner : Object) (field : Field) : Option (Tensor α) :=
  (s.cellIn? owner field).map s.arrays.read

/-- Whether an array took the place of an operation of an object. -/
def isReplaced (s : Store α) (owner : Object) (operation : Operation) : Bool :=
  (s.notes.read? owner (.operation operation)).isSome

/-- An operation that something else took the place of cannot be performed. -/
def checkCallable (s : Store α) (owner : Object) (operation : Operation) : Except Error Unit :=
  if s.isReplaced owner operation then .error (.fault .badType) else .ok ()

/-- The items of a list that an object keeps, to be gone through. An array
without dimensions has none. -/
def walk (s : Store α) (owner : Object) (field : Field) (items : List β) : Except Error (List β) :=
  match s.arrayIn? owner field with
  | some (.scalar _) => .error (.fault .badType)
  | _ => .ok items

theorem walk_eq_ok {s : Store α} {owner : Object} {field : Field} (items : List β)
    (h : s.arrayIn? owner field = none) : s.walk owner field items = .ok items := by
  rw [walk, h]

/-- The parts of an object, to be asked for something that no element of an array has. -/
def asked (s : Store α) (owner : Object) (kept : Backing) (parts : List β) :
    Except Error (List β) :=
  match (s.arrayIn? owner (.backing kept)).map Tensor.shape with
  | none => .ok parts
  | some [] => .error (.fault .badType)
  | some (0 :: _) => .ok []
  | some _ => .error (.fault .noMember)

theorem asked_eq_ok {s : Store α} {owner : Object} {kept : Backing} (parts : List β)
    (h : s.arrayIn? owner (.backing kept) = none) : s.asked owner kept parts = .ok parts := by
  rw [asked, h]
  rfl

def constraintParts (s : Store α) (c : ConstraintRef) : Except Error (List ConstraintRef) :=
  match c with
  | .leaf _ => .ok []
  | .merged _ parts => s.asked (.constraint c) .constraints parts

def taskParts (s : Store α) (t : TaskRef) : Except Error (List TaskRef) :=
  match t with
  | .leaf _ => .ok []
  | .merged _ parts => s.asked (.task t) .tasks parts

/-- What is attached to an aggregate of tasks itself, without what its parts bring along. -/
def ownConstraints (s : Store α) (t : TaskRef) : Except Error (List Object) :=
  match t with
  | .leaf _ => .ok []
  | .merged i _ => s.walk (.task t) (.backing .ownConstraints) (s.mergedTasks.read i).own

def attached (s : Store α) (t : TaskRef) : Except Error (List Object) :=
  s.walk (.task t) .constraints (s.taskBody t).constraints

def levels (s : Store α) (id : Nat) : Except Error (List Object) :=
  s.walk (.stack id) (.backing .levels) (s.stackCells.read id).levels

def bounds (s : Store α) (id : Nat) : Except Error (List Object) :=
  s.walk (.stack id) (.backing .bounds) (s.stackCells.read id).bounds

def retiredLists (s : Store α) (t : TaskRef) : List (List Object) :=
  (s.retired.filter fun entry => entry.1.same t).map Prod.snd

/-- Keeps the list of a task for those who hold it, before another one takes its place. -/
def retire (t : TaskRef) (s : Store α) : Store α :=
  if (s.arrayIn? (.task t) .constraints).isSome then s
  else { s with retired := s.retired ++ [(t, (s.taskBody t).constraints)] }

end ControlHierarchy.Store
