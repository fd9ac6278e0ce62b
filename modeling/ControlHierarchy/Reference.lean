import ControlHierarchy.Error

/-!
# References

Constraints and tasks are shared: the same leaf may hang below several
aggregates, and an update through one of them is seen by all. A reference
therefore names cells of a store, one for each node. What an aggregate is made
of never changes once it is built, so a reference to an aggregate carries the
references to its parts and is a finite tree: whatever walks down a hierarchy
recurses on the reference. Two references denote the same object when they name
the same cell.

Everything else that is shared is named by the number of its cell. What is
attached to a task, and what a stack lists, does change. These lists hold
objects of any kind: the owner compares sizes when an object is added and
nothing else.
-/

namespace ControlHierarchy

/-- A constraint: a leaf, or an aggregate with its parts in order. Leaves and
aggregates are numbered separately. -/
inductive ConstraintRef where
  | leaf (id : Nat)
  | merged (id : Nat) (parts : List ConstraintRef)

/-- A task: a leaf, or an aggregate with its parts in order. Leaves and
aggregates are numbered separately. -/
inductive TaskRef where
  | leaf (id : Nat)
  | merged (id : Nat) (parts : List TaskRef)

def ConstraintRef.same : ConstraintRef → ConstraintRef → Bool
  | .leaf i, .leaf j => i == j
  | .merged i _, .merged j _ => i == j
  | _, _ => false

def TaskRef.same : TaskRef → TaskRef → Bool
  | .leaf i, .leaf j => i == j
  | .merged i _, .merged j _ => i == j
  | _, _ => false

/-- The constraint that a constraint has its name from: the only part of an
aggregate of one part, and so on. -/
def ConstraintRef.namesake : ConstraintRef → ConstraintRef
  | .merged _ [part] => part.namesake
  | c => c

/-- The task that a task has its name from: the only part of an aggregate of one
part, and so on. -/
def TaskRef.namesake : TaskRef → TaskRef
  | .merged _ [part] => part.namesake
  | t => t

/-- Anything that can be named, listed and handed around. -/
inductive Object where
  | constraint (c : ConstraintRef)
  | task (t : TaskRef)
  | stack (id : Nat)
  | layout (id : Nat)
  | affine (id : Nat)
  /-- A plain value, such as a number or a list. -/
  | value (id : Nat)
  /-- The absence of an object. -/
  | nothing

namespace Object

def same : Object → Object → Bool
  | constraint c, constraint d => c.same d
  | task t, task u => t.same u
  | stack i, stack j | layout i, layout j | affine i, affine j | value i, value j => i == j
  | nothing, nothing => true
  | _, _ => false

def namesake : Object → Object
  | constraint c => constraint c.namesake
  | task t => task t.namesake
  | object => object

def asConstraint : Object → Except Error ConstraintRef
  | constraint c => .ok c
  | _ => .error (.fault .noMember)

def asTask : Object → Except Error TaskRef
  | task t => .ok t
  | _ => .error (.fault .noMember)

def asStack : Object → Except Error Nat
  | stack id => .ok id
  | _ => .error (.fault .noMember)

def asLayout : Object → Except Error Nat
  | layout id => .ok id
  | _ => .error (.fault .noMember)

def asAffine : Object → Except Error Nat
  | affine id => .ok id
  | _ => .error (.fault .noMember)

end Object

end ControlHierarchy
