import ControlHierarchy.Session.Report
import ControlHierarchy.Tensor.Assign

/-!
# Commands

The commands of a session. Objects are given by their names; arrays as data that
is read when the command needs it, and an absent array is `none` where the
command knows what to do without. Data that is refused for itself is noticed
before that: by some commands together with the names, by the others once it is
clear that their object has the operation at all. What need not be an array or a
number is a literal.
-/

namespace ControlHierarchy

/-- The value of a direct assignment: a whole number, kept as one, or an array. -/
inductive AssignedData where
  | whole (value : Int)
  | array (value : ArrayData Float)

/-- An operand: a named object, or a plain value. -/
inductive Operand where
  | named (name : String)
  | literal (value : Literal)

/-- Where a search looks: in a list of objects, or at a task. -/
inductive SearchSpace where
  | among (names : List String)
  | on (name : String)

inductive ConstraintCommand where
  | validated (name : String) (size : Int) (data : SystemData Float)
  | unvalidated (name : String) (size : Int) (data : SystemData Float)
  | boxAround (name : String) (size : Int) (halfWidth : Literal)
  | rowsAround (name : String) (size : Int) (halfWidth : Literal)
  | merge (parts : List String) (size : Int) (policy : Literal)
  | mergeAtState (parts : List String) (state : ArrayData Float) (policy : Literal)
  | setBox (target : String) (lower upper : Option (ArrayData Float))
  | setEqualities (target : String) (matrix rightHandSide : Option (ArrayData Float))
  | setInequalities (target : String) (matrix lower upper : Option (ArrayData Float))
  | checkMerged (target : String) (data : SystemData Float)
  | joinNames (constraints : List String)
  /-- The first constraint of a sort; without a sort, any constraint. -/
  | find (space : SearchSpace) (sort : Option ConstraintSort)
  | findAll (objects : List String) (sort : Option ConstraintSort)

/-- Commands on tasks. A label that is no word is `none`. -/
inductive TaskCommand where
  | explicit (name : String) (matrix : ArrayData Float) (reference : Option (ArrayData Float))
    (gain : Literal)
  | opposing (name : String) (size : Int) (gain : Literal)
  | onTarget (name : String) (target : ArrayData Float)
  | merge (parts : List String) (size : Int)
  | mergeAtState (parts : List String) (state : ArrayData Float)
  | setGain (target : String) (gain : Literal)
  | setWeight (target : String) (weight : ArrayData Float)
  | resetWeight (target : String)
  | setArrays (target : String) (matrix reference : Option (ArrayData Float))
  | attach (target constraint : String)
  | setHessian (target : String) (label : Option HessianLabel)
  | objective (target : String) (x : Option (ArrayData Float))
  | problem (target : String) (constraint : Option String)

inductive StackCommand where
  | build (levels bounds : List String) (policy : Literal)
  | addLevel (target task : String)
  | addBound (target constraint : String)
  | item (target : String) (index : Int)

/-- Commands that any object takes, if only to refuse it, and operators. -/
inductive ObjectCommand where
  | update (target : String) (state : Literal)
  | regenerate (target : String)
  | checkSizes (target : String)
  | inspect (target : String)
  | describe (target : String)
  | count (target : String)
  | enumerate (target : String)
  | part (target : String) (field : Field) (index : Option Int)
  | same (left right : String)
  | assign (target : String) (field : Field) (value : AssignedData)
  | assignEntry (target : String) (field : Field) (position : Position) (value : ArrayData Float)
  | operate (operator : Operator) (left right : Operand)
  | negate (target : String)

/-- Commands on layouts and affine maps. -/
inductive MapCommand where
  | layout (segments : List (String × Int))
  | hasVariable (target name : String)
  | variableOffset (target name : String)
  | variableSize (target name : String)
  | select (target name : String)
  | extract (target name : String) (x : ArrayData Float)
  | affine (matrix offset : ArrayData Float)
  | zero (outputs inputs : Int)
  | value (target : String) (x : ArrayData Float)
  | pile (top bottom : String)
  | scale (target : String) (factor : Literal)
  /-- The matrix product with a factor on the left. -/
  | multiply (target : String) (factor : ArrayData Float)
  /-- The entrywise product with a factor on the left, which affine maps take
  for the matrix product. -/
  | multiplyEntries (target : String) (factor : ArrayData Float)

inductive Command where
  | constraint (command : ConstraintCommand)
  | task (command : TaskCommand)
  | stack (command : StackCommand)
  | object (command : ObjectCommand)
  | map (command : MapCommand)

end ControlHierarchy
