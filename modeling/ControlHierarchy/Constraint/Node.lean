import ControlHierarchy.Constraint.Merge
import ControlHierarchy.Reference

/-!
# Constraints

A leaf constraint has a name, the size of its decision vector, its arrays, and a
rule that says what an update does to them. A merged constraint has the arrays
of its last successful merge and the policy word under which it merges.

The rules of the leaves that are known here are written out. A leaf of any other
kind has an update that is a function of the state: it gives the arrays that the
update stores, or what it fails with before it stores any.

What an update computes from a state without dimensions are bare numbers. They
stand where arrays do, but have no entries that could be assigned.

The half width of a range around the state is stored as it is given. Whether it
can be taken from a state shows at the update.
-/

namespace ControlHierarchy

/-- The half width of a range around a state. -/
inductive HalfWidth (α : Type) where
  | array (value : Tensor α)
  /-- Entries that are no numbers; the array stands for their arrangement.
  Without an entry there is nothing to combine. -/
  | entries (arrangement : Tensor α)
  /-- Something that cannot be combined with any state, and why. -/
  | unusable (cause : Fault)

/-- The lower and the upper end of the range around a state. -/
def HalfWidth.range {α : Type} [Zero α] [Add α] [Sub α] (x : Tensor α) :
    HalfWidth α → Except Error (Tensor α × Tensor α)
  | array w => return (← Tensor.combine (· - ·) x w, ← Tensor.combine (· + ·) x w)
  | entries w => do
    let range ← Tensor.combine (fun x _ => x) x w
    if range.size ≠ 0 then throw (.fault .badType)
    return (range, range)
  | unusable cause => .error (.fault cause)

/-- How a leaf constraint depends on the state. -/
inductive ConstraintRule (α : Type) where
  /-- Arrays are set by validating setters and do not depend on the state. -/
  | validated
  /-- Arrays are stored as they are given and do not depend on the state. -/
  | unvalidated
  /-- A box of a given half width around the state. -/
  | boxAround (halfWidth : HalfWidth α) (updates : Nat)
  /-- One row for each variable, bounded within a given distance of the state. -/
  | rowsAround (halfWidth : HalfWidth α)
  /-- Some arrays are stored that a constraint of this kind computes from the state. -/
  | computed (kind : String) (update : Tensor α → Except Error (SystemArray → Option (Tensor α)))

/-- A constraint that is not made of others. -/
structure LeafConstraint (α : Type) where
  name : String
  size : Int
  system : LinearSystem α
  rule : ConstraintRule α
  /-- The arrays that are bare numbers. -/
  numbers : List SystemArray

/-- A constraint that merges others. -/
structure MergedConstraint (α : Type) where
  name : String
  size : Int
  system : LinearSystem α
  policy : Int

/-- The arrays of a constraint, each possibly absent. -/
structure SystemData (α : Type) where
  boxLower : Option (ArrayData α)
  boxUpper : Option (ArrayData α)
  equalityMatrix : Option (ArrayData α)
  equalityRhs : Option (ArrayData α)
  rowMatrix : Option (ArrayData α)
  rowLower : Option (ArrayData α)
  rowUpper : Option (ArrayData α)

variable {α : Type}

def SystemData.given (d : SystemData α) : List (ArrayData α) :=
  [d.boxLower, d.boxUpper, d.equalityMatrix, d.equalityRhs, d.rowMatrix, d.rowLower,
    d.rowUpper].filterMap id

/-- The blank system of a new constraint; a negative size is refused. -/
def LinearSystem.blank (name : String) (size : Int) : Except Error (LinearSystem α) :=
  if size < 0 then .error (.negativeSize name size) else free size

namespace LeafConstraint

def validated (name : String) (size : Int) (data : SystemData α) :
    Except Error (LeafConstraint α) := do
  let s ← LinearSystem.blank name size
  let s ← s.setBox name size data.boxLower data.boxUpper
  let s ← s.setEqualities name size data.equalityMatrix data.equalityRhs
  let s ← s.setInequalities name size data.rowMatrix data.rowLower data.rowUpper
  return ⟨name, size, s, .validated, []⟩

def replaced (old : Tensor α) : Option (ArrayData α) → Except Error (Tensor α)
  | none => .ok old
  | some d => d.read

/-- A constraint whose given arrays are stored without a check. -/
def unvalidated (name : String) (size : Int) (data : SystemData α) :
    Except Error (LeafConstraint α) := do
  let s ← LinearSystem.blank name size
  let system : LinearSystem α := {
    boxLower := ← replaced s.boxLower data.boxLower
    boxUpper := ← replaced s.boxUpper data.boxUpper
    equalityMatrix := ← replaced s.equalityMatrix data.equalityMatrix
    equalityRhs := ← replaced s.equalityRhs data.equalityRhs
    rowMatrix := ← replaced s.rowMatrix data.rowMatrix
    rowLower := ← replaced s.rowLower data.rowLower
    rowUpper := ← replaced s.rowUpper data.rowUpper }
  return ⟨name, size, system, .unvalidated, []⟩

/-- A box around the state, empty until the first update. -/
def boxAround (name : String) (size : Int) (halfWidth : HalfWidth α) :
    Except Error (LeafConstraint α) := do
  return ⟨name, size, ← LinearSystem.blank name size, .boxAround halfWidth 0, []⟩

/-- A row for each variable around the state, without bounds until the first update. -/
def rowsAround [Zero α] [One α] (name : String) (size : Int) (halfWidth : HalfWidth α) :
    Except Error (LeafConstraint α) := do
  let s ← LinearSystem.blank name size
  checkShape [size.toNat, size.toNat]
  let system := { s with rowMatrix := .matrix (RowMatrix.identity size.toNat) }
  return ⟨name, size, system, .rowsAround halfWidth, []⟩

/-- Those of some arrays that are bare numbers, given what was computed for them. -/
def numbersAmong (roles : List SystemArray) (computed : Tensor α) : List SystemArray :=
  if computed.rank = 0 then roles else []

/-- The constraint with some arrays stored in it, none of which is a bare number. -/
def store (stored : SystemArray → Option (Tensor α)) (c : LeafConstraint α) : LeafConstraint α :=
  { c with
    system := c.system.store stored
    numbers := c.numbers.filter fun role => (stored role).isNone }

def refresh [Zero α] [Add α] [Sub α] (state : ArrayData α) (c : LeafConstraint α) :
    Except Error (LeafConstraint α) :=
  match c.rule with
  | .validated | .unvalidated => .ok c
  | .boxAround halfWidth updates => do
    let x ← state.read
    let (lower, upper) ← halfWidth.range x
    return { c with
      system := { c.system with boxLower := lower, boxUpper := upper }
      rule := .boxAround halfWidth (updates + 1)
      numbers := numbersAmong [.boxLower, .boxUpper] lower }
  | .rowsAround halfWidth => do
    let x ← state.read
    let (lower, upper) ← halfWidth.range x
    return { c with
      system := { c.system with rowLower := lower, rowUpper := upper }
      numbers := numbersAmong [.rowLower, .rowUpper] lower }
  | .computed _ update => do
    return c.store (← update (← state.read))

def setArray (role : SystemArray) (array : Tensor α) (c : LeafConstraint α) : LeafConstraint α :=
  { c with system := c.system.set role array, numbers := c.numbers.filter (· ≠ role) }

/-- Replaces the half width, if the constraint depends on the state. -/
def setHalfWidth (halfWidth : HalfWidth α) (c : LeafConstraint α) : LeafConstraint α :=
  match c.rule with
  | .boxAround _ updates => { c with rule := .boxAround halfWidth updates }
  | .rowsAround _ => { c with rule := .rowsAround halfWidth }
  | .validated | .unvalidated | .computed .. => c

end LeafConstraint

namespace MergedConstraint

/-- Merges the parts as they are now; on failure nothing is replaced. -/
def regenerate [Zero α] [Neg α] [BoundScalar α] (parts : List (Part α)) (c : MergedConstraint α) :
    Except Error (MergedConstraint α) := do
  return { c with system := ← LinearSystem.merge (Policy.ofWord c.policy) c.name c.size parts }

end MergedConstraint

end ControlHierarchy
