import ControlHierarchy.Constraint.System
import ControlHierarchy.Policy
import ControlHierarchy.Sidedness
import ControlHierarchy.Tensor.Product

/-!
# Merging linear systems

A merge goes through its parts in order. The boxes are intersected; equalities
and inequality rows are brought into the form that the policy asks for and piled
onto those of the parts before. A part is checked when its turn comes, so that
the first malformed part decides the error. The finished arrays are checked once
more, as a whole, by `LinearSystem.checkMerged`.
-/

namespace ControlHierarchy

/-- A part of a merge: a system and the name that errors use for it. -/
structure Part (α : Type) where
  name : String
  system : LinearSystem α

namespace Part

variable {α : Type}

/-- Both sides of a box have one entry for each variable. -/
def checkBox (p : Part α) (size : Int) : Except Error Unit :=
  if p.system.boxLower.shape.map Int.ofNat ≠ [size] ||
    p.system.boxUpper.shape.map Int.ofNat ≠ [size] then
    throw (.partBox p.name size p.system.boxLower.shape p.system.boxUpper.shape)
  else pure ()

def checkColumns (p : Part α) (size : Int) (rows : RowKind) (matrix : Tensor α) :
    Except Error Unit :=
  match matrix.shape with
  | [_, columns] =>
    if (columns : Int) ≠ size then throw (.partColumns p.name rows size matrix.shape) else pure ()
  | shape => throw (.partColumns p.name rows size shape)

/-- Equalities have one right-hand side for each row. -/
def checkEqualities (p : Part α) (size : Int) : Except Error Unit := do
  p.checkColumns size .equality p.system.equalityMatrix
  let rows ← p.system.equalityMatrix.leading
  let entries ← p.system.equalityRhs.leading
  if rows ≠ entries then throw (.partRightHandSide p.name .equality rows entries)

end Part

namespace LinearSystem

variable {α : Type}

def mergeBox [Zero α] [BoundScalar α] (size : Int) (s : LinearSystem α) (p : Part α) :
    Except Error (LinearSystem α) := do
  if p.system.hasBox then
    p.checkBox size
    if s.boxUpper.size = 0 then
      return { s with boxLower := p.system.boxLower, boxUpper := p.system.boxUpper }
    else
      let lower ← Tensor.combine BoundScalar.larger s.boxLower p.system.boxLower
      let upper ← Tensor.combine BoundScalar.smaller s.boxUpper p.system.boxUpper
      return { s with boxLower := lower, boxUpper := upper }
  else return s

def pileBilateral (s : LinearSystem α) (rows : BilateralRows α) :
    Except Error (LinearSystem α) := do
  let matrix ← s.rowMatrix.pile rows.matrix
  let lower ← s.rowLower.pile rows.lower
  let upper ← s.rowUpper.pile rows.upper
  return { s with rowMatrix := matrix, rowLower := lower, rowUpper := upper }

/-- Piles rows with an upper bound below the inequality rows. -/
def pileUnilateral (s : LinearSystem α) (rows : UnilateralRows α) :
    Except Error (LinearSystem α) := do
  let matrix ← s.rowMatrix.pile rows.matrix
  let upper ← s.rowUpper.pile rows.upper
  return { s with rowMatrix := matrix, rowUpper := upper }

def pileEqualities (s : LinearSystem α) (matrix rightHandSide : Tensor α) :
    Except Error (LinearSystem α) := do
  let matrix ← s.equalityMatrix.pile matrix
  let rightHandSide ← s.equalityRhs.pile rightHandSide
  return { s with equalityMatrix := matrix, equalityRhs := rightHandSide }

def mergeEqualities [Neg α] (policy : Policy) (size : Int) (s : LinearSystem α) (p : Part α) :
    Except Error (LinearSystem α) := do
  if ← p.system.hasEqualities then
    p.checkEqualities size
    let matrix := p.system.equalityMatrix
    let rightHandSide := p.system.equalityRhs
    if !policy.foldsEqualities then s.pileEqualities matrix rightHandSide
    else if policy.bilateral then
      s.pileBilateral (Sidedness.equalityToBilateral matrix rightHandSide)
    else s.pileUnilateral (← Sidedness.equalityToUnilateral matrix rightHandSide)
  else return s

/-- Adds the inequality rows of a part, in the form of the policy. -/
def mergeInequalities [Neg α] [BoundScalar α] (policy : Policy) (size : Int) (s : LinearSystem α)
    (p : Part α) : Except Error (LinearSystem α) := do
  if ← p.system.hasInequalities then
    if (← p.system.rowMatrix.leading) = 0 then throw (.orphanBounds p.name)
    p.checkColumns size .inequality p.system.rowMatrix
    if policy.bilateral then
      s.pileBilateral
        (← Sidedness.toBilateral p.system.rowMatrix p.system.rowLower p.system.rowUpper)
    else
      s.pileUnilateral
        (← Sidedness.toUnilateral p.system.rowMatrix p.system.rowLower p.system.rowUpper)
  else return s

/-- Adds a part to what has been merged so far. -/
def mergePart [Zero α] [Neg α] [BoundScalar α] (policy : Policy) (size : Int) (s : LinearSystem α)
    (p : Part α) : Except Error (LinearSystem α) := do
  let s ← s.mergeBox size p
  let s ← s.mergeEqualities policy size p
  s.mergeInequalities policy size p

/-- A merged side of the box is empty or has one entry for each variable. -/
def checkMergedBox (name : String) (size : Int) (side : Side) (bound : Tensor α) :
    Except Error Unit :=
  if bound.size ≠ 0 && (bound.size : Int) ≠ size then
    throw (.mergedBox name side bound.size size)
  else pure ()

/-- Whether a matrix of merged rows fails to match a vector, or, having rows,
the number of variables. -/
def misfits (size : Int) (matrix vector : Tensor α) : Except Error Bool := do
  let rows ← matrix.leading
  if rows ≠ (← vector.leading) then return true
  if rows > 0 then return ((← matrix.axis 1) : Int) ≠ size
  return false

def checkMerged (policy : Policy) (name : String) (size : Int) (s : LinearSystem α) :
    Except Error Unit := do
  checkMergedBox name size .lower s.boxLower
  checkMergedBox name size .upper s.boxUpper
  if ← misfits size s.equalityMatrix s.equalityRhs then
    throw (.mergedEqualities name s.equalityMatrix.shape s.equalityRhs.shape)
  if ← misfits size s.rowMatrix s.rowUpper then
    throw (.mergedInequalities name s.rowMatrix.shape s.rowUpper.shape)
  let expected ← if policy.bilateral then s.rowMatrix.leading else pure 0
  let entries ← s.rowLower.leading
  if entries ≠ expected then throw (.mergedLower name entries expected)

/-- Merges the parts in order under a policy, without a look at the whole. -/
def mergeParts [Zero α] [Neg α] [BoundScalar α] (policy : Policy) (size : Int)
    (parts : List (Part α)) : Except Error (LinearSystem α) := do
  parts.foldlM (mergePart policy size) (← free size)

/-- Merges the parts in order under a policy. The name is the merged constraint's own. -/
def merge [Zero α] [Neg α] [BoundScalar α] (policy : Policy) (name : String) (size : Int)
    (parts : List (Part α)) : Except Error (LinearSystem α) := do
  let merged ← mergeParts policy size parts
  merged.checkMerged policy name size
  return merged

end LinearSystem

end ControlHierarchy
