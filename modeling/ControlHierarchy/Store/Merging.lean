import ControlHierarchy.Room
import ControlHierarchy.Store.InPlace

/-!
# Merging in the store

An aggregate merges its parts as they are at the moment, and has new arrays only
when the whole merge succeeds. What was assigned to a part, or to the aggregate
itself, may leave the merge without something that it needs. It ends when it
comes to that: what the parts and the faces before have against the merge is
noticed first.
-/

namespace ControlHierarchy

/-- The faces of a constraint, in the order in which a merge goes through them. -/
inductive Face where
  | box
  | equalities
  | inequalities

namespace Store

variable {α : Type}

/-- The face of a part that a merge gets stuck at, if there is one, given the
operations that the aggregate lost. Either the part cannot be asked whether it
has the face, or it has it and the aggregate cannot check it. -/
def stuckAt? (s : Store α) (lost : Operation → Bool) (c : ConstraintRef) : Option Face :=
  let system := s.constraintSystem c
  let mute := s.isReplaced (.constraint c)
  let has := fun (answer : Except Error Bool) => answer.toOption.getD false
  let hasRows := (system.rowMatrix.leading.toOption.getD 0) ≠ 0
  if mute .hasBox || (system.hasBox && lost .checkBox) then some .box
  else if mute .hasEqualities ||
    (has system.hasEqualities && (lost .checkEqualities || lost .checkColumns)) then
    some .equalities
  else if mute .hasInequalities ||
    (has system.hasInequalities && hasRows && lost .checkColumns) then some .inequalities
  else none

/-- A merge must not get stuck at a part. -/
def checkFaces [Zero α] [Neg α] [BoundScalar α] (s : Store α) (lost : Operation → Bool)
    (policy : Policy) (size : Int) (parts : List ConstraintRef) : Except Error Unit := do
  let (ready, rest) := parts.span fun c => (s.stuckAt? lost c).isNone
  if let culprit :: _ := rest then
    let merged ← LinearSystem.mergeParts policy size (ready.map s.part)
    match s.stuckAt? lost culprit with
    | some .equalities => let _ ← merged.mergeBox size (s.part culprit)
    | some .inequalities =>
      let merged ← merged.mergeBox size (s.part culprit)
      let _ ← merged.mergeEqualities policy size (s.part culprit)
    | _ => pure ()
    throw (.fault .badType)

/-- An aggregate of constraints, some operations of which may be lost, after a
merge of parts as they are. -/
def remerged [Zero α] [Neg α] [BoundScalar α] (s : Store α) (lost : Operation → Bool)
    (c : MergedConstraint α) (parts : List ConstraintRef) : Except Error (MergedConstraint α) := do
  let policy := Policy.ofWord c.policy
  s.checkFaces lost policy c.size parts
  if lost .checkMerged then
    let _ ← LinearSystem.mergeParts policy c.size (parts.map s.part)
    throw (.fault .badType)
  c.regenerate (parts.map s.part)

/-- A part without room for its weight, or without a list of what is attached to
it, ends a merge at its turn: after the rows before it, and in the second case
after its own. -/
def checkParts [Zero α] [One α] [Add α] [Mul α] (s : Store α) (size : Int) (parts : List TaskRef) :
    Except Error Unit := do
  let (ready, rest) := parts.span fun t => (s.taskBody t).checkRoom.isOk && (s.attached t).isOk
  if let culprit :: _ := rest then
    let _ ← TaskRows.merge size (ready.map s.taskBody)
    (s.taskBody culprit).checkRoom
    let _ ← TaskRows.merge size ((ready ++ [culprit]).map s.taskBody)
    let _ ← s.attached culprit

/-- An aggregate of tasks after a merge of parts as they are, and what is to be
written down about it. The objects attached to the aggregate itself are gone
through after the rows of the parts. -/
def remergedTask [Zero α] [One α] [Add α] [Mul α] (s : Store α) (t : MergedTask α)
    (parts : List TaskRef) (own : Except Error (List Object)) :
    Except Error (MergedTask α × List Event) := do
  s.checkParts t.body.size parts
  match own with
  | .ok _ => t.regenerate (parts.map s.taskBody)
  | .error e =>
    let _ ← TaskRows.merge t.body.size (parts.map s.taskBody)
    throw e

end Store

namespace Build

variable {α : Type}

def mergeConstraint [Zero α] [Neg α] [BoundScalar α] (id : Nat) (parts : List ConstraintRef) :
    Build α Unit := do
  let s ← get
  let c := s.mergedConstraints.read id
  let _ ← (LinearSystem.free c.size : Except Error (LinearSystem α))
  let present ← s.constraintParts (.merged id parts)
  let c ← s.remerged (s.isReplaced (.constraint (.merged id parts))) c present
  set { s with mergedConstraints := s.mergedConstraints.write id c }

/-- Merges the parts of an aggregated task as they are now. The task then has a
new list of what is attached to it. -/
def mergeTask [Zero α] [One α] [Add α] [Mul α] (id : Nat) (parts : List TaskRef) :
    Build α Unit := do
  let s ← get
  let t := s.mergedTasks.read id
  let _ ← (RowMatrix.withoutRows t.body.size : Except Error (RowMatrix α))
  let present ← s.taskParts (.merged id parts)
  let (t, events) ← s.remergedTask t present (s.ownConstraints (.merged id parts))
  let s := s.retire (.merged id parts)
  set { s with
    mergedTasks := s.mergedTasks.write id t
    notes := s.notes.eraseAll (.task (.merged id parts)) [.constraints, .hessian]
    journal := s.journal ++ events }

/-- Merges the parts of an aggregate as they are now, if it can be asked to. -/
def regenerate [Zero α] [One α] [Add α] [Mul α] [Neg α] [BoundScalar α] (o : Object) :
    Build α Unit := do
  (← get).checkCallable o .regenerate
  match o with
  | .constraint (.merged id parts) => mergeConstraint id parts
  | .task (.merged id parts) => mergeTask id parts
  | _ => throw (.fault .noMember)

end Build

end ControlHierarchy
