import ControlHierarchy.Store.Schedule

/-!
# Assembling aggregates

An aggregate is checked before anything happens: it has parts, a valid policy, a
size that is not negative, and all its parts have this size. Then it merges the
parts as they are (`mergeConstraints`, `mergeTasks`), or brings them up to date
with a state first, whose length is then the size (the `AtState` variants). It
is stored only when the merge succeeds.

The sum of two tasks dissolves aggregates whose weight was never set: their
parts, and the constraints attached to them, go into the sum.
-/

namespace ControlHierarchy

def checkSizes (owner : String) (size : Int) : List (String × Int) → Except Error Unit
  | [] => .ok ()
  | (element, actual) :: rest =>
    if actual ≠ size then .error (.sizeMismatch owner size element actual)
      else checkSizes owner size rest

/-- The name of an aggregate: the names of its parts with plus signs between them. -/
def joinNames (names : List String) : String := "+".intercalate names

namespace Store

variable {α : Type}

def constraintSizes (s : Store α) (cs : List ConstraintRef) : List (String × Int) :=
  cs.map fun c => (s.constraintName c, s.constraintSize c)

def taskSizes (s : Store α) (ts : List TaskRef) : List (String × Int) :=
  ts.map fun t => ((s.taskBody t).name, (s.taskBody t).size)

end Store

namespace Build

variable {α : Type}

def prepareConstraint (parts : List ConstraintRef) (size : Int) (policy : Literal) :
    Build α (MergedConstraint α) := do
  let s ← get
  if parts.isEmpty then throw (.nothingToAssemble .constraint)
  let p ← Policy.validate policy
  let name := joinNames (parts.map s.constraintName)
  let system ← LinearSystem.blank name size
  checkSizes name size (s.constraintSizes parts)
  log (.aggregatingConstraints parts.length name p.word)
  return ⟨name, size, system, p.word⟩

def mergedConstraint [Zero α] [Neg α] [BoundScalar α] (parts : List ConstraintRef) (size : Int)
    (policy : Literal) : Build α (MergedConstraint α) := do
  let c ← prepareConstraint parts size policy
  (← get).remerged (fun _ => false) c parts

def mergeConstraints [Zero α] [Neg α] [BoundScalar α] (parts : List ConstraintRef) (size : Int)
    (policy : Literal) : Build α ConstraintRef := do
  newMergedConstraint parts (← mergedConstraint parts size policy)

/-- What objects would be merged: all of them have to be constraints, which
shows after the policy is checked. -/
def objectsToMerge (os : List Object) (policy : Literal) : Build α (List ConstraintRef) := do
  match os.mapM Object.asConstraint with
  | .ok parts => return parts
  | .error e => do
    let _ ← Policy.validate policy
    throw e

def prepareTask [One α] [Scalar α] (parts : List TaskRef) (size : Int) :
    Build α (MergedTask α) := do
  let s ← get
  if parts.isEmpty then throw (.nothingToAssemble .task)
  let name := joinNames (parts.map fun t => (s.taskBody t).name)
  let body ← TaskBody.blank name size (some 1)
  checkSizes name size (s.taskSizes parts)
  log (.aggregatingTasks parts.length name)
  return ⟨body, []⟩

variable [Zero α] [One α] [Add α] [Mul α] [Scalar α]

/-- Merges the parts of an aggregate that is not stored yet. -/
def firstMerge (parts : List TaskRef) (t : MergedTask α) : Build α (MergedTask α) := do
  let (merged, events) ← (← get).remergedTask t parts (.ok [])
  events.forM log
  return merged

def mergeTasks (parts : List TaskRef) (size : Int) : Build α TaskRef := do
  newMergedTask parts (← firstMerge parts (← prepareTask parts size))

/-- Attaches an object to an aggregate that is not stored yet. -/
def attachTo (t : MergedTask α) (o : Object) : Build α (MergedTask α) := do
  let s ← get
  t.attach o (s.nameAsConstraint o) (← s.objectSize o)

/-- An array in the place of a list takes no more elements. -/
def checkExtensible (owner : Object) (field : Field) : Build α Unit := do
  if ((← get).arrayIn? owner field).isSome then throw (.fault .noMember)

/-- Attaches an object to a task: an aggregate has it among what is attached to
the task first, and then among its own. -/
def attach (t : TaskRef) (o : Object) : Build α Unit := do
  let s ← get
  s.checkCallable (.task t) .attach
  let size ← s.objectSize o
  let body ← (s.taskBody t).attach o (s.nameAsConstraint o) size
  checkExtensible (.task t) .constraints
  set (s.setTaskBody t body)
  if let .merged i _ := t then
    checkExtensible (.task t) (.backing .ownConstraints)
    let merged ← (s.mergedTasks.read i).attach o (s.nameAsConstraint o) size
    set { s with mergedTasks := s.mergedTasks.write i merged }

def dissolves (s : Store α) : TaskRef → Bool
  | .leaf _ => false
  | .merged i _ => (s.mergedTasks.read i).body.weight.isNone

/-- A task that is taken apart has to have lists of its parts and of what is
attached to it. -/
def checkSummand (s : Store α) (t : TaskRef) : Except Error Unit :=
  match t with
  | .leaf _ => .ok ()
  | .merged _ parts => do
    if dissolves s t then
      let _ ← s.walk (.task t) (.backing .tasks) parts
      let _ ← s.ownConstraints t

/-- What a task brings into a sum: its parts and what is attached to itself, or
only itself. -/
def summands (s : Store α) (t : TaskRef) : Except Error (List TaskRef × List Object) := do
  if dissolves s t then return (← s.taskParts t, ← s.ownConstraints t) else return ([t], [])

def addTasks (a b : TaskRef) : Build α TaskRef := do
  let s ← get
  checkSummand s a
  checkSummand s b
  let (tasks, own) ← summands s a
  let (tasks', own') ← summands s b
  let parts := tasks ++ tasks'
  let t ← firstMerge parts (← prepareTask parts (s.taskBody a).size)
  newMergedTask parts (← (own ++ own').foldlM attachTo t)

variable [Sub α] [Neg α] [BoundScalar α]

/-- Builds an aggregate of constraints that are first brought up to date with a state. -/
def mergeConstraintsAtState (parts : List ConstraintRef) (state : ArrayData α) (policy : Literal) :
    Build α ConstraintRef := do
  let x ← state.read
  let c ← prepareConstraint parts (← x.leading) policy
  performAll (.shaped x) (ConstraintRef.scheduleAll (← get) parts)
  newMergedConstraint parts (← (← get).remerged (fun _ => false) c parts)

/-- Builds an aggregate of tasks that are first brought up to date with a state. -/
def mergeTasksAtState (parts : List TaskRef) (state : ArrayData α) : Build α TaskRef := do
  let x ← state.read
  let t ← prepareTask parts (← x.leading)
  let s ← get
  performAll (.shaped x) (TaskRef.scheduleAll s (Object.schedule s s.depth) parts)
  newMergedTask parts (← firstMerge parts t)

end Build

end ControlHierarchy
