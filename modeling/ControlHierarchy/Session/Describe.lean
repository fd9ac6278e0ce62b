import ControlHierarchy.Session.Report
import ControlHierarchy.Tensor.Text

/-!
# Short descriptions

One line about an object: its sort, its name and its sizes. Plain values are
described by their written forms, a list by the descriptions of its items.
-/

namespace ControlHierarchy

def Policy.name : Policy → String
  | ⟨false, false⟩ => "NONE"
  | ⟨true, false⟩ => "EQUALITIES_TO_INEQUALITIES"
  | ⟨false, true⟩ => "UNILATERAL_TO_BILATERAL"
  | ⟨true, true⟩ => "DEFAULT"

namespace Store

def describeConstraint (s : Store Float) (c : ConstraintRef) : String :=
  let name := Text.quoted (s.constraintName c)
  s!"{(s.constraintSort c).word}(constraint_id={name}, x_size={s.constraintSize c})"

def describeTask (s : Store Float) (t : TaskRef) : Except Error String := do
  let body := s.taskBody t
  let rows ← body.rows
  return s!"{(s.taskSort t).word}(task_id={Text.quoted body.name}, x_size={body.size}, rows={rows})"

def describeStack (s : Store Float) (id : Nat) : Except Error String := do
  let levels ← (← s.levels id).mapM s.nameAsTask
  return "Stack(" ++ " / ".intercalate levels ++ ")"

def describeAffine (e : AffineMap Float) : String :=
  s!"AffineExpression(output_size={e.outputs}, input_size={e.inputs})"

/-- Why an array among the names of a layout is none, given whether the sizes
can be looked up. -/
def nameFault (known : Bool) (item : Tensor Float) : Fault :=
  if !known then .badIndex else if item.rank = 0 then .noKey else .badType

/-- The short description of a layout, which looks up the size of each name. -/
def describeLayout (s : Store Float) (id : Nat) : Except Error String := do
  let known := (s.arrayIn? (.layout id) (.backing .sizes)).isNone
  match s.arrayIn? (.layout id) (.backing .names) with
  | some names =>
    match ← names.items with
    | item :: _ => throw (.fault (nameFault known item))
    | [] => return "VariableLayout()"
  | none =>
    let segments := (s.layouts.read id).segments
    if !known && !segments.isEmpty then throw (.fault .badIndex)
    return "VariableLayout(" ++ ", ".intercalate (segments.map fun v => s!"{v.1}={v.2}") ++ ")"

def numberText : Number Float → String
  | .whole n => toString n
  | .real x => (Literal.real x).spelled

/-- The written form of a plain value, given those of its items. -/
def describePlain (s : Store Float) (items : List String) : Plain Float → String
  | .flag b => (Literal.flag b).spelled
  | .integer n => toString n
  | .policy word => s!"<AggregationPolicy.{(Policy.ofWord word).name}: {word}>"
  | .number x => (Literal.real x).spelled
  | .entry x => "np.float64(" ++ (Literal.real x).spelled ++ ")"
  | .text text => Text.quoted text
  | .label l => Text.quoted l.word
  | .sequence _ | .attached .. => "[" ++ ", ".intercalate items ++ "]"
  | .tuple _ => Literal.enclosed items
  | .array id position => (s.window id position).text
  | .objects t => (t.map numberText).objectsText
  | .record fields => (Literal.record fields).spelled

/-- The short description of an object, in which lists are nested to a bounded depth. -/
def describeTo (s : Store Float) : (depth : Nat) → Object → Except Error String
  | _, .constraint c => .ok (s.describeConstraint c)
  | _, .task t => s.describeTask t
  | _, .stack id => s.describeStack id
  | _, .affine id => .ok (describeAffine (s.affines.read id))
  | _, .layout id => s.describeLayout id
  | _, .nothing => .ok Literal.absent.spelled
  | 0, .value _ => .error (.fault .endless)
  | depth + 1, .value id => do
    let value := s.values.read id
    return s.describePlain (← ((s.items? value).getD []).mapM (describeTo s depth)) value

def describe (s : Store Float) (object : Object) : Except Error String :=
  describeTo s s.nesting object

end Store

end ControlHierarchy
