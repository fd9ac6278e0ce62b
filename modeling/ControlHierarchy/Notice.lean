import ControlHierarchy.Error

/-!
# Notices

A notice is an error that is put together by hand, from a family and loose
arguments. A family whose errors carry details asks for exactly these details
and phrases them as the library does; any other family takes all arguments as
its text.
-/

namespace ControlHierarchy

/-- The details that a notice can carry. -/
inductive Detail where
  | expected
  | actual
  | name
  | available
  deriving DecidableEq

/-- An error put together by hand. -/
structure Notice where
  kind : ErrorKind
  message : String
  details : List (Detail × Literal)

/-- The text of a notice without details: nothing, the only argument, or all
arguments in parentheses. -/
def Notice.plainText : List Literal → String
  | [] => ""
  | [argument] => argument.shown
  | arguments => (Literal.tuple arguments).spelled

/-- Puts a notice together; the wrong number of details is a fault. -/
def Notice.assemble (kind : ErrorKind) (arguments : List Literal) : Except Error Notice :=
  match kind, arguments with
  | .sizeMismatch, [owner, expected, element, actual] =>
    .ok ⟨kind, Error.sizeMismatchText owner.shown expected.shown element.shown actual.shown,
      [(.expected, expected), (.actual, actual)]⟩
  | .duplicateVariable, [name] =>
    .ok ⟨kind, Error.duplicateVariableText name.shown, [(.name, name)]⟩
  | .variableNotFound, [name, available] =>
    .ok ⟨kind, Error.variableNotFoundText name.shown available.shown,
      [(.name, name), (.available, available)]⟩
  | .sizeMismatch, _ | .duplicateVariable, _ | .variableNotFound, _ => .error (.fault .badType)
  | _, _ => .ok ⟨kind, Notice.plainText arguments, []⟩

end ControlHierarchy
