/-!
# Operations

The operations of objects by their words. An operation belongs to the object,
and something else can be assigned in its place; then it can no longer be
performed, neither by a caller nor by another operation that would.
-/

namespace ControlHierarchy

/-- The operations of constraints, tasks, stacks, layouts and affine maps. -/
inductive Operation where
  | update
  | refresh
  | regenerate
  | checkSizes
  | checkMerged
  | hasBox
  | hasEqualities
  | hasInequalities
  | checkBox
  | checkColumns
  | checkEqualities
  | setBox
  | setEqualities
  | setInequalities
  | setGain
  | setWeight
  | resetWeight
  | setArrays
  | attach
  | findConstraint
  | objective
  | addLevel
  | addBound
  | value
  | pile
  | lookUp
  | offset
  | variableSize
  | select
  | extract
  | fromState
  | prepare
  | zero
  | checkSameShape
  deriving DecidableEq

namespace Operation

def table : List (String × Operation) := [
  ("update", update),
  ("_update", refresh),
  ("generate_all", regenerate),
  ("check_sizes", checkSizes),
  ("_check_consistency", checkMerged),
  ("has_bounds", hasBox),
  ("has_equalities", hasEqualities),
  ("has_inequalities", hasInequalities),
  ("_check_box", checkBox),
  ("_check_columns", checkColumns),
  ("_check_rows", checkEqualities),
  ("set_bounds", setBox),
  ("set_equalities", setEqualities),
  ("set_inequalities", setInequalities),
  ("set_lambda", setGain),
  ("set_weight", setWeight),
  ("reset_weight", resetWeight),
  ("set_A_b", setArrays),
  ("add_constraint", attach),
  ("find_constraint", findConstraint),
  ("compute_qp_objective", objective),
  ("add_level", addLevel),
  ("add_bound", addBound),
  ("value", value),
  ("pile", pile),
  ("_lookup", lookUp),
  ("offset", offset),
  ("var_size", variableSize),
  ("get_var", select),
  ("extract", extract),
  ("from_state", fromState),
  ("_setup", prepare),
  ("zero", zero),
  ("_check_same_shape", checkSameShape)]

def ofConstraints : List Operation := [update, hasBox, hasEqualities, hasInequalities]

/-- The operations of constraints with validated arrays, besides those of all
constraints. -/
def ofValidated : List Operation := [setBox, setEqualities, setInequalities]

/-- The operations of aggregates, besides those of their parts. -/
def ofAggregates : List Operation := [regenerate, checkSizes, fromState, prepare]

/-- The operations of aggregates of constraints that make sure that a merge is possible. -/
def ofMerges : List Operation := [checkMerged, checkBox, checkColumns, checkEqualities]

def ofTasks : List Operation :=
  [update, refresh, setGain, setWeight, resetWeight, attach, findConstraint, objective]

def ofStacks : List Operation := [addLevel, addBound, update]

def ofLayouts : List Operation := [lookUp, offset, variableSize, select, extract]

def ofAffineMaps : List Operation := [value, pile, zero, checkSameShape]

end Operation

end ControlHierarchy
