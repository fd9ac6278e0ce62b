/-!
# Events

What is worth a line in a log: aggregates being put together, and two changes
that are easy to overlook.
-/

namespace ControlHierarchy

/-- A line of the log. -/
inductive Event where
  | aggregatingConstraints (count : Nat) (name : String) (policy : Int)
  | aggregatingTasks (count : Nat) (name : String)
  /-- An identity weight follows the number of rows of its task. -/
  | resizingWeight (name : String) (rows : Nat)
  | stackBounds (name : String)

def Event.message : Event → String
  | .aggregatingConstraints count name policy =>
    s!"Aggregating {count} constraints into '{name}' with policy {policy}"
  | .aggregatingTasks count name => s!"Aggregating {count} tasks into '{name}'"
  | .resizingWeight name rows => s!"Resizing identity weight of '{name}' to {rows} rows"
  | .stackBounds name => s!"Stack bounds are now '{name}'"

end ControlHierarchy
