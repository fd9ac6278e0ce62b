import ControlHierarchy.Notice
import ControlHierarchy.Session.Run
import ControlHierarchy.Proofs.Double.Bound
import ControlHierarchy.Proofs.Constraint.Faces
import ControlHierarchy.Proofs.Constraint.Merging
import ControlHierarchy.Proofs.Constraint.Feasibility
import ControlHierarchy.Proofs.Constraint.Nesting
import ControlHierarchy.Proofs.Store.Stacking
import ControlHierarchy.Proofs.Problem
import ControlHierarchy.Proofs.Store.Program
import ControlHierarchy.Proofs.Tensor.Identity
import ControlHierarchy.Proofs.Task.Merging
import ControlHierarchy.Proofs.Task.Nesting
import ControlHierarchy.Proofs.Store.Addition
import ControlHierarchy.Proofs.Store.Notes
import ControlHierarchy.Proofs.Task.Regeneration
import ControlHierarchy.Proofs.Double.Extremes
import ControlHierarchy.Proofs.Problem.Rows
import ControlHierarchy.Proofs.Store.Restricting
import ControlHierarchy.Proofs.Constraint.Grouping
import ControlHierarchy.Proofs.Store.Combining
import ControlHierarchy.Proofs.Constraint.Sentinels
import ControlHierarchy.Proofs.Store.Attaching
import ControlHierarchy.Proofs.Store.Sentinels
import ControlHierarchy.Proofs.Constraint.Presented
import ControlHierarchy.Proofs.Update.Order
import ControlHierarchy.Proofs.Update.Current
import ControlHierarchy.Proofs.Update.Pass
import ControlHierarchy.Proofs.Update.Calls
import ControlHierarchy.Proofs.Update.Paths
import ControlHierarchy.Proofs.Constraint.Refusal
import ControlHierarchy.Proofs.Store.Acceptance
import ControlHierarchy.Proofs.Task.Refusal
import ControlHierarchy.Proofs.Room
import ControlHierarchy.Proofs.Store.Faults
import ControlHierarchy.Proofs.Constraint.Setters
import ControlHierarchy.Proofs.Update.Validated
import ControlHierarchy.Proofs.Store.Declaring
import ControlHierarchy.Proofs.Constraint.Shapes
import ControlHierarchy.Proofs.Store.Assigning
import ControlHierarchy.Proofs.Update.Shapes
import ControlHierarchy.Proofs.Update.Aggregating
import ControlHierarchy.Proofs.Tensor.Matrices
import ControlHierarchy.Proofs.Task.Quadratic
import ControlHierarchy.Proofs.Store.Quadratic
import ControlHierarchy.Proofs.Task.Labels
import ControlHierarchy.Proofs.Update.Labels
import ControlHierarchy.Proofs.Update.Labelling
import ControlHierarchy.Proofs.Task.Solvable
import ControlHierarchy.Proofs.Update.Circles
import ControlHierarchy.Proofs.Update.Assembled
import ControlHierarchy.Proofs.Update.Handling
import ControlHierarchy.Proofs.Update.Trace
import ControlHierarchy.Proofs.Update.Collecting
import ControlHierarchy.Proofs.Store.Extending
import ControlHierarchy.Proofs.Store.Sums
import ControlHierarchy.Proofs.Store.Composing
import ControlHierarchy.Proofs.Task.Residual
import ControlHierarchy.Proofs.Double.Selecting
import ControlHierarchy.Proofs.Store.Layers
import ControlHierarchy.Proofs.VariableLayout
import ControlHierarchy.Proofs.Update.Growing
import ControlHierarchy.Proofs.Update.Unnoted
import ControlHierarchy.Proofs.Update.AtState
import ControlHierarchy.Proofs.Tensor.Piling
import ControlHierarchy.Proofs.AffineMap
