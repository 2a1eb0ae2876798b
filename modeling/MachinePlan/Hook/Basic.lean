import MachinePlan.Document.Node
import MachinePlan.Operation

/-!
# Hooks

A hook edits the operations of a node. Whatever it did before it gives up stays done.
-/

namespace MachinePlan

/-- What an edit leaves: the operations, and why it ended early, if it did. -/
structure Edited where
  operations : List Operation
  failure : Option Failure
  deriving Inhabited

/-- A named function on the operations of a node; `label` tells functions apart. -/
structure Hook where
  label : Nat
  edit : Node → List Operation → Edited
  deriving Inhabited

/-- The operations of one kind, in order. -/
def operationsOf (kind : String) (ops : List Operation) : List Operation :=
  ops.filter fun op => op.kind == kind

end MachinePlan
