import MachinePlan.Hook.Basic

/-!
# Scripted hooks

Hooks that are written down as a list of actions. An action is done completely or gives up; the
actions after one that gives up are not begun.
-/

namespace MachinePlan

/-- One action of a scripted hook. -/
inductive Action where
  /-- Append the operation of a kind with the given fields. -/
  | add (kind : String) (args : List Value)
  /-- Remove every operation. -/
  | clear
  /-- Turn the order of the operations round. -/
  | reverse
  /-- Remove the operations of a kind. -/
  | remove (kind : String)
  /-- Append a property that holds the number of operations of a kind. -/
  | count (kind : String)
  /-- Append a property that holds an attribute of the node. -/
  | copy (attr : String)
  /-- Give up with a message. -/
  | fail (message : String)
  deriving Inhabited, Repr

namespace Action

/-- The provider that properties made by actions belong to. -/
def provider : Value := .str "hook"

def run (node : Node) (ops : List Operation) : Action → Except Failure (List Operation)
  | .add kind args => do return ops ++ [← Operation.ofArguments kind args]
  | .clear => .ok []
  | .reverse => .ok ops.reverse
  | .remove kind => .ok (ops.filter fun op => op.kind != kind)
  | .count kind =>
    .ok (ops ++ [.setProviderProperty provider (.str kind) (.int (operationsOf kind ops).length)])
  | .copy attr => do
    return ops ++ [.setProviderProperty provider (.str attr) (← node.field attr)]
  | .fail message => .error (.problem (.hookFailed message))

def runAll (node : Node) (ops : List Operation) : List Action → Edited
  | [] => ⟨ops, none⟩
  | action :: rest =>
    match action.run node ops with
    | .ok next => runAll node next rest
    | .error failure => ⟨ops, some failure⟩

end Action

/-- The hook that performs a list of actions. -/
def Hook.ofActions (label : Nat) (actions : List Action) : Hook :=
  ⟨label, fun node ops => Action.runAll node ops actions⟩

end MachinePlan
