import MachinePlan.Backend.Basic
import MachinePlan.Printout
import MachinePlan.Value.Text

/-!
# The preview backend

A backend that shows a plan instead of carrying it out, and that only notes the plugins it is asked
to install.
-/

namespace MachinePlan

/-- What the preview backend has been asked for, and what it has shown. -/
structure PreviewState where
  requested : List Value
  shown : String
  applied : List CompiledNode

namespace PreviewState

def empty : PreviewState := ⟨[], "", []⟩

end PreviewState

namespace Preview

def rule : String := String.ofList (List.replicate 63 '═')

def fieldTexts : List (String × Value) → Except Failure (List String)
  | [] => .ok []
  | (name, v) :: rest => do
    let shown ← v.display
    return (name ++ "=" ++ shown) :: (← fieldTexts rest)

/-- One line for an operation: its kind and its fields. -/
def operationLine (op : Operation) : Except Failure String := do
  let _ ← op.record
  let fields ← fieldTexts op.fields
  return "  [ OK ] " ++ op.kind ++ "(" ++ ", ".intercalate fields ++ ")"

def autostartLines : Value → List (Except Failure String)
  | .null => []
  | v => [v.text.map ("  autostart: " ++ ·)]

def nodeLines (n : CompiledNode) : List (Except Failure String) :=
  .ok ("Node: " ++ n.name) :: autostartLines n.autostart ++ n.operations.map operationLine ++
    [.ok ""]

def operationCount : List CompiledNode → Nat
  | [] => 0
  | n :: rest => n.operations.length + operationCount rest

def heading : List String := ["", rule, "  DRY-RUN: boxfile apply", rule, ""]

def summary (nodes : List CompiledNode) : List String :=
  [rule, s!"  Summary: {nodes.length} nodes, {operationCount nodes} operations",
    "  Mode: DRY-RUN (no changes made)", rule]

def lines (nodes : List CompiledNode) : List (Except Failure String) :=
  heading.map .ok ++ nodes.flatMap nodeLines ++ (summary nodes).map .ok

def printout (nodes : List CompiledNode) : Printout := .ofLines (lines nodes)

/-- The backend, with the version and the plugins that it pretends to have. -/
def backend (version : String) (plugins : List Value) : Backend PreviewState where
  name := "dry-run"
  version := return version
  installedPlugins := return plugins
  installPlugin plugin := do
    modify fun s => { s with requested := s.requested ++ [plugin] }
    return .ok ()
  apply nodes := do
    let printed := printout nodes
    modify fun s => { s with applied := nodes, shown := s.shown ++ printed.output }
    match printed.failure with
    | some failure => throw failure
    | none => return ()

end Preview

end MachinePlan
