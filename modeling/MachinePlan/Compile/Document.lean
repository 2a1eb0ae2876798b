import MachinePlan.Compile.Node
import MachinePlan.Document.Basic
import MachinePlan.Hook.Registry

/-!
# Compiling a document

Every node in definition order, each with its hooks run over its own operations. The first failure
ends the compilation without a result.
-/

namespace MachinePlan.Compile

/-- The operations of a node after its hooks. -/
def hooked (registry : Registry) (n : Node) (ops : List Operation) :
    Except Failure (List Operation) :=
  let dispatched := registry.dispatch n n.externalFunctions ops
  match dispatched.failure with
  | some failure => .error failure
  | none => .ok dispatched.operations

def namedNode (registry : Registry) (boxes : Value) (entry : String × Node) :
    Except Failure CompiledNode := do
  let ops ← Compile.node entry.1 entry.2 boxes
  let ops ← hooked registry entry.2 ops
  return ⟨entry.1, entry.2.autostart, ops⟩

def nodes (registry : Registry) (boxes : Value) :
    List (String × Node) → Except Failure (List CompiledNode)
  | [] => .ok []
  | entry :: rest => do
    let compiled ← namedNode registry boxes entry
    return compiled :: (← nodes registry boxes rest)

def document (d : Document) (registry : Registry) : Except Failure (List CompiledNode) :=
  nodes registry d.boxes d.nodes

end MachinePlan.Compile
