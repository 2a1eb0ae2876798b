import MachinePlan.Compile.Document
import MachinePlan.Proofs.Outcome
import Mathlib.Data.List.Forall2

/-!
# Compiling node by node

A document compiles if and only if each of its nodes does, and what it compiles to is, node for
node, what the node compiles to on its own (`nodes_eq_ok_iff`).
-/

namespace MachinePlan.Compile

variable {registry : Registry} {boxes : Value} {entry : String × Node} {ns : List (String × Node)}
  {node : CompiledNode} {compiled : List CompiledNode}

theorem namedNode_name (ran : namedNode registry boxes entry = .ok node) : node.name = entry.1 := by
  rw [namedNode] at ran
  obtain ⟨ops, _, ran⟩ := bind_eq_ok.mp ran
  obtain ⟨edited, _, ran⟩ := bind_eq_ok.mp ran
  obtain rfl := Except.ok.inj ran
  rfl

theorem nodes_cons_eq_ok_iff :
    nodes registry boxes (entry :: ns) = .ok compiled ↔
      ∃ node rest, namedNode registry boxes entry = .ok node ∧ nodes registry boxes ns = .ok rest ∧
        node :: rest = compiled := by
  rw [nodes, bind_eq_ok]
  constructor
  · rintro ⟨node, ran, others⟩
    obtain ⟨rest, ranOthers, same⟩ := bind_eq_ok.mp others
    exact ⟨node, rest, ran, ranOthers, Except.ok.inj same⟩
  · rintro ⟨node, rest, ran, ranOthers, rfl⟩
    exact ⟨node, ran, bind_eq_ok.mpr ⟨rest, ranOthers, rfl⟩⟩

theorem nodes_eq_ok_iff :
    nodes registry boxes ns = .ok compiled ↔
      List.Forall₂ (fun entry node => namedNode registry boxes entry = .ok node) ns compiled := by
  induction ns generalizing compiled with
  | nil => simp [nodes, eq_comm]
  | cons entry ns ih =>
    rw [nodes_cons_eq_ok_iff, List.forall₂_cons_left_iff]
    simp only [ih, eq_comm, exists_and_left]

/-- The compiled nodes stand under the names of the nodes, in their order. -/
theorem names_of_nodes (ran : nodes registry boxes ns = .ok compiled) :
    compiled.map CompiledNode.name = ns.map Prod.fst := by
  have pairs := nodes_eq_ok_iff.mp ran
  clear ran
  induction pairs with
  | nil => rfl
  | cons ran _ ih => rw [List.map_cons, List.map_cons, namedNode_name ran, ih]

/-- Nodes can be compiled in two parts; the second part is begun when the first has compiled. -/
theorem nodes_append (first second : List (String × Node)) :
    nodes registry boxes (first ++ second) = do
      let compiled ← nodes registry boxes first
      let rest ← nodes registry boxes second
      return compiled ++ rest := by
  induction first with
  | nil =>
    rw [List.nil_append, nodes]
    cases nodes registry boxes second <;> rfl
  | cons entry first ih =>
    rw [List.cons_append, nodes, nodes, ih]
    cases namedNode registry boxes entry with
    | error failure => rfl
    | ok node =>
      cases nodes registry boxes first with
      | error failure => rfl
      | ok compiled => cases nodes registry boxes second <;> rfl

end MachinePlan.Compile
