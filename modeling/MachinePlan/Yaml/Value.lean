import MachinePlan.Yaml.Grammar
import MachinePlan.Yaml.Making

/-!
# Documents

The value that a document denotes. It is read off the finished nodes from the root inwards; a node
that comes back inside itself is a ring.
-/

namespace MachinePlan.Yaml

/-- A node as it is seen inside others. -/
structure Sight where
  value : Value
  /-- Those of the others that come back in the value. -/
  returns : List Nat

namespace Workshop

def formOf (s : Workshop) (i : Nat) : Form :=
  if s.graph.tag i = .map then .map else .list

/-- A container with the given contents, in which some nodes come back. -/
def enclosed (i : Nat) (contents : Value) (returns : List Nat) : Sight :=
  if returns.isEmpty then ⟨contents, []⟩
  else ⟨.ring (Graph.origin i 0) contents, returns.filter (· ≠ i)⟩

def pairSight (i position : Nat) (key value : Sight) : Sight :=
  let returns := key.returns ++ value.returns
  let pair := Value.tuple [key.value, value.value]
  if returns.isEmpty then ⟨pair, []⟩
  else ⟨.ring (Graph.origin i (position + 1)) pair, returns⟩

/-- A node as it is seen inside the nodes `around` it. The first argument bounds their number. -/
def sight (s : Workshop) : Nat → List Nat → Nat → Sight
  | 0, _, _ => ⟨.null, []⟩
  | fuel + 1, around, i =>
    if around.contains i then ⟨.again (Graph.origin i 0) (s.formOf i), [i]⟩
    else
      let inside := s.sight fuel (i :: around)
      match s.made? i with
      | none => ⟨.null, []⟩
      | some (.atom v) => ⟨v, []⟩
      | some (.set items) => ⟨.set items, []⟩
      | some (.list items) =>
        let sights := items.map inside
        enclosed i (.list (sights.map (·.value))) (sights.flatMap (·.returns))
      | some (.map entries) =>
        let sights := entries.map fun (key, value) => (key, inside value)
        enclosed i (.map (sights.map fun (key, sight) => (key, sight.value)))
          (sights.flatMap fun (_, sight) => sight.returns)
      | some (.pairs pairs) =>
        let sights := pairs.mapIdx fun n (key, value) => pairSight i n (inside key) (inside value)
        enclosed i (.list (sights.map (·.value))) (sights.flatMap (·.returns))

end Workshop

def Graph.value (g : Graph) (root : Nat) : Except Refusal Value := do
  let (_, s) ← (Making.all root).run (.start g)
  return (s.sight (g.size + 1) [] root).value

/-- The value that the bytes of a document denote; bytes without a document denote null. -/
def read (bytes : List UInt8) : Except Refusal Value := do
  match ← (tokensOf (.ofBytes bytes)).graph with
  | (_, none) => return .null
  | (g, some root) => g.value root

end MachinePlan.Yaml
