import MachinePlan.Origin
import MachinePlan.Yaml.Cursor
import MachinePlan.Yaml.Tag

/-!
# Graphs

A document as a graph of tagged nodes, which are known by their numbers. A name can bring a node in
at several places, also inside itself.

The merge keys of a mapping take over the pairs of other mappings. Once a mapping is `settled` these
pairs stand in front of its own, and its special key for a value is plain text. Both last: who comes
to the mapping or to the key by another name finds it settled.
-/

namespace MachinePlan.Yaml

/-- What a node is made of. -/
inductive Content where
  | scalar (text : String)
  | sequence (items : List Nat)
  | mapping (pairs : List (Nat × Nat))
  deriving Inhabited, Repr

structure Graph.Node where
  tag : Tag
  content : Content
  deriving Inhabited, Repr

/-- The nodes of a document under their numbers. -/
structure Graph where
  nodes : Array Graph.Node
  deriving Inhabited, Repr

namespace Graph

def empty : Graph := ⟨#[]⟩

def size (g : Graph) : Nat := g.nodes.size

/-- The origin of what is made of a part of a node; by itself, a document is the first one. -/
def origin (i part : Nat) : Origin := ⟨0, i, part⟩

def node (g : Graph) (i : Nat) : Node := g.nodes.getD i default

def tag (g : Graph) (i : Nat) : Tag := (g.node i).tag

def content (g : Graph) (i : Nat) : Content := (g.node i).content

def pairs (g : Graph) (i : Nat) : List (Nat × Nat) :=
  match g.content i with
  | .mapping pairs => pairs
  | _ => []

def push (g : Graph) (node : Node) : Graph := { g with nodes := g.nodes.push node }

/-- The graph with a node made of something else. -/
def setContent (g : Graph) (i : Nat) (content : Content) : Graph :=
  { g with nodes := g.nodes.modify i fun node => { node with content } }

def setTag (g : Graph) (i : Nat) (tag : Tag) : Graph :=
  { g with nodes := g.nodes.modify i fun node => { node with tag } }

def mergeCount (g : Graph) : Nat :=
  g.nodes.foldl (fun n node =>
    match node.content with
    | .mapping pairs => n + pairs.countP fun (key, _) => g.tag key = .merge
    | _ => n) 0

/-! ### Settling mappings -/

/-- The number of pairs in front of the first merge key, and the graph in which their special keys
are plain text. -/
def plainPairs (g : Graph) : List (Nat × Nat) → Nat × Graph
  | [] => (0, g)
  | (key, _) :: rest =>
    if g.tag key = .merge then (0, g)
    else
      let (n, g) := plainPairs (if g.tag key = .value then g.setTag key .str else g) rest
      (n + 1, g)

/-- The pairs of several mappings, those of later mappings first, once `settle` has settled each. -/
def pairsOfAll (settle : Nat → Graph → Except Refusal Graph) (taken : List (Nat × Nat)) :
    List Nat → Graph → Except Refusal (List (Nat × Nat) × Graph)
  | [], g => .ok (taken, g)
  | i :: rest, g =>
    match g.content i with
    | .mapping _ => do
      let g ← settle i g
      pairsOfAll settle (g.pairs i ++ taken) rest g
    | _ => .error .malformed

/-- The pairs that the value of a merge key contributes: those of a mapping, or of several. -/
def contribution (settle : Nat → Graph → Except Refusal Graph) (i : Nat) (g : Graph) :
    Except Refusal (List (Nat × Nat) × Graph) :=
  match g.content i with
  | .mapping _ => do
    let g ← settle i g
    return (g.pairs i, g)
  | .sequence items => pairsOfAll settle [] items g
  | .scalar _ => .error .malformed

/-- Settle a mapping from the given position on, with the pairs that are taken over already. Every
step removes a merge key, so the first argument can bound them. -/
def settleFrom : Nat → Nat → Nat → List (Nat × Nat) → Graph → Except Refusal Graph
  | 0, _, _, _, g => .ok g
  | fuel + 1, i, position, taken, g =>
    let pairs := g.pairs i
    let (n, g) := g.plainPairs (pairs.drop position)
    match pairs.drop (position + n) with
    | [] =>
      .ok (if taken.isEmpty then g else g.setContent i (.mapping (taken ++ pairs)))
    | (_, value) :: rest => do
      let g := g.setContent i (.mapping (pairs.take (position + n) ++ rest))
      let (more, g) ← contribution (fun j => settleFrom fuel j 0 []) value g
      settleFrom fuel i (position + n) (taken ++ more) g

/-- Whether a mapping has no special keys. -/
def isSettled (i : Nat) (g : Graph) : Bool :=
  (g.pairs i).all fun (key, _) => g.tag key ≠ .merge && g.tag key ≠ .value

def settle (i : Nat) (g : Graph) : Except Refusal Graph :=
  if g.isSettled i then .ok g else settleFrom (g.mergeCount + 1) i 0 [] g

end Graph

end MachinePlan.Yaml
