import MachinePlan.Value.Mapping
import MachinePlan.Yaml.Atom
import MachinePlan.Yaml.Graph

/-!
# Making values of graphs

What the nodes of a graph are made into, from the root outwards. A container is there before its
contents are: it waits, and who came first is filled first. So a container can come back inside
itself, and of several refusals the one that is met first on this way counts.
-/

namespace MachinePlan.Yaml

/-! ### Nodes that are no containers -/

namespace Graph

/-- The text of a node where a scalar is asked for: a mapping names it under its special key. The
first argument bounds the way through the graph; only a way without end is longer than its nodes. -/
def scalarText (g : Graph) : Nat → Nat → Except Refusal String
  | 0, _ => .error (.fault .endless)
  | fuel + 1, i =>
    match g.content i with
    | .scalar text => .ok text
    | .sequence _ => .error .malformed
    | .mapping pairs =>
      match pairs.find? fun (key, _) => g.tag key = .value with
      | some (_, value) => scalarText g fuel value
      | none => .error .malformed

/-- The value of a node with the tag of a scalar. -/
def atom (g : Graph) (i : Nat) : Except Refusal Value := do
  let tag := g.tag i
  if tag = .unknown || tag = .merge || tag = .value then throw .malformed
  let text ← g.scalarText (g.size + 1) i
  match g.content i, tag with
  | .mapping _, .timestamp => throw (.fault .type)
  | _, _ =>
    match ← scalarValue tag text with
    | .float x => return .float (x.madeAt (origin i 1))
    | v => return v

end Graph

/-! ### Making -/

/-- What a node has been made into. The parts of a container are nodes. -/
inductive Made where
  | atom (value : Value)
  | list (items : List Nat)
  | map (entries : List (Value × Nat))
  | set (items : List Value)
  /-- A list of pairs. -/
  | pairs (pairs : List (Nat × Nat))
  deriving Inhabited, Repr

/-- The state between two steps of making values. -/
structure Workshop where
  graph : Graph
  /-- What each node has been made into so far. -/
  made : Array (Option Made)
  /-- The containers that are still to be filled, the last one first. -/
  waiting : List Nat

namespace Workshop

def start (g : Graph) : Workshop := ⟨g, Array.replicate g.size none, []⟩

/-- What a node has been made into. -/
def made? (s : Workshop) (i : Nat) : Option Made := s.made.getD i none

def atom (s : Workshop) (i : Nat) : Value :=
  match s.made? i with
  | some (.atom v) => v
  | _ => .null

end Workshop

/-- A step of making values. -/
abbrev Making := StateT Workshop (Except Refusal)

namespace Making

def put (i : Nat) (made : Made) : Making Unit :=
  modify fun s => { s with made := s.made.setIfInBounds i (some made) }

/-- Make a node, if that has not been done: a container that is empty as yet, or another value. -/
def make (i : Nat) : Making Unit := do
  let s ← get
  if (s.made? i).isSome then return
  if (s.graph.tag i).isContainer then
    modify fun s => { s with waiting := i :: s.waiting }
    put i (.list [])
  else put i (.atom (← s.graph.atom i))

def makeAll : List Nat → Making Unit
  | [] => return
  | i :: rest => do
    make i
    makeAll rest

/-- Make the parts of several pairs, each of them written as a mapping with one entry. -/
def makePairs : List Nat → Making (List (Nat × Nat))
  | [] => return []
  | i :: rest => do
    match (← get).graph.content i with
    | .mapping [(key, value)] =>
      make key
      make value
      return (key, value) :: (← makePairs rest)
    | _ => throw .malformed

/-- Make the parts of pairs and insert them into entries one by one; no container can be a key. -/
def makeEntries (entries : List (Value × Nat)) : List (Nat × Nat) → Making (List (Value × Nat))
  | [] => return entries
  | (key, value) :: rest => do
    make key
    let s ← get
    if (s.graph.tag key).isContainer then throw .malformed
    make value
    makeEntries (Value.insert (s.atom key) value entries) rest

/-- The entries of a mapping, which is settled first. -/
def entriesOf (i : Nat) : Making (List (Value × Nat)) := do
  let g ← (← get).graph.settle i
  modify fun s => { s with graph := g }
  makeEntries [] (g.pairs i)

/-- Fill a container, whose form has to fit its tag. -/
def fill (i : Nat) : Making Unit := do
  let g := (← get).graph
  match g.tag i, g.content i with
  | .seq, .sequence items =>
    makeAll items
    put i (.list items)
  | .pairs, .sequence items => put i (.pairs (← makePairs items))
  | .map, .mapping _ => put i (.map (← entriesOf i))
  | .set, .mapping _ => put i (.set ((← entriesOf i).map Prod.fst))
  | _, _ => throw .malformed

def fillAll : List Nat → Making Unit
  | [] => return
  | i :: rest => do
    fill i
    fillAll rest

/-- Fill the waiting containers, and those that come to wait meanwhile. Every round fills a node, so
the argument can bound the rounds. -/
def finish : Nat → Making Unit
  | 0 => return
  | rounds + 1 => do
    match (← get).waiting.reverse with
    | [] => return
    | stage =>
      modify fun s => { s with waiting := [] }
      fillAll stage
      finish rounds

/-- Make all that a node needs. -/
def all (root : Nat) : Making Unit := do
  make root
  finish ((← get).graph.size + 1)

end Making

end MachinePlan.Yaml
