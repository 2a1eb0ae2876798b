import MachinePlan.Yaml.Graph
import MachinePlan.Yaml.Stream

/-!
# Graphs of token rows

The grammar of documents: which rows of tokens make up a graph. The productions look one token ahead
and yield the numbers of nodes; what is not written stands for a scalar without text.
-/

namespace MachinePlan.Yaml

/-- The state between two tokens of a document. -/
structure Reading where
  /-- The tokens that are left. -/
  tokens : List Token
  /-- Why there are no more tokens. -/
  reason : Refusal
  /-- The nodes so far. A container is there, without its contents, from its beginning on. -/
  graph : Graph
  /-- The nodes with a name. -/
  anchors : List (String × Nat)
  /-- The short forms for the beginnings of tags. -/
  handles : List (String × String)
  /-- The number of nodes that the present one is in. -/
  depth : Nat

/-- The deepest nesting of nodes that is followed. -/
def nestingLimit : Nat := 485

/-- A production: it takes tokens off the front and yields a part of the document. -/
abbrev Production := StateT Reading (Except Refusal)

namespace Production

def peek : Production Token := do
  let s ← get
  match s.tokens with
  | token :: _ => return token
  | [] => throw s.reason

def skip : Production Unit :=
  modify fun s => { s with tokens := s.tokens.drop 1 }

def take : Production Token := do
  let token ← peek
  skip
  return token

def refuse {α : Type} : Production α := throw .malformed

/-- A production of a node, which is one level deeper than the present one. -/
def nested {α : Type} (production : Production α) : Production α := do
  let depth := (← get).depth
  if nestingLimit ≤ depth then throw (.fault .endless)
  modify fun s => { s with depth := depth + 1 }
  let x ← production
  modify fun s => { s with depth }
  return x

/-! ### Properties of nodes -/

def anchor? : Production (Option String) := do
  match ← peek with
  | .anchor name => skip; return some name
  | _ => return none

def tag? : Production (Option (Option String × String)) := do
  match ← peek with
  | .tag handle suffix => skip; return some (handle, suffix)
  | _ => return none

def fullName : Option String × String → Production String
  | (none, name) => return name
  | (some handle, suffix) => do
    match (← get).handles.lookup handle with
    | some stem => return stem ++ suffix
    | none => refuse

/-- The name and the tag of a node, in either order. -/
def properties : Production (Option String × Option String) := do
  match ← anchor? with
  | some name => return (some name, ← (← tag?).mapM fullName)
  | none =>
    match ← tag? with
    | some tag => do
      let name ← anchor?
      return (name, some (← fullName tag))
    | none => return (none, none)

def add (tag : Tag) (content : Content) : Production Nat := do
  let s ← get
  set { s with graph := s.graph.push ⟨tag, content⟩ }
  return s.graph.size

/-- A scalar that is not written. -/
def absent : Production Nat := add .null (.scalar "")

/-- A new node under a name, if there is one; no other node may have that name. -/
def begin (name : Option String) (tag : Tag) (content : Content) : Production Nat := do
  match name with
  | none => add tag content
  | some name => do
    if ((← get).anchors.lookup name).isSome then refuse
    let i ← add tag content
    modify fun s => { s with anchors := (name, i) :: s.anchors }
    return i

/-- The node with its contents. -/
def complete (i : Nat) (content : Content) : Production Nat := do
  modify fun s => { s with graph := s.graph.setContent i content }
  return i

/-- The node that a name stands for. -/
def named (name : String) : Production Nat := do
  match (← get).anchors.lookup name with
  | some i => return i
  | none => refuse

/-- A tag that leaves it to the form of the node what it is. -/
def isOpen (tag : Option String) : Bool :=
  tag.all (· == "!")

/-- The tag of a container. -/
def containerTag (tag : Option String) (usual : Tag) : Tag :=
  if isOpen tag then usual else Tag.ofName (tag.getD "")

/-- The tag of a scalar: quotes make it a text unless the tag says otherwise. -/
def scalarTag (tag : Option String) (text : String) (plain : Bool) : Tag :=
  match tag with
  | none => if plain then Tag.ofPlain text else .str
  | some name => if name = "!" then Tag.ofPlain text else Tag.ofName name

/-! ### Nodes

The numbers bound the depth of the productions; every second one takes a token. -/

/-- Where a node stands. -/
inductive Place where
  /-- Between brackets. -/
  | flow
  /-- An entry of a block, or the whole document. -/
  | block
  /-- A key or a value of a block mapping: a sequence may stand there at the column of the mapping.
  -/
  | blockValue
  deriving DecidableEq

/-- No node before one of the given tokens, and that of a production elsewhere. -/
def absentAt (stop : Token → Bool) (production : Production Nat) : Production Nat := do
  if stop (← peek) then absent else production

/-- The tokens before which the entry of a block sequence is not written. -/
def endsEntry : Token → Bool
  | .blockEntry | .blockEnd => true
  | _ => false

/-- The tokens before which the entry of a sequence at the column of its mapping is not written. -/
def endsInnerEntry : Token → Bool
  | .blockEntry | .key | .value | .blockEnd => true
  | _ => false

/-- The tokens before which a part of a block mapping is not written. -/
def endsBlockPart : Token → Bool
  | .key | .value | .blockEnd => true
  | _ => false

/-- The tokens before which a key between brackets is not written. -/
def endsFlowKey (close : Token) (token : Token) : Bool :=
  token = .value || token = .flowEntry || token = close

/-- The tokens before which a value between brackets is not written. -/
def endsFlowValue (close : Token) (token : Token) : Bool :=
  token = .flowEntry || token = close

mutual

def node (place : Place) : Nat → Production Nat
  | 0 => refuse
  | fuel + 1 => nested do
    match ← peek with
    | .alias name => skip; named name
    | _ =>
      let (name, tag) ← properties
      match ← peek with
      | .scalar text plain =>
        skip
        begin name (scalarTag tag text plain) (.scalar text)
      | .flowSequenceStart =>
        let i ← begin name (containerTag tag .seq) (.sequence [])
        skip
        complete i (.sequence (← flowItems true fuel))
      | .flowMappingStart =>
        let i ← begin name (containerTag tag .map) (.mapping [])
        skip
        complete i (.mapping (← flowPairs true fuel))
      | token =>
        if place = .blockValue && token = .blockEntry then
          let i ← begin name (containerTag tag .seq) (.sequence [])
          complete i (.sequence (← innerItems fuel))
        else if place ≠ .flow && token = .blockSequenceStart then
          let i ← begin name (containerTag tag .seq) (.sequence [])
          skip
          complete i (.sequence (← blockItems fuel))
        else if place ≠ .flow && token = .blockMappingStart then
          let i ← begin name (containerTag tag .map) (.mapping [])
          skip
          complete i (.mapping (← blockPairs fuel))
        else if name.isSome || tag.isSome then
          begin name (scalarTag tag "" (isOpen tag)) (.scalar "")
        else refuse

def blockItems : Nat → Production (List Nat)
  | 0 => refuse
  | fuel + 1 => do
    match ← take with
    | .blockEntry =>
      let item ← absentAt endsEntry (node .block fuel)
      return item :: (← blockItems fuel)
    | .blockEnd => return []
    | _ => refuse

def innerItems : Nat → Production (List Nat)
  | 0 => refuse
  | fuel + 1 => do
    match ← peek with
    | .blockEntry =>
      skip
      let item ← absentAt endsInnerEntry (node .block fuel)
      return item :: (← innerItems fuel)
    | _ => return []

def blockPairs : Nat → Production (List (Nat × Nat))
  | 0 => refuse
  | fuel + 1 => do
    match ← take with
    | .key =>
      let key ← absentAt endsBlockPart (node .blockValue fuel)
      let value ←
        match ← peek with
        | .value => skip; absentAt endsBlockPart (node .blockValue fuel)
        | _ => absent
      return (key, value) :: (← blockPairs fuel)
    | .blockEnd => return []
    | _ => refuse

/-- A key between brackets, behind its indicator, and its value. -/
def flowPair (close : Token) : Nat → Production (Nat × Nat)
  | 0 => refuse
  | fuel + 1 => do
    let key ← absentAt (endsFlowKey close) (node .flow fuel)
    match ← peek with
    | .value => skip; return (key, ← absentAt (endsFlowValue close) (node .flow fuel))
    | _ => return (key, ← absent)

/-- The entries of a sequence between brackets up to its end; a comma stands before each but the
first. -/
def flowItems (first : Bool) : Nat → Production (List Nat)
  | 0 => refuse
  | fuel + 1 => do
    if (← peek) = .flowSequenceEnd then skip; return []
    if !first then
      if (← take) ≠ .flowEntry then refuse
    match ← peek with
    | .key =>
      skip
      let pair ← nested (flowPair .flowSequenceEnd fuel)
      let i ← add .map (.mapping [pair])
      return i :: (← flowItems false fuel)
    | .flowSequenceEnd => skip; return []
    | _ =>
      let i ← node .flow fuel
      return i :: (← flowItems false fuel)

/-- The pairs of a mapping between brackets up to its end; a comma stands before each but the
first. -/
def flowPairs (first : Bool) : Nat → Production (List (Nat × Nat))
  | 0 => refuse
  | fuel + 1 => do
    if (← peek) = .flowMappingEnd then skip; return []
    if !first then
      if (← take) ≠ .flowEntry then refuse
    match ← peek with
    | .key =>
      skip
      let pair ← flowPair .flowMappingEnd fuel
      return pair :: (← flowPairs false fuel)
    | .flowMappingEnd => skip; return []
    | _ =>
      let key ← node .flow fuel
      let value ← absent
      return (key, value) :: (← flowPairs false fuel)

end

/-! ### Documents -/

/-- The short forms that every document may use. -/
def usualHandles : List (String × String) :=
  [("!", "!"), ("!!", Tag.standardStem)]

/-- The directives at the front; each may be given once. -/
def directives (versioned : Bool) (handles : List (String × String)) :
    Nat → Production (List (String × String))
  | 0 => refuse
  | fuel + 1 => do
    match ← peek with
    | .versionDirective major =>
      skip
      if versioned || major ≠ 1 then refuse
      directives true handles fuel
    | .tagDirective handle stem =>
      skip
      if (handles.lookup handle).isSome then refuse
      directives versioned ((handle, stem) :: handles) fuel
    | .otherDirective => skip; directives versioned handles fuel
    | _ => return handles

/-- Take off the marks at the end of a document. -/
def skipEnds : Nat → Production Unit
  | 0 => return ()
  | fuel + 1 => do
    if (← peek) = .documentEnd then skip; skipEnds fuel

/-- A document that begins with a mark, or the end of the stream. -/
def marked (fuel : Nat) : Production (Option Nat) := do
  if (← peek) = .streamEnd then return none
  let handles ← directives false [] fuel
  if (← take) ≠ .documentStart then refuse
  modify fun s => { s with handles := handles ++ usualHandles }
  match ← peek with
  | .versionDirective _ | .tagDirective _ _ | .otherDirective | .documentStart | .documentEnd
  | .streamEnd => return some (← absent)
  | _ => return some (← node .block fuel)

/-- The one document of a stream, if there is one. -/
def stream (fuel : Nat) : Production (Option Nat) := do
  let document ←
    match ← peek with
    | .versionDirective _ | .tagDirective _ _ | .otherDirective | .documentStart | .streamEnd =>
      marked fuel
    | _ => do pure (some (← node .block fuel))
  skipEnds fuel
  if (← peek) = .streamEnd then return document
  let _ ← directives false [] fuel
  refuse

end Production

/-- The graph of the token row of a document, and the number of its root; none for a stream without
a document. -/
def TokenRow.graph (row : TokenRow) : Except Refusal (Graph × Option Nat) := do
  let fuel := 3 * row.tokens.length + 10
  let start : Reading := ⟨row.tokens, row.reason, Graph.empty, [], Production.usualHandles, 0⟩
  let (root, reading) ← (Production.stream fuel).run start
  return (reading.graph, root)

end MachinePlan.Yaml
