import MachinePlan.Document.Node
import MachinePlan.Path

/-!
# Documents

A merged configuration document with its nodes in definition order, and the one structural
precondition for compiling it: that it defines a node.
-/

namespace MachinePlan

open Value

/-- A merged configuration document. -/
structure Document where
  /-- The nodes under their names, in definition order. -/
  nodes : List (String × Node)
  /-- The catalog from box names to box locations. -/
  boxes : Value
  /-- The backend plugins that have to be installed. -/
  plugins : List String
  /-- A reserved section, carried along. -/
  defaults : Value
  /-- The value that the document was built from. -/
  data : Value
  /-- The files that the document was read from. -/
  sources : List Path
  deriving Inhabited, Repr

namespace Document

/-- The nodes with one put under its name: at the place of the node of that name, if there is
one, and at the end otherwise. -/
def putNode (name : String) (node : Node) : List (String × Node) → List (String × Node)
  | [] => [(name, node)]
  | (other, old) :: rest =>
    if other = name then (other, node) :: rest else (other, old) :: putNode name node rest

/-- The nodes that the entries of the section declare, added to those before them. -/
def readNodes (nodes : List (String × Node)) : Entries → Except Failure (List (String × Node))
  | [] => .ok nodes
  | (name, attrs) :: rest => do
    let name ← name.text
    let node ← Node.ofNamed name attrs
    readNodes (putNode name node nodes) rest

def nodeEntries (data : Entries) : Except Failure Entries :=
  match ((getD "nodes" data).orElse (.map [])).entries? with
  | some entries => .ok entries
  | none => .error (.config .nodesNotMapping)

/-- The document that a merged mapping makes up. -/
def ofValue (data : Value) (sources : List Path) : Except Failure Document := do
  let entries ← data.entries
  let nodes ← readNodes [] (← nodeEntries entries)
  let plugins ← (getD "plugins" entries).elementsOrNone
  return {
    nodes
    boxes := (getD "boxes" entries).orElse (.map [])
    plugins := ← texts plugins
    defaults := (getD "defaults" entries).orElse (.map [])
    data
    sources }

/-- The names of the nodes in definition order. -/
def nodeNames (d : Document) : List String :=
  d.nodes.map Prod.fst

/-- The sources as they are named in messages. -/
def sourceText (d : Document) : String :=
  namesOr "configuration" (d.sources.map Path.text)

/-- Every reason why the document cannot be compiled, in words. -/
def validate (d : Document) : List String :=
  if d.nodes.isEmpty then
    [(ConfigProblem.noNodes d.sourceText).message ++ "\n  Add at least one entry under 'nodes:'"]
  else []

def firstLine (s : String) : String :=
  String.ofList (s.toList.takeWhile (· != '\n'))

/-- Refuse a document that defines no node; the message names no more of the sources than its
first line holds. -/
def check (d : Document) : Except Failure Unit :=
  if d.nodes.isEmpty then .error (.config (.noNodes (firstLine d.sourceText))) else .ok ()

end Document

end MachinePlan
