import MachinePlan.Value.Elements
import MachinePlan.Value.Text

/-!
# Nodes

The declared attributes of one machine. Containers are checked when a node is read; what is inside
them is kept as it was written and interpreted later.
-/

namespace MachinePlan

open Value

/-- The declared attributes of one machine. -/
structure Node where
  name : String
  box : Value
  hostname : Value
  autostart : Value
  memory : Value
  cpus : Value
  chipset : Value
  networks : List Value
  forwardedPorts : List Value
  syncedFolders : List Value
  provisioners : List Value
  providers : Entries
  externalFunctions : List Value
  deriving Inhabited, Repr

namespace Node

/-- The list under an attribute; a missing or null attribute is the empty list. -/
def listAttribute (node : String) (attrs : Entries) (attr : String) :
    Except Failure (List Value) :=
  match (getD attr attrs).opened with
  | .null => .ok []
  | .list items => .ok items
  | v => .error (.config (.attributeShape node attr .list v.kindName))

/-- The mapping under an attribute; a missing or null attribute is the empty mapping. -/
def mapAttribute (node : String) (attrs : Entries) (attr : String) : Except Failure Entries :=
  match (getD attr attrs).opened with
  | .null => .ok []
  | .map entries => .ok entries
  | v => .error (.config (.attributeShape node attr .mapping v.kindName))

/-- The node that a mapping of attributes declares. -/
def ofEntries (node : String) (attrs : Entries) : Except Failure Node := do
  let networks ← listAttribute node attrs "networks"
  let forwardedPorts ← listAttribute node attrs "forwarded_ports"
  let syncedFolders ← listAttribute node attrs "synced_folders"
  let provisioners ← listAttribute node attrs "provisioners"
  let externalFunctions ← listAttribute node attrs "external_functions"
  let providers ← mapAttribute node attrs "providers"
  return {
    name := node
    box := getD "box" attrs
    hostname := getD "hostname" attrs
    autostart := getD "autostart" attrs
    memory := getD "memory" attrs
    cpus := getD "cpus" attrs
    chipset := getD "chipset" attrs
    networks, forwardedPorts, syncedFolders, provisioners, providers, externalFunctions }

/-- The node that a value declares under a name; null declares a node without attributes. -/
def ofNamed (node : String) (data : Value) : Except Failure Node :=
  match data.opened with
  | .null => ofEntries node []
  | .map attrs => ofEntries node attrs
  | v => .error (.config (.nodeNotMapping node v.kindName))

/-- The node that a value declares under the text of a name. -/
def ofValue (name data : Value) : Except Failure Node := do
  ofNamed (← name.text) data

/-- The attributes by name, in the order of their declaration. -/
def fields (n : Node) : List (String × Value) :=
  [("name", .str n.name), ("box", n.box), ("hostname", n.hostname), ("autostart", n.autostart),
    ("memory", n.memory), ("cpus", n.cpus), ("chipset", n.chipset), ("networks", .list n.networks),
    ("forwarded_ports", .list n.forwardedPorts), ("synced_folders", .list n.syncedFolders),
    ("provisioners", .list n.provisioners), ("providers", .map n.providers),
    ("external_functions", .list n.externalFunctions)]

def field (n : Node) (name : String) : Except Failure Value :=
  match n.fields.lookup name with
  | some v => .ok v
  | none => .error (.fault .missingPart)

end Node

end MachinePlan
