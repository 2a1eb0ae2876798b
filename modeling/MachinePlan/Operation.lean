import MachinePlan.Failure
import MachinePlan.Value.Ring

/-!
# Operations

The typed steps that a node is compiled to. An operation is plain data: a kind and named fields in
a fixed order, with the values of the document unchanged inside them.
-/

namespace MachinePlan

/-- One step of the configuration of a machine. -/
inductive Operation where
  /-- A step of no particular kind, without fields. -/
  | unspecified
  | setBox (box : Value)
  | setBoxUrl (url : Value)
  | setHostname (hostname : Value)
  | addNetwork (networkType params : Value)
  | addForwardedPort (params : Value)
  /-- The start of the provisioner entry at a position. -/
  | addProvisioner (provisioner index : Value)
  | setProvisionerProperty (provisioner index key value : Value)
  | setProvisionerArguments (provisioner index arguments : Value)
  | setProviderProperty (provider key value : Value)
  | tuneProvider (provider memory cpus name chipset : Value)
  | addSyncedFolder (host guest create owner group : Value)
  deriving Inhabited, Repr

namespace Operation

def kind : Operation → String
  | .unspecified => "ConfigOperation"
  | .setBox .. => "SetBox"
  | .setBoxUrl .. => "SetBoxURL"
  | .setHostname .. => "SetHostname"
  | .addNetwork .. => "AddNetwork"
  | .addForwardedPort .. => "AddForwardedPort"
  | .addProvisioner .. => "AddProvisioner"
  | .setProvisionerProperty .. => "SetProvisionerProperty"
  | .setProvisionerArguments .. => "SetProvisionerArguments"
  | .setProviderProperty .. => "SetProviderProperty"
  | .tuneProvider .. => "TuneProvider"
  | .addSyncedFolder .. => "AddSyncedFolder"

/-- The chipset as a field; a null chipset is none. -/
def chipsetField : Value → List (String × Value)
  | .null => []
  | v => [("chipset", v)]

def fields : Operation → List (String × Value)
  | .unspecified => []
  | .setBox box => [("box", box)]
  | .setBoxUrl url => [("url", url)]
  | .setHostname hostname => [("hostname", hostname)]
  | .addNetwork networkType params => [("network_type", networkType), ("params", params)]
  | .addForwardedPort params => [("params", params)]
  | .addProvisioner provisioner index => [("provisioner", provisioner), ("index", index)]
  | .setProvisionerProperty provisioner index key value =>
    [("provisioner", provisioner), ("index", index), ("key", key), ("value", value)]
  | .setProvisionerArguments provisioner index arguments =>
    [("provisioner", provisioner), ("index", index), ("arguments", arguments)]
  | .setProviderProperty provider key value =>
    [("provider", provider), ("key", key), ("value", value)]
  | .tuneProvider provider memory cpus name chipset =>
    [("provider", provider), ("memory", memory), ("cpus", cpus), ("name", name)] ++
      chipsetField chipset
  | .addSyncedFolder host guest create owner group =>
    [("host", host), ("guest", guest), ("create", create), ("owner", owner), ("group", group)]

/-- Fields as the entries of a mapping. -/
def entriesOf (fields : List (String × Value)) : Value.Entries :=
  fields.map fun (name, v) => (.str name, v)

/-- An operation as a mapping: its kind, then its fields. -/
def toValue (op : Operation) : Value :=
  .map ((.str "op", .str op.kind) :: entriesOf op.fields)

/-- An operation as a mapping that can be handed on: no field holds itself. -/
def record (op : Operation) : Except Failure Value :=
  if op.fields.any fun (_, v) => v.isEndless then .error (.fault .endless) else .ok op.toValue

def records : List Operation → Except Failure (List Value)
  | [] => .ok []
  | op :: rest => do
    let first ← op.record
    return first :: (← records rest)

/-- The operation of a kind with the given fields in order; fields at the end that have a default
may be left out. -/
def ofArguments (kind : String) (args : List Value) : Except Failure Operation :=
  match kind, args with
  | "ConfigOperation", [] => .ok .unspecified
  | "SetBox", [box] => .ok (.setBox box)
  | "SetBoxURL", [url] => .ok (.setBoxUrl url)
  | "SetHostname", [hostname] => .ok (.setHostname hostname)
  | "AddNetwork", [networkType] => .ok (.addNetwork networkType .null)
  | "AddNetwork", [networkType, params] => .ok (.addNetwork networkType params)
  | "AddForwardedPort", [] => .ok (.addForwardedPort (.map []))
  | "AddForwardedPort", [params] => .ok (.addForwardedPort params)
  | "AddProvisioner", [provisioner, index] => .ok (.addProvisioner provisioner index)
  | "SetProvisionerProperty", [provisioner, index, key] =>
    .ok (.setProvisionerProperty provisioner index key .null)
  | "SetProvisionerProperty", [provisioner, index, key, value] =>
    .ok (.setProvisionerProperty provisioner index key value)
  | "SetProvisionerArguments", [provisioner, index] =>
    .ok (.setProvisionerArguments provisioner index (.list []))
  | "SetProvisionerArguments", [provisioner, index, arguments] =>
    .ok (.setProvisionerArguments provisioner index arguments)
  | "SetProviderProperty", [provider, key] => .ok (.setProviderProperty provider key .null)
  | "SetProviderProperty", [provider, key, value] => .ok (.setProviderProperty provider key value)
  | "TuneProvider", [provider, memory, cpus, name] =>
    .ok (.tuneProvider provider memory cpus name .null)
  | "TuneProvider", [provider, memory, cpus, name, chipset] =>
    .ok (.tuneProvider provider memory cpus name chipset)
  | "AddSyncedFolder", [host, guest] => .ok (.addSyncedFolder host guest .null .null .null)
  | "AddSyncedFolder", [host, guest, create] => .ok (.addSyncedFolder host guest create .null .null)
  | "AddSyncedFolder", [host, guest, create, owner] =>
    .ok (.addSyncedFolder host guest create owner .null)
  | "AddSyncedFolder", [host, guest, create, owner, group] =>
    .ok (.addSyncedFolder host guest create owner group)
  | _, _ => .error (.fault .type)

end Operation

/-- The operations of one node, ready for a backend. -/
structure CompiledNode where
  name : String
  autostart : Value
  operations : List Operation
  deriving Inhabited, Repr

namespace CompiledNode

/-- The wish to start with the others as a field; null is no wish. -/
def autostartField : Value → List (String × Value)
  | .null => []
  | v => [("autostart", v)]

/-- A compiled node as a mapping: name, wish to start, operations. -/
def toValue (n : CompiledNode) : Value :=
  .map (Operation.entriesOf ([("name", .str n.name)] ++ autostartField n.autostart ++
    [("operations", .list (n.operations.map Operation.toValue))]))

def record (n : CompiledNode) : Except Failure Value := do
  let _ ← Operation.records n.operations
  return n.toValue

def records : List CompiledNode → Except Failure (List Value)
  | [] => .ok []
  | n :: rest => do
    let first ← n.record
    return first :: (← records rest)

end CompiledNode

def planValue (nodes : List CompiledNode) : Except Failure Value := do
  return .map [(.str "nodes", .list (← CompiledNode.records nodes))]

end MachinePlan
