import MachinePlan.Compile.Arguments
import MachinePlan.Document.Node
import MachinePlan.Operation

/-!
# Compiling a node

The attributes of a node become operations in a fixed order of categories: identity, networks,
forwarded ports, provisioners, providers with their tuning, synced folders.
-/

namespace MachinePlan.Compile

open Value

/-- The pairs of a type and its parameters that an entry stands for: the entries of a mapping, or a
bare type without parameters. -/
def typedEntries (entry : Value) : Entries :=
  entry.entries?.getD [(entry, .null)]

/-- The mapping that a part of a node has to be; null is the empty mapping. -/
def partEntries (node : Node) (part : String) (v : Value) : Except Failure Entries :=
  match v.opened with
  | .null => .ok []
  | .map entries => .ok entries
  | v => .error (.config (.partNotMapping node.name part v.kindName))

/-- The location of a box in the catalog, if the catalog holds it. -/
def boxLocation (box boxes : Value) : Except Failure (Option Value) :=
  match box with
  | .null => .ok none
  | v => do
    if ← boxes.contains v then
      return some (← boxes.element v)
    else return none

/-- The box, its location where the catalog knows it, and the host name. -/
def identity (node : Node) (boxes : Value) : Except Failure (List Operation) := do
  let location ← boxLocation node.box boxes
  return [.setBox node.box] ++ (location.map Operation.setBoxUrl).toList ++
    [.setHostname node.hostname]

/-- The parameters of a network: the keys of a mapping in keyword form, anything else unchanged. -/
def networkParams (params : Value) : Except Failure Value :=
  match params.entries? with
  | some entries => (normalizeKeys entries).map .map
  | none => .ok params

/-- One operation for each pair of a type of network and its parameters. -/
def networkPairs : Entries → Except Failure (List Operation)
  | [] => .ok []
  | (kind, params) :: rest => do
    let params ← networkParams params
    let kind ← kind.text
    return .addNetwork (.str kind) params :: (← networkPairs rest)

def networks (node : Node) : Except Failure (List Operation) :=
  networkPairs (node.networks.flatMap typedEntries)

/-- One operation for each forwarded port, from the given position on. -/
def forwardedPorts (node : Node) : Nat → List Value → Except Failure (List Operation)
  | _, [] => .ok []
  | i, port :: rest => do
    let params ← partEntries node s!"forwarded_ports[{i}]" port
    let op := Operation.addForwardedPort (.map (← normalizeKeys params))
    return op :: (← forwardedPorts node (i + 1) rest)

/-- The parameter that holds argument descriptors. -/
def argumentsKey : Value := .str "arguments"

/-- One operation for each parameter of a provisioner; the argument descriptors are flattened. -/
def provisionerParams (provisioner : String) (index : Nat) :
    Entries → Except Failure (List Operation)
  | [] => .ok []
  | (key, value) :: rest => do
    let op ←
      if same key argumentsKey then do
        let arguments ← normalizeArguments value
        pure (Operation.setProvisionerArguments (.str provisioner) (.int index) (.list arguments))
      else
        pure (.setProvisionerProperty (.str provisioner) (.int index) (.str (← key.text)) value)
    return op :: (← provisionerParams provisioner index rest)

/-- The operations of the provisioners at one position: each is opened, then configured. -/
def provisionerBlocks (node : Node) (index : Nat) : Entries → Except Failure (List Operation)
  | [] => .ok []
  | (kind, params) :: rest => do
    let kind ← kind.text
    let params ← partEntries node s!"provisioner '{kind}' parameters" params
    let ops ← provisionerParams kind index params
    return .addProvisioner (.str kind) (.int index) :: ops ++
      (← provisionerBlocks node index rest)

/-- The operations of the provisioners, from the given position on. -/
def provisioners (node : Node) : Nat → List Value → Except Failure (List Operation)
  | _, [] => .ok []
  | i, entry :: rest => do
    let ops ← provisionerBlocks node i (typedEntries entry)
    return ops ++ (← provisioners node (i + 1) rest)

/-- One operation for each declared property of a provider. -/
def providerParams (provider : String) : Entries → Except Failure (List Operation)
  | [] => .ok []
  | (key, value) :: rest => do
    let key ← key.text
    return .setProviderProperty (.str provider) (.str key) value ::
      (← providerParams provider rest)

def providerProperties (node : Node) : Entries → Except Failure (List Operation)
  | [] => .ok []
  | (provider, params) :: rest => do
    let provider ← provider.text
    let params ← partEntries node s!"provider '{provider}' parameters" params
    let ops ← providerParams provider params
    return ops ++ (← providerProperties node rest)

/-- The providers that are always tuned, in order, and whether they take a chipset. -/
def tunedProviders : List (String × Bool) :=
  [("virtualbox", true), ("vmware_desktop", false), ("parallels", false)]

/-- The tuning of every known provider, under the given display name. -/
def tuning (name : String) (node : Node) : List Operation :=
  tunedProviders.map fun (provider, takesChipset) =>
    .tuneProvider (.str provider) node.memory node.cpus (.str name)
      (if takesChipset then node.chipset else .null)

/-- One operation for each synced folder, from the given position on. -/
def syncedFolders (node : Node) : Nat → List Value → Except Failure (List Operation)
  | _, [] => .ok []
  | i, folder :: rest => do
    let entries ← partEntries node s!"synced_folders[{i}]" folder
    let op := Operation.addSyncedFolder (getD "host" entries) (getD "guest" entries)
      (getD "create" entries) (getD "owner" entries) (getD "group" entries)
    return op :: (← syncedFolders node (i + 1) rest)

def node (name : String) (n : Node) (boxes : Value) : Except Failure (List Operation) := do
  let identityOps ← identity n (boxes.orElse (.map []))
  let networkOps ← networks n
  let portOps ← forwardedPorts n 0 n.forwardedPorts
  let provisionerOps ← provisioners n 0 n.provisioners
  let providerOps ← providerProperties n n.providers
  let folderOps ← syncedFolders n 0 n.syncedFolders
  return identityOps ++ networkOps ++ portOps ++ provisionerOps ++ providerOps ++
    tuning name n ++ folderOps

end MachinePlan.Compile
