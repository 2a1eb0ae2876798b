import MachinePlan.Backend.Vagrant
import MachinePlan.Preflight.Basic
import MachinePlan.Run

/-!
# The journal

What the program notes down while it works, stage by stage. A stage that ends early leaves the
records of what it has done until then.
-/

namespace MachinePlan

inductive LogLevel where
  | debug
  | info
  | warning
  deriving Repr, DecidableEq

def LogLevel.name : LogLevel → String
  | .debug => "DEBUG"
  | .info => "INFO"
  | .warning => "WARNING"

/-- A record of the log, without the time at which it is made. -/
structure LogRecord where
  level : LogLevel
  message : String
  deriving Repr, DecidableEq

namespace LogRecord

def debug (message : String) : LogRecord := ⟨.debug, message⟩

def info (message : String) : LogRecord := ⟨.info, message⟩

def warning (message : String) : LogRecord := ⟨.warning, message⟩

end LogRecord

namespace Journal

/-! ### Documents -/

def reading (fs : Files) (primary override : Path) : List LogRecord :=
  match Document.loadPrimary fs primary with
  | .error _ => []
  | .ok base =>
    .debug s!"Loaded {primary.text}" ::
      match Document.loadOverride fs (some override) with
      | .error _ => []
      | .ok none =>
        if fs.exists? override then [.debug s!"Override {override.text} is empty, ignoring"] else []
      | .ok (some (_, upper)) =>
        match merge base upper with
        | .error _ => []
        | .ok _ => [.info s!"Applied local overrides from {override.text}"]

def loading (settings : Settings) (fs : Files) : List LogRecord :=
  reading fs settings.configFile settings.localConfigFile ++
    match Run.load settings fs with
    | .error _ => []
    | .ok d =>
      let names := ", ".intercalate d.nodeNames
      [.debug s!"Document valid: {d.nodes.length} nodes",
        .info s!"Loaded {d.nodes.length} nodes: {names}"]

/-! ### Hooks -/

def registering (file : String) : List (String × Hook) → Registry → List LogRecord
  | [], _ => []
  | (name, hook) :: rest, r =>
    let redefined : List LogRecord :=
      if r.contains name then [.warning s!"Hook '{name}' redefined, using the later definition"]
      else []
    redefined ++ .debug s!"Registered hook '{name}' from {file}" ::
      registering file rest (r.register name hook)

/-- Running the files of a directory. The hooks of a file are looked at in the order of their
names. -/
def runningFiles (fs : Files) (directory : Path) : List String → Registry → List LogRecord
  | [], r => [.info s!"Loaded {r.size} hooks from {directory.text}"]
  | name :: rest, r =>
    match Registry.fileHooks fs (directory.child name) with
    | .error _ => []
    | .ok hooks =>
      registering name (hooks.mergeSort fun a b => !Text.precedes b.1 a.1) r ++
        runningFiles fs directory rest (r.registerAll hooks)

def loadingHooks (fs : Files) (directory : Path) : List LogRecord :=
  if fs.isDirectory directory then
    runningFiles fs directory ((fs.names directory).filter Registry.isHookFile) .empty
  else [.debug s!"Hooks directory does not exist: {directory.text}"]

/-! ### Compiling -/

def dispatching (r : Registry) (name : String) (node : Node) :
    List Value → List Operation → List LogRecord
  | [], _ => []
  | hookName :: rest, ops =>
    match hookName.text.bind fun text => (r.get text).map (text, ·) with
    | .error _ => []
    | .ok (text, hook) =>
      let edited := hook.edit node ops
      .debug s!"Running hook '{text}' for node '{name}'" ::
        if edited.failure.isSome then [] else dispatching r name node rest edited.operations

def compilingNodes (r : Registry) (boxes : Value) : List (String × Node) → List LogRecord
  | [] => []
  | (name, node) :: rest =>
    match Compile.node name node boxes with
    | .error _ => []
    | .ok ops =>
      dispatching r name node node.externalFunctions ops ++
        match Compile.hooked r node ops with
        | .error _ => []
        | .ok ops =>
          .debug s!"Compiled node '{name}': {ops.length} operations" :: compilingNodes r boxes rest

def compiling (settings : Settings) (fs : Files) (d : Document) : List LogRecord :=
  loadingHooks fs settings.hooksDirectory ++
    match (Registry.empty.loadDirectory fs settings.hooksDirectory).result with
    | .error _ => []
    | .ok r => compilingNodes r d.boxes d.nodes

/-! ### The tool -/

section
variable (v : Vagrant)

def calling (arguments : List String) : LogRecord :=
  .debug ("Running: " ++ " ".intercalate (v.executable :: arguments))

/-- Asking the tool for its version, given the answer. -/
def checkingVersion (constraint : String) (answer : CommandResult) : List LogRecord :=
  calling v ["--version"] ::
    match Backend.acceptVersion v.backend.name (Vagrant.versionText answer) constraint with
    | .error _ => []
    | .ok version => [.info s!"{v.backend.name} {version} satisfies {constraint}"]

/-- Asking the tool for its plugins, given the answer. -/
def listingPlugins (answer : CommandResult) : List LogRecord :=
  calling v ["plugin", "list"] ::
    if answer.status = 0 then []
    else [.warning s!"Cannot list plugins: {Text.strip answer.errors}"]

/-- Installing the plugins that are not among the installed ones. -/
def installing (installed : List String) : List String → StateM Host (List LogRecord)
  | [] => return []
  | plugin :: rest => do
    if plugin ∈ installed then
      return .debug s!"Plugin {plugin} already installed" :: (← installing installed rest)
    let arguments := ["plugin", "install", plugin]
    let answer ← v.call arguments v.timeout
    let begun := [.info s!"Installing plugin {plugin}...", calling v arguments]
    if answer.status = 0 then
      return begun ++ .info s!"Installed plugin {plugin}" ::
        (← installing (installed ++ [plugin]) rest)
    else return begun

/-- Checking the version of the tool and installing the plugins that a document requires. -/
def preparing (settings : Settings) (d : Document) (host : Host) : List LogRecord :=
  let (answer, asked) := (v.call ["--version"] Vagrant.versionTimeout).run host
  checkingVersion v settings.versionConstraint answer ++
    match ((v.backend.checkVersion settings.versionConstraint).run host).1 with
    | .error _ => []
    | .ok _ =>
      if d.plugins.isEmpty then []
      else
        let (listing, listed) := (v.call ["plugin", "list"] Vagrant.pluginsTimeout).run asked
        let required := d.plugins.map Value.str
        listingPlugins v listing ++
          ((installing v (Vagrant.pluginsListed listing) d.plugins).run listed).1 ++
          match ((v.backend.ensurePlugins required).run asked).1 with
          | .ok (first :: rest) =>
            let names := (first :: rest).filterMap fun plugin => plugin.text.toOption
            [.info ("Installed plugins: " ++ ", ".intercalate names)]
          | _ => []

end

/-! ### Checks before a run -/

/-- Looking at the boxes of a catalog; `traffic` are the records of the library that makes the
requests. -/
def askingBoxes (network : String → BoxReply) (traffic : String → List LogRecord) :
    Value.Entries → List LogRecord
  | [] => []
  | (box, location) :: rest =>
    match location.text with
    | .error _ => []
    | .ok url =>
      let asked := if BoxFindings.isWeb url then traffic url else []
      match box.text with
      | .error _ => asked
      | .ok name =>
        let own : List LogRecord :=
          if BoxFindings.isWeb url then
            match network url with
            | .status code =>
              if 400 ≤ code then [] else [.info s!"Box URL for {name} reachable ({code})"]
            | .brokenOff _ _ _ => []
          else [.debug s!"Skipping non-HTTP box URL for {name}: {url}"]
        asked ++ own ++ askingBoxes network traffic rest

/-- The checks before a run over the tool. -/
def inspecting (v : Vagrant) (settings : Settings) (withBoxes : Bool) (network : String → BoxReply)
    (traffic : String → List LogRecord) (host : Host) : List LogRecord :=
  reading host.files settings.configFile settings.localConfigFile ++
    match Preflight.checkConfig settings host.files with
    | .error _ => []
    | .ok (document, _) =>
      let (answer, asked) := (v.call ["--version"] Vagrant.versionTimeout).run host
      checkingVersion v settings.versionConstraint answer ++
        match ((Preflight.checkBackend v.backend settings.versionConstraint).run host).1, document with
        | .ok _, some d =>
          let plugins :=
            if d.plugins.isEmpty then []
            else listingPlugins v ((v.call ["plugin", "list"] Vagrant.pluginsTimeout).run asked).1
          plugins ++ if withBoxes then askingBoxes network traffic (d.boxes.entries?.getD []) else []
        | _, _ => []

end Journal

end MachinePlan
