import MachinePlan.Backend.Plugins
import MachinePlan.Backend.Version
import MachinePlan.Compile.Document
import MachinePlan.Document.Load
import MachinePlan.Hook.Directory
import MachinePlan.Settings

/-!
# Runs

A run loads the document, checks the backend, loads the hooks, compiles every node and hands the
plan over. Each stage begins only when the one before it has succeeded, so the backend receives
nothing unless every node compiles.
-/

namespace MachinePlan

structure Progress where
  /-- The document, once it is loaded and checked. -/
  document : Option Document
  /-- The compiled nodes, once every one of them compiles. -/
  nodes : List CompiledNode

/-- The result of a run, and how far it came. -/
structure RunResult where
  progress : Progress
  failure : Option Failure

namespace Run

variable {σ : Type}

def load (settings : Settings) (fs : Files) : Except Failure Document := do
  let document ← Document.load fs settings.configFile (some settings.localConfigFile)
  document.check
  return document

/-- Check the version of the backend and install the plugins that the document requires. -/
def prepare (settings : Settings) (b : Backend σ) (document : Document) : Step σ Unit := do
  let _ ← b.checkVersion settings.versionConstraint
  let _ ← b.ensurePlugins (document.plugins.map Value.str)

/-- Compile the document with the given hooks, or else with those of the hooks directory. -/
def compile (settings : Settings) (fs : Files) (hooks : Option Registry) (document : Document) :
    Except Failure (List CompiledNode) := do
  let registry ←
    match hooks with
    | some registry => pure registry
    | none => (Registry.empty.loadDirectory fs settings.hooksDirectory).result
  Compile.document document registry

/-- The stages behind the loading of the document. -/
def finish (settings : Settings) (fs : Files) (b : Backend σ) (unprepared : Bool)
    (hooks : Option Registry) (document : Document) : StateM σ RunResult := do
  let loaded : Progress := ⟨some document, []⟩
  match ← (if unprepared then pure () else prepare settings b document : Step σ Unit).run with
  | .error failure => return ⟨loaded, some failure⟩
  | .ok () =>
    match compile settings fs hooks document with
    | .error failure => return ⟨loaded, some failure⟩
    | .ok nodes =>
      let compiled : Progress := ⟨some document, nodes⟩
      match ← (b.apply nodes).run with
      | .error failure => return ⟨compiled, some failure⟩
      | .ok () => return ⟨compiled, none⟩

/-- A whole run; `unprepared` leaves the checks of the backend out. -/
def run (settings : Settings) (fs : Files) (b : Backend σ) (unprepared : Bool)
    (hooks : Option Registry) : StateM σ RunResult :=
  match load settings fs with
  | .error failure => return ⟨⟨none, []⟩, some failure⟩
  | .ok document => finish settings fs b unprepared hooks document

end Run

def RunResult.result (r : RunResult) : Except Failure (List CompiledNode) :=
  match r.failure with
  | some failure => .error failure
  | none => .ok r.progress.nodes

end MachinePlan
