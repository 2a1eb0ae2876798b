import MachinePlan.Backend.Version
import MachinePlan.Document.Load
import MachinePlan.Preflight.Boxes
import MachinePlan.Preflight.Report
import MachinePlan.Settings

/-!
# Checks before a run

The configuration, the version of the backend, its plugins and, on request, the locations of boxes
are looked at without changing anything. Problems are collected, so that one report can show them
all.
-/

namespace MachinePlan

/-- What the checks before a run have done and found. -/
structure Preflight where
  /-- The report, or why there is none. -/
  outcome : Except Failure Report
  requests : List BoxRequest := []

namespace Preflight

variable {σ : Type}

def documentChecks (settings : Settings) (d : Document) : Checks :=
  let loaded := s!"{settings.configFile.text} loaded"
  let merged :=
    if 1 < d.sources.length then [s!"{settings.localConfigFile.text} merged"] else []
  match d.validate with
  | [] => { passed := loaded :: merged ++ [s!"{d.nodes.length} nodes defined"] }
  | errors => { passed := loaded :: merged, failed := errors }

def checkConfig (settings : Settings) (fs : Files) : Except Failure (Option Document × Checks) :=
  match Document.load fs settings.configFile (some settings.localConfigFile) with
  | .ok d => .ok (some d, documentChecks settings d)
  | .error (.problem (.config problem)) => .ok (none, { failed := [problem.message] })
  | .error failure => .error failure

def versionChecks (name constraint : String) : Except Failure String → Except Failure Checks
  | .ok version => .ok { passed := [s!"{name} {version} (required: {constraint})"] }
  | .error (.problem (.version problem)) => .ok { failed := [problem.message] }
  | .error (.problem (.config problem)) => .ok { failed := [problem.message] }
  | .error failure => .error failure

/-- The findings on the version of the backend, which is asked for it. -/
def checkBackend (b : Backend σ) (constraint : String) : Step σ Checks := do
  let output ← b.version
  versionChecks b.name constraint (Backend.acceptVersion b.name output constraint)

def pluginChecks (installed : List Value) : List String → Checks
  | [] => {}
  | plugin :: rest =>
    let later := pluginChecks installed rest
    if Backend.isInstalled (.str plugin) installed then
      { later with passed := s!"{plugin} installed" :: later.passed }
    else
      { later with
        failed :=
          s!"{plugin} not installed\n  Installed automatically by: boxfile apply" :: later.failed }

/-- The findings on the plugins that a document requires. A backend is not asked for its plugins
where none is required. -/
def checkPlugins (b : Backend σ) : Option Document → Step σ Checks
  | none => return {}
  | some d => do
    if d.plugins.isEmpty then return {}
    let installed ← b.installedPlugins
    if !installed.all Value.isHashable then throw (.fault .type)
    return pluginChecks installed d.plugins

def boxCount (catalog : Value) : Nat :=
  (catalog.entries?.getD []).length

def boxChecks (catalog : Value) (errors : List String) : Checks :=
  { passed :=
      if catalog.isTruthy && errors.isEmpty then [s!"{boxCount catalog} box URLs checked"] else []
    failed := errors }

/-- The checks that look at the configuration and the backend only, and the document, if there is
one. -/
def checkTools (settings : Settings) (fs : Files) (b : Backend σ) :
    Step σ (Option Document × Report) := do
  let (document, config) ← checkConfig settings fs
  let backend ← checkBackend b settings.versionConstraint
  let plugins ← checkPlugins b document
  return (document, { config, backend, plugins })

def withBoxChecks (network : String → BoxReply) (timeout : Value) (d : Document) (report : Report) :
    Preflight :=
  let found := BoxFindings.ofCatalog network timeout d.boxes
  { outcome := found.result.map fun errors => { report with boxes := boxChecks d.boxes errors }
    requests := found.requests }

/-- All checks; `withBoxes` includes the locations of boxes. -/
def run (settings : Settings) (fs : Files) (b : Backend σ) (withBoxes : Bool)
    (network : String → BoxReply) (timeout : Value) : StateM σ Preflight := do
  match ← (checkTools settings fs b).run with
  | .error failure => return { outcome := .error failure }
  | .ok (some d, report) =>
    if withBoxes then return withBoxChecks network timeout d report
    else return { outcome := .ok report }
  | .ok (none, report) => return { outcome := .ok report }

end Preflight

end MachinePlan
