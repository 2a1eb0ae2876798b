import MachinePlan.CommandLine.Basic
import MachinePlan.CommandLine.Runtime

/-!
# Sessions

The commands once more, step by step: what they print, and what they note down in between.
-/

namespace MachinePlan

/-- Something that appears on an output while a command works. -/
inductive Event where
  | record (r : LogRecord)
  /-- A line is printed. -/
  | print (line : String)
  deriving Repr, DecidableEq

/-- How far a command has come. -/
structure Course where
  events : List Event := []
  host : Host
  requests : List BoxRequest := []

/-- A part of a command. -/
abbrev Session := Step Course

namespace Course

def tell (records : List LogRecord) (c : Course) : Course :=
  { c with events := c.events ++ records.map .record }

def print (lines : List String) (c : Course) : Course :=
  { c with events := c.events ++ lines.map .print }

end Course

namespace Session

variable (rt : Runtime) (i : Invocation) (settings : Settings)

def tell (records : List LogRecord) : Session Unit := modify (Course.tell records)

def print (line : String) : Session Unit := modify (Course.print [line])

/-- Print lines up to the first that cannot be made. -/
def printAll : List (Except Failure String) → Session Unit
  | [] => return ()
  | made :: rest => do
    print (← made)
    printAll rest

/-- A step over the surroundings. -/
def onHost {α : Type} (step : Step Host α) : Session α := fun c =>
  let (outcome, host) := step.run c.host
  (outcome, { c with host })

def load : Session Document := do
  let fs := (← get).host.files
  tell (Journal.loading settings fs)
  Run.load settings fs

/-- Compile the document with the hooks of the hooks directory. -/
def plan (d : Document) : Session (List CompiledNode) := do
  let fs := (← get).host.files
  tell (Journal.compiling settings fs d)
  modify fun c =>
    { c with host := { c.host with files := rt.afterHooks settings.hooksDirectory fs } }
  Run.compile settings fs none d

/-- Check the tool, unless this is left out. -/
def prepare (d : Document) : Session Unit := do
  if i.dryRun || i.skipPreflight then tell [.info "Skipping backend pre-flight checks"]
  else
    let v := CommandLine.vagrant settings
    tell (Journal.preparing v settings d (← get).host)
    onHost (Run.prepare settings v.backend d)

/-- Show the plan, or write it. -/
def handOver (nodes : List CompiledNode) : Session Unit := do
  if i.dryRun then printAll (Preview.lines nodes)
  else
    onHost ((CommandLine.vagrant settings).backend.apply nodes)
    tell [.info s!"Wrote plan for {nodes.length} nodes to {settings.planFile.text}"]

def validate : Session Nat := do
  let d ← load settings
  print (CommandLine.countLine d)
  return 0

def nodes : Session Nat := do
  let d ← load settings
  printAll (d.nodeNames.map .ok)
  return 0

def chosen : Session (List CompiledNode) := do
  let d ← load settings
  CommandLine.selectNodes i.node d (← plan rt settings d)

def printPlan (nodes : List CompiledNode) : Session Unit := do
  if i.jsonOutput then print (← Json.document (← planValue nodes))
  else printAll (nodes.flatMap CommandLine.nodeLines)

def compile : Session Nat := do
  printPlan i (← chosen rt i settings)
  return 0

def backendName : String := if i.dryRun then "dry-run" else "vagrant"

/-- The plan that is handed over, behind the checks. -/
def planned : Session (List CompiledNode) := do
  tell [.info s!"Applying {settings.configFile.text} via {backendName i}"]
  let d ← load settings
  prepare i settings d
  plan rt settings d

def apply : Session Nat := do
  let nodes ← planned rt i settings
  handOver i settings nodes
  tell [.info s!"Applied {nodes.length} nodes via {backendName i} in {rt.elapsed}s"]
  return 0

def preflight (env : Environment) : Session Nat := do
  let host := (← get).host
  let v := CommandLine.vagrant settings
  tell (Journal.inspecting v settings i.checkBoxes env.network rt.traffic host)
  let (checked, after) :=
    (Preflight.run settings host.files v.backend i.checkBoxes env.network boxTimeout).run host
  modify fun c => { c with host := after, requests := checked.requests }
  let report ← checked.outcome
  print report.text
  return if report.succeeded then 0 else 1

def ofInvocation (env : Environment) : Session Nat := do
  let settings := Settings.resolve i.settings env.value (← get).host.files.herePath
  match i.command with
  | .validate => validate settings
  | .nodes => nodes settings
  | .compile => compile rt i settings
  | .apply => apply rt i settings
  | .preflight => preflight rt i settings env

end Session

end MachinePlan
