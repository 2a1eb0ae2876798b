import MachinePlan.Backend.Preview
import MachinePlan.Backend.Vagrant
import MachinePlan.CommandLine.Invocation
import MachinePlan.Preflight.Basic
import MachinePlan.Run

/-!
# The command line

What the program does for a command line: the commands, what they print, and the status they end
with. A problem is reported on the error output, and the status is then one. This is the program by
itself: there is no log on its outputs, they take every text, and nothing is kept of the hook files
that it has run. A `Runtime` has all of that, and its transcripts come to the answers where it has
none.
-/

namespace MachinePlan

/-- What a command line is answered with, without the records of the log, on outputs that take every
text, and without what the interpreter keeps of hook files; `Transcript` leaves none of this out. -/
structure Answer where
  /-- The status of the program, or the fault that it breaks off with. -/
  status : Except Fault Nat
  output : String
  errors : String := ""
  /-- The surroundings afterwards. -/
  host : Host
  /-- The requests that were made for boxes. -/
  requests : List BoxRequest := []

namespace Answer

def success (host : Host) (output : String) : Answer := { status := .ok 0, output, host }

/-- The report of a failure behind an output. -/
def failure (host : Host) (output : String) : Failure → Answer
  | .problem problem =>
    { status := .ok 1, output, errors := "ERROR: " ++ problem.message ++ "\n", host }
  | .fault fault => { status := .error fault, output, host }

def ofResult (host : Host) : Except Failure String → Answer
  | .ok output => success host output
  | .error failed => failure host "" failed

end Answer

/-- What a command line can see and use beside the host. The outputs, the clock and the cache of the
interpreter are in `Runtime`. -/
structure Environment where
  /-- The values of the environment variables; one that is not set is empty. -/
  value : String → String
  /-- The answers of the web. -/
  network : String → BoxReply

namespace CommandLine

open Printout (line)

def countLine (d : Document) : String :=
  let names := ", ".intercalate d.nodeNames
  s!"OK: {d.nodes.length} nodes defined ({names})"

def validate (settings : Settings) (fs : Files) : Except Failure String := do
  let d ← Run.load settings fs
  return line (countLine d)

def nodes (settings : Settings) (fs : Files) : Except Failure String := do
  let d ← Run.load settings fs
  return String.join (d.nodeNames.map line)

/-- The compiled nodes that are asked for by name. -/
def selectNodes (name : String) (d : Document) (nodes : List CompiledNode) :
    Except Failure (List CompiledNode) :=
  if name.isEmpty then .ok nodes
  else
    match nodes.filter fun n => n.name == name with
    | [] => .error (.problem (.unknownNode name d.nodeNames))
    | found => .ok found

/-- The line of an operation: its kind, and its fields as JSON text. -/
def operationLine (op : Operation) : Except Failure String := do
  let _ ← op.record
  let fields ← Json.line (.map (Operation.entriesOf op.fields))
  return "  " ++ op.kind ++ " " ++ fields

/-- The lines of a node: its name, and its operations. -/
def nodeLines (n : CompiledNode) : List (Except Failure String) :=
  .ok (n.name ++ ":") :: n.operations.map operationLine

def compile (i : Invocation) (settings : Settings) (host : Host) : Answer :=
  let compiled : Except Failure (List CompiledNode) := do
    let d ← Run.load settings host.files
    selectNodes i.node d (← Run.compile settings host.files none d)
  match compiled with
  | .error failure => .failure host "" failure
  | .ok nodes =>
    if i.jsonOutput then .ofResult host (Vagrant.planText nodes)
    else
      match Printout.ofLines (nodes.flatMap nodeLines) with
      | ⟨output, none⟩ => .success host output
      | ⟨output, some failure⟩ => .failure host output failure

/-- The backend tool as it is set up for a project. -/
def vagrant (settings : Settings) : Vagrant :=
  { planFile := settings.planFile, directory := some settings.root }

def apply (i : Invocation) (settings : Settings) (host : Host) : Answer :=
  if i.dryRun then
    let (r, shown) := Run.run settings host.files (Preview.backend "" []) true none .empty
    match r.failure with
    | some failure => .failure host shown.shown failure
    | none => .success host shown.shown
  else
    let (r, after) :=
      Run.run settings host.files (vagrant settings).backend i.skipPreflight none host
    match r.failure with
    | some failure => .failure after "" failure
    | none => .success after ""

def preflight (i : Invocation) (settings : Settings) (env : Environment) (host : Host) : Answer :=
  let (checked, after) :=
    (Preflight.run settings host.files (vagrant settings).backend i.checkBoxes env.network
      boxTimeout).run host
  match checked.outcome with
  | .error failure => { Answer.failure after "" failure with requests := checked.requests }
  | .ok report =>
    { status := .ok (if report.succeeded then 0 else 1)
      output := line report.text
      host := after
      requests := checked.requests }

def invoke (i : Invocation) (env : Environment) (host : Host) : Answer :=
  let settings := Settings.resolve i.settings env.value host.files.herePath
  match i.command with
  | .validate => .ofResult host (validate settings host.files)
  | .nodes => .ofResult host (nodes settings host.files)
  | .compile => compile i settings host
  | .apply => apply i settings host
  | .preflight => preflight i settings env host

/-- The version of the program, which is not known outside a release. -/
def programVersion : String := "dev"

def answer (words : List String) (env : Environment) (host : Host) : Answer :=
  match Request.ofWords words with
  | .ok (.usage command) => .success host (Request.usageText command)
  | .ok .version => .success host (line (Request.program ++ " " ++ programVersion))
  | .ok (.run i) => invoke i env host
  | .error ⟨command, complaint⟩ =>
    { status := .ok 2
      output := ""
      errors := Request.usageText command ++
        line (Request.programFor command ++ ": error: " ++ complaint.message)
      host }

end CommandLine

end MachinePlan
