import MachinePlan.CommandLine.Session

/-!
# Transcripts

What a command line leaves behind, on both outputs, with the log in its place. The log stands on the
output, but with the plan as JSON on the error output. A line that the output cannot encode breaks the
program off when it is printed; a record that it cannot encode is only complained about. What the
interpreter says about a program that has broken off comes later, and is no part of a transcript.
-/

namespace MachinePlan

structure Writing where
  output : String := ""
  errors : String := ""
  /-- Whether every line could be printed. -/
  complete : Bool := true
  deriving Repr, DecidableEq

namespace Runtime

variable (rt : Runtime) (i : Invocation)

def shows (r : LogRecord) : Bool := rt.logs && (i.verbose || r.level != .debug)

/-- Write what a record and a later writing amount to; `n` is the number of the record. -/
def writeRecord (n : Nat) (r : LogRecord) (later : Writing) : Writing :=
  let line := rt.line n r
  if !rt.shows i r then later
  else if i.jsonOutput then { later with errors := rt.charset.escaped line ++ later.errors }
  else if rt.charset.takes line then { later with output := line ++ later.output }
  else { later with errors := rt.mishap r ++ later.errors }

/-- Write events, of which the first record has the given number. -/
def write (n : Nat) : List Event → Writing
  | [] => {}
  | .record r :: rest => rt.writeRecord i n r (write (n + 1) rest)
  | .print text :: rest =>
    if rt.charset.takes text then
      let later := write n rest
      { later with output := Printout.line text ++ later.output }
    else { complete := false }

end Runtime

/-- Why a program breaks off. -/
inductive Breakdown where
  | fault (fault : Fault)
  /-- A line is to be printed that the output cannot encode. -/
  | unencodable
  deriving Repr, DecidableEq

/-- What a command line leaves behind. -/
structure Transcript where
  status : Except Breakdown Nat
  output : String
  errors : String
  host : Host
  requests : List BoxRequest

namespace CommandLine

def errorLine (p : Problem) : String := "ERROR: " ++ p.message ++ "\n"

/-- The end of a session that has come to its end, or broken off when a line could not be printed. -/
def close (rt : Runtime) (i : Invocation) (ended : Except Failure Nat × Course) : Transcript :=
  let c := ended.2
  let written := rt.write i 0 c.events
  let leave (status : Except Breakdown Nat) (report : String) : Transcript :=
    ⟨status, written.output, written.errors ++ report, c.host, c.requests⟩
  if written.complete then
    match ended.1 with
    | .ok status => leave (.ok status) ""
    | .error (.problem p) => leave (.ok 1) (rt.charset.escaped (errorLine p))
    | .error (.fault fault) => leave (.error (.fault fault)) ""
  else leave (.error .unencodable) ""

def transcript (rt : Runtime) (words : List String) (env : Environment) (host : Host) : Transcript :=
  match Request.ofWords words with
  | .ok (.usage command) => ⟨.ok 0, Request.usageText command, "", host, []⟩
  | .ok .version => ⟨.ok 0, Printout.line (Request.program ++ " " ++ programVersion), "", host, []⟩
  | .ok (.run i) => close rt i ((Session.ofInvocation rt i env).run { host })
  | .error ⟨command, complaint⟩ =>
    let line := Printout.line (Request.programFor command ++ ": error: " ++ complaint.message)
    ⟨.ok 2, "", rt.charset.escaped (Request.usageText command ++ line), host, []⟩

end CommandLine

end MachinePlan
