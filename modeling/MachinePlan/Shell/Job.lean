import MachinePlan.Command
import MachinePlan.Shell.Basic
import MachinePlan.Value.Text

/-!
# Running a command

A command is run with a time limit, in a directory and an environment of its own. What it writes is
read as text with plain line feeds. That there is no such command, that it may not be run, and that
it takes too long are results too: their status is negative, and their error output is the reason.
-/

namespace MachinePlan.Shell

/-- A command to be run, with all that it runs in. -/
structure Job where
  words : List String
  /-- The directory that it runs in. -/
  directory : Option String := none
  /-- The seconds that it may take; null is no limit. -/
  timeout : Value := .int 600
  /-- The environment; none is that of the caller. -/
  environment : Option (List (String × String)) := none

def notRun (reason : String) : CommandResult := ⟨-1, "", reason⟩

/-- The microseconds that a time limit denotes. -/
def limit? : Value → Option Nat
  | .int i => some (i * 1000000).toNat
  | .float (.finite negative significand exponent) =>
    let (num, den) := Binary64.inUnits (significand * 1000000) 1 (-exponent)
    some (if negative then 0 else num / den)
  | _ => none

/-- A command takes a little longer than it sleeps. -/
def exceeds (slept : Nat) (timeout : Value) : Bool :=
  (limit? timeout).any fun limit => limit ≤ slept

/-- The text of what was written, with plain line feeds. -/
def outputText (bytes : List UInt8) : Except Failure String :=
  match String.fromUTF8? ⟨bytes.toArray⟩ with
  | some s => .ok (String.ofList (Text.plainNewlines s.toList))
  | none => .error (.fault .undecodable)

def quotedName (name : String) : String := String.ofList (Text.quoted name.toList)

/-- The tree as seen from the directory of a command. -/
def enter (fs : Files) (name : String) : Except NoProgram Files :=
  if name.isEmpty then .error .missing
  else
    match fs.locate (Path.ofString name) with
    | .error .notDirectory => .error .notDirectory
    | .error .missing => .error .missing
    | .ok location =>
      match fs.entry? location with
      | some .directory => .ok { fs with here := location }
      | some _ => .error .notDirectory
      | none => .error .missing

/-- The result when a program or a directory of the given name does not serve. -/
def refusal (word name : String) : NoProgram → CommandResult
  | .missing => notRun ("Command not found: " ++ word)
  | .notDirectory => notRun ("[Errno 20] Not a directory: " ++ quotedName name)
  | .notAllowed => notRun ("[Errno 13] Permission denied: " ++ quotedName name)

/-- The status that the caller sees: that of the shell, or the number of a signal below zero. -/
def callerStatus (s : State) : Int :=
  match s.ending with
  | some (.signal number) => -(number : Int)
  | _ => s.leaveStatus

/-- The depth of scripts within scripts that is followed. -/
def maxDepth : Nat := 10000

def runProgram (fs : Files) (values : List (String × String)) (name : String)
    (arguments : List String) : State :=
  let s : State := { files := fs, values, arguments := [name] }
  if name = "sh" then start maxDepth arguments {} s
  else
    match program? fs [] name arguments with
    | some effect => s.after {} effect
    | none => s

def Job.run (job : Job) (fs : Files) : Except Failure CommandResult :=
  match job.words with
  | [] => .error (.fault .missingIndex)
  | word :: arguments =>
    if job.words.any fun word => word.toList.contains '\x00' then .error (.fault .value) else
    match (job.directory.map (enter fs)).getD (.ok fs) with
    | .error reason => .ok (refusal word (job.directory.getD "") reason)
    | .ok fs =>
      let values := job.environment.getD [("PATH", "/usr/bin:/bin")]
      match findProgram fs (values.lookup "PATH") word with
      | .error reason => .ok (refusal word word reason)
      | .ok program =>
        let s := runProgram fs values program arguments
        if exceeds s.slept job.timeout then do
          return notRun ("Command timed out after " ++ (← job.timeout.text) ++ "s")
        else do
          let output ← outputText s.output
          let errors ← outputText s.errors
          return ⟨callerStatus s, output, errors⟩

end MachinePlan.Shell
