import MachinePlan.Files.Change

/-!
# Commands

The surroundings of a run that runs commands: the file tree, and what the commands to come will
answer. Every call is remembered.
-/

namespace MachinePlan

/-- The result of a command: its status and what it wrote to its two outputs. -/
structure CommandResult where
  status : Int
  output : String
  errors : String
  deriving Inhabited, Repr

/-- The call of a command: its words, the directory it runs in, and the seconds it may take. -/
structure CommandCall where
  words : List String
  directory : Option Path
  timeout : Int
  deriving Repr, DecidableEq

/-- The surroundings of a run. -/
structure Host where
  files : Files
  /-- The results of the commands to come. -/
  results : List CommandResult
  /-- The calls so far. -/
  calls : List CommandCall

namespace Host

def commandNotFound (words : List String) : CommandResult :=
  ⟨-1, "", "Command not found: " ++ words.headD ""⟩

/-- Run a command; where no result is left there is no command. -/
def run (call : CommandCall) : StateM Host CommandResult := fun host =>
  let calls := host.calls ++ [call]
  match host.results with
  | result :: rest => (result, { host with results := rest, calls })
  | [] => (commandNotFound call.words, { host with calls })

end Host

end MachinePlan
