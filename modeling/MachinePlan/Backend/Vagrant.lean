import MachinePlan.Backend.Basic
import MachinePlan.Command
import MachinePlan.Json.Basic

/-!
# The Vagrant backend

Version and plugins are managed through the command of the tool. A plan is written to a file as
indented JSON text for the tool to pick up.
-/

namespace MachinePlan

/-- How the tool is called, and where plans are written. -/
structure Vagrant where
  planFile : Path
  executable : String := "vagrant"
  /-- The directory that the command runs in. -/
  directory : Option Path := none
  /-- The seconds that an installation may take. -/
  timeout : Int := 600

namespace Vagrant

def versionTimeout : Int := 30

def pluginsTimeout : Int := 60

def call (v : Vagrant) (arguments : List String) (timeout : Int) : StateM Host CommandResult :=
  Host.run ⟨v.executable :: arguments, v.directory, timeout⟩

/-- What the tool says about its version; nothing when the call fails. -/
def versionText (result : CommandResult) : String :=
  if result.status = 0 then Text.strip result.output else ""

def isPluginChar (c : Char) : Bool :=
  ('A' ≤ c && c ≤ 'Z') || ('a' ≤ c && c ≤ 'z') || Text.isAsciiDigit c || c = '_' || c = '.' || c = '-'

/-- The plugin that a line names: a word, then blanks and an opening parenthesis. -/
def pluginOfLine? (line : List Char) : Option String :=
  let line := Text.trim line
  let name := line.takeWhile isPluginChar
  let rest := line.dropWhile isPluginChar
  if name.isEmpty || !rest.head?.any Text.isBlank then none
  else if (rest.dropWhile Text.isBlank).head? = some '(' then some (String.ofList name)
  else none

/-- The plugins that a listing names, line by line; none when the call fails. -/
def pluginsListed (result : CommandResult) : List String :=
  if result.status = 0 then (Text.lines result.output.toList).filterMap pluginOfLine? else []

/-- The reason for a failed installation: the last line of what the tool wrote to its error output,
or else to its output, or else its status. -/
def installReason (result : CommandResult) : String :=
  let text := if result.errors.isEmpty then result.output else result.errors
  match (Text.lines (Text.trim text.toList)).getLast? with
  | some line => String.ofList line
  | none => s!"exit code {result.status}"

/-- What the result of an installation means. -/
def installResult (plugin : String) (result : CommandResult) : Except InstallFailure Unit :=
  if result.status = 0 then .ok () else .error (.explained (.failed plugin (installReason result)))

def textOfPlan (plan : Value) : Except Failure String := do
  return (← Json.document plan) ++ "\n"

/-- The reason why a plugin that is no text cannot be installed: the last of the four words of the
call has to be one. -/
def notTextReason (plugin : Value) : String :=
  s!"sequence item 3: expected str instance, {plugin.kindName} found"

def planText (nodes : List CompiledNode) : Except Failure String := do
  textOfPlan (← planValue nodes)

/-- Write a plan: make the directories above its file, then write its text. -/
def writePlan (v : Vagrant) (nodes : List CompiledNode) : Step Host Unit := do
  let plan ← planValue nodes
  let files ← (← get).files.makeDirectories v.planFile.parent
  modify fun host => { host with files }
  let text ← textOfPlan plan
  let files ← files.writeText v.planFile text
  modify fun host => { host with files }

def backend (v : Vagrant) : Backend Host where
  name := "vagrant"
  version := return versionText (← v.call ["--version"] versionTimeout)
  installedPlugins := do
    let result ← v.call ["plugin", "list"] pluginsTimeout
    return (pluginsListed result).map Value.str
  installPlugin
    | .str name => do
      let result ← v.call ["plugin", "install", name] v.timeout
      return installResult name result
    | other => return .error (.unexplained (notTextReason other))
  apply nodes := v.writePlan nodes

end Vagrant

end MachinePlan
