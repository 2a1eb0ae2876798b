import MachinePlan.CommandLine.Grammar
import MachinePlan.Settings

/-!
# Invocations

The commands of the program with their options, and what the words of a command line ask for.
-/

namespace MachinePlan

inductive Command where
  | validate
  | nodes
  | compile
  | apply
  | preflight
  deriving Repr, DecidableEq

/-- What an option sets. -/
inductive OptionKey where
  | help
  | version
  | root
  | config
  | localConfig
  | hooksDirectory
  | verbose
  | node
  | jsonOutput
  | dryRun
  | skipPreflight
  | versionConstraint
  | planFile
  | checkBoxes
  deriving Repr, DecidableEq

structure Invocation where
  command : Command
  settings : SettingTexts := {}
  /-- The one node that is asked for; an empty text asks for all. -/
  node : String := ""
  jsonOutput : Bool := false
  dryRun : Bool := false
  skipPreflight : Bool := false
  checkBoxes : Bool := false
  verbose : Bool := false
  deriving Repr, DecidableEq

/-- What a command line asks for. -/
inductive Request where
  | usage (command : Option Command)
  | version
  | run (invocation : Invocation)
  deriving Repr, DecidableEq

namespace Command

def all : List Command := [.validate, .nodes, .compile, .apply, .preflight]

def word : Command → String
  | .validate => "validate"
  | .nodes => "nodes"
  | .compile => "compile"
  | .apply => "apply"
  | .preflight => "preflight"

def ofWord? (word : String) : Option Command :=
  all.find? fun command => command.word == word

def commonRules : List (CommandLine.OptionRule OptionKey) :=
  [⟨.help, ["-h", "--help"], none⟩, ⟨.root, ["--root"], some "ROOT"⟩,
    ⟨.config, ["--config", "-c"], some "CONFIG_FILE"⟩,
    ⟨.localConfig, ["--local-config"], some "LOCAL_CONFIG_FILE"⟩,
    ⟨.hooksDirectory, ["--hooks-dir"], some "HOOKS_DIR"⟩, ⟨.verbose, ["--verbose", "-v"], none⟩]

def constraintRule : CommandLine.OptionRule OptionKey :=
  ⟨.versionConstraint, ["--version-constraint"], some "VERSION_CONSTRAINT"⟩

def rules : Command → List (CommandLine.OptionRule OptionKey)
  | .validate | .nodes => commonRules
  | .compile =>
    commonRules ++ [⟨.node, ["--node", "-n"], some "NODE"⟩, ⟨.jsonOutput, ["--json-output"], none⟩]
  | .apply =>
    commonRules ++ [⟨.dryRun, ["--dry-run"], none⟩, ⟨.skipPreflight, ["--skip-preflight"], none⟩,
      constraintRule, ⟨.planFile, ["--plan-file"], some "PLAN_FILE"⟩]
  | .preflight => commonRules ++ [⟨.checkBoxes, ["--check-boxes"], none⟩, constraintRule]

end Command

namespace Invocation

/-- The invocation with one option set; of several values for one option the last one counts. -/
def set (i : Invocation) : OptionKey × String → Invocation
  | (.root, text) => { i with settings := { i.settings with root := text } }
  | (.config, text) => { i with settings := { i.settings with configFile := text } }
  | (.localConfig, text) => { i with settings := { i.settings with localConfigFile := text } }
  | (.hooksDirectory, text) => { i with settings := { i.settings with hooksDirectory := text } }
  | (.versionConstraint, text) =>
    { i with settings := { i.settings with versionConstraint := text } }
  | (.planFile, text) => { i with settings := { i.settings with planFile := text } }
  | (.node, text) => { i with node := text }
  | (.jsonOutput, _) => { i with jsonOutput := true }
  | (.dryRun, _) => { i with dryRun := true }
  | (.skipPreflight, _) => { i with skipPreflight := true }
  | (.checkBoxes, _) => { i with checkBoxes := true }
  | (.verbose, _) => { i with verbose := true }
  | (.help, _) | (.version, _) => i

end Invocation

/-- A command line that is not understood: the command it is for, if one was reached, and what is
wrong with it. -/
structure Misuse where
  command : Option Command
  complaint : CommandLine.Complaint
  deriving Repr, DecidableEq

namespace Request

open CommandLine

def program : String := "boxfile"

def programFor : Option Command → String
  | none => program
  | some command => program ++ " " ++ command.word

/-- The options in front of the command. -/
def frontRules : List (OptionRule OptionKey) :=
  [⟨.help, ["-h", "--help"], none⟩, ⟨.version, ["--version"], none⟩]

/-- The options that end the reading of a command line. -/
def halts (key : OptionKey) : Bool := key = .help || key = .version

def usageText : Option Command → String
  | none => CommandLine.usageText program (frontRules.map OptionRule.usage ++ ["<command>", "..."])
  | some command =>
    CommandLine.usageText (programFor (some command)) (command.rules.map OptionRule.usage)

def misuse {α : Type} (command : Option Command) (complaint : Complaint) : Except Misuse α :=
  .error ⟨command, complaint⟩

def within {α : Type} (command : Option Command) : Except Complaint α → Except Misuse α
  | .ok x => .ok x
  | .error complaint => misuse command complaint

def refuseLeft (left : List String) : Except Misuse Unit :=
  if left.isEmpty then .ok ()
  else misuse none ⟨"unrecognized arguments: " ++ " ".intercalate left⟩

def noCommand (word : String) : Complaint :=
  let quoted (s : String) : String := String.ofList (Text.quoted s.toList)
  let choices := ", ".intercalate (Command.all.map fun command => quoted command.word)
  ⟨"argument <command>: invalid choice: " ++ quoted word ++ " (choose from " ++ choices ++ ")"⟩

/-- What the words behind a command ask for; `left` are the words before it that are left. -/
def ofCommand (command : Command) (left words : List String) : Except Misuse Request := do
  let words ← within (some command) (wordsOf command.rules words)
  let (reading, _) ← within (some command) (readWords command.rules halts false none words)
  if reading.halt.isSome then return .usage (some command)
  refuseLeft (left ++ reading.left)
  return .run (reading.options.foldl Invocation.set { command })

def ofWords (words : List String) : Except Misuse Request := do
  let words ← within none (wordsOf frontRules words)
  let (reading, unread) ← within none (readWords frontRules halts true none words)
  match reading.halt, unread with
  | some .version, _ => return .version
  | some _, _ => return .usage none
  | none, [] => do
    refuseLeft reading.left
    return .usage none
  | none, word :: rest =>
    match Command.ofWord? word with
    | some command => ofCommand command reading.left rest
    | none => misuse none (noCommand word)

end Request

end MachinePlan
