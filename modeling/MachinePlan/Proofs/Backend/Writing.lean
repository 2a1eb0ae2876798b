import MachinePlan.Backend.Plugins
import MachinePlan.Backend.Vagrant
import MachinePlan.Backend.Version
import MachinePlan.Proofs.Files.Changing
import MachinePlan.Proofs.Outcome

/-!
# Writing plans

The plan of the Vagrant backend is written last, so that a plan that is no JSON text changes no file
(`writePlan_run`). Where the plan file can be written at all, it is written exactly when there is a
text of the plan, and then it holds that text (`writePlan_of_writable`). What comes before a plan is
handed over leaves the file tree alone (`Vagrant.tidy`).
-/

namespace MachinePlan

/-- A path that a file can be written to: the directories above can be made, and the path leads to
no directory then. -/
def Files.Writable (fs : Files) (p : Path) : Prop :=
  ∃ made, fs.makeDirectories p.parent = .ok made ∧ made.isDirectory p = false

/-- The second tree is the first one with some directories added and a text written to a path. -/
def Files.Written (p : Path) (text : String) (before after : Files) : Prop :=
  ∃ made, before.Grown made ∧ made.writeText p text = .ok after

/-- The second tree is the first one with a change at one place, and perhaps with new directories. -/
structure Files.ChangedAt (place : Location) (before after : Files) : Prop where
  here_eq : after.here = before.here
  elsewhere : ∀ location, location ≠ place → after.entry? location = before.entry? location ∨
    before.entry? location = none ∧ after.entry? location = some .directory

theorem Files.Written.readBytes {p : Path} {text : String} {before after : Files}
    (written : Files.Written p text before after) : after.readBytes p = .ok text.toUTF8.toList := by
  obtain ⟨_, _, wrote⟩ := written
  exact readBytes_of_writeText wrote

theorem Files.Written.changedAt {p : Path} {text : String} {before after : Files}
    (written : Files.Written p text before after) :
    ∃ place, after.locate p = .ok place ∧ before.ChangedAt place after := by
  obtain ⟨made, grown, wrote⟩ := written
  obtain ⟨place, led, free, rfl⟩ := writeText_eq_ok wrote
  have here_eq : (made.put place (.file text.toUTF8.toList)).here = made.here := rfl
  refine ⟨place, locate_of_directories here_eq (fun _ => directory_put free) led, ?_, ?_⟩
  · exact here_eq.trans grown.here_eq
  · intro location different
    rw [entry?_put_of_ne (ne_nil_of_free free) different]
    exact grown.entry_eq location

namespace Backend

/-- A backend whose questions and installations leave a part of the state as it is. -/
structure Tidy {σ γ : Type} (b : Backend σ) (part : σ → γ) : Prop where
  version : ∀ s, part (b.version s).2 = part s
  installedPlugins : ∀ s, part (b.installedPlugins s).2 = part s
  installPlugin : ∀ plugin s, part (b.installPlugin plugin s).2 = part s

section
variable {σ γ : Type} {b : Backend σ} {part : σ → γ}

theorem keeps_checkVersion (tidy : b.Tidy part) (constraint : String) :
    Step.Keeps part (b.checkVersion constraint) :=
  .bind (.action tidy.version) fun output => .outcome (acceptVersion b.name output constraint)

theorem keeps_install (tidy : b.Tidy part) (plugin : Value) : Step.Keeps part (b.install plugin) := by
  refine .bind (.outcome plugin.text) fun name => .bind (.action (tidy.installPlugin plugin)) ?_
  rintro (failure | _)
  · exact .throw _
  · exact .pure ()

theorem keeps_installMissing (tidy : b.Tidy part) (plugins : List Value) :
    ∀ installed, Step.Keeps part (b.installMissing installed plugins) := by
  induction plugins with
  | nil => exact fun _ => .pure []
  | cons plugin rest ih =>
    intro installed
    rw [installMissing]
    split
    · exact fun _ => rfl
    · split
      · exact ih installed
      · exact .bind (keeps_install tidy plugin) fun _ => .bind (ih _) fun _ => .pure _

theorem keeps_ensurePlugins (tidy : b.Tidy part) (plugins : List Value) :
    Step.Keeps part (b.ensurePlugins plugins) := by
  rw [ensurePlugins]
  split
  · exact .pure []
  · refine .bind (.action tidy.installedPlugins) fun installed => ?_
    split
    · exact fun _ => rfl
    · exact keeps_installMissing tidy plugins installed

end

end Backend

namespace Vagrant

variable {v : Vagrant} {nodes : List CompiledNode} {host after : Host} {text : String}
  {failure : Failure}

/-- A command leaves the file tree alone. -/
theorem files_run (call : CommandCall) (host : Host) : (Host.run call host).2.files = host.files := by
  rw [Host.run]
  cases host.results <;> rfl

/-- Only the plan is written. -/
theorem tidy (v : Vagrant) : v.backend.Tidy Host.files where
  version host := files_run _ host
  installedPlugins host := files_run _ host
  installPlugin plugin host := by
    cases plugin
    case str name => exact files_run _ host
    all_goals rfl

theorem planText_eq_ok : planText nodes = .ok text ↔
    ∃ plan, planValue nodes = .ok plan ∧ textOfPlan plan = .ok text :=
  bind_eq_ok

/-- Writing a plan, stage by stage: each one begins when those before it have succeeded. -/
theorem writePlan_run (v : Vagrant) (nodes : List CompiledNode) (host : Host) :
    (v.writePlan nodes).run host =
      match planValue nodes with
      | .error failure => (.error failure, host)
      | .ok plan =>
        match host.files.makeDirectories v.planFile.parent with
        | .error failure => (.error failure, host)
        | .ok made =>
          match textOfPlan plan with
          | .error failure => (.error failure, { host with files := made })
          | .ok text =>
            match made.writeText v.planFile text with
            | .error failure => (.error failure, { host with files := made })
            | .ok written => (.ok (), { host with files := written }) := by
  rw [writePlan, Step.run_outcome_bind]
  cases planValue nodes with
  | error failure => rfl
  | ok plan =>
    simp only [Step.run_get_bind, Step.run_outcome_bind]
    cases host.files.makeDirectories v.planFile.parent with
    | error failure => rfl
    | ok made =>
      simp only [Step.run_modify_bind, Step.run_outcome_bind]
      cases textOfPlan plan with
      | error failure => rfl
      | ok text =>
        simp only
        cases made.writeText v.planFile text with
        | error failure => rfl
        | ok written => rfl

/-- A plan that is handed over is in its file. -/
theorem writePlan_eq_ok (wrote : (v.writePlan nodes).run host = (.ok (), after)) :
    ∃ text, planText nodes = .ok text ∧
      Files.Written v.planFile text host.files after.files := by
  rw [writePlan_run] at wrote
  cases listed : planValue nodes with
  | error failure =>
    rw [listed] at wrote
    cases wrote
  | ok plan =>
    rw [listed] at wrote
    cases made : host.files.makeDirectories v.planFile.parent with
    | error failure =>
      simp only [made] at wrote
      cases wrote
    | ok files =>
      simp only [made] at wrote
      cases shown : textOfPlan plan with
      | error failure =>
        simp only [shown] at wrote
        cases wrote
      | ok text =>
        simp only [shown] at wrote
        cases put : files.writeText v.planFile text with
        | error failure =>
          simp only [put] at wrote
          cases wrote
        | ok written =>
          simp only [put] at wrote
          cases wrote
          exact ⟨text, planText_eq_ok.mpr ⟨plan, listed, shown⟩, files,
            (Files.made_of_makeDirectories made).grown, put⟩

/-- A plan that is not handed over leaves no file behind. -/
theorem writePlan_eq_error (failed : (v.writePlan nodes).run host = (.error failure, after)) :
    host.files.Grown after.files := by
  rw [writePlan_run] at failed
  cases listed : planValue nodes with
  | error failure =>
    rw [listed] at failed
    cases failed
    exact .refl host.files
  | ok plan =>
    rw [listed] at failed
    cases made : host.files.makeDirectories v.planFile.parent with
    | error failure =>
      simp only [made] at failed
      cases failed
      exact .refl host.files
    | ok files =>
      simp only [made] at failed
      have grown := (Files.made_of_makeDirectories made).grown
      cases shown : textOfPlan plan with
      | error failure =>
        simp only [shown] at failed
        cases failed
        exact grown
      | ok text =>
        simp only [shown] at failed
        cases put : files.writeText v.planFile text with
        | error failure =>
          simp only [put] at failed
          cases failed
          exact grown
        | ok written =>
          simp only [put] at failed
          cases failed

/-- Where the plan file can be written, a plan is handed over exactly when it has a text; otherwise
the failure is that of the text, and no file is changed. -/
theorem writePlan_of_writable (tree : host.files.IsTree) (writable : host.files.Writable v.planFile)
    (nodes : List CompiledNode) :
    ∃ files, (v.writePlan nodes).run host = ((planText nodes).map fun _ => (), { host with files }) ∧
      match planText nodes with
      | .ok text => Files.Written v.planFile text host.files files
      | .error _ => host.files.Grown files := by
  obtain ⟨made, above, free⟩ := writable
  have grew := Files.made_of_makeDirectories above
  rw [writePlan_run, planText, above]
  cases planValue nodes with
  | error failure => exact ⟨host.files, rfl, .refl host.files⟩
  | ok plan =>
    change ∃ files, _ = ((textOfPlan plan).map fun _ => (), { host with files }) ∧
      match textOfPlan plan with
      | .ok text => Files.Written v.planFile text host.files files
      | .error _ => host.files.Grown files
    simp only
    cases textOfPlan plan with
    | error failure => exact ⟨made, rfl, grew.grown⟩
    | ok text =>
      obtain ⟨location, -, wrote⟩ :=
        Files.writeText_eq_put (grew.isTree tree) grew.isDirectory free text
      simp only [wrote]
      exact ⟨_, rfl, made, grew.grown, wrote⟩

end Vagrant

end MachinePlan
