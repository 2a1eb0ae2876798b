import MachinePlan.Proofs.Backend.Noted
import MachinePlan.Proofs.Backend.Reasons
import MachinePlan.Proofs.Backend.Writing
import MachinePlan.Proofs.Version.Search
import MachinePlan.Proofs.Wording
import MachinePlan.Proofs.Wordless
import MachinePlan.Run

/-!
# What the checks of a backend quote

A backend that is refused is reported with what it says about its version and with the constraint
(`reveals_acceptVersion`), and a plugin that it does not install with the name of the plugin. The reason
that the Vagrant backend gives is one line, so no output of an installation is passed on
(`Vagrant.reveals_prepare`).
-/

namespace MachinePlan

open Text

variable {sources : String → Prop} {σ : Type}

/-! ### Versions -/

theorem Text.subset_trim (cs : List Char) : trim cs ⊆ cs := by
  obtain ⟨before, after, whole, -⟩ := exists_trimBy isBlank cs
  exact List.IsInfix.subset ⟨before, after, whole.symm⟩

theorem Version.subset_ofOutput? {output version : String}
    (found : ofOutput? output = some version) : version.toList ⊆ output.toList := by
  obtain ⟨before, d, after, here, rfl⟩ := ofOutput?_eq_some_iff.mp found
  rw [Dotted.text, String.toList_ofList, here.whole]
  exact (List.infix_append' before d.chars after).subset

theorem Version.reveals_satisfies {constraint : String} (source : sources constraint)
    (version : String) : Reveals (·.Traced sources) (satisfies version constraint) := by
  -- the clause that is reported is a piece of the constraint
  have inside : ∀ piece ∈ Text.splitAt ',' constraint.toList, piece ⊆ constraint.toList :=
    fun _ member => (infix_of_mem_splitAt member).subset
  rw [satisfies]
  generalize Text.splitAt ',' constraint.toList = pieces at inside ⊢
  induction pieces with
  | nil => exact .ok true
  | cons piece rest ih =>
    obtain ⟨here, later⟩ := List.forall_mem_cons.mp inside
    rw [checkClauses]
    split
    · exact ih later
    · split
      · have whole : BreaksFrom sources constraint := breaksFrom_of_source source
        refine .problem (List.forall_mem_singleton.mpr (whole.of_subset ?_))
        rw [String.toList_ofList]
        exact List.Subset.trans (subset_trim piece) here
      · refine .bind (Clause.wordless_check version _).reveals fun yes _ => ?_
        cases yes
        · exact .ok false
        · exact ih later

namespace Backend

variable {name output constraint : String}

theorem breaksFrom_quotedOutput (said : BreaksFrom sources output) :
    BreaksFrom sources (quotedOutput output) := by
  simp only [quotedOutput]
  split
  · exact breaksFrom_of_unbroken (by decide +kernel)
  · refine said.of_subset ?_
    rw [strip, String.toList_ofList]
    exact subset_trim output.toList

/-- A refusal quotes what the backend says about its version, and the constraint. -/
theorem reveals_acceptVersion (plain : Unbroken name.toList) (said : BreaksFrom sources output)
    (source : sources constraint) :
    Reveals (·.Traced sources) (acceptVersion name output constraint) := by
  have named : BreaksFrom sources name := breaksFrom_of_unbroken plain
  have required : BreaksFrom sources constraint := breaksFrom_of_source source
  rw [acceptVersion]
  split
  · have quoted := breaksFrom_quotedOutput said
    exact .problem (List.forall_mem_cons.mpr ⟨named, List.forall_mem_cons.mpr
      ⟨quoted, List.forall_mem_singleton.mpr required⟩⟩)
  · next version found =>
    have quoted := said.of_subset (Version.subset_ofOutput? found)
    refine .bind (Version.reveals_satisfies source version) fun yes _ => ?_
    cases yes with
    | true => exact .ok version
    | false =>
      exact .problem (List.forall_mem_cons.mpr ⟨named, List.forall_mem_cons.mpr
        ⟨quoted, List.forall_mem_singleton.mpr required⟩⟩)

/-! ### Plugins -/

section
variable {b : Backend σ} {P : Problem → Prop} {plugins : List Value}

theorem reports_installMissing (each : ∀ plugin ∈ plugins, Step.Reports P (b.install plugin))
    (installed : List Value) : Step.Reports P (b.installMissing installed plugins) := by
  induction plugins generalizing installed with
  | nil => exact .pure []
  | cons plugin rest ih =>
    obtain ⟨here, later⟩ := List.forall_mem_cons.mp each
    rw [installMissing]
    split
    · exact fun _ => .fault .type
    · split
      · exact ih later installed
      · exact .bind here fun _ => .bind (ih later _) fun _ => .pure _

theorem reports_ensurePlugins (each : ∀ plugin ∈ plugins, Step.Reports P (b.install plugin)) :
    Step.Reports P (b.ensurePlugins plugins) := by
  rw [ensurePlugins]
  split
  · exact .pure []
  · refine .bind (.action b.installedPlugins) fun installed => ?_
    split
    · exact fun _ => .fault .type
    · exact reports_installMissing each installed

end

end Backend

namespace Vagrant

variable (v : Vagrant) {host : Host}

theorem breaksFrom_version
    (said : ∀ result rest, host.results = result :: rest → sources result.output) :
    BreaksFrom sources (v.backend.version host).1 := by
  change BreaksFrom sources (versionText (Host.run _ host).1)
  rw [Host.run]
  split
  · next result rest answers =>
    have whole : BreaksFrom sources result.output := breaksFrom_of_source (said result rest answers)
    rw [versionText]
    split
    · refine whole.of_subset ?_
      rw [strip, String.toList_ofList]
      exact subset_trim result.output.toList
    · exact breaksFrom_of_unbroken (by decide)
  · exact breaksFrom_of_unbroken (List.forall_mem_nil _)

/-- A plugin that the tool fails to install is reported with its name; the reason is one line. -/
theorem reports_install {plugin : String} (source : sources plugin) :
    Step.Reports (·.Traced sources) (v.backend.install (.str plugin)) := by
  intro host
  have named : BreaksFrom sources plugin := breaksFrom_of_source source
  obtain ⟨result, answered⟩ : ∃ result,
      (v.backend.installPlugin (.str plugin) host).1 = installResult plugin result := ⟨_, rfl⟩
  rcases ran : v.backend.installPlugin (.str plugin) host with ⟨failure | _, after⟩
  · rw [ran, installResult] at answered
    rw [Backend.install_of_error ran]
    split at answered
    · cases answered
    · obtain rfl := Except.error.inj answered
      have reason : BreaksFrom sources (installReason result) :=
        breaksFrom_of_unbroken (explains_installReason result).unbroken
      exact .problem (List.forall_mem_cons.mpr ⟨named, List.forall_mem_singleton.mpr reason⟩)
  · rw [Backend.install_of_ok ran]
    exact .ok ()

/-- Before a plan is handed over, the tool is reported with its version, the constraint and the
plugins that are required. -/
theorem reveals_prepare {settings : Settings} {d : Document}
    (said : ∀ result rest, host.results = result :: rest → sources result.output)
    (constraint : sources settings.versionConstraint) (plugins : ∀ p ∈ d.plugins, sources p) :
    Reveals (·.Traced sources) ((Run.prepare settings v.backend d).run host).1 := by
  have name : Unbroken "vagrant".toList := by decide +kernel
  have accepted : Reveals (·.Traced sources)
      ((v.backend.checkVersion settings.versionConstraint).run host).1 := by
    simp only [Backend.checkVersion, Step.run_bind, Step.run_action, Step.run_outcome]
    exact Backend.reveals_acceptVersion name (breaksFrom_version v said) constraint
  have installed : Step.Reports (·.Traced sources)
      (v.backend.ensurePlugins (d.plugins.map Value.str)) :=
    Backend.reports_ensurePlugins (List.forall_mem_map.mpr fun p member =>
      reports_install v (plugins p member))
  exact Step.reveals_run_bind accepted fun _ => Step.Reports.bind installed fun _ => .pure ()

theorem wordless_writePlan (nodes : List CompiledNode) (host : Host) :
    Wordless ((v.writePlan nodes).run host).1 := by
  rw [writePlan_run]
  cases planned : planValue nodes with
  | error failure => exact (wordless_planValue nodes).of_error planned
  | ok plan =>
    simp only
    cases made : host.files.makeDirectories v.planFile.parent with
    | error failure => exact (Files.wordless_makeDirectories _ _).of_error made
    | ok files =>
      simp only
      cases shown : textOfPlan plan with
      | error failure => exact (wordless_textOfPlan plan).of_error shown
      | ok text =>
        simp only
        cases wrote : files.writeText v.planFile text with
        | error failure => exact (Files.wordless_writeText _ _ _).of_error wrote
        | ok written => exact .ok ()

end Vagrant

end MachinePlan
