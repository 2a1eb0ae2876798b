import MachinePlan.Backend.Plugins
import MachinePlan.Backend.Scripted
import MachinePlan.Proofs.KeyEquality
import MachinePlan.Proofs.Outcome

/-!
# Which plugins are installed

What a scripted backend notes while the required plugins are installed: each one that it is asked to
install is required, missing, and asked for once, in the order in which they are required. This
holds however the installations end.
-/

namespace MachinePlan

open Value

/-- Some of the required plugins, asked for in order while those installed at first are known. -/
structure Installations (installed : List Value) (plugins asked : List String) : Prop where
  ordered : asked.Sublist plugins
  distinct : asked.Nodup
  missing : ∀ p ∈ asked, Backend.isInstalled (.str p) installed = false

namespace Installations

variable {installed : List Value} {plugins asked : List String} {p q : String}

theorem nil (installed : List Value) (plugins : List String) : Installations installed plugins [] :=
  ⟨List.nil_sublist plugins, List.nodup_nil, by simp⟩

/-- A plugin that is installed is passed over. -/
theorem skip (row : Installations installed plugins asked) (p : String) :
    Installations installed (p :: plugins) asked :=
  ⟨row.ordered.cons p, row.distinct, row.missing⟩

theorem isInstalled_append_eq_false :
    Backend.isInstalled (.str p) (installed ++ [.str q]) = false ↔
      Backend.isInstalled (.str p) installed = false ∧ p ≠ q := by
  rw [Backend.isInstalled, List.any_append, Bool.or_eq_false_iff]
  refine and_congr_right fun _ => ?_
  rw [List.any_cons, List.any_nil, Bool.or_false, ← Bool.not_eq_true, same_str, Value.str.injEq,
    eq_comm]

/-- A missing plugin is installed, and is known to be from then on. -/
theorem install (absent : Backend.isInstalled (.str p) installed = false)
    (row : Installations (installed ++ [.str p]) plugins asked) :
    Installations installed (p :: plugins) (p :: asked) := by
  have later : ∀ q ∈ asked, Backend.isInstalled (.str q) installed = false ∧ q ≠ p :=
    fun q member => isInstalled_append_eq_false.mp (row.missing q member)
  refine ⟨row.ordered.cons_cons p, ?_, ?_⟩
  · exact List.nodup_cons.mpr ⟨fun member => (later p member).2 rfl, row.distinct⟩
  · intro q member
    rcases List.mem_cons.mp member with rfl | member
    · exact absent
    · exact (later q member).1

end Installations

namespace BackendScript

variable (script : BackendScript) (past : List BackendEvent)

/-! ### What is noted -/

@[simp] theorem backend_version :
    script.backend.version past = (script.version, past ++ [.version]) := rfl

@[simp] theorem backend_installedPlugins :
    script.backend.installedPlugins past = (script.plugins, past ++ [.installedPlugins]) := rfl

@[simp] theorem backend_installPlugin (plugin : Value) :
    script.backend.installPlugin plugin past =
      (script.installResult plugin, past ++ [.installPlugin plugin]) := rfl

/-- The actions of installing plugins. -/
def installing (asked : List String) : List BackendEvent :=
  asked.map fun p => .installPlugin (.str p)

theorem install_run (p : String) :
    ∃ outcome, (script.backend.install (.str p)).run past =
      (outcome, past ++ [.installPlugin (.str p)]) := by
  simp only [Backend.install, Step.run_bind, Step.run_outcome, Value.text, Step.run_action,
    backend_installPlugin]
  cases script.installResult (.str p) with
  | error failure => exact ⟨.error (failure.failure p), by simp⟩
  | ok => exact ⟨.ok (), by simp⟩

/-- The row of installations that begins with the plugins installed so far. -/
theorem installMissing_run (plugins : List String) (installed : List Value) :
    ∃ outcome asked,
      (script.backend.installMissing installed (plugins.map .str)).run past =
        (outcome, past ++ installing asked) ∧ Installations installed plugins asked := by
  induction plugins generalizing installed past with
  | nil => exact ⟨.ok [], [], by simp [Backend.installMissing, installing], .nil installed []⟩
  | cons p plugins ih =>
    rw [List.map_cons, Backend.installMissing]
    cases found : Backend.isInstalled (.str p) installed with
    | true =>
      obtain ⟨outcome, asked, ran, row⟩ := ih past installed
      refine ⟨outcome, asked, ?_, row.skip p⟩
      simpa [Step.run_bind, isHashable] using ran
    | false =>
      obtain ⟨first, ran⟩ := script.install_run past p
      cases first with
      | error failure =>
        refine ⟨.error failure, [p], ?_, .install found (.nil _ plugins)⟩
        simp [Step.run_bind, isHashable, ran, installing]
      | ok =>
        obtain ⟨last, asked, ranRest, row⟩ :=
          ih (past ++ [.installPlugin (.str p)]) (installed ++ [.str p])
        refine ⟨last.map (.str p :: ·), p :: asked, ?_, .install found row⟩
        simp only [isHashable, Bool.not_true, Bool.false_eq_true, ↓reduceIte, Step.run_bind,
          Step.run_pure, ran, ranRest]
        cases last <;> simp [Except.map, installing]

/-- The backend is asked for its plugins only where some are required. -/
theorem ensurePlugins_run (plugins : List String) :
    ∃ outcome asked,
      (script.backend.ensurePlugins (plugins.map .str)).run past =
        (outcome, past ++
          ((if plugins.isEmpty then [] else [.installedPlugins]) ++ installing asked)) ∧
      Installations script.plugins plugins asked := by
  cases plugins with
  | nil => exact ⟨.ok [], [], by simp [Backend.ensurePlugins, installing], .nil _ []⟩
  | cons p plugins =>
    cases kinds : script.plugins.all isHashable with
    | false =>
      refine ⟨.error (.fault .type), [], ?_, .nil _ _⟩
      simp only [Backend.ensurePlugins, List.map_cons, List.isEmpty_cons, Bool.false_eq_true,
        ↓reduceIte, Step.run_bind, Step.run_action, backend_installedPlugins, kinds, Bool.not_false,
        Step.run_throw]
      simp [installing]
    | true =>
      obtain ⟨outcome, asked, ran, row⟩ :=
        script.installMissing_run (past ++ [.installedPlugins]) (p :: plugins) script.plugins
      refine ⟨outcome, asked, ?_, row⟩
      simp only [Backend.ensurePlugins, List.map_cons, List.isEmpty_cons, Bool.false_eq_true,
        ↓reduceIte, Step.run_bind, Step.run_action, backend_installedPlugins, kinds, Bool.not_true]
      rw [← List.map_cons, ran, List.append_assoc]

end BackendScript

end MachinePlan
