import MachinePlan.Backend.Version
import MachinePlan.Proofs.Backend.Installing

/-!
# Watching a backend

A backend whose actions are noted while it carries them out. For a backend that always says the same
about itself (`Steady`), the questions have known answers, and the row of installations is known as
well where none of them fails (`ensurePlugins_noted`).
-/

namespace MachinePlan.Backend

open Value

/-- An action that is noted behind those before it. -/
def noting {σ α : Type} (event : BackendEvent) (action : StateM σ α) :
    StateM (σ × List BackendEvent) α :=
  fun (s, past) => ((action s).1, (action s).2, past ++ [event])

/-- The backend, with everything that it is asked for noted. -/
def noted {σ : Type} (b : Backend σ) : Backend (σ × List BackendEvent) where
  name := b.name
  version := noting .version b.version
  installedPlugins := noting .installedPlugins b.installedPlugins
  installPlugin plugin := noting (.installPlugin plugin) (b.installPlugin plugin)
  apply nodes := ExceptT.mk (noting (.apply (nodes.map CompiledNode.name)) (b.apply nodes).run)

/-- A backend that says the same about itself whenever it is asked. -/
structure Steady {σ : Type} (b : Backend σ) (version : String) (plugins : List Value) : Prop where
  version_eq : ∀ s, (b.version s).1 = version
  plugins_eq : ∀ s, (b.installedPlugins s).1 = plugins
  /-- What it reports as plugins can be gathered in a set. -/
  hashable : plugins.all isHashable = true

/-- A backend that installs whatever it is asked for. -/
def Willing {σ : Type} (b : Backend σ) : Prop := ∀ plugin s, (b.installPlugin plugin s).1 = .ok ()

/-- The required plugins that are not among those installed. -/
def missing (installed : List Value) (plugins : List String) : List String :=
  plugins.filter fun p => !isInstalled (.str p) installed

/-- The plugins that are to be installed: the missing ones, each at its first place. -/
def toInstall (installed : List Value) (plugins : List String) : List String :=
  (missing installed plugins).eraseDups

def installEach {σ : Type} (b : Backend σ) : List String → Step σ Unit
  | [] => return ()
  | p :: ps => do
    b.install (.str p)
    b.installEach ps

/-- Plugins are installed one after another, and none of the installations fails. -/
inductive Installs {σ : Type} (b : Backend σ) : List String → σ → σ → Prop
  | nil (s : σ) : Installs b [] s s
  | cons {p : String} {ps : List String} {s t u : σ}
      (first : b.installPlugin (.str p) s = (.ok (), t)) (rest : Installs b ps t u) :
      Installs b (p :: ps) s u

/-- The question for the plugins, which is put only where some are required. -/
def asking (plugins : List String) : List BackendEvent :=
  if plugins.isEmpty then [] else [.installedPlugins]

section
variable {σ : Type} {b : Backend σ} {version constraint : String} {plugins installed : List Value}
  {required done rest : List String} {p : String} {s t u : σ} {failure : InstallFailure}

theorem missing_cons_of_installed (there : isInstalled (.str p) installed = true) :
    missing installed (p :: required) = missing installed required := by
  simp [missing, there]

theorem missing_cons_of_absent (absent : isInstalled (.str p) installed = false) :
    missing installed (p :: required) = p :: missing installed required := by
  simp [missing, absent]

theorem missing_eq_nil_iff :
    missing installed required = [] ↔ ∀ p ∈ required, isInstalled (.str p) installed = true := by
  simp [missing]

/-- Once a plugin is installed, it is missing no more. -/
theorem missing_append (installed : List Value) (p : String) (required : List String) :
    missing (installed ++ [.str p]) required = (missing installed required).filter (· != p) := by
  rw [missing, missing, List.filter_filter]
  refine List.filter_congr fun q _ => ?_
  rw [Bool.eq_iff_iff, Bool.and_eq_true, Bool.not_eq_true', Bool.not_eq_true',
    Installations.isInstalled_append_eq_false, and_comm]
  simp

theorem checkVersion_noted (steady : b.Steady version plugins) (constraint : String) (s : σ)
    (past : List BackendEvent) :
    ∃ t, (b.noted.checkVersion constraint).run (s, past) =
      (acceptVersion b.name version constraint, t, past ++ [.version]) := by
  refine ⟨(b.version s).2, ?_⟩
  have answer : b.noted.version (s, past) = (version, (b.version s).2, past ++ [.version]) := by
    rw [← steady.version_eq s]
    rfl
  simp only [checkVersion, Step.run_bind, Step.run_action, Step.run_outcome, answer]
  rfl

theorem checkVersion_steady (steady : b.Steady version plugins) (s : σ) :
    ((b.checkVersion constraint).run s).1 = acceptVersion b.name version constraint := by
  simp only [checkVersion, Step.run_bind, Step.run_action, Step.run_outcome, steady.version_eq s]

theorem installedPlugins_noted (steady : b.Steady version plugins) (s : σ)
    (past : List BackendEvent) :
    b.noted.installedPlugins (s, past) =
      (plugins, (b.installedPlugins s).2, past ++ [.installedPlugins]) := by
  rw [← steady.plugins_eq s]
  rfl

theorem toInstall_cons_of_installed (there : isInstalled (.str p) installed = true) :
    toInstall installed (p :: required) = toInstall installed required := by
  rw [toInstall, missing_cons_of_installed there, toInstall]

theorem toInstall_cons_of_absent (absent : isInstalled (.str p) installed = false) :
    toInstall installed (p :: required) = p :: toInstall (installed ++ [.str p]) required := by
  rw [toInstall, missing_cons_of_absent absent, List.eraseDups_cons, toInstall, missing_append]
  rfl

theorem mem_toInstall :
    p ∈ toInstall installed required ↔ p ∈ required ∧ isInstalled (.str p) installed = false := by
  simp [toInstall, missing]

theorem nodup_toInstall (installed : List Value) (required : List String) :
    (toInstall installed required).Nodup := by
  induction required generalizing installed with
  | nil => exact List.nodup_nil
  | cons p required ih =>
    cases found : isInstalled (.str p) installed with
    | true =>
      rw [toInstall_cons_of_installed found]
      exact ih installed
    | false =>
      have known : p ∉ toInstall (installed ++ [.str p]) required := by
        intro member
        have absent := (mem_toInstall.mp member).2
        exact (Installations.isInstalled_append_eq_false.mp absent).2 rfl
      rw [toInstall_cons_of_absent found]
      exact List.nodup_cons.mpr ⟨known, ih (installed ++ [.str p])⟩

/-! ### The row of installations -/

theorem installMissing_eq (b : Backend σ) (required : List String) (installed : List Value) :
    b.installMissing installed (required.map .str) = do
      b.installEach (toInstall installed required)
      return (toInstall installed required).map .str := by
  induction required generalizing installed with
  | nil => rfl
  | cons p required ih =>
    rw [List.map_cons, installMissing, if_neg (by simp [isHashable])]
    cases found : isInstalled (.str p) installed with
    | true =>
      rw [if_pos rfl, toInstall_cons_of_installed found]
      exact ih installed
    | false =>
      rw [if_neg (by simp), ih, toInstall_cons_of_absent found, installEach]
      simp

theorem install_of_ok (installed : b.installPlugin (.str p) s = (.ok (), t)) :
    (b.install (.str p)).run s = (.ok (), t) := by
  simp only [install, Step.run_bind, Step.run_outcome, Value.text, Step.run_action, installed,
    Step.run_pure]

theorem install_of_error (failed : b.installPlugin (.str p) s = (.error failure, t)) :
    (b.install (.str p)).run s = (.error (failure.failure p), t) := by
  simp only [install, Step.run_bind, Step.run_outcome, Value.text, Step.run_action, failed,
    Step.run_throw]

theorem installPlugin_noted (b : Backend σ) (plugin : Value) (s : σ) (past : List BackendEvent) :
    b.noted.installPlugin plugin (s, past) =
      ((b.installPlugin plugin s).1, (b.installPlugin plugin s).2,
        past ++ [.installPlugin plugin]) := rfl

theorem Installs.noted (row : b.Installs done s u) (past : List BackendEvent) :
    (b.noted.installEach done).run (s, past) =
      (.ok (), u, past ++ BackendScript.installing done) := by
  induction row generalizing past with
  | nil => simp [installEach, BackendScript.installing]
  | @cons p ps s t u first _ ih =>
    have here : (b.noted.install (.str p)).run (s, past) =
        (.ok (), t, past ++ [.installPlugin (.str p)]) :=
      install_of_ok (by rw [installPlugin_noted, first])
    rw [installEach, Step.run_bind, here]
    simp [ih, BackendScript.installing]

/-- The first failed installation ends the row. -/
theorem Installs.noted_stop (row : b.Installs done s t)
    (failed : b.installPlugin (.str p) t = (.error failure, u)) (rest : List String)
    (past : List BackendEvent) :
    (b.noted.installEach (done ++ p :: rest)).run (s, past) =
      (.error (failure.failure p), u, past ++ BackendScript.installing (done ++ [p])) := by
  induction row generalizing past with
  | nil s =>
    have here : (b.noted.install (.str p)).run (s, past) =
        (.error (failure.failure p), u, past ++ [.installPlugin (.str p)]) :=
      install_of_error (by rw [installPlugin_noted, failed])
    rw [List.nil_append, installEach, Step.run_bind, here]
    rfl
  | @cons q qs s t _ first _ ih =>
    have here : (b.noted.install (.str q)).run (s, past) =
        (.ok (), t, past ++ [.installPlugin (.str q)]) :=
      install_of_ok (by rw [installPlugin_noted, first])
    rw [List.cons_append, installEach, Step.run_bind, here]
    simp [ih failed, BackendScript.installing]

/-- A row of installations comes to its end, or to the first one that fails. -/
theorem installs_or_stops (b : Backend σ) (ps : List String) (s : σ) :
    (∃ u, b.Installs ps s u) ∨ ∃ done p rest failure t u, ps = done ++ p :: rest ∧
      b.Installs done s t ∧ b.installPlugin (.str p) t = (.error failure, u) := by
  induction ps generalizing s with
  | nil => exact .inl ⟨s, .nil s⟩
  | cons p ps ih =>
    rcases ran : b.installPlugin (.str p) s with ⟨failure | _, t⟩
    · exact .inr ⟨[], p, ps, failure, s, t, rfl, .nil s, ran⟩
    · rcases ih t with ⟨u, row⟩ | ⟨done, q, rest, failure, u, v, rfl, row, failed⟩
      · exact .inl ⟨u, .cons ran row⟩
      · exact .inr ⟨p :: done, q, rest, failure, u, v, rfl, .cons ran row, failed⟩

theorem Willing.installs (willing : b.Willing) (ps : List String) (s : σ) :
    ∃ u, b.Installs ps s u := by
  rcases b.installs_or_stops ps s with row | ⟨_, p, _, failure, t, u, _, _, failed⟩
  · exact row
  · have installed := willing (.str p) t
    rw [failed] at installed
    cases installed

/-! ### Required plugins -/

/-- A backend that is asked for its plugins is then asked for those that are to be installed. -/
theorem ensurePlugins_of_hashable (some : required ≠ [])
    (hashable : (b.installedPlugins s).1.all isHashable = true) (past : List BackendEvent) :
    (b.noted.ensurePlugins (required.map .str)).run (s, past) =
      (do
        b.noted.installEach (toInstall (b.installedPlugins s).1 required)
        return (toInstall (b.installedPlugins s).1 required).map .str :
          Step (σ × List BackendEvent) (List Value)).run
        ((b.installedPlugins s).2, past ++ [.installedPlugins]) := by
  obtain ⟨p, required, rfl⟩ := List.exists_cons_of_ne_nil some
  have answer : b.noted.installedPlugins (s, past) =
      ((b.installedPlugins s).1, (b.installedPlugins s).2, past ++ [.installedPlugins]) := rfl
  rw [← installMissing_eq, ensurePlugins, List.map_cons, List.isEmpty_cons, if_neg (by simp)]
  simp only [Step.run_bind, Step.run_action, answer, hashable, Bool.not_true, Bool.false_eq_true,
    if_false]

/-- A backend that reports every required plugin is only asked for its plugins. -/
theorem ensurePlugins_of_reported (hashable : (b.installedPlugins s).1.all isHashable = true)
    (present : ∀ p ∈ required, isInstalled (.str p) (b.installedPlugins s).1 = true)
    (past : List BackendEvent) :
    ∃ t, (b.noted.ensurePlugins (required.map .str)).run (s, past) =
      (.ok [], t, past ++ asking required) := by
  by_cases none : required = []
  · subst none
    exact ⟨s, by simp [ensurePlugins, asking]⟩
  · have nothing : toInstall (b.installedPlugins s).1 required = [] := by
      rw [toInstall, missing_eq_nil_iff.mpr present]
      rfl
    refine ⟨(b.installedPlugins s).2, ?_⟩
    rw [ensurePlugins_of_hashable none hashable, nothing, asking, if_neg (by simpa using none)]
    rfl

theorem ensurePlugins_of_installs (some : required ≠ [])
    (hashable : (b.installedPlugins s).1.all isHashable = true)
    (row : b.Installs (toInstall (b.installedPlugins s).1 required) (b.installedPlugins s).2 u)
    (past : List BackendEvent) :
    (b.noted.ensurePlugins (required.map .str)).run (s, past) =
      (.ok ((toInstall (b.installedPlugins s).1 required).map .str), u,
        past ++ .installedPlugins ::
          BackendScript.installing (toInstall (b.installedPlugins s).1 required)) := by
  rw [ensurePlugins_of_hashable some hashable, Step.run_bind, row.noted]
  simp

/-- A steady backend is asked for its plugins at most once, and a willing one installs those that
are missing. -/
theorem ensurePlugins_noted (steady : b.Steady version plugins) (willing : b.Willing)
    (required : List String) (s : σ) (past : List BackendEvent) :
    ∃ t, (b.noted.ensurePlugins (required.map .str)).run (s, past) =
      (.ok ((missing plugins required).eraseDups.map .str), t,
        past ++ (asking required ++
          BackendScript.installing (missing plugins required).eraseDups)) := by
  by_cases none : required = []
  · subst none
    exact ⟨s, by simp [ensurePlugins, missing, asking, BackendScript.installing]⟩
  · have hashable := steady.hashable
    rw [← steady.plugins_eq s] at hashable
    obtain ⟨u, row⟩ := willing.installs (toInstall (b.installedPlugins s).1 required)
      (b.installedPlugins s).2
    refine ⟨u, ?_⟩
    rw [ensurePlugins_of_installs none hashable row, steady.plugins_eq s, asking,
      if_neg (by simpa using none)]
    rfl

theorem ensurePlugins_of_present (steady : b.Steady version plugins)
    (present : ∀ p ∈ required, isInstalled (.str p) plugins = true) (s : σ)
    (past : List BackendEvent) :
    ∃ t, (b.noted.ensurePlugins (required.map .str)).run (s, past) =
      (.ok [], t, past ++ asking required) := by
  refine ensurePlugins_of_reported ?_ ?_ past
  · rw [steady.plugins_eq s]
    exact steady.hashable
  · rwa [steady.plugins_eq s]

end

end MachinePlan.Backend
