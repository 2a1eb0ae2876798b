import MachinePlan.Proofs.Backend.Noted

/-!
# Ensuring plugins

What a backend is asked for until it has every required plugin, whatever it has at first and
whichever of its installations fail: one question for its plugins, and then the installation of the
missing ones, each once and in the order in which they are required, up to the first that fails
(`ensurePlugins_minimal`).
-/

namespace MachinePlan.Backend

open Value

/-- How the failed installation of a plugin is told: in the words of the backend where it explains
the failure, and else by the plugin and the cause. -/
inductive Tells (plugin : String) : InstallFailure → PluginProblem → Prop
  | explained (problem : PluginProblem) : Tells plugin (.explained problem) problem
  | unexplained (cause : String) {problem : PluginProblem}
      (worded : problem.message = "Installation of plugin " ++ plugin ++ " failed: " ++ cause) :
      Tells plugin (.unexplained cause) problem

/-- The installation of the required plugins by a backend in a state. -/
structure Ensured {σ : Type} (b : Backend σ) (required : List String) (s : σ)
    (past : List BackendEvent) : Prop where
  /-- Where nothing is required, nothing is asked for. -/
  idle : required = [] →
    (b.noted.ensurePlugins (required.map .str)).run (s, past) = (.ok [], s, past)
  /-- The plugins to be installed are the required ones that are missing, each once. -/
  wanted : ∀ p, p ∈ toInstall (b.installedPlugins s).1 required ↔
    p ∈ required ∧ isInstalled (.str p) (b.installedPlugins s).1 = false
  distinct : (toInstall (b.installedPlugins s).1 required).Nodup
  /-- Their installations all succeed, or there is a first that fails. -/
  ended :
    (∃ u, b.Installs (toInstall (b.installedPlugins s).1 required) (b.installedPlugins s).2 u) ∨
    ∃ done p rest failure t u, toInstall (b.installedPlugins s).1 required = done ++ p :: rest ∧
      b.Installs done (b.installedPlugins s).2 t ∧
      b.installPlugin (.str p) t = (.error failure, u)
  completed : required ≠ [] → ∀ u,
    b.Installs (toInstall (b.installedPlugins s).1 required) (b.installedPlugins s).2 u →
    (b.noted.ensurePlugins (required.map .str)).run (s, past) =
      (.ok ((toInstall (b.installedPlugins s).1 required).map .str), u,
        past ++ .installedPlugins ::
          BackendScript.installing (toInstall (b.installedPlugins s).1 required))
  stopped : required ≠ [] → ∀ done p rest failure t u,
    toInstall (b.installedPlugins s).1 required = done ++ p :: rest →
    b.Installs done (b.installedPlugins s).2 t →
    b.installPlugin (.str p) t = (.error failure, u) →
    ∃ problem, Tells p failure problem ∧
      (b.noted.ensurePlugins (required.map .str)).run (s, past) =
        (.error (.problem (.plugin problem)), u,
          past ++ .installedPlugins :: BackendScript.installing (done ++ [p]))
  /-- A backend that reports the installed plugins as well is asked for no other installation. -/
  settled : ∀ t later,
    (∀ plugin, plugin ∈ (b.installedPlugins t).1 ↔ plugin ∈ (b.installedPlugins s).1 ∨
      plugin ∈ (toInstall (b.installedPlugins s).1 required).map .str) →
    ∃ u, (b.noted.ensurePlugins (required.map .str)).run (t, later) =
      (.ok [], u, later ++ asking required)

section
variable {σ : Type} {b : Backend σ} {required done rest : List String} {p : String} {s t u : σ}
  {failure : InstallFailure} {installed reported : List Value}

theorem exists_tells (p : String) (failure : InstallFailure) :
    ∃ problem, failure.failure p = .problem (.plugin problem) ∧ Tells p failure problem := by
  cases failure with
  | explained problem => exact ⟨problem, rfl, .explained problem⟩
  | unexplained cause => exact ⟨.failed p cause, rfl, .unexplained cause rfl⟩

theorem isInstalled_iff_mem : isInstalled (.str p) installed = true ↔ Value.str p ∈ installed := by
  rw [isInstalled, List.any_eq_true]
  constructor
  · rintro ⟨other, member, same⟩
    rwa [(same_str other p).mp same] at member
  · intro member
    exact ⟨.str p, member, (same_str (.str p) p).mpr rfl⟩

theorem ensurePlugins_of_stop (some : required ≠ [])
    (hashable : (b.installedPlugins s).1.all isHashable = true)
    (wanted : toInstall (b.installedPlugins s).1 required = done ++ p :: rest)
    (row : b.Installs done (b.installedPlugins s).2 t)
    (failed : b.installPlugin (.str p) t = (.error failure, u)) (past : List BackendEvent) :
    (b.noted.ensurePlugins (required.map .str)).run (s, past) =
      (.error (failure.failure p), u,
        past ++ .installedPlugins :: BackendScript.installing (done ++ [p])) := by
  rw [ensurePlugins_of_hashable some hashable, wanted, Step.run_bind, row.noted_stop failed]
  simp

/-- Plugins that are reported beside those of before can be gathered in a set, and every required one
is among them. -/
theorem reported_of_settled (hashable : installed.all isHashable = true)
    (settled : ∀ plugin, plugin ∈ reported ↔
      plugin ∈ installed ∨ plugin ∈ (toInstall installed required).map .str) :
    reported.all isHashable = true ∧ ∀ p ∈ required, isInstalled (.str p) reported = true := by
  constructor
  · rw [List.all_eq_true] at hashable ⊢
    intro plugin member
    rcases (settled plugin).mp member with before | new
    · exact hashable plugin before
    · obtain ⟨p, _, rfl⟩ := List.mem_map.mp new
      rfl
  · intro p member
    rw [isInstalled_iff_mem, settled]
    cases found : isInstalled (.str p) installed with
    | true => exact .inl (isInstalled_iff_mem.mp found)
    | false => exact .inr (List.mem_map_of_mem (mem_toInstall.mpr ⟨member, found⟩))

end

/-- No plugin is installed that need not be, none twice, and none behind a failure. -/
theorem ensurePlugins_minimal {σ : Type} (b : Backend σ) (required : List String) (s : σ)
    (past : List BackendEvent) (hashable : (b.installedPlugins s).1.all isHashable = true) :
    Ensured b required s past where
  idle := by
    rintro rfl
    rfl
  wanted := fun _ => mem_toInstall
  distinct := nodup_toInstall _ required
  ended := b.installs_or_stops _ _
  completed := fun some _ row => ensurePlugins_of_installs some hashable row past
  stopped := by
    intro some done p rest failure t u wanted row failed
    obtain ⟨problem, told, tells⟩ := exists_tells p failure
    have ran := ensurePlugins_of_stop some hashable wanted row failed past
    exact ⟨problem, tells, told ▸ ran⟩
  settled := by
    intro t later settled
    obtain ⟨gathered, present⟩ := reported_of_settled hashable settled
    exact ensurePlugins_of_reported gathered present later

/-- A backend that has one of three plugins and fails to install another. -/
theorem ensurePlugins_minimal_failing :
    let b := BackendScript.backend
      ⟨"fake", "2.4", [.str "env"], [(.str "vbguest", .unexplained "disk full")]⟩
    (b.installedPlugins []).1.all isHashable = true ∧
      Ensured b ["disksize", "env", "disksize", "vbguest"] [] [] := by
  intro b
  have hashable : (b.installedPlugins []).1.all isHashable = true := by decide
  exact ⟨hashable, ensurePlugins_minimal b _ [] [] hashable⟩

end MachinePlan.Backend
