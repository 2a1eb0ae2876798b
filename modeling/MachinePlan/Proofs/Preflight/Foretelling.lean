import MachinePlan.Files.Change
import MachinePlan.Proofs.Preflight.Views

/-!
# What the checks foretell

The checks before a run and the run itself look at the same things in different ways: the checks
collect what is wrong and go on, the run stops at the first problem and installs what is missing.
For a backend that always says the same about itself, the checks succeed exactly when the run would
come through its preparation without installing anything, and what they list is what the run would
complain about or install (`checks_foretell_run`).
-/

namespace MachinePlan.Preflight

open Value

/-- The questions behind an outcome: for the version, and then perhaps for the plugins. Where there
is no outcome to report, there may be none. -/
def Questions (outcome : Except Failure Report) (asked : List BackendEvent) : Prop :=
  (asked = [] ∧ ∀ report, outcome ≠ .ok report) ∨ asked = [.version] ∨
    asked = [.version, .installedPlugins]

/-- What the checks say about a run of the same settings over the same files. -/
structure Foretells {σ : Type} (settings : Settings) (fs : Files) (b : Backend σ) (version : String)
    (plugins : List Value) (outcome : Except Failure Report) (asked : List BackendEvent) : Prop where
  /-- Success: the document loads, the version is accepted and every plugin is there. -/
  succeeds_iff : (∃ report, outcome = .ok report ∧ report.succeeded = true) ↔
    ∃ d, Run.load settings fs = .ok d ∧
      (∃ v, ∀ s, ((b.checkVersion settings.versionConstraint).run s).1 = .ok v) ∧
      ∀ p ∈ d.plugins, Backend.isInstalled (.str p) plugins = true
  /-- A run is then prepared without a failure, and nothing is installed on the way. -/
  prepared : (∃ report, outcome = .ok report ∧ report.succeeded = true) →
    ∃ d, Run.load settings fs = .ok d ∧ ∀ s past, ∃ t questions,
      (Run.prepare settings b.noted d).run (s, past) = (.ok (), t, past ++ questions) ∧
        ∀ p, .installPlugin p ∉ questions
  /-- There is a report unless the document or the version breaks off with a fault. -/
  reported_iff : (∃ report, outcome = .ok report) ↔
    (∀ failure, Run.load settings fs = .error failure → ∃ problem, failure = .config problem) ∧
      ∀ s fault, ((b.checkVersion settings.versionConstraint).run s).1 ≠ .error (.fault fault)
  /-- The problem that the run would stop with is the one item of its category. -/
  refused : ∀ report problem, outcome = .ok report →
    Run.load settings fs = .error (.config problem) →
    ∃ item, report.config.failed = [item] ∧ Reports item problem
  /-- The plugins that are listed are those that a willing backend would be asked to install. -/
  listed : ∀ report d, outcome = .ok report →
    Document.load fs settings.configFile (some settings.localConfigFile) = .ok d →
    ∃ missing : List String, report.plugins.failed = missing.map missingItem ∧
      ∀ {τ : Type} (w : Backend τ), w.Steady version plugins → w.Willing → ∀ s past, ∃ t,
        (w.noted.ensurePlugins (d.plugins.map .str)).run (s, past) =
          (.ok (missing.eraseDups.map .str), t,
            past ++ (Backend.asking d.plugins ++ BackendScript.installing missing.eraseDups))
  /-- Without a document no plugin is listed. -/
  unlisted : ∀ report failure, outcome = .ok report →
    Document.load fs settings.configFile (some settings.localConfigFile) = .error failure →
    report.plugins.failed = []
  /-- The backend is asked for nothing else than these. -/
  questions : Questions outcome asked

/-- What the checks without boxes come to, given what the backend says about itself. -/
def verdict (settings : Settings) (fs : Files) (name version : String) (plugins : List Value) :
    Except Failure Report := do
  let (document, config) ← checkConfig settings fs
  let backend ← versionChecks name settings.versionConstraint
    (Backend.acceptVersion name version settings.versionConstraint)
  return { config, backend, plugins := pluginChecks plugins ((document.map (·.plugins)).getD []) }

/-! ### The verdict -/

section
variable {settings : Settings} {fs : Files} {name version : String} {plugins : List Value}
  {report : Report} {d : Document} {problem : ConfigProblem} {failure : Failure}

theorem verdict_eq_ok : verdict settings fs name version plugins = .ok report ↔
    ∃ document config backend, checkConfig settings fs = .ok (document, config) ∧
      versionChecks name settings.versionConstraint
        (Backend.acceptVersion name version settings.versionConstraint) = .ok backend ∧
      report = ⟨config, backend, pluginChecks plugins ((document.map (·.plugins)).getD []), {}⟩ := by
  rw [verdict, bind_eq_ok]
  constructor
  · rintro ⟨⟨document, config⟩, found, rest⟩
    obtain ⟨backend, checked, made⟩ := bind_eq_ok.mp rest
    exact ⟨document, config, backend, found, checked, (Except.ok.inj made).symm⟩
  · rintro ⟨document, config, backend, found, checked, rfl⟩
    exact ⟨(document, config), found, bind_eq_ok.mpr ⟨backend, checked, rfl⟩⟩

theorem verdict_succeeds_iff :
    (∃ report, verdict settings fs name version plugins = .ok report ∧ report.succeeded = true) ↔
      ∃ d, Run.load settings fs = .ok d ∧
        (∃ v, Backend.acceptVersion name version settings.versionConstraint = .ok v) ∧
        ∀ p ∈ d.plugins, Backend.isInstalled (.str p) plugins = true := by
  constructor
  · rintro ⟨report, made, succeeded⟩
    obtain ⟨document, config, backend, found, accepted, rfl⟩ := verdict_eq_ok.mp made
    obtain ⟨configFine, backendFine, pluginsFine, -⟩ := succeeded_iff.mp succeeded
    have version : ∃ v, Backend.acceptVersion name version settings.versionConstraint = .ok v := by
      cases versionView name version settings.versionConstraint with
      | accepted v _ run => exact ⟨v, run⟩
      | refused _ checks _ checked failed =>
        obtain rfl := Except.ok.inj (checked.symm.trans accepted)
        exact absurd backendFine failed
      | broken _ _ checked => cases checked.symm.trans accepted
    cases configView settings fs with
    | sound d loaded run checked failed =>
      obtain ⟨rfl, rfl⟩ := Prod.mk.inj (Except.ok.inj (checked.symm.trans found))
      refine ⟨d, run, version, Backend.missing_eq_nil_iff.mp ?_⟩
      rw [failed_pluginChecks] at pluginsFine
      exact List.map_eq_nil_iff.mp pluginsFine
    | withoutNodes d _ _ loaded run checked failed =>
      obtain ⟨rfl, rfl⟩ := Prod.mk.inj (Except.ok.inj (checked.symm.trans found))
      cases failed.symm.trans configFine
    | refused _ _ _ checked =>
      obtain ⟨rfl, rfl⟩ := Prod.mk.inj (Except.ok.inj (checked.symm.trans found))
      cases configFine
    | broken _ _ _ _ checked => cases checked.symm.trans found
  · rintro ⟨d, loaded, ⟨v, accepted⟩, present⟩
    cases versionView name version settings.versionConstraint with
    | accepted _ backend _ backendChecked backendFine =>
      cases configView settings fs with
      | sound _ _ run checked failed =>
        obtain rfl := Except.ok.inj (run.symm.trans loaded)
        refine ⟨_, verdict_eq_ok.mpr ⟨_, _, backend, checked, backendChecked, rfl⟩,
          succeeded_iff.mpr ⟨failed, backendFine, ?_, rfl⟩⟩
        rw [failed_pluginChecks]
        exact List.map_eq_nil_iff.mpr (Backend.missing_eq_nil_iff.mpr present)
      | withoutNodes _ _ _ _ run => cases run.symm.trans loaded
      | refused _ _ run => cases run.symm.trans loaded
      | broken _ _ _ run => cases run.symm.trans loaded
    | refused _ _ run => cases run.symm.trans accepted
    | broken _ run => cases run.symm.trans accepted

theorem verdict_reported_iff :
    (∃ report, verdict settings fs name version plugins = .ok report) ↔
      (∀ failure, Run.load settings fs = .error failure → ∃ problem, failure = .config problem) ∧
        ∀ fault, Backend.acceptVersion name version settings.versionConstraint ≠
          .error (.fault fault) := by
  constructor
  · rintro ⟨report, made⟩
    obtain ⟨document, config, backend, found, accepted, -⟩ := verdict_eq_ok.mp made
    constructor
    · intro failure stopped
      cases configView settings fs with
      | sound _ _ run => cases run.symm.trans stopped
      | withoutNodes _ problem _ _ run =>
        exact ⟨problem, (Except.error.inj (run.symm.trans stopped)).symm⟩
      | refused problem _ run =>
        exact ⟨problem, (Except.error.inj (run.symm.trans stopped)).symm⟩
      | broken _ _ _ _ checked => cases checked.symm.trans found
    · intro fault run
      rw [run] at accepted
      cases accepted
  · rintro ⟨own, faultless⟩
    have backend : ∃ backend, versionChecks name settings.versionConstraint
        (Backend.acceptVersion name version settings.versionConstraint) = .ok backend := by
      cases versionView name version settings.versionConstraint with
      | accepted _ checks _ checked => exact ⟨checks, checked⟩
      | refused _ checks _ checked => exact ⟨checks, checked⟩
      | broken fault run => exact absurd run (faultless fault)
    have config : ∃ found, checkConfig settings fs = .ok found := by
      cases configView settings fs with
      | sound _ _ _ checked => exact ⟨_, checked⟩
      | withoutNodes _ _ _ _ _ checked => exact ⟨_, checked⟩
      | refused _ _ _ checked => exact ⟨_, checked⟩
      | broken failure foreign _ run =>
        obtain ⟨problem, rfl⟩ := own failure run
        exact absurd rfl (foreign problem)
    obtain ⟨backend, accepted⟩ := backend
    obtain ⟨⟨document, config⟩, found⟩ := config
    exact ⟨_, verdict_eq_ok.mpr ⟨document, config, backend, found, accepted, rfl⟩⟩

theorem refused_of_verdict (made : verdict settings fs name version plugins = .ok report)
    (stopped : Run.load settings fs = .error (.config problem)) :
    ∃ item, report.config.failed = [item] ∧ Reports item problem := by
  obtain ⟨document, config, backend, found, -, rfl⟩ := verdict_eq_ok.mp made
  cases configView settings fs with
  | sound _ _ run => cases run.symm.trans stopped
  | withoutNodes d wrong item _ run checked failed reports =>
    obtain ⟨rfl, rfl⟩ := Prod.mk.inj (Except.ok.inj (checked.symm.trans found))
    cases run.symm.trans stopped
    exact ⟨item, failed, reports⟩
  | refused wrong _ run checked =>
    obtain ⟨rfl, rfl⟩ := Prod.mk.inj (Except.ok.inj (checked.symm.trans found))
    cases run.symm.trans stopped
    exact ⟨problem.message, rfl, .inl rfl⟩
  | broken failure foreign _ run =>
    exact absurd (Except.error.inj (run.symm.trans stopped)) (foreign problem)

theorem listed_of_verdict (made : verdict settings fs name version plugins = .ok report)
    (loaded : Document.load fs settings.configFile (some settings.localConfigFile) = .ok d) :
    report.plugins.failed = (Backend.missing plugins d.plugins).map missingItem := by
  obtain ⟨document, config, backend, found, -, rfl⟩ := verdict_eq_ok.mp made
  rw [checkConfig, loaded] at found
  obtain ⟨rfl, -⟩ := Prod.mk.inj (Except.ok.inj found)
  exact failed_pluginChecks plugins d.plugins

theorem unlisted_of_verdict (made : verdict settings fs name version plugins = .ok report)
    (unloaded : Document.load fs settings.configFile (some settings.localConfigFile) =
      .error failure) : report.plugins.failed = [] := by
  obtain ⟨document, config, backend, found, -, rfl⟩ := verdict_eq_ok.mp made
  cases configView settings fs with
  | sound _ loaded => cases loaded.symm.trans unloaded
  | withoutNodes _ _ _ loaded => cases loaded.symm.trans unloaded
  | refused _ _ _ checked =>
    obtain ⟨rfl, -⟩ := Prod.mk.inj (Except.ok.inj (checked.symm.trans found))
    rfl
  | broken _ _ _ _ checked => cases checked.symm.trans found

end

/-! ### Running the checks -/

section
variable {σ : Type} {b : Backend σ} {settings : Settings} {fs : Files} {version : String}
  {plugins : List Value}

theorem checkBackend_noted (steady : b.Steady version plugins) (constraint : String) (s : σ)
    (past : List BackendEvent) :
    ∃ t, (checkBackend b.noted constraint).run (s, past) =
      (versionChecks b.name constraint (Backend.acceptVersion b.name version constraint), t,
        past ++ [.version]) := by
  refine ⟨(b.version s).2, ?_⟩
  have answer : b.noted.version (s, past) = (version, (b.version s).2, past ++ [.version]) := by
    rw [← steady.version_eq s]
    rfl
  simp only [checkBackend, Step.run_bind, Step.run_action, Step.run_outcome, answer]
  rfl

theorem checkPlugins_noted (steady : b.Steady version plugins) (document : Option Document) (s : σ)
    (past : List BackendEvent) :
    ∃ t, (checkPlugins b.noted document).run (s, past) =
      (.ok (pluginChecks plugins ((document.map (·.plugins)).getD [])), t,
        past ++ Backend.asking ((document.map (·.plugins)).getD [])) := by
  cases document with
  | none => exact ⟨s, by simp [checkPlugins, Backend.asking, pluginChecks]⟩
  | some d =>
    rw [checkPlugins, Option.map_some, Option.getD_some]
    cases required : d.plugins with
    | nil => exact ⟨s, by simp [Backend.asking, pluginChecks]⟩
    | cons p rest =>
      refine ⟨(b.installedPlugins s).2, ?_⟩
      simp only [List.isEmpty_cons, Bool.false_eq_true, if_false, Step.run_bind, Step.run_action,
        Backend.installedPlugins_noted steady, steady.hashable, Bool.not_true, Step.run_pure,
        Backend.asking]

theorem asking_eq (required : List String) :
    Backend.asking required = [] ∨ Backend.asking required = [.installedPlugins] := by
  unfold Backend.asking
  split
  · exact .inl rfl
  · exact .inr rfl

/-- The checks ask for the version unless the configuration breaks off, and then for the plugins
unless the version breaks off. -/
theorem checkTools_noted (steady : b.Steady version plugins) (settings : Settings) (fs : Files)
    (s : σ) (past : List BackendEvent) :
    ∃ outcome t asked, (checkTools settings fs b.noted).run (s, past) = (outcome, t, past ++ asked) ∧
      outcome.map Prod.snd = verdict settings fs b.name version plugins ∧
      Questions (verdict settings fs b.name version plugins) asked := by
  rw [checkTools, verdict]
  cases checkConfig settings fs with
  | error failure => exact ⟨.error failure, s, [], by simp [Step.run_bind], rfl, .inl ⟨rfl, nofun⟩⟩
  | ok found =>
    obtain ⟨document, config⟩ := found
    obtain ⟨t, ran⟩ := checkBackend_noted steady settings.versionConstraint s past
    simp only [Step.run_bind, Step.run_outcome, ran]
    cases versionChecks b.name settings.versionConstraint
        (Backend.acceptVersion b.name version settings.versionConstraint) with
    | error failure => exact ⟨.error failure, t, [.version], rfl, rfl, .inr (.inl rfl)⟩
    | ok backend =>
      obtain ⟨u, ran⟩ := checkPlugins_noted steady document t (past ++ [.version])
      refine ⟨.ok (document, _), u, .version :: Backend.asking ((document.map (·.plugins)).getD []),
        ?_, rfl, ?_⟩
      · simp only [ran, Step.run_pure, List.append_assoc, List.singleton_append]
      · rcases asking_eq ((document.map (·.plugins)).getD []) with asked | asked
        · rw [asked]
          exact .inr (.inl rfl)
        · rw [asked]
          exact .inr (.inr rfl)

theorem run_noted (steady : b.Steady version plugins) (settings : Settings) (fs : Files)
    (network : String → BoxReply) (timeout : Value) (s : σ) (past : List BackendEvent) :
    ∃ t asked, (run settings fs b.noted false network timeout).run (s, past) =
        ({ outcome := verdict settings fs b.name version plugins }, t, past ++ asked) ∧
      Questions (verdict settings fs b.name version plugins) asked := by
  obtain ⟨outcome, t, asked, ran, found, questions⟩ := checkTools_noted steady settings fs s past
  refine ⟨t, asked, ?_, questions⟩
  rw [← found]
  have step : (run settings fs b.noted false network timeout).run (s, past) =
      match (checkTools settings fs b.noted).run (s, past) with
      | (.error failure, u) => ({ outcome := .error failure }, u)
      | (.ok (_, report), u) => ({ outcome := .ok report }, u) := by
    simp only [run, StateT.run, bind, StateT.bind]
    rcases (checkTools settings fs b.noted).run (s, past) with ⟨failure | ⟨_ | d, report⟩, u⟩ <;> rfl
  rw [step, ran]
  rcases outcome with failure | ⟨document, report⟩ <;> rfl

/-- A run whose backend is fit and has every plugin is prepared by questions alone. -/
theorem prepare_of_present (steady : b.Steady version plugins) {v : String} {d : Document}
    (accepted : Backend.acceptVersion b.name version settings.versionConstraint = .ok v)
    (present : ∀ p ∈ d.plugins, Backend.isInstalled (.str p) plugins = true) (s : σ)
    (past : List BackendEvent) :
    ∃ t questions, (Run.prepare settings b.noted d).run (s, past) = (.ok (), t, past ++ questions) ∧
      ∀ p, .installPlugin p ∉ questions := by
  obtain ⟨t, checked⟩ := Backend.checkVersion_noted steady settings.versionConstraint s past
  obtain ⟨u, ensured⟩ := Backend.ensurePlugins_of_present steady present t (past ++ [.version])
  refine ⟨u, .version :: Backend.asking d.plugins, ?_, ?_⟩
  · simp only [Run.prepare, Step.run_bind, checked, accepted, ensured, Step.run_pure,
      List.append_assoc, List.singleton_append]
  · intro p
    rcases asking_eq d.plugins with asked | asked <;> simp [asked]

end

/-- The checks before a run agree with the run: on what succeeds, on what is wrong with the
configuration and on what has to be installed. They only ask. -/
theorem checks_foretell_run {σ : Type} {b : Backend σ} {version : String} {plugins : List Value}
    (steady : b.Steady version plugins) (settings : Settings) (fs : Files)
    (network : String → BoxReply) (timeout : Value) (s : σ) (past : List BackendEvent) :
    ∃ checked t asked,
      (run settings fs b.noted false network timeout).run (s, past) = (checked, t, past ++ asked) ∧
        Foretells settings fs b version plugins checked.outcome asked := by
  obtain ⟨t, asked, ran, questions⟩ := run_noted steady settings fs network timeout s past
  have answer : ∀ s, ((b.checkVersion settings.versionConstraint).run s).1 =
      Backend.acceptVersion b.name version settings.versionConstraint :=
    Backend.checkVersion_steady steady
  have : Nonempty σ := ⟨s⟩
  refine ⟨_, t, asked, ran, ?_⟩
  constructor
  case succeeds_iff =>
    simp only [answer, forall_const]
    exact verdict_succeeds_iff
  case prepared =>
    intro success
    obtain ⟨d, loaded, ⟨v, accepted⟩, present⟩ := verdict_succeeds_iff.mp success
    exact ⟨d, loaded, prepare_of_present steady accepted present⟩
  case reported_iff =>
    simp only [answer, forall_const]
    exact verdict_reported_iff
  case refused => exact fun report problem => refused_of_verdict
  case listed =>
    intro report d made loaded
    refine ⟨_, listed_of_verdict made loaded, ?_⟩
    intro τ w steady willing s past
    exact Backend.ensurePlugins_noted steady willing d.plugins s past
  case unlisted => exact fun report failure => unlisted_of_verdict
  case questions => exact questions

def twoPlugins : Files :=
  (Files.empty ["work"]).place (.ofString "vagrant.yaml")
    (.file "nodes: {web: null}\nplugins: [env, disksize, env]\n".toUTF8.toList)

/-- A backend that has one of the plugins. -/
def withEnv : BackendScript := ⟨"fake", "Fake 2.3.1", [.str "env"], []⟩

theorem checks_foretell_run_twoPlugins :
    withEnv.backend.Steady "Fake 2.3.1" [.str "env"] ∧ ∃ checked t asked,
      (run (Settings.resolve {} (fun _ => "") twoPlugins.herePath) twoPlugins withEnv.backend.noted
        false (fun _ => .status 200) boxTimeout).run ([], []) = (checked, t, [] ++ asked) ∧
        Foretells (Settings.resolve {} (fun _ => "") twoPlugins.herePath) twoPlugins withEnv.backend
          "Fake 2.3.1" [.str "env"] checked.outcome asked := by
  have steady : withEnv.backend.Steady "Fake 2.3.1" [.str "env"] :=
    ⟨fun _ => rfl, fun _ => rfl, by decide⟩
  exact ⟨steady, checks_foretell_run steady _ twoPlugins _ _ [] []⟩

end MachinePlan.Preflight
