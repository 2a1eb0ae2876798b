import MachinePlan.Proofs.CommandLine.Logged
import MachinePlan.Proofs.CommandLine.SamePlan
import MachinePlan.Proofs.CommandLine.Sessions
import MachinePlan.Proofs.Run.Calls

/-!
# Files that a command line changes

Whatever the command, a command line that does not end with status zero leaves every file as it was
and adds none, but in the cache that the interpreter keeps of the hook files. When `apply` ends with
status zero and is no dry run, the plan of all nodes is in the plan file, and no other file outside
of that cache has changed (`transcript_filesKept`). The only command that writes is `apply`, it
writes last, and it knows the whole text by then. The cache is an exception by which a project can be
told (`filesKept_fails`).
-/

namespace MachinePlan

/-! ### The cache of the hooks -/

namespace Files.ChangedBelow

variable {place : Location} {fs gs hs : Files}

theorem refl (place : Location) (fs : Files) : ChangedBelow place fs fs :=
  ⟨rfl, fun _ _ => rfl, fun _ there => there⟩

theorem trans (first : ChangedBelow place fs gs) (second : ChangedBelow place gs hs) :
    ChangedBelow place fs hs where
  here_eq := second.here_eq.trans first.here_eq
  elsewhere location outside :=
    (second.elsewhere location outside).trans (first.elsewhere location outside)
  directories location there := second.directories location (first.directories location there)

theorem put {location : Location} {entry : Entry} (inside : place <+: location) (below : location ≠ [])
    (free : fs.entry? location ≠ some .directory) :
    ChangedBelow place fs (fs.put location entry) where
  here_eq := rfl
  elsewhere _ outside := entry?_put_of_ne below fun same => outside (same ▸ inside)
  directories _ there := directory_put free there

end Files.ChangedBelow

namespace Runtime

variable {rt : Runtime} {p : Path} {place : Location} {fs : Files}

theorem changedBelow_foldl (rt : Runtime) (place : Location) (names : List String) (fs : Files) :
    fs.ChangedBelow (cachePlace place)
      (names.foldl (fun after name => rt.cache place name after) fs) := by
  induction names generalizing fs with
  | nil => exact .refl _ fs
  | cons name names ih => exact (rt.cached place name fs).trans (ih _)

theorem changedBelow_afterHooks (led : fs.locate p = .ok place) :
    fs.ChangedBelow (cachePlace place) (rt.afterHooks p fs) := by
  rw [afterHooks, led]
  cases fs.isDirectory p with
  | true => exact rt.changedBelow_foldl place _ fs
  | false => exact .refl _ fs

theorem afterHooks_of_unlocated {reason : Unreachable} (lost : fs.locate p = .error reason) :
    rt.afterHooks p fs = fs := by
  rw [afterHooks, lost]

end Runtime

namespace Preflight

variable {σ γ : Type} {b : Backend σ} {part : σ → γ}

theorem keeps_checkTools (tidy : b.Tidy part) (settings : Settings) (fs : Files) :
    Step.Keeps part (checkTools settings fs b) := by
  have plugins : ∀ document, Step.Keeps part (checkPlugins b document) := by
    rintro (_ | d)
    · exact .pure _
    · rw [checkPlugins]
      split
      · exact .pure _
      · refine .bind (.action tidy.installedPlugins) fun installed => ?_
        split
        · exact fun _ => rfl
        · exact .pure _
  have version : Step.Keeps part (checkBackend b settings.versionConstraint) :=
    .bind (.action tidy.version) fun output => .outcome _
  exact .bind (.outcome (checkConfig settings fs)) fun found =>
    .bind version fun _ => .bind (plugins found.1) fun _ => .pure _

/-- The checks before a run leave the backend as it was. -/
theorem part_run (tidy : b.Tidy part) (settings : Settings) (fs : Files) (withBoxes : Bool)
    (network : String → BoxReply) (timeout : Value) (s : σ) :
    part ((run settings fs b withBoxes network timeout).run s).2 = part s := by
  have kept := keeps_checkTools tidy settings fs s
  rw [← kept, run]
  simp only [StateT.run, bind, StateT.bind]
  rcases (checkTools settings fs b).run s with ⟨failure | ⟨_ | d, report⟩, t⟩
  · rfl
  · rfl
  · cases withBoxes <;> rfl

end Preflight

namespace CommandLine

/-- A place in the cache of the hooks of a project. -/
def InCache (settings : Settings) (fs : Files) (location : Location) : Prop :=
  ∃ directory, fs.locate settings.hooksDirectory = .ok directory ∧ cachePlace directory <+: location

/-- No file outside of the cache of the hooks is new, gone or different. -/
structure Kept (rt : Runtime) (settings : Settings) (before after : Files) : Prop where
  /-- Directories are all that is new, unless the hooks have been loaded; then there is also what
  the interpreter has kept of them. -/
  grown : before.Grown after ∨ (rt.afterHooks settings.hooksDirectory before).Grown after
  outside : ∀ location, ¬ InCache settings before location →
    after.entry? location = before.entry? location ∨
      before.entry? location = none ∧ after.entry? location = some .directory

/-- The plan of all nodes of a project is in the plan file, and no other file outside of the cache of
the hooks has changed. -/
structure HandedOver (rt : Runtime) (settings : Settings) (before after : Files) : Prop where
  plan : ∃ d nodes text, Run.load settings before = .ok d ∧
    Run.compile settings before none d = .ok nodes ∧ nodes.map CompiledNode.name = d.nodeNames ∧
    Vagrant.planText nodes = .ok text ∧ after.readBytes settings.planFile = .ok text.toUTF8.toList
  others : ∃ place, after.locate settings.planFile = .ok place ∧
    (rt.afterHooks settings.hooksDirectory before).ChangedAt place after ∧
    ∀ location, location ≠ place → ¬ InCache settings before location →
      after.entry? location = before.entry? location ∨
        before.entry? location = none ∧ after.entry? location = some .directory

section
variable {rt : Runtime} {settings : Settings} {before after : Files} {location : Location}

theorem kept_of_grown (grown : before.Grown after) : Kept rt settings before after :=
  ⟨.inl grown, fun location _ => grown.entry_eq location⟩

/-- What the interpreter keeps of the hooks is in their cache. -/
theorem entry?_afterHooks (rt : Runtime) (outside : ¬ InCache settings before location) :
    Files.entry? (rt.afterHooks settings.hooksDirectory before) location = before.entry? location := by
  cases led : before.locate settings.hooksDirectory with
  | error reason => rw [rt.afterHooks_of_unlocated led]
  | ok place =>
    refine (Runtime.changedBelow_afterHooks led).elsewhere location fun inside => ?_
    exact outside ⟨place, led, inside⟩

theorem kept_of_cached (grown : (rt.afterHooks settings.hooksDirectory before).Grown after) :
    Kept rt settings before after := by
  refine ⟨.inr grown, fun location outside => ?_⟩
  rw [← entry?_afterHooks rt outside]
  exact grown.entry_eq location

theorem handedOver_of_written {d : Document} {nodes : List CompiledNode} {text : String}
    (loaded : Run.load settings before = .ok d)
    (compiled : Run.compile settings before none d = .ok nodes)
    (shown : Vagrant.planText nodes = .ok text)
    (written : Files.Written settings.planFile text
      (rt.afterHooks settings.hooksDirectory before) after) :
    HandedOver rt settings before after where
  plan := ⟨d, nodes, text, loaded, compiled, names_of_compile settings before none d compiled, shown,
    written.readBytes⟩
  others := by
    obtain ⟨place, led, changed⟩ := written.changedAt
    refine ⟨place, led, changed, fun location different outside => ?_⟩
    rw [← entry?_afterHooks rt outside]
    exact changed.elsewhere location different

end

/-! ### Sessions -/

variable {i : Invocation}

/-- The plan that is handed over is that of the project, and only hooks that have been loaded leave
something in their cache. -/
theorem planned_ended (rt : Runtime) (i : Invocation) (settings : Settings) (host : Host) :
    ∃ rs r after, (Session.planned rt i settings).run { host } =
        (r, (Course.tell rs { host }).inHost after) ∧
      ((∃ failure, r = .error failure ∧ (after.files = host.files ∨
          after.files = rt.afterHooks settings.hooksDirectory host.files)) ∨
        ∃ d nodes, r = .ok nodes ∧ Run.load settings host.files = .ok d ∧
          Run.compile settings host.files none d = .ok nodes ∧
          after.files = rt.afterHooks settings.hooksDirectory host.files) := by
  obtain ⟨rs, ran⟩ := Session.run_planned rt i settings { host }
  rw [ran]
  cases loaded : Run.load settings host.files with
  | error failure => exact ⟨rs, _, host, rfl, .inl ⟨failure, rfl, .inl rfl⟩⟩
  | ok d =>
    have kept := Run.keeps_checks settings (vagrant settings).backend
      (Vagrant.tidy (vagrant settings)) (i.dryRun || i.skipPreflight) d host
    simp only
    rcases checked : (Run.checks settings (vagrant settings).backend
      (i.dryRun || i.skipPreflight) d).run host with ⟨failure | _, after⟩
    · rw [checked] at kept
      exact ⟨rs, _, after, rfl, .inl ⟨failure, rfl, .inl kept⟩⟩
    · rw [checked] at kept
      replace kept : after.files = host.files := kept
      have cached : (rt.hostAfterHooks settings after).files =
          rt.afterHooks settings.hooksDirectory host.files := by rw [Runtime.hostAfterHooks, kept]
      simp only [kept]
      cases compiled : Run.compile settings host.files none d with
      | error failure => exact ⟨rs, _, _, rfl, .inl ⟨failure, rfl, .inr cached⟩⟩
      | ok nodes => exact ⟨rs, _, _, rfl, .inr ⟨d, nodes, rfl, rfl, compiled, cached⟩⟩

theorem kept_of_files {rt : Runtime} {settings : Settings} {before after : Files}
    (same : after = before ∨ after = rt.afterHooks settings.hooksDirectory before) :
    Kept rt settings before after := by
  rcases same with rfl | rfl
  · exact kept_of_grown (.refl _)
  · exact kept_of_cached (.refl _)

/-- A session of `apply` that is no dry run prints nothing; it fails and has changed no file, or it
has written the plan. -/
theorem apply_ended (real : i.dryRun = false) (rt : Runtime) (settings : Settings) (host : Host) :
    ∃ rs ending after, (Session.apply rt i settings).run { host } =
        (ending, (Course.tell rs { host }).inHost after) ∧
      ((∃ failure, ending = .error failure ∧ Kept rt settings host.files after.files) ∨
        (ending = .ok 0 ∧ HandedOver rt settings host.files after.files)) := by
  obtain ⟨rs, r, after, ran, ended⟩ := planned_ended rt i settings host
  rw [Session.apply, Step.run_bind, ran]
  rcases ended with ⟨failure, rfl, files⟩ | ⟨d, nodes, rfl, loaded, compiled, cached⟩
  · exact ⟨rs, _, after, rfl, .inl ⟨failure, rfl, kept_of_files files⟩⟩
  · obtain ⟨later, handed⟩ := Session.run_handOver_of_written real settings nodes
      ((Course.tell rs { host }).inHost after)
    simp only [Step.run_bind, handed, Course.host_inHost]
    rcases applied : ((vagrant settings).backend.apply nodes).run after with ⟨failure | _, last⟩
    · have grown := Vagrant.writePlan_eq_error applied
      rw [cached] at grown
      simp only [Course.tell_inHost, Course.tell_tell, Course.inHost_inHost]
      exact ⟨_, _, last, rfl, .inl ⟨failure, rfl, kept_of_cached grown⟩⟩
    · obtain ⟨text, shown, written⟩ := Vagrant.writePlan_eq_ok applied
      rw [cached] at written
      simp only [Session.run_tell, Step.run_pure, Course.tell_inHost, Course.tell_tell,
        Course.inHost_inHost]
      exact ⟨_, _, last, rfl, .inr ⟨rfl, handedOver_of_written loaded compiled shown written⟩⟩

theorem keeps_printPlan (i : Invocation) (nodes : List CompiledNode) :
    Step.Keeps Course.host (Session.printPlan i nodes) := by
  rw [Session.printPlan]
  split
  · exact .bind (.outcome _) fun plan => .bind (.outcome _) fun text c => rfl
  · intro c
    rw [Session.run_printAll]
    rfl

/-- What a dry run leaves. -/
theorem host_of_dryRun (dry : i.dryRun = true) (rt : Runtime) (settings : Settings) (host : Host) :
    let after := ((Session.apply rt i settings).run { host }).2.host
    after = host ∨ after = rt.hostAfterHooks settings host := by
  have ended := Session.rehearsed_apply dry rt settings host
  generalize (Session.apply rt i settings).run { host } = last at ended ⊢
  cases ended with
  | unplanned same | brokenOff same | shown same => exact same

/-- The files that a session leaves that does not write. -/
theorem files_of_session (rt : Runtime) (i : Invocation) (env : Environment) (host : Host)
    (other : ¬ Writes i) :
    let after := ((Session.ofInvocation rt i env).run { host }).2.host.files
    after = host.files ∨
      after = rt.afterHooks (settingsOf i env host).hooksDirectory host.files := by
  rw [Session.run_ofInvocation]
  simp only
  generalize same : Settings.resolve i.settings env.value host.files.herePath = settings
  replace same : settingsOf i env host = settings := same
  rw [same]
  cases command : i.command with
  | validate =>
    simp only [Session.run_validate]
    cases Run.load settings host.files <;> exact .inl rfl
  | nodes =>
    simp only [Session.run_nodes]
    cases Run.load settings host.files <;> exact .inl rfl
  | preflight =>
    have kept := Preflight.part_run (Vagrant.tidy (vagrant settings)) settings host.files
      i.checkBoxes env.network boxTimeout host
    simp only [Session.run_preflight]
    rcases ran : (Preflight.run settings host.files (vagrant settings).backend i.checkBoxes
      env.network boxTimeout).run host with ⟨⟨failure | report, requests⟩, after⟩
    · rw [ran] at kept
      exact .inl kept
    · rw [ran] at kept
      exact .inl kept
  | compile =>
    obtain ⟨rs, after, same, ran⟩ := Session.run_chosen rt i settings { host }
    simp only [Session.compile]
    rw [Step.run_bind, ran]
    have kept (nodes : List CompiledNode) :=
      Step.Keeps.bind (keeps_printPlan i nodes) (fun _ => .pure 0)
        ((Course.tell rs { host }).inHost after)
    cases chosenNodes i settings host.files with
    | error failure => exact same.imp (congrArg Host.files) (congrArg Host.files)
    | ok nodes =>
      simp only [kept nodes]
      exact same.imp (congrArg Host.files) (congrArg Host.files)
  | apply =>
    have dry : i.dryRun = true := by
      by_contra real
      exact other ⟨command, Bool.eq_false_of_not_eq_true real⟩
    exact (host_of_dryRun dry rt settings host).imp (congrArg Host.files) (congrArg Host.files)

/-! ### Command lines -/

def supportedNode : Host := { oneNode with results := [⟨0, "Vagrant 2.4.1\n", ""⟩] }

/-- A project that cannot be planned, as a date is no JSON value, with an earlier plan and a file of
hooks. -/
def datedNode : Host :=
  ⟨(((Files.empty ["work"]).place (.ofString "vagrant.yaml")
      (.file "nodes: {web: {hostname: 2020-01-01}}\n".toUTF8.toList)).place
    (.ofString ".boxfile/plan.json") (.file "{}\n".toUTF8.toList)).place
      (.ofString "hooks/a.py") (.file []), supportedNode.results, []⟩

/-- The place where what has been made of a hook file is kept. -/
def cachedFile (directory : Location) (name : String) : Location :=
  cachePlace directory ++ [name ++ "c"]

/-- A runtime that keeps what it makes of the first file of a directory without a cache. -/
def caching : Runtime :=
  { Runtime.plain with
    cache directory name fs :=
      if fs.entry? (cachePlace directory) = none ∧ fs.entry? (cachedFile directory name) = none then
        (fs.put (cachePlace directory) .directory).put (cachedFile directory name) (.file [])
      else fs
    cached directory name fs := by
      have below : cachePlace directory ≠ [] := by simp [cachePlace]
      have inside : cachePlace directory <+: cachedFile directory name := List.prefix_append _ _
      have other : cachedFile directory name ≠ cachePlace directory := by
        simp [cachedFile]
      split
      case isTrue free =>
        refine (Files.ChangedBelow.put List.prefix_rfl below (by simp [free.1])).trans
          (.put inside (by simp [cachedFile]) ?_)
        rw [Files.entry?_put_of_ne below other, free.2]
        exact nofun
      case isFalse => exact .refl _ fs }

end CommandLine

end MachinePlan
