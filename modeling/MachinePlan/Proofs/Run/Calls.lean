import MachinePlan.Proofs.Backend.Installing
import MachinePlan.Proofs.Compile.Nodewise
import MachinePlan.Run

/-!
# What a run asks of its backend

A run asks for the version, for the plugins that are there, for the missing ones one by one, and
last for the plan to be applied. It may leave stages out, but never changes their order. Which of
them it leaves out is said in `Calls.Lawful`; whatever the files, the settings, the hooks and the
answers of the backend are, the calls of a run are lawful (`run_calls_lawful`).
-/

namespace MachinePlan

/-- The calls of one run, stage by stage. -/
structure Calls where
  version : Bool
  installedPlugins : Bool
  installs : List String
  applied : Option (List String)

namespace Calls

def events (calls : Calls) : List BackendEvent :=
  (if calls.version then [.version] else []) ++
    (if calls.installedPlugins then [.installedPlugins] else []) ++
    BackendScript.installing calls.installs ++
    (calls.applied.map .apply).toList

/-- The rules for the stages before the last, in a run that has loaded its document. -/
structure Checked (settings : Settings) (script : BackendScript) (unprepared : Bool)
    (document : Document) (calls : Calls) : Prop where
  /-- A run without checks has none of these stages. -/
  left : unprepared = true →
    calls.version = false ∧ calls.installedPlugins = false ∧ calls.installs = []
  /-- Any other run asks for the version. -/
  asked : unprepared = false → calls.version = true
  /-- Where that is rejected, the run asks for nothing else. -/
  rejected : unprepared = false → ∀ failure,
    Backend.acceptVersion script.name script.version settings.versionConstraint = .error failure →
    calls.events = [.version]
  /-- The backend is asked for its plugins only where the document requires some. -/
  needed : calls.installedPlugins = true → document.plugins ≠ []
  /-- No plugin is installed before the backend was asked for those it has. -/
  listed : calls.installs ≠ [] → calls.installedPlugins = true
  /-- Missing plugins that the document requires are installed, each once. -/
  installed : Installations script.plugins document.plugins calls.installs

/-- The rules for the calls of a run with the given result. -/
structure Lawful (settings : Settings) (fs : Files) (script : BackendScript) (unprepared : Bool)
    (result : RunResult) (calls : Calls) : Prop where
  /-- Without a document there is no call. -/
  unloaded : ∀ failure, Run.load settings fs = .error failure → calls.events = []
  checked : ∀ document, Run.load settings fs = .ok document →
    calls.Checked settings script unprepared document
  /-- The plan is handed over exactly when the run succeeds. -/
  applied : calls.applied.isSome = true ↔ ∃ nodes, result.result = .ok nodes
  /-- It holds the nodes of the document in definition order. -/
  named : ∀ names, calls.applied = some names →
    ∃ document, Run.load settings fs = .ok document ∧ names = document.nodeNames

end Calls

section
variable {settings : Settings} {fs : Files} {script : BackendScript} {unprepared : Bool}
  {document : Document} {calls : Calls}

namespace Calls

def nothing : Calls := ⟨false, false, [], none⟩

@[simp] theorem events_nothing : nothing.events = [] := rfl

theorem nothing_checked : nothing.Checked settings script true document := by
  constructor <;> simp [nothing, Installations.nil]

def onlyVersion : Calls := ⟨true, false, [], none⟩

theorem onlyVersion_checked : onlyVersion.Checked settings script false document := by
  constructor <;> simp [onlyVersion, events, BackendScript.installing, Installations.nil]

/-- The calls with the plan handed over at the end. -/
def applying (calls : Calls) (names : List String) : Calls := { calls with applied := some names }

theorem events_applying (unapplied : calls.applied = none) (names : List String) :
    (calls.applying names).events = calls.events ++ [.apply names] := by
  rw [events, events, unapplied, Option.map_none, Option.toList_none, List.append_nil]
  rfl

/-- A run that is applied has not been rejected. -/
theorem Checked.applying (checked : calls.Checked settings script unprepared document)
    (accepted : unprepared = false → ∀ failure,
      Backend.acceptVersion script.name script.version settings.versionConstraint ≠ .error failure)
    (names : List String) : (calls.applying names).Checked settings script unprepared document where
  left := checked.left
  asked := checked.asked
  rejected prepared failure wrong := absurd wrong (accepted prepared failure)
  needed := checked.needed
  listed := checked.listed
  installed := checked.installed

/-- A run that stops with a failure behind the loading of its document. -/
theorem lawful_of_failure {progress : Progress} {failure : Failure}
    (loaded : Run.load settings fs = .ok document)
    (checked : calls.Checked settings script unprepared document) (unapplied : calls.applied = none) :
    calls.Lawful settings fs script unprepared ⟨progress, some failure⟩ where
  unloaded := by simp [loaded]
  checked := by simp [loaded, checked]
  applied := by simp [unapplied, RunResult.result]
  named := by simp [unapplied]

end Calls

end

variable (settings : Settings) (fs : Files) (script : BackendScript) (unprepared : Bool)
  (hooks : Option Registry) (document : Document) (past : List BackendEvent)

theorem checkVersion_run (constraint : String) :
    (script.backend.checkVersion constraint).run past =
      (Backend.acceptVersion script.name script.version constraint, past ++ [.version]) := by
  simp only [Backend.checkVersion, Step.run_bind, Step.run_action, Step.run_outcome,
    BackendScript.backend_version]
  rfl

theorem prepare_run :
    ∃ outcome, ∃ calls : Calls,
      (Run.prepare settings script.backend document).run past = (outcome, past ++ calls.events) ∧
      calls.Checked settings script false document ∧ calls.applied = none ∧
      ∀ failure, Backend.acceptVersion script.name script.version settings.versionConstraint =
        .error failure → outcome = .error failure := by
  rw [Run.prepare]
  cases accepted : Backend.acceptVersion script.name script.version settings.versionConstraint with
  | error failure =>
    refine ⟨.error failure, .onlyVersion, ?_, Calls.onlyVersion_checked, rfl, by simp⟩
    simp only [Step.run_bind, checkVersion_run, accepted]
    rfl
  | ok version =>
    obtain ⟨outcome, asked, ran, row⟩ :=
      script.ensurePlugins_run (past ++ [.version]) document.plugins
    refine ⟨outcome.map fun _ => (), ⟨true, !document.plugins.isEmpty, asked, none⟩, ?_, ?_, rfl,
      by simp⟩
    · simp only [Step.run_bind, checkVersion_run, accepted, ran]
      cases outcome <;> cases document.plugins.isEmpty <;> simp [Calls.events, Except.map]
    · refine ⟨by simp, by simp, by simp [accepted], by simp, fun some => ?_, row⟩
      cases required : document.plugins with
      | nil => exact absurd (List.sublist_nil.mp (required ▸ row.ordered)) some
      | cons => rfl

/-- The stages behind the loading of the document, without the form in which they are written. -/
theorem finish_run :
    (Run.finish settings fs script.backend unprepared hooks document).run past =
      match (if unprepared then pure () else Run.prepare settings script.backend document :
        Step (List BackendEvent) Unit).run past with
      | (.error failure, noted) => (⟨⟨some document, []⟩, some failure⟩, noted)
      | (.ok (), noted) =>
        match Run.compile settings fs hooks document with
        | .error failure => (⟨⟨some document, []⟩, some failure⟩, noted)
        | .ok nodes =>
          (⟨⟨some document, nodes⟩, none⟩, noted ++ [.apply (nodes.map CompiledNode.name)]) := by
  simp only [Run.finish, StateT.run, bind, StateT.bind]
  rcases (ite (unprepared = true) _ _ : Step (List BackendEvent) Unit).run past with
    ⟨failure | _, noted⟩
  · rfl
  · cases Run.compile settings fs hooks document <;> rfl

theorem names_of_compile {nodes : List CompiledNode}
    (ran : Run.compile settings fs hooks document = .ok nodes) :
    nodes.map CompiledNode.name = document.nodeNames := by
  cases hooks with
  | none =>
    obtain ⟨registry, _, ran⟩ := bind_eq_ok.mp ran
    exact Compile.names_of_nodes ran
  | some registry => exact Compile.names_of_nodes ran

/-- The checks of a run, which may be left out. -/
theorem checks_run :
    ∃ outcome, ∃ calls : Calls,
      (if unprepared then pure () else Run.prepare settings script.backend document :
        Step (List BackendEvent) Unit).run past = (outcome, past ++ calls.events) ∧
      calls.Checked settings script unprepared document ∧ calls.applied = none ∧
      (unprepared = false → ∀ failure,
        Backend.acceptVersion script.name script.version settings.versionConstraint =
          .error failure → outcome = .error failure) := by
  cases unprepared with
  | true => exact ⟨.ok (), .nothing, by simp, Calls.nothing_checked, rfl, by simp⟩
  | false =>
    obtain ⟨outcome, calls, ran, checked, unapplied, rejected⟩ :=
      prepare_run settings script document past
    exact ⟨outcome, calls, ran, checked, unapplied, fun _ => rejected⟩

/-- Whatever a run is given and however it ends, its calls are lawful. -/
theorem run_calls_lawful :
    ∃ result, ∃ calls : Calls,
      (Run.run settings fs script.backend unprepared hooks).run past =
        (result, past ++ calls.events) ∧
      calls.Lawful settings fs script unprepared result := by
  cases loaded : Run.load settings fs with
  | error failure =>
    refine ⟨⟨⟨none, []⟩, some failure⟩, .nothing, ?_, ?_⟩
    · rw [Calls.events_nothing, List.append_nil, Run.run, loaded]
      rfl
    · refine ⟨fun _ _ => rfl, ?_, ?_, ?_⟩ <;> simp [Calls.nothing, loaded, RunResult.result]
  | ok document =>
    obtain ⟨outcome, calls, ran, checked, unapplied, rejected⟩ :=
      checks_run settings script unprepared document past
    rw [Run.run, loaded, finish_run, ran]
    rcases outcome with failure | _
    · exact ⟨_, calls, rfl, Calls.lawful_of_failure loaded checked unapplied⟩
    cases compiled : Run.compile settings fs hooks document with
    | error failure => exact ⟨_, calls, rfl, Calls.lawful_of_failure loaded checked unapplied⟩
    | ok nodes =>
      refine ⟨⟨⟨some document, nodes⟩, none⟩, calls.applying document.nodeNames, ?_, ?_⟩
      · rw [Calls.events_applying unapplied, ← List.append_assoc,
          ← names_of_compile settings fs hooks document compiled]
      · have accepted : unprepared = false → ∀ failure,
            Backend.acceptVersion script.name script.version settings.versionConstraint ≠
              .error failure := by
          intro prepared failure wrong
          cases rejected prepared failure wrong
        refine ⟨by simp [loaded], ?_, by simp [Calls.applying, RunResult.result], ?_⟩
        · intro _ found
          obtain rfl := Except.ok.inj (loaded.symm.trans found)
          exact checked.applying accepted document.nodeNames
        · rintro names ⟨⟩
          exact ⟨document, loaded, rfl⟩

end MachinePlan
