import MachinePlan.CommandLine.Session
import MachinePlan.Proofs.Run.Stages

/-!
# Sessions stage by stage

What the stages of a session come to: an outcome, records, printed lines and the surroundings that
are left. The checks, the hooks and the compilation end as those of a run do, whatever is noted down
beside them (`run_chosen`, `run_planned`); only what follows prints (`run_printAll`) or writes.
-/

namespace MachinePlan

/-! ### Printouts -/

namespace Printout

/-- The lines that are made before the first that cannot be made. -/
def made : List (Except Failure String) → List String
  | .ok text :: rest => text :: made rest
  | _ => []

variable {rows : List (Except Failure String)}

theorem output_ofLines (rows : List (Except Failure String)) :
    (ofLines rows).output = String.join ((made rows).map line) := by
  induction rows with
  | nil => rfl
  | cons row rest ih =>
    cases row with
    | error failure => rfl
    | ok text => simp [ofLines, made, ih]

theorem made_ok (lines : List String) : made (lines.map .ok) = lines := by
  induction lines with
  | nil => rfl
  | cons line lines ih => exact congrArg (line :: ·) ih

/-- A complete printout makes all of its lines. -/
theorem map_made (complete : (ofLines rows).failure = none) : (made rows).map .ok = rows := by
  induction rows with
  | nil => rfl
  | cons row rest ih =>
    cases row with
    | error failure => cases complete
    | ok text => exact congrArg (.ok text :: ·) (ih complete)

theorem failure_ok (lines : List String) : (ofLines (lines.map .ok)).failure = none := by
  induction lines with
  | nil => rfl
  | cons line lines ih => exact ih

end Printout

/-! ### Courses -/

namespace Course

def inHost (c : Course) (host : Host) : Course := { c with host }

def asking (c : Course) (requests : List BoxRequest) : Course := { c with requests }

variable (c : Course)

@[simp] theorem host_tell (rs : List LogRecord) : (c.tell rs).host = c.host := rfl

@[simp] theorem host_print (lines : List String) : (c.print lines).host = c.host := rfl

@[simp] theorem host_inHost (host : Host) : (c.inHost host).host = host := rfl

@[simp] theorem host_asking (requests : List BoxRequest) : (c.asking requests).host = c.host := rfl

@[simp] theorem requests_print (lines : List String) : (c.print lines).requests = c.requests := rfl

@[simp] theorem requests_asking (requests : List BoxRequest) :
    (c.asking requests).requests = requests := rfl

@[simp] theorem tell_inHost (host : Host) (rs : List LogRecord) :
    (c.inHost host).tell rs = (c.tell rs).inHost host := rfl

@[simp] theorem inHost_inHost (host other : Host) : (c.inHost host).inHost other = c.inHost other := rfl

@[simp] theorem tell_tell (rs later : List LogRecord) : (c.tell rs).tell later = c.tell (rs ++ later) := by
  simp [tell]

@[simp] theorem print_print (lines later : List String) :
    (c.print lines).print later = c.print (lines ++ later) := by
  simp [print]

end Course

/-- The surroundings after the hooks of a directory have been run. -/
def Runtime.hostAfterHooks (rt : Runtime) (settings : Settings) (host : Host) : Host :=
  { host with files := rt.afterHooks settings.hooksDirectory host.files }

/-- The compiled nodes of a project that are asked for. -/
def CommandLine.chosenNodes (i : Invocation) (settings : Settings) (fs : Files) :
    Except Failure (List CompiledNode) := do
  let d ← Run.load settings fs
  selectNodes i.node d (← Run.compile settings fs none d)

namespace Session

variable {rt : Runtime} {i : Invocation} {settings : Settings} {d : Document}

theorem run_tell (rs : List LogRecord) (c : Course) : (tell rs).run c = (.ok (), c.tell rs) := rfl

theorem run_print (line : String) (c : Course) : (print line).run c = (.ok (), c.print [line]) := rfl

theorem run_onHost {α : Type} (step : Step Host α) (c : Course) :
    (onHost step).run c = ((step.run c.host).1, c.inHost (step.run c.host).2) := rfl

theorem run_printAll (rows : List (Except Failure String)) (c : Course) :
    (printAll rows).run c =
      (match (Printout.ofLines rows).failure with
        | some failure => .error failure
        | none => .ok (), c.print (Printout.made rows)) := by
  induction rows generalizing c with
  | nil => simp [printAll, Printout.ofLines, Printout.made, Course.print]
  | cons row rest ih =>
    cases row with
    | error failure =>
      rw [printAll, Step.run_outcome_bind]
      simp [Printout.ofLines, Printout.made, Course.print]
    | ok text =>
      rw [printAll, Step.run_outcome_bind]
      simp only
      rw [Step.run_bind, run_print]
      simp only
      rw [ih, Course.print_print]
      rfl

theorem run_load (settings : Settings) (c : Course) : (load settings).run c =
    (Run.load settings c.host.files, c.tell (Journal.loading settings c.host.files)) := by
  rw [load, Step.run_get_bind]
  simp only
  rw [Step.run_bind, run_tell]
  simp only [Step.run_outcome]

theorem run_plan (rt : Runtime) (settings : Settings) (d : Document) (c : Course) :
    (plan rt settings d).run c = (Run.compile settings c.host.files none d,
      (c.tell (Journal.compiling settings c.host.files d)).inHost
        (rt.hostAfterHooks settings c.host)) := by
  rw [plan, Step.run_get_bind]
  simp only
  rw [Step.run_bind, run_tell]
  simp only
  rw [Step.run_modify_bind, Step.run_outcome]
  rfl

theorem run_prepare (i : Invocation) (settings : Settings) (d : Document) (c : Course) :
    ∃ rs, (prepare i settings d).run c =
      let ended := (Run.checks settings (CommandLine.vagrant settings).backend
        (i.dryRun || i.skipPreflight) d).run c.host
      (ended.1, (c.tell rs).inHost ended.2) := by
  rw [prepare, Run.checks]
  split
  · exact ⟨_, rfl⟩
  · exact ⟨_, rfl⟩

theorem run_validate (settings : Settings) (c : Course) : (validate settings).run c =
    let told := c.tell (Journal.loading settings c.host.files)
    match Run.load settings c.host.files with
    | .error failure => (.error failure, told)
    | .ok d => (.ok 0, told.print [CommandLine.countLine d]) := by
  rw [validate, Step.run_bind, run_load]
  cases Run.load settings c.host.files <;> rfl

theorem run_nodes (settings : Settings) (c : Course) : (nodes settings).run c =
    let told := c.tell (Journal.loading settings c.host.files)
    match Run.load settings c.host.files with
    | .error failure => (.error failure, told)
    | .ok d => (.ok 0, told.print d.nodeNames) := by
  rw [nodes, Step.run_bind, run_load]
  cases Run.load settings c.host.files with
  | error failure => rfl
  | ok d =>
    simp only [Step.run_bind, run_printAll, Printout.failure_ok, Printout.made_ok, Step.run_pure]

/-- The nodes that are asked for are chosen as a run compiles them. -/
theorem run_chosen (rt : Runtime) (i : Invocation) (settings : Settings) (c : Course) :
    ∃ rs host, (host = c.host ∨ host = rt.hostAfterHooks settings c.host) ∧
      (chosen rt i settings).run c =
        (CommandLine.chosenNodes i settings c.host.files, (c.tell rs).inHost host) := by
  simp only [chosen, Step.run_bind, run_load, CommandLine.chosenNodes]
  cases Run.load settings c.host.files with
  | error failure => exact ⟨_, c.host, .inl rfl, rfl⟩
  | ok d =>
    simp only [run_plan, Course.host_tell, Course.tell_tell, ok_bind]
    cases Run.compile settings c.host.files none d with
    | error failure => exact ⟨_, _, .inr rfl, rfl⟩
    | ok nodes => exact ⟨_, _, .inr rfl, Step.run_outcome _ _⟩

/-- A plan is printed as JSON text whole or not at all. -/
theorem run_printPlan_of_json (json : i.jsonOutput = true) (nodes : List CompiledNode) (c : Course) :
    (printPlan i nodes).run c =
      match planValue nodes >>= Json.document with
      | .error failure => (.error failure, c)
      | .ok text => (.ok (), c.print [text]) := by
  rw [printPlan, if_pos json, Step.run_outcome_bind]
  cases planValue nodes with
  | error failure => rfl
  | ok plan =>
    simp only [Step.run_outcome_bind, ok_bind]
    cases Json.document plan <;> rfl

/-- The plan that is handed over is compiled behind the checks of a run, which leave the files
alone. -/
theorem run_planned (rt : Runtime) (i : Invocation) (settings : Settings) (c : Course) :
    ∃ rs, (planned rt i settings).run c =
      match Run.load settings c.host.files with
      | .error failure => (.error failure, c.tell rs)
      | .ok d =>
        match (Run.checks settings (CommandLine.vagrant settings).backend
            (i.dryRun || i.skipPreflight) d).run c.host with
        | (.error failure, host) => (.error failure, (c.tell rs).inHost host)
        | (.ok (), host) => (Run.compile settings host.files none d,
            (c.tell rs).inHost (rt.hostAfterHooks settings host)) := by
  simp only [planned, Step.run_bind, run_tell, run_load, Course.host_tell, Course.tell_tell]
  cases Run.load settings c.host.files with
  | error failure => exact ⟨_, rfl⟩
  | ok d =>
    simp only
    obtain ⟨rs, prepared⟩ := run_prepare i settings d
      (c.tell ([.info s!"Applying {settings.configFile.text} via {backendName i}"] ++
        Journal.loading settings c.host.files))
    rw [prepared]
    simp only [Course.host_tell, Course.tell_tell]
    rcases (Run.checks settings (CommandLine.vagrant settings).backend
      (i.dryRun || i.skipPreflight) d).run c.host with ⟨failure | _, host⟩
    · exact ⟨_, rfl⟩
    · simp only [run_plan, Course.host_inHost, Course.tell_inHost, Course.tell_tell,
        Course.inHost_inHost]
      exact ⟨_, rfl⟩

/-- In a dry run there are no checks, so the plan is that of the project. -/
theorem run_planned_of_dryRun (dry : i.dryRun = true) (rt : Runtime) (settings : Settings)
    (c : Course) : ∃ rs host, (host = c.host ∨ host = rt.hostAfterHooks settings c.host) ∧
      (planned rt i settings).run c =
        (Run.planned settings c.host.files, (c.tell rs).inHost host) := by
  obtain ⟨rs, ran⟩ := run_planned rt i settings c
  rw [ran, Run.planned, dry]
  cases Run.load settings c.host.files with
  | error failure => exact ⟨rs, c.host, .inl rfl, rfl⟩
  | ok d => exact ⟨rs, _, .inr rfl, rfl⟩

theorem run_handOver_of_dryRun (dry : i.dryRun = true) (settings : Settings)
    (nodes : List CompiledNode) (c : Course) : (handOver i settings nodes).run c =
      (match (Preview.printout nodes).failure with
        | some failure => .error failure
        | none => .ok (), c.print (Printout.made (Preview.lines nodes))) := by
  rw [handOver, if_pos dry, run_printAll]
  rfl

/-- How a dry run ends: without a plan, at a line that cannot be made, or with the plan shown. -/
inductive Rehearsed (rt : Runtime) (settings : Settings) (host : Host) :
    Except Failure Nat × Course → Prop
  | unplanned {failure : Failure} {rs : List LogRecord} {after : Host}
      (same : after = host ∨ after = rt.hostAfterHooks settings host)
      (planned : Run.planned settings host.files = .error failure) :
      Rehearsed rt settings host (.error failure, (Course.tell rs { host }).inHost after)
  | brokenOff {nodes : List CompiledNode} {failure : Failure} {rs : List LogRecord} {after : Host}
      (same : after = host ∨ after = rt.hostAfterHooks settings host)
      (planned : Run.planned settings host.files = .ok nodes)
      (failed : (Preview.printout nodes).failure = some failure) :
      Rehearsed rt settings host (.error failure,
        ((Course.tell rs { host }).inHost after).print (Printout.made (Preview.lines nodes)))
  | shown {nodes : List CompiledNode} {rs later : List LogRecord} {after : Host}
      (same : after = host ∨ after = rt.hostAfterHooks settings host)
      (planned : Run.planned settings host.files = .ok nodes)
      (complete : (Preview.printout nodes).failure = none) :
      Rehearsed rt settings host (.ok 0,
        (((Course.tell rs { host }).inHost after).print
          (Printout.made (Preview.lines nodes))).tell later)

theorem rehearsed_apply (dry : i.dryRun = true) (rt : Runtime) (settings : Settings) (host : Host) :
    Rehearsed rt settings host ((apply rt i settings).run { host }) := by
  obtain ⟨rs, after, same, ran⟩ := run_planned_of_dryRun dry rt settings { host }
  rw [apply, Step.run_bind, ran]
  cases planned : Run.planned settings host.files with
  | error failure => exact .unplanned same planned
  | ok nodes =>
    simp only [Step.run_bind, run_handOver_of_dryRun dry]
    cases ended : (Preview.printout nodes).failure with
    | some failure => exact .brokenOff same planned ended
    | none => exact .shown same planned ended

theorem run_handOver_of_written (dry : i.dryRun = false) (settings : Settings)
    (nodes : List CompiledNode) (c : Course) : ∃ rs, (handOver i settings nodes).run c =
      let ended := ((CommandLine.vagrant settings).backend.apply nodes).run c.host
      (ended.1, (c.tell rs).inHost ended.2) := by
  have nothing : c.tell [] = c := by simp [Course.tell]
  rw [handOver, if_neg (by simp [dry]), Step.run_bind, run_onHost]
  rcases ((CommandLine.vagrant settings).backend.apply nodes).run c.host with ⟨failure | _, host⟩
  · exact ⟨[], by rw [nothing]⟩
  · exact ⟨_, rfl⟩

/-- The checks before a run print their report, unless they break off. -/
theorem run_preflight (rt : Runtime) (i : Invocation) (settings : Settings) (env : Environment)
    (c : Course) : (preflight rt i settings env).run c =
      let rs := Journal.inspecting (CommandLine.vagrant settings) settings i.checkBoxes env.network
        rt.traffic c.host
      let ended := (Preflight.run settings c.host.files (CommandLine.vagrant settings).backend
        i.checkBoxes env.network boxTimeout).run c.host
      let later := ((c.tell rs).inHost ended.2).asking ended.1.requests
      match ended.1.outcome with
      | .error failure => (.error failure, later)
      | .ok report => (.ok (if report.succeeded then 0 else 1), later.print [report.text]) := by
  rw [preflight, Step.run_get_bind]
  simp only
  rw [Step.run_bind, run_tell]
  simp only
  rcases (Preflight.run settings c.host.files (CommandLine.vagrant settings).backend i.checkBoxes
    env.network boxTimeout).run c.host with ⟨⟨failure | report, requests⟩, host⟩
  · rw [Step.run_modify_bind, Step.run_outcome_bind]
    rfl
  · rw [Step.run_modify_bind, Step.run_outcome_bind]
    rfl

/-- What an invocation does is what its command does with its settings. -/
theorem run_ofInvocation (rt : Runtime) (i : Invocation) (env : Environment) (host : Host) :
    (ofInvocation rt i env).run { host } =
      let settings := Settings.resolve i.settings env.value host.files.herePath
      match i.command with
      | .validate => (validate settings).run { host }
      | .nodes => (nodes settings).run { host }
      | .compile => (compile rt i settings).run { host }
      | .apply => (apply rt i settings).run { host }
      | .preflight => (preflight rt i settings env).run { host } := by
  rw [ofInvocation, Step.run_get_bind]
  cases i.command <;> rfl

end Session

end MachinePlan
