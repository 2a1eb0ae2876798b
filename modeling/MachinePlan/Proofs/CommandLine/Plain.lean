import MachinePlan.Proofs.CommandLine.Logged
import MachinePlan.Proofs.CommandLine.SamePlan
import MachinePlan.Proofs.CommandLine.Sessions

/-!
# Answers as transcripts

An answer is the transcript of a runtime without a log, without a cache and with outputs that take
every text (`transcript_plain`). So whatever holds of every transcript holds of the answers.
-/

namespace MachinePlan

def Answer.transcript (a : Answer) : Transcript :=
  ⟨a.status.mapError .fault, a.output, a.errors, a.host, a.requests⟩

def Event.prints (events : List Event) : List String :=
  events.filterMap fun
    | .print line => some line
    | .record _ => none

namespace Event

@[simp] theorem prints_append (first later : List Event) :
    prints (first ++ later) = prints first ++ prints later := List.filterMap_append

@[simp] theorem prints_record (rs : List LogRecord) : prints (rs.map .record) = [] := by
  induction rs with
  | nil => rfl
  | cons r rs ih => exact ih

@[simp] theorem prints_print (lines : List String) : prints (lines.map .print) = lines := by
  induction lines with
  | nil => rfl
  | cons line lines ih => exact congrArg (line :: ·) ih

end Event

/-- What has been printed so far. -/
def Course.printed (c : Course) : String := String.join ((Event.prints c.events).map Printout.line)

namespace Course

variable (c : Course)

@[simp] theorem printed_tell (rs : List LogRecord) : (c.tell rs).printed = c.printed := by
  simp [printed, tell]

@[simp] theorem printed_print (lines : List String) :
    (c.print lines).printed = c.printed ++ String.join (lines.map Printout.line) := by
  simp [printed, print]

@[simp] theorem printed_inHost (host : Host) : (c.inHost host).printed = c.printed := rfl

@[simp] theorem printed_asking (requests : List BoxRequest) :
    (c.asking requests).printed = c.printed := rfl

@[simp] theorem printed_new (host : Host) : Course.printed { host } = "" := rfl

end Course

namespace Runtime

theorem afterHooks_plain (directory : Path) (fs : Files) : plain.afterHooks directory fs = fs := by
  have kept (names : List String) (place : Location) :
      names.foldl (fun after name => plain.cache place name after) fs = fs := by
    induction names with
    | nil => rfl
    | cons name names ih => exact ih
  rw [afterHooks]
  split
  · exact kept _ _
  · rfl

theorem hostAfterHooks_plain (settings : Settings) (host : Host) :
    plain.hostAfterHooks settings host = host := by
  rw [hostAfterHooks, afterHooks_plain]

theorem write_plain (i : Invocation) (n : Nat) (events : List Event) :
    plain.write i n events = { output := String.join ((Event.prints events).map Printout.line) } := by
  induction events generalizing n with
  | nil => rfl
  | cons event rest ih =>
    cases event with
    | record r => simpa [write, writeRecord, shows, plain, Event.prints] using ih (n + 1)
    | print line =>
      have taken : plain.charset.takes line = true := Charset.takes_full line
      rw [write, if_pos taken, ih]
      simp [Event.prints]

end Runtime

namespace CommandLine

variable {i : Invocation} {env : Environment} {host : Host}

/-- The answer of a session that has come to its end. -/
def answerOf : Except Failure Nat × Course → Answer
  | (.ok status, c) => ⟨.ok status, c.printed, "", c.host, c.requests⟩
  | (.error failure, c) => { Answer.failure c.host c.printed failure with requests := c.requests }

theorem close_plain (i : Invocation) (ended : Except Failure Nat × Course) :
    close .plain i ended = (answerOf ended).transcript := by
  obtain ⟨ending, c⟩ := ended
  have escaped (s : String) : Runtime.plain.charset.escaped s = s := Charset.escaped_full s
  simp only [close, Runtime.write_plain, escaped]
  rcases ending with (p | fault) | status <;> rfl

theorem answerOf_error {c : Course} {output : String} (quiet : c.requests = [])
    (printed : c.printed = output) (failure : Failure) :
    answerOf (.error failure, c) = .failure c.host output failure := by
  rw [answerOf, quiet, printed]
  cases failure <;> rfl

theorem answerOf_ok {c : Course} {output : String} (quiet : c.requests = [])
    (printed : c.printed = output) : answerOf (.ok 0, c) = .success c.host output := by
  rw [answerOf, quiet, printed]
  rfl

/-! ### Commands -/

theorem answerOf_validate (settings : Settings) (host : Host) :
    answerOf ((Session.validate settings).run { host }) =
      .ofResult host (validate settings host.files) := by
  rw [Session.run_validate, validate]
  cases Run.load settings host.files with
  | error failure => exact answerOf_error (c := Course.tell _ { host }) rfl (by simp) failure
  | ok d => exact answerOf_ok (c := Course.print _ (Course.tell _ { host })) rfl (by simp)

theorem answerOf_nodes (settings : Settings) (host : Host) :
    answerOf ((Session.nodes settings).run { host }) = .ofResult host (nodes settings host.files) := by
  rw [Session.run_nodes, nodes]
  cases Run.load settings host.files with
  | error failure => exact answerOf_error (c := Course.tell _ { host }) rfl (by simp) failure
  | ok d => exact answerOf_ok (c := Course.print _ (Course.tell _ { host })) rfl (by simp)

/-- A printout ends a session as it ends an answer. -/
theorem answerOf_printAll (rows : List (Except Failure String)) {c : Course} (quiet : c.requests = [])
    (printed : c.printed = "") :
    answerOf ((Session.printAll rows >>= fun _ => pure 0).run c) =
      match (Printout.ofLines rows).failure with
      | some failure => .failure c.host (Printout.ofLines rows).output failure
      | none => .success c.host (Printout.ofLines rows).output := by
  have whole : (c.print (Printout.made rows)).printed = (Printout.ofLines rows).output := by
    rw [Course.printed_print, printed, String.empty_append, Printout.output_ofLines]
  rw [Step.run_bind, Session.run_printAll]
  cases (Printout.ofLines rows).failure with
  | some failure => exact answerOf_error (c := c.print _) quiet whole failure
  | none => exact answerOf_ok (c := c.print _) quiet whole

/-- A plan is printed in a session as it is in an answer. -/
theorem answerOf_printPlan (nodes : List CompiledNode) {c : Course} (quiet : c.requests = [])
    (printed : c.printed = "") :
    answerOf ((Session.printPlan i nodes >>= fun _ => pure 0).run c) =
      if i.jsonOutput then .ofResult c.host (Vagrant.planText nodes)
      else
        match Printout.ofLines (nodes.flatMap nodeLines) with
        | ⟨output, none⟩ => .success c.host output
        | ⟨output, some failure⟩ => .failure c.host output failure := by
  rw [Session.printPlan]
  split
  · rw [Vagrant.planText]
    simp only [Step.run_bind, Step.run_outcome, Vagrant.textOfPlan]
    cases planValue nodes with
    | error failure => exact answerOf_error quiet printed failure
    | ok plan =>
      simp only [bind, Except.bind]
      cases Json.document plan with
      | error failure => exact answerOf_error quiet printed failure
      | ok text => exact answerOf_ok (c := c.print [text]) quiet (by simp [printed, Printout.line])
  · rw [answerOf_printAll _ quiet printed]
    cases Printout.ofLines (nodes.flatMap nodeLines) with
    | mk output ending => cases ending <;> rfl

theorem answerOf_compile (i : Invocation) (settings : Settings) (host : Host) :
    answerOf ((Session.compile .plain i settings).run { host }) = compile i settings host := by
  obtain ⟨rs, after, same, ran⟩ := Session.run_chosen .plain i settings { host }
  rw [Runtime.hostAfterHooks_plain, or_self] at same
  rw [Session.compile, Step.run_bind, ran, same]
  simp only [compile]
  rw [← chosenNodes]
  cases chosenNodes i settings host.files with
  | error failure =>
    exact answerOf_error (c := (Course.tell rs { host }).inHost host) rfl (by simp) failure
  | ok nodes =>
    exact answerOf_printPlan (c := (Course.tell rs { host }).inHost host) nodes rfl (by simp)

theorem run_preview (nodes : List CompiledNode) :
    ((Preview.backend "" []).apply nodes).run .empty =
      (match (Preview.printout nodes).failure with
        | some failure => .error failure
        | none => .ok (), ⟨[], (Preview.printout nodes).output, nodes⟩) := by
  simp only [Preview.backend, Step.run_modify_bind, PreviewState.empty, String.empty_append]
  cases (Preview.printout nodes).failure <;> rfl

/-- The answer with what a preview has shown. -/
def ofPreview (host : Host) : Option Failure × PreviewState → Answer
  | (some failure, shown) => .failure host shown.shown failure
  | (none, shown) => .success host shown.shown

theorem apply_eq_ofPreview (dry : i.dryRun = true) (settings : Settings) (host : Host) :
    apply i settings host = ofPreview host
      (((Run.run settings host.files (Preview.backend "" []) true none).run .empty).map
        RunResult.failure id) := by
  rw [apply, if_pos dry, StateT.run]
  rcases Run.run settings host.files (Preview.backend "" []) true none .empty with
    ⟨⟨progress, _ | failure⟩, shown⟩ <;> rfl

/-- The answer to a dry run prints the plan, if there is one. -/
theorem apply_of_dryRun (dry : i.dryRun = true) (settings : Settings) (host : Host) :
    apply i settings host =
      match Run.planned settings host.files with
      | .error failure => .failure host "" failure
      | .ok nodes =>
        match (Preview.printout nodes).failure with
        | some failure => .failure host (Preview.printout nodes).output failure
        | none => .success host (Preview.printout nodes).output := by
  rw [apply_eq_ofPreview dry, Run.run_unprepared]
  cases Run.planned settings host.files with
  | error failure => rfl
  | ok nodes =>
    simp only [run_preview]
    cases (Preview.printout nodes).failure <;> rfl

theorem answerOf_dryRun (dry : i.dryRun = true) (settings : Settings) (host : Host) :
    answerOf ((Session.apply .plain i settings).run { host }) = apply i settings host := by
  have whole {nodes : List CompiledNode} (c : Course) (printed : c.printed = "") :
      (c.print (Printout.made (Preview.lines nodes))).printed = (Preview.printout nodes).output := by
    rw [Course.printed_print, printed, Preview.printout, Printout.output_ofLines,
      String.empty_append]
  have ended := Session.rehearsed_apply dry .plain settings host
  rw [apply_of_dryRun dry]
  generalize (Session.apply .plain i settings).run { host } = last at ended ⊢
  cases ended with
  | @unplanned failure rs after same planned =>
    rw [Runtime.hostAfterHooks_plain, or_self] at same
    rw [planned, same]
    exact answerOf_error (c := Course.inHost (Course.tell rs { host }) host) rfl (by simp) failure
  | @brokenOff nodes failure rs after same planned failed =>
    rw [Runtime.hostAfterHooks_plain, or_self] at same
    rw [planned, same]
    simp only [failed]
    exact answerOf_error (c := Course.print _ (Course.inHost _ host)) rfl (whole _ (by simp)) failure
  | @shown nodes rs later after same planned complete =>
    rw [Runtime.hostAfterHooks_plain, or_self] at same
    rw [planned, same]
    simp only [complete]
    exact answerOf_ok (c := Course.tell _ (Course.print _ (Course.inHost _ host))) rfl
      ((Course.printed_tell _ _).trans (whole _ (by simp)))

theorem answerOf_writes (real : i.dryRun = false) (settings : Settings) (host : Host) :
    answerOf ((Session.apply .plain i settings).run { host }) =
      ofRun (((Run.run settings host.files (vagrant settings).backend i.skipPreflight none).run
        host).map RunResult.failure id) := by
  obtain ⟨rs, ran⟩ := Session.run_planned .plain i settings { host }
  rw [Session.apply, Step.run_bind, ran, Run.run, real, Bool.false_or]
  cases Run.load settings host.files with
  | error failure => exact answerOf_error (c := Course.tell rs { host }) rfl (by simp) failure
  | ok d =>
    simp only [Runtime.hostAfterHooks_plain]
    have kept := Run.keeps_checks settings (vagrant settings).backend
      (Vagrant.tidy (vagrant settings)) i.skipPreflight d host
    rw [Run.finish_eq]
    rcases checked : (Run.checks settings (vagrant settings).backend i.skipPreflight d).run host with
      ⟨failure | _, after⟩
    · exact answerOf_error (c := (Course.tell rs { host }).inHost after) rfl (by simp) failure
    · rw [checked] at kept
      replace kept : after.files = host.files := kept
      simp only [kept]
      cases Run.compile settings host.files none d with
      | error failure =>
        exact answerOf_error (c := (Course.tell rs { host }).inHost after) rfl (by simp) failure
      | ok nodes =>
        obtain ⟨later, handed⟩ := Session.run_handOver_of_written real settings nodes
          ((Course.tell rs { host }).inHost after)
        simp only [Step.run_bind, handed, Course.host_inHost]
        rcases ((vagrant settings).backend.apply nodes).run after with ⟨failure | _, last⟩
        · exact answerOf_error (c := Course.inHost (Course.tell later _) last) rfl (by simp) failure
        · exact answerOf_ok (c := Course.tell _ (Course.inHost (Course.tell later _) last)) rfl (by simp)

theorem answerOf_preflight (i : Invocation) (settings : Settings) (env : Environment) (host : Host) :
    answerOf ((Session.preflight .plain i settings env).run { host }) =
      preflight i settings env host := by
  rw [Session.run_preflight, preflight]
  rcases (Preflight.run settings host.files (vagrant settings).backend i.checkBoxes env.network
    boxTimeout).run host with ⟨⟨failure | report, requests⟩, after⟩
  · simp [answerOf]
  · simp [answerOf, Printout.line]

/-- An invocation leaves the answer that it is given, if nothing surrounds it. -/
theorem answerOf_invocation (i : Invocation) (env : Environment) (host : Host) :
    answerOf ((Session.ofInvocation .plain i env).run { host }) = invoke i env host := by
  rw [Session.run_ofInvocation]
  cases command : i.command with
  | validate =>
    rw [invoke, command]
    exact answerOf_validate _ host
  | nodes =>
    rw [invoke, command]
    exact answerOf_nodes _ host
  | compile =>
    rw [invoke, command]
    exact answerOf_compile i _ host
  | preflight =>
    rw [invoke, command]
    exact answerOf_preflight i _ env host
  | apply =>
    cases dry : i.dryRun with
    | true =>
      rw [invoke, command]
      exact answerOf_dryRun dry _ host
    | false =>
      rw [invoke_of_writes ⟨command, dry⟩]
      exact answerOf_writes dry _ host

/-- Without a log, without a cache and with outputs that take every text, a command line leaves the
transcript that its answer is. -/
theorem transcript_plain (words : List String) (env : Environment) (host : Host) :
    transcript .plain words env host = (answer words env host).transcript := by
  have escaped (s : String) : Runtime.plain.charset.escaped s = s := Charset.escaped_full s
  rw [transcript, answer]
  rcases Request.ofWords words with ⟨command, complaint⟩ | command | _ | i
  · simp only [escaped]
    rfl
  · rfl
  · rfl
  · simp only [close_plain, answerOf_invocation]

end CommandLine

end MachinePlan
