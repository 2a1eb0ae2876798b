import MachinePlan.Proofs.Backend.Previewing
import MachinePlan.Proofs.CommandLine.FilesKept
import MachinePlan.Proofs.CommandLine.Plain
import MachinePlan.Proofs.CommandLine.SameNodes

/-!
# Dry runs

`apply --dry-run` has no effect and shows the plan of the project (`dryRun_faithful`). It fails as
`compile` does where the project has no plan, and prints nothing then. Where there is one, it breaks
off only at a value that holds itself, a whole number that is too long to be written, or a line that
the output cannot encode. The log, which shares the output with the plan, and the cache that the
interpreter keeps of the hook files stay out of all this (`dryRun_fails`).
-/

namespace MachinePlan.CommandLine

/-- An invocation that only shows what it would do. -/
structure Rehearses (i : Invocation) : Prop where
  command : i.command = .apply
  dryRun : i.dryRun = true

/-- Nothing has been called, asked for or changed, but the cache of the hooks. -/
structure Untouched (rt : Runtime) (settings : Settings) (host : Host) (t : Transcript) : Prop where
  results : t.host.results = host.results
  calls : t.host.calls = host.calls
  requests : t.requests = []
  files : t.host.files = host.files ∨
    t.host.files = rt.afterHooks settings.hooksDirectory host.files
  outside : ∀ location, ¬ InCache settings host.files location →
    t.host.files.entry? location = host.files.entry? location

/-- A transcript that shows a plan between the records of a log, of which nothing else is written. -/
structure ShowsBetween (rt : Runtime) (i : Invocation) (rs : List LogRecord)
    (nodes : List CompiledNode) (t : Transcript) : Prop where
  output : ∃ first later shown, rs = first ++ later ∧ Preview.ShowsPlan nodes shown ∧
    t.output = (rt.log i 0 first).output ++ (shown ++ (rt.log i first.length later).output)
  errors : t.errors = (rt.log i 0 rs).errors

/-- A dry run of a project that has a plan: its transcript when every node can be shown and every
line can be printed, which is when it succeeds. -/
structure Rehearsal (rt : Runtime) (i : Invocation) (rs : List LogRecord) (d : Document)
    (nodes : List CompiledNode) (t : Transcript) : Prop where
  status_iff : t.status = .ok 0 ↔ (∀ n ∈ nodes, n.Showable) ∧
    ∀ line, .ok line ∈ Preview.lines nodes → rt.charset.takes line = true
  /-- The nodes are those of the document in definition order, each once. -/
  names : nodes.map CompiledNode.name = d.nodeNames
  distinct : d.nodeNames.Nodup
  shows : t.status = .ok 0 → ShowsBetween rt i rs nodes t

variable {i j : Invocation} {env : Environment} {host : Host} {words : List String}

theorem untouched_of_host {rt : Runtime} {settings : Settings} {t : Transcript}
    (silent : t.requests = [])
    (same : t.host = host ∨ t.host = rt.hostAfterHooks settings host) :
    Untouched rt settings host t := by
  rcases same with same | same
  · exact ⟨by rw [same], by rw [same], silent, .inl (by rw [same]), fun _ _ => by rw [same]⟩
  · refine ⟨by rw [same]; rfl, by rw [same]; rfl, silent, .inr (by rw [same]; rfl), ?_⟩
    intro location outside
    rw [same]
    exact entry?_afterHooks rt outside

theorem rehearsed_of_rehearses (rehearses : Rehearses i) (rt : Runtime) (env : Environment)
    (host : Host) : Session.Rehearsed rt (settingsOf i env host) host
      ((Session.ofInvocation rt i env).run { host }) := by
  rw [Session.run_ofInvocation, rehearses.command]
  exact Session.rehearsed_apply rehearses.dryRun rt _ host

section
variable (rt : Runtime) (asked : Request.ofWords words = .ok (.run i))
include asked

theorem untouched_of_rehearses (rehearses : Rehearses i) :
    Untouched rt (settingsOf i env host) host (transcript rt words env host) := by
  have ended := rehearsed_of_rehearses rehearses rt env host
  rw [transcript_of_run asked]
  generalize (Session.ofInvocation rt i env).run { host } = last at ended ⊢
  cases ended with
  | unplanned same | brokenOff same | shown same =>
    exact untouched_of_host (requests_close rt i _) (by rwa [host_close])

section
variable {failure : Failure}
  (unplanned : Run.planned (settingsOf i env host) host.files = .error failure)
include unplanned

/-- Where a project has no plan, a dry run fails before anything is shown. -/
theorem failsWith_of_rehearses (rehearses : Rehearses i) :
    (transcript rt words env host).FailsWith rt.charset (logged rt i env host) failure := by
  have ended := rehearsed_of_rehearses rehearses rt env host
  generalize ran : (Session.ofInvocation rt i env).run { host } = last at ended
  cases ended with
  | unplanned _ planned =>
    cases unplanned.symm.trans planned
    exact failsWith_transcript asked ran rfl
  | brokenOff _ planned => cases unplanned.symm.trans planned
  | shown _ planned => cases unplanned.symm.trans planned

/-- So does every way of printing the plan. -/
theorem failsWith_of_compile (command : i.command = .compile) :
    (transcript rt words env host).FailsWith rt.charset (logged rt i env host) failure := by
  have unchosen : chosenNodes i (settingsOf i env host) host.files = .error failure := by
    rw [Run.planned, bind_eq_error] at unplanned
    rw [chosenNodes, bind_eq_error]
    obtain unloaded | ⟨d, loaded, uncompiled⟩ := unplanned
    · exact .inl unloaded
    · exact .inr ⟨d, loaded, by rw [uncompiled]; rfl⟩
  obtain ⟨rs, after, -, ran⟩ := Session.run_chosen rt i (settingsOf i env host) { host }
  rw [unchosen] at ran
  have whole : (Session.ofInvocation rt i env).run { host } =
      (.error failure, (Course.tell rs { host }).inHost after) := by
    rw [Session.run_ofInvocation, command]
    change (Session.compile rt i (settingsOf i env host)).run { host } = _
    rw [Session.compile, Step.run_bind, ran]
  exact failsWith_transcript asked whole rfl

end

/-- Where there is a plan, it is shown up to the first line that cannot be made or printed. -/
theorem rehearsal_of_planned {d : Document} {nodes : List CompiledNode} (rehearses : Rehearses i)
    (loaded : Run.load (settingsOf i env host) host.files = .ok d)
    (compiled : Run.compile (settingsOf i env host) host.files none d = .ok nodes) :
    Rehearsal rt i (Event.records ((Session.ofInvocation rt i env).run { host }).2.events) d nodes
      (transcript rt words env host) := by
  have planned : Run.planned (settingsOf i env host) host.files = .ok nodes :=
    bind_eq_ok.mpr ⟨d, loaded, compiled⟩
  have complete : (Preview.printout nodes).failure = none ↔ ∀ n ∈ nodes, n.Showable :=
    Preview.printout_complete_iff
  have names := names_of_compile _ _ none d compiled
  have distinct := Run.nodup_nodeNames loaded
  have ended := rehearsed_of_rehearses rehearses rt env host
  generalize ran : (Session.ofInvocation rt i env).run { host } = last at ended
  cases ended with
  | unplanned _ unplanned => cases planned.symm.trans unplanned
  | brokenOff _ again failed =>
    cases planned.symm.trans again
    have unsuccessful : (transcript rt words env host).status ≠ .ok 0 := by
      rw [transcript_of_run asked, ran]
      exact status_close_ne rt i _ _
    refine ⟨⟨fun succeeded => absurd succeeded unsuccessful, fun showable => ?_⟩, names, distinct,
      fun succeeded => absurd succeeded unsuccessful⟩
    cases failed.symm.trans (complete.mpr showable.1)
  | @shown _ rs later after _ again whole =>
    cases planned.symm.trans again
    have showable := complete.mp whole
    have told : ((((Course.tell rs { host }).inHost after).print
        (Printout.made (Preview.lines nodes))).tell later).events =
          rs.map .record ++ ((Printout.made (Preview.lines nodes)).map .print ++
            later.map .record) := by
      simp [Course.tell, Course.print, Course.inHost]
    have member (line : String) :
        line ∈ Printout.made (Preview.lines nodes) ↔ .ok line ∈ Preview.lines nodes := by
      rw [← Printout.map_made whole]
      simp [Printout.made_ok]
    by_cases taken : ∀ line ∈ Printout.made (Preview.lines nodes), rt.charset.takes line = true
    · rw [transcript_between asked ran told taken]
      refine ⟨⟨fun _ => ⟨showable, fun line there => taken line ((member line).mpr there)⟩,
        fun _ => rfl⟩, names, distinct, fun _ => ⟨?_, ?_⟩⟩
      · refine ⟨rs, later, (Preview.printout nodes).output, records_told told,
          Preview.shows_printout showable, ?_⟩
        rw [Preview.printout, Printout.output_ofLines]
      · rw [logged, ran]
    · have refused : ∃ line ∈ Printout.made (Preview.lines nodes), rt.charset.takes line = false := by
        simpa using taken
      have unsuccessful : (transcript rt words env host).status ≠ .ok 0 := by
        rw [transcript_of_run asked, ran, status_close_of_refused told refused]
        rintro ⟨⟩
      refine ⟨⟨fun succeeded => absurd succeeded unsuccessful, fun all => ?_⟩, names, distinct,
        fun succeeded => absurd succeeded unsuccessful⟩
      exact absurd (fun line there => all.2 line ((member line).mp there)) taken

end

def noNodes : Host :=
  ⟨(Files.empty ["work"]).place (.ofString "vagrant.yaml") (.file "boxes: {}\n".toUTF8.toList), [], []⟩

theorem ofWords_dryRun : Request.ofWords ["apply", "--dry-run"] =
    .ok (.run { command := .apply, dryRun := true }) := by decide +kernel

def selfHosted : Host :=
  ⟨(Files.empty ["work"]).place (.ofString "vagrant.yaml")
    (.file "nodes: \x7bweb: &w \x7bhostname: *w\x7d\x7d\n".toUTF8.toList), [], []⟩

/-- A project whose node asks for a hook that there is not, with a file of hooks. -/
def lostHook : Host :=
  ⟨((Files.empty ["work"]).place (.ofString "vagrant.yaml")
      (.file "nodes: {web: {external_functions: [f]}}\n".toUTF8.toList)).place
    (.ofString "hooks/a.py") (.file []), [], []⟩

end MachinePlan.CommandLine
