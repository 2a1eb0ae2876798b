import MachinePlan.Proofs.Backend.Traced
import MachinePlan.Proofs.CommandLine.FilesKept
import MachinePlan.Proofs.CommandLine.Plain
import MachinePlan.Proofs.CommandLine.SameNodes
import MachinePlan.Proofs.Compile.Traced
import MachinePlan.Proofs.Document.Traced
import MachinePlan.Proofs.Preflight.Views

/-!
# The line of an error

A command that stops at a problem ends with status one and writes the message behind a mark on the
error output, with a line feed at the end and with numbers for what the output cannot encode. That is
one line exactly when every text is that the message quotes, and each line break inside it stands in
a text from outside: a setting, a name in the document or in a hook file, what the reader of the
markup or the interpreter says about a file, or what the tool says about its version. Nothing else
comes to the error output but the log, and no log comes there unless the output holds a plan in JSON
or cannot encode a record (`problem_told`). The report is not always one line, as the name of a node
can hold a line break (`problem_told_fails`).
-/

namespace MachinePlan

namespace CommandLine

open Text

/-- An invocation that checks the tool before it compiles. -/
structure Prepares (i : Invocation) : Prop where
  command : i.command = .apply
  dryRun : i.dryRun = false
  skipPreflight : i.skipPreflight = false

/-- A problem that an invocation stops at. The checks before a run stop at none: what they find is in
their report. -/
inductive Meets (i : Invocation) (settings : Settings) (host : Host) (p : Problem) : Prop
  | unloaded (command : i.command ≠ .preflight)
      (failed : Run.load settings host.files = .error (.problem p))
  | unprepared {d : Document} (prepares : Prepares i) (loaded : Run.load settings host.files = .ok d)
      (failed : ((Run.prepare settings (vagrant settings).backend d).run host).1 =
        .error (.problem p))
  | uncompiled {d : Document} (plans : i.command = .compile ∨ i.command = .apply)
      (loaded : Run.load settings host.files = .ok d)
      (prepared : Prepares i →
        ((Run.prepare settings (vagrant settings).backend d).run host).1 = .ok ())
      (failed : Run.compile settings host.files none d = .error (.problem p))
  | unselected {d : Document} {nodes : List CompiledNode} (command : i.command = .compile)
      (loaded : Run.load settings host.files = .ok d)
      (compiled : Run.compile settings host.files none d = .ok nodes)
      (failed : selectNodes i.node d nodes = .error (.problem p))

/-- A text from outside that a message can quote. -/
inductive Quotable (i : Invocation) (settings : Settings) (host : Host) : String → Prop
  | configFile : Quotable i settings host settings.configFile.text
  | localConfigFile : Quotable i settings host settings.localConfigFile.text
  /-- What the reader of the markup says about one of the two files. -/
  | complaint {p : Path} {reason : String}
      (asked : p = settings.configFile ∨ p = settings.localConfigFile)
      (complains : Document.Complains host.files p reason) : Quotable i settings host reason
  | versionConstraint : Quotable i settings host settings.versionConstraint
  /-- The name of the one node that is asked for. -/
  | asked : Quotable i settings host i.node
  /-- The name of a node, also of one that is not well-formed. -/
  | node {data : Value} {name : String}
      (merged : Document.Merged host.files settings.configFile (some settings.localConfigFile) data)
      (names : Document.NamesNode data name) : Quotable i settings host name
  /-- The name of a provisioner, a provider or a hook in a node. -/
  | inNode {d : Document} {entry : String × Node} {v : Value} {name : String}
      (loaded : Run.load settings host.files = .ok d) (member : entry ∈ d.nodes)
      (namer : v ∈ entry.2.namers) (text : v.text = .ok name) : Quotable i settings host name
  | plugin {d : Document} {plugin : String} (loaded : Run.load settings host.files = .ok d)
      (required : plugin ∈ d.plugins) : Quotable i settings host plugin
  /-- What the tool answers first. -/
  | version {result : CommandResult} {rest : List CommandResult}
      (answers : host.results = result :: rest) : Quotable i settings host result.output
  | hookFile {file : String} (here : IsHookFile host.files settings.hooksDirectory file) :
      Quotable i settings host (settings.hooksDirectory.child file).text
  /-- A name or a message in a hook file. -/
  | inHookFile {text : String} (written : InHookFile host.files settings.hooksDirectory text) :
      Quotable i settings host text
  /-- What the interpreter says about a hook file that it does not run. -/
  | aboutHookFile {reason : String}
      (said : AboutHookFile host.files settings.hooksDirectory reason) :
      Quotable i settings host reason

/-- A transcript that reports a problem whose message quotes some texts, behind the log. -/
structure Told (quotable : String → Prop) (charset : Charset) (log : Writing) (p : Problem)
    (t : Transcript) : Prop where
  status : t.status = .ok 1
  output : t.output = log.output
  errors : t.errors = log.errors ++ charset.escaped (errorLine p)
  /-- The report is one line if no break can be encoded of those in what it quotes. -/
  oneLine_iff : lines (charset.escaped (errorLine p)).toList =
      [("ERROR: " ++ charset.escaped p.message).toList] ↔
    ∀ text ∈ p.quotes, charset.Unbroken text
  /-- A line break inside the message is one of a text from outside. -/
  traced : BreaksFrom quotable p.message
  /-- Where no such text has a line break, the report is one line. -/
  plain : (∀ text, quotable text → Unbroken text.toList) →
    lines (charset.escaped (errorLine p)).toList =
      [("ERROR: " ++ charset.escaped p.message).toList]

/-! ### The line -/

/-- What a message quotes decides whether it stays one line. -/
theorem unbroken_message_iff (charset : Charset) (p : Problem) :
    charset.Unbroken p.message ↔ ∀ text ∈ p.quotes, charset.Unbroken text := by
  simp only [Charset.unbroken_iff_breaks]
  rw [p.breaks_message, List.forall_mem_flatMap]

theorem escaped_errorLine (charset : Charset) (p : Problem) :
    charset.escaped (errorLine p) = "ERROR: " ++ charset.escaped p.message ++ "\n" := by
  rw [errorLine, Charset.escaped_append (by decide), Charset.escaped_ascii_append (by decide)]

theorem lines_errors_iff (message : String) :
    lines ("ERROR: " ++ message ++ "\n").toList = [("ERROR: " ++ message).toList] ↔
      Unbroken message.toList := by
  have mark : Unbroken "ERROR: ".toList := by decide +kernel
  have whole : Unbroken ("ERROR: " ++ message).toList ↔ Unbroken message.toList := by
    rw [String.toList_append]
    exact List.forall_mem_append.trans (and_iff_right mark)
  rw [← whole, String.toList_append]
  constructor
  · intro single
    exact unbroken_of_mem_lines (single ▸ List.mem_cons_self)
  · intro unbroken
    exact lines_append_newline unbroken []

theorem told_of_traced {quotable : String → Prop} {charset : Charset} {log : Writing} {p : Problem}
    {t : Transcript} (traced : p.Traced quotable) (failed : t.FailsWith charset log (.problem p)) :
    Told quotable charset log p t where
  status := failed.status
  output := failed.output
  errors := failed.errors
  oneLine_iff := by
    rw [escaped_errorLine, lines_errors_iff, Charset.unbroken_escaped_iff,
      unbroken_message_iff]
  traced := traced.message
  plain unbroken := by
    rw [escaped_errorLine, lines_errors_iff, Charset.unbroken_escaped_iff]
    exact Charset.unbroken_of_unbroken (traced.message.unbroken unbroken)

/-! ### The stages of a command -/

section
variable {i : Invocation} {settings : Settings} {host : Host} {d : Document}

theorem reveals_load :
    Reveals (·.Traced (Quotable i settings host)) (Run.load settings host.files) :=
  Run.reveals_load ⟨.configFile, fun _ => .complaint (.inl rfl)⟩
    ⟨.localConfigFile, fun _ => .complaint (.inr rfl)⟩ fun _ merged _ names => .node merged names

theorem quotable_of_load (loaded : Run.load settings host.files = .ok d) :
    ∀ entry ∈ d.nodes, entry.2.name = entry.1 ∧ Quotable i settings host entry.1 := by
  obtain ⟨data, merged, named⟩ := Document.named_of_load (Run.load_eq_ok loaded)
  exact fun entry member => ⟨(named entry member).1, .node merged (named entry member).2⟩

theorem reveals_compile (loaded : Run.load settings host.files = .ok d) :
    Reveals (·.Traced (Quotable i settings host)) (Run.compile settings host.files none d) := by
  obtain ⟨hooks, known⟩ :
      Reveals (·.Traced (Quotable i settings host))
        (Registry.empty.loadDirectory host.files settings.hooksDirectory).result ∧
      ∀ registry, (Registry.empty.loadDirectory host.files settings.hooksDirectory).result =
        .ok registry → registry.From (Quotable i settings host) :=
    Registry.reveals_loadDirectory (fun _ here => .hookFile here) (fun _ written => .inHookFile written)
      fun _ said => .aboutHookFile said
  refine .bind hooks fun registry ended => ?_
  refine Compile.reveals_document (known registry ended) (fun entry member => ?_)
    fun entry member v namer name text => .inNode loaded member namer text
  obtain ⟨same, quoted⟩ := quotable_of_load loaded entry member
  rwa [same]

theorem reveals_selectNodes (loaded : Run.load settings host.files = .ok d)
    (nodes : List CompiledNode) :
    Reveals (·.Traced (Quotable i settings host)) (selectNodes i.node d nodes) := by
  rw [selectNodes]
  split
  · exact .ok nodes
  · split
    · refine .problem (List.forall_mem_cons.mpr ⟨breaksFrom_of_source .asked, ?_⟩)
      exact List.forall_mem_map.mpr fun entry member =>
        breaksFrom_of_source (quotable_of_load loaded entry member).2
    · exact .ok _

/-- The line breaks in the message of a problem that is met can be traced back. -/
theorem Meets.traced {p : Problem} (meets : Meets i settings host p) :
    p.Traced (Quotable i settings host) := by
  cases meets with
  | unloaded _ failed => exact reveals_load p failed
  | unprepared _ loaded failed =>
    -- the version is the first thing that the tool is asked for
    exact Vagrant.reveals_prepare (vagrant settings) (fun _ _ answers => .version answers)
      .versionConstraint (fun _ required => .plugin loaded required) p failed
  | uncompiled _ loaded _ failed => exact reveals_compile loaded p failed
  | unselected _ loaded _ failed => exact reveals_selectNodes loaded _ p failed

end

/-! ### Sessions -/

/-- A session that has come to its end stops at the problem that its invocation meets, and then it
has printed nothing. -/
structure Stops (i : Invocation) (settings : Settings) (host : Host)
    (ended : Except Failure Nat × Course) : Prop where
  meets_iff : ∀ p, Meets i settings host p ↔ ended.1 = .error (.problem p)
  early : ∀ p, ended.1 = .error (.problem p) →
    ∃ rs : List LogRecord, ended.2.events = rs.map .record

section
variable {α : Type} {i : Invocation} {settings : Settings} {host : Host} {c : Course}
  {first : Session α} {next : α → Session Nat}

/-- What follows the part of a session that can stop at a problem. -/
theorem stops_of_bind
    (meets : ∀ p, Meets i settings host p ↔ (first.run c).1 = .error (.problem p))
    (noted : ∃ rs : List LogRecord, (first.run c).2.events = rs.map .record)
    (wordless : ∀ a, Step.Reports (fun _ => False) (next a)) :
    Stops i settings host ((first >>= next).run c) := by
  rw [Step.run_bind]
  rcases ran : first.run c with ⟨failure | a, after⟩
  · rw [ran] at meets noted
    refine ⟨fun p => ?_, fun _ _ => noted⟩
    rw [meets, Except.error.injEq, Except.error.injEq]
  · rw [ran] at meets
    refine ⟨fun p => ?_, fun p ended => (wordless a after p ended).elim⟩
    rw [meets]
    exact ⟨nofun, fun ended => (wordless a after p ended).elim⟩

theorem reports_printAll {rows : List (Except Failure String)} (each : ∀ l ∈ rows, Wordless l) :
    Step.Reports (fun _ => False) (Session.printAll rows) := by
  intro c
  rw [Session.run_printAll]
  cases printed : (Printout.ofLines rows).failure with
  | none => exact .ok ()
  | some failure => exact (Printout.wordless_ofLines each printed).of_error rfl

theorem reports_print (line : String) :
    Step.Reports (fun _ => False) (Session.print line) := fun _ => .ok ()

theorem reports_tell (rs : List LogRecord) :
    Step.Reports (fun _ => False) (Session.tell rs) := fun _ => .ok ()

/-! ### Documents that are read -/

theorem meets_iff_of_reads (reads : i.command = .validate ∨ i.command = .nodes)
    (settings : Settings) (host : Host) (p : Problem) :
    Meets i settings host p ↔ Run.load settings host.files = .error (.problem p) := by
  constructor
  · rintro (⟨-, failed⟩ | ⟨prepares, -⟩ | ⟨plans, -⟩ | ⟨command, -⟩)
    · exact failed
    · obtain reads | reads := reads <;> cases reads.symm.trans prepares.command
    · obtain reads | reads := reads <;> obtain plans | plans := plans <;>
        cases reads.symm.trans plans
    · obtain reads | reads := reads <;> cases reads.symm.trans command
  · refine .unloaded fun other => ?_
    obtain reads | reads := reads <;> cases reads.symm.trans other

theorem stops_of_reads (reads : i.command = .validate ∨ i.command = .nodes)
    {next : Document → Session Nat} (wordless : ∀ d, Step.Reports (fun _ => False) (next d)) :
    Stops i settings host ((Session.load settings >>= next).run { host }) := by
  refine stops_of_bind (fun p => ?_) ?_ wordless
  · rw [meets_iff_of_reads reads, Session.run_load]
  · rw [Session.run_load]
    exact ⟨_, rfl⟩

theorem stops_of_validate (command : i.command = .validate) :
    Stops i settings host ((Session.validate settings).run { host }) :=
  stops_of_reads (.inl command) fun _ => .bind (reports_print _) fun _ => .pure 0

theorem stops_of_nodes (command : i.command = .nodes) :
    Stops i settings host ((Session.nodes settings).run { host }) :=
  stops_of_reads (.inr command) fun _ =>
    .bind (reports_printAll (List.forall_mem_map.mpr fun name _ => .ok name)) fun _ => .pure 0

/-! ### Plans that are printed -/

theorem meets_iff_of_compile (command : i.command = .compile) (settings : Settings) (host : Host)
    (p : Problem) :
    Meets i settings host p ↔ chosenNodes i settings host.files = .error (.problem p) := by
  simp only [chosenNodes, bind_eq_error]
  constructor
  · rintro (⟨-, failed⟩ | ⟨prepares, -⟩ | ⟨-, loaded, -, failed⟩ | ⟨-, loaded, compiled, failed⟩)
    · exact .inl failed
    · cases command.symm.trans prepares.command
    · exact .inr ⟨_, loaded, .inl failed⟩
    · exact .inr ⟨_, loaded, .inr ⟨_, compiled, failed⟩⟩
  · rintro (unloaded | ⟨d, loaded, uncompiled | ⟨nodes, compiled, unselected⟩⟩)
    · exact .unloaded (fun other => by cases command.symm.trans other) unloaded
    · refine .uncompiled (.inl command) loaded (fun prepares => ?_) uncompiled
      cases command.symm.trans prepares.command
    · exact .unselected command loaded compiled unselected

theorem wordless_operationLine (op : Operation) : Wordless (operationLine op) :=
  .bind op.wordless_record fun _ _ => .bind (.map (Json.wordless_write _ _ _)) fun _ _ => .ok _

theorem wordless_nodeLines (nodes : List CompiledNode) :
    ∀ l ∈ nodes.flatMap nodeLines, Wordless l := by
  intro l member
  obtain ⟨n, -, inside⟩ := List.mem_flatMap.mp member
  obtain rfl | inside := List.mem_cons.mp inside
  · exact .ok _
  · obtain ⟨op, -, rfl⟩ := List.mem_map.mp inside
    exact wordless_operationLine op

theorem reports_printPlan (i : Invocation) (nodes : List CompiledNode) :
    Step.Reports (fun _ => False) (Session.printPlan i nodes) := by
  rw [Session.printPlan]
  split
  · exact .bind (.outcome (wordless_planValue nodes)) fun plan =>
      .bind (.outcome (.map (Json.wordless_write _ _ plan))) fun text => reports_print text
  · exact reports_printAll (wordless_nodeLines nodes)

theorem stops_of_compile (rt : Runtime) (command : i.command = .compile) :
    Stops i settings host ((Session.compile rt i settings).run { host }) := by
  obtain ⟨rs, after, -, ran⟩ := Session.run_chosen rt i settings { host }
  refine stops_of_bind (fun p => ?_) ?_ fun nodes => .bind (reports_printPlan i nodes) fun _ => .pure 0
  · rw [meets_iff_of_compile command, ran]
  · rw [ran]
    exact ⟨rs, rfl⟩

/-! ### Plans that are handed over -/

theorem prepares_iff (command : i.command = .apply) :
    Prepares i ↔ (i.dryRun || i.skipPreflight) = false := by
  rw [Bool.or_eq_false_iff]
  exact ⟨fun prepares => ⟨prepares.dryRun, prepares.skipPreflight⟩,
    fun checks => ⟨command, checks.1, checks.2⟩⟩

/-- What a plan that is handed over comes to, whatever is noted down and kept beside it. -/
theorem planned_outcome (rt : Runtime) (i : Invocation) (settings : Settings) (host : Host) :
    ((Session.planned rt i settings).run { host }).1 = (do
      let d ← Run.load settings host.files
      ((Run.checks settings (vagrant settings).backend (i.dryRun || i.skipPreflight) d).run host).1
      Run.compile settings host.files none d) := by
  obtain ⟨rs, ran⟩ := Session.run_planned rt i settings { host }
  rw [ran]
  cases Run.load settings host.files with
  | error failure => rfl
  | ok d =>
    have kept := Run.keeps_checks settings (vagrant settings).backend
      (Vagrant.tidy (vagrant settings)) (i.dryRun || i.skipPreflight) d host
    simp only [ok_bind]
    rcases checked : (Run.checks settings (vagrant settings).backend
      (i.dryRun || i.skipPreflight) d).run host with ⟨failure | _, after⟩
    · rfl
    · rw [checked] at kept
      replace kept : after.files = host.files := kept
      simp only [kept]
      rfl

theorem meets_iff_of_apply (command : i.command = .apply) (settings : Settings) (host : Host)
    (p : Problem) : Meets i settings host p ↔ (do
      let d ← Run.load settings host.files
      ((Run.checks settings (vagrant settings).backend (i.dryRun || i.skipPreflight) d).run host).1
      Run.compile settings host.files none d) = .error (.problem p) := by
  have checks (d : Document) : Run.checks settings (vagrant settings).backend
      (i.dryRun || i.skipPreflight) d = if i.dryRun || i.skipPreflight then pure ()
        else Run.prepare settings (vagrant settings).backend d := rfl
  simp only [bind_eq_error, checks]
  constructor
  · rintro (⟨-, failed⟩ | ⟨prepares, loaded, failed⟩ | ⟨-, loaded, prepared, failed⟩ | ⟨other, -⟩)
    · exact .inl failed
    · refine .inr ⟨_, loaded, .inl ?_⟩
      rwa [(prepares_iff command).mp prepares]
    · refine .inr ⟨_, loaded, .inr ⟨(), ?_, failed⟩⟩
      split
      · rfl
      · next checked => exact prepared ((prepares_iff command).mpr (eq_false_of_ne_true checked))
    · cases command.symm.trans other
  · rintro (unloaded | ⟨d, loaded, failed | ⟨_, prepared, uncompiled⟩⟩)
    · exact .unloaded (fun other => by cases command.symm.trans other) unloaded
    · split at failed
      · cases failed
      · next checked =>
        exact .unprepared ((prepares_iff command).mpr (eq_false_of_ne_true checked)) loaded failed
    · refine .uncompiled (.inr command) loaded (fun prepares => ?_) uncompiled
      rwa [(prepares_iff command).mp prepares] at prepared

theorem reports_handOver (i : Invocation) (settings : Settings) (nodes : List CompiledNode) :
    Step.Reports (fun _ => False) (Session.handOver i settings nodes) := by
  cases dry : i.dryRun with
  | true =>
    intro c
    rw [Session.run_handOver_of_dryRun dry]
    cases printed : (Preview.printout nodes).failure with
    | none => exact .ok ()
    | some failure => exact (Preview.wordless_printout printed).of_error rfl
  | false =>
    intro c
    obtain ⟨rs, ran⟩ := Session.run_handOver_of_written dry settings nodes c
    rw [ran]
    -- a plan that compiles is written, or it is misused
    exact (vagrant settings).wordless_writePlan nodes c.host

theorem stops_of_apply (rt : Runtime) (command : i.command = .apply) :
    Stops i settings host ((Session.apply rt i settings).run { host }) := by
  obtain ⟨rs, r, after, ran, -⟩ := planned_ended rt i settings host
  refine stops_of_bind (fun p => ?_) ?_ fun nodes =>
    .bind (reports_handOver i settings nodes) fun _ => .bind (reports_tell _) fun _ => .pure 0
  · rw [meets_iff_of_apply command, planned_outcome]
  · rw [ran]
    exact ⟨rs, rfl⟩

/-! ### Checks before a run -/

theorem wordless_checkConfig (settings : Settings) (fs : Files) :
    Wordless (Preflight.checkConfig settings fs) := by
  have told : Reveals (·.OfDocument fun _ => True)
      (Document.load fs settings.configFile (some settings.localConfigFile)) :=
    Document.reveals_load ⟨trivial, fun _ _ => trivial⟩ ⟨trivial, fun _ _ => trivial⟩
      fun _ _ _ _ => trivial
  rw [Preflight.checkConfig]
  split
  · exact .ok _
  · exact .ok _
  · next failure other stopped =>
    rintro p ⟨⟩
    obtain ⟨⟨problem, rfl⟩, -⟩ := told p stopped
    exact other problem rfl

theorem wordless_checkBackend {σ : Type} (b : Backend σ) (constraint : String) :
    Step.Reports (fun _ => False) (Preflight.checkBackend b constraint) := by
  refine .bind (.action b.version) fun output => .outcome ?_
  cases Preflight.versionView b.name output constraint with
  | accepted _ checks _ checked => exact checked ▸ .ok checks
  | refused _ checks _ checked => exact checked ▸ .ok checks
  | broken fault _ checked => exact checked ▸ .fault fault

theorem wordless_checkPlugins {σ : Type} (b : Backend σ) (document : Option Document) :
    Step.Reports (fun _ => False) (Preflight.checkPlugins b document) := by
  cases document with
  | none => exact .pure _
  | some d =>
    rw [Preflight.checkPlugins]
    split
    · exact .pure _
    · refine .bind (.action b.installedPlugins) fun installed => ?_
      split
      · exact fun _ => .fault .type
      · exact .pure _

/-- Whatever is wrong is an item of the report. -/
theorem wordless_preflight {σ : Type} (settings : Settings) (fs : Files) (b : Backend σ)
    (withBoxes : Bool) (network : String → BoxReply) (timeout : Value) (s : σ) :
    Wordless ((Preflight.run settings fs b withBoxes network timeout).run s).1.outcome := by
  have tools : Step.Reports (fun _ => False) (Preflight.checkTools settings fs b) :=
    .bind (.outcome (wordless_checkConfig settings fs)) fun _ =>
      .bind (wordless_checkBackend _ _) fun _ => .bind (wordless_checkPlugins _ _) fun _ => .pure _
  have told := tools s
  -- the boxes are asked for last, and only if there is a document
  rw [Preflight.run]
  simp only [StateT.run, bind, StateT.bind]
  rcases ended : (Preflight.checkTools settings fs b).run s with ⟨failure | ⟨_ | d, report⟩, t⟩
  · rw [ended] at told
    exact told.of_error rfl
  · exact .ok report
  · cases withBoxes with
    | false => exact .ok report
    | true => exact .map (BoxFindings.wordless_ofCatalog _ _ _)

theorem stops_of_preflight (rt : Runtime) (env : Environment) (command : i.command = .preflight) :
    Stops i settings host ((Session.preflight rt i settings env).run { host }) := by
  have never (p : Problem) : ¬ Meets i settings host p := by
    rintro (⟨other, -⟩ | ⟨prepares, -⟩ | ⟨plans, -⟩ | ⟨compiles, -⟩)
    · exact other command
    · cases command.symm.trans prepares.command
    · obtain plans | plans := plans <;> cases command.symm.trans plans
    · cases command.symm.trans compiles
  have wordless := wordless_preflight settings host.files (vagrant settings).backend i.checkBoxes
    env.network boxTimeout host
  have reported (p : Problem) :
      ((Session.preflight rt i settings env).run { host }).1 ≠ .error (.problem p) := by
    rw [Session.run_preflight]
    cases ended : ((Preflight.run settings host.files (vagrant settings).backend i.checkBoxes
      env.network boxTimeout).run host).1.outcome with
    | ok report =>
      simp only [ended]
      exact nofun
    | error failure =>
      rw [ended] at wordless
      simp only [ended]
      exact fun same => wordless p (congrArg _ (Except.error.inj same))
  exact ⟨fun p => ⟨fun meets => absurd meets (never p), fun ended => absurd ended (reported p)⟩,
    fun p ended => absurd ended (reported p)⟩

theorem stops_of_invocation (rt : Runtime) (i : Invocation) (env : Environment) (host : Host) :
    Stops i (settingsOf i env host) host ((Session.ofInvocation rt i env).run { host }) := by
  rw [Session.run_ofInvocation]
  cases command : i.command with
  | validate => exact stops_of_validate command
  | nodes => exact stops_of_nodes command
  | compile => exact stops_of_compile rt command
  | apply => exact stops_of_apply rt command
  | preflight => exact stops_of_preflight rt env command

end

/-! ### Command lines -/

/-- A program that ends without a problem reports nothing. -/
theorem errors_close_of_unreported {rt : Runtime} {i : Invocation} {c : Course}
    {ending : Except Failure Nat} (quiet : ∀ p, ending ≠ .error (.problem p)) :
    (close rt i (ending, c)).errors = (rt.write i 0 c.events).errors := by
  rw [close]
  split
  · split
    · exact String.append_empty
    · next p ended => exact absurd ended (quiet p)
    · exact String.append_empty
  · exact String.append_empty

def numberedNode (name : String) : Host :=
  ⟨(Files.empty ["work"]).place (.ofString "vagrant.yaml")
    (.file ("nodes: \x7b" ++ name ++ ": 5\x7d\n").toUTF8.toList), [], []⟩

theorem ofWords_validate : Request.ofWords ["validate"] = .ok (.run { command := .validate }) := by
  decide +kernel

theorem meets_of_load {i : Invocation} {settings : Settings} {host : Host} {p : Problem}
    (command : i.command ≠ .preflight)
    (failed : (Run.load settings host.files).map Document.nodeNames = .error (.problem p)) :
    Meets i settings host p := by
  refine .unloaded command ?_
  cases loaded : Run.load settings host.files with
  | ok d =>
    rw [loaded] at failed
    cases failed
  | error failure =>
    rw [loaded] at failed
    rw [Except.error.inj failed]

end CommandLine

end MachinePlan
