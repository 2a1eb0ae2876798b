import MachinePlan.Proofs.Backend.Layout
import MachinePlan.Proofs.CommandLine.Asking
import MachinePlan.Proofs.CommandLine.Logged
import MachinePlan.Proofs.CommandLine.SamePlan
import MachinePlan.Proofs.CommandLine.Sessions
import MachinePlan.Proofs.Document.Entrywise
import MachinePlan.Proofs.Json.Ascii
import MachinePlan.Proofs.Run.Calls

/-!
# Commands on the same nodes

`validate` counts the nodes of a project, `nodes` lists them, and `compile --json-output` prints the
plan of all of them or of the one that is asked for. The first two look at the document, the last at
what it is compiled to; for every project all of them speak of the same names in the same order, and
the plan of one node is its entry in the plan of all (`commands_agree`). JSON text can be printed
everywhere, the names themselves only where the output can encode them, and a word of its own that
begins with a hyphen asks for no node (`commands_agree_fails`).
-/

namespace MachinePlan

variable {settings : Settings} {fs : Files} {d : Document} {nodes : List CompiledNode}
  {n : CompiledNode} {name : String}

/-! ### Names of a project -/

theorem Document.nodup_nodeNames {v : Value} {sources : List Path}
    (read : ofValue v sources = .ok d) : d.nodeNames.Nodup := by
  obtain ⟨data, whole, -⟩ := bind_eq_ok.mp read
  have entries : v.entries? = some data := by
    rw [Value.entries] at whole
    cases found : v.entries? with
    | none => rw [found] at whole; cases whole
    | some es => rw [found] at whole; rw [Except.ok.inj whole]
  obtain ⟨es, -, named, -⟩ := ofValue_eq_ok entries read
  obtain ⟨new, -, put⟩ := readNodes_eq_ok_iff.mp named
  rw [nodeNames, ← put]
  exact nodup_names_putNodes nodup_names_nil

namespace Run

theorem load_congr {s t : Settings} (same : s.SameProject t) (fs : Files) : load s fs = load t fs := by
  simp only [load, same.configFile, same.localConfigFile]

/-- The names of a project are distinct. -/
theorem nodup_nodeNames (loaded : load settings fs = .ok d) : d.nodeNames.Nodup := by
  obtain ⟨d, read, loaded⟩ := bind_eq_ok.mp loaded
  obtain ⟨_, -, loaded⟩ := bind_eq_ok.mp loaded
  obtain rfl := Except.ok.inj loaded
  obtain ⟨base, -, read⟩ := bind_eq_ok.mp read
  obtain ⟨upper, -, read⟩ := bind_eq_ok.mp read
  cases upper with
  | none => exact Document.nodup_nodeNames read
  | some upper =>
    obtain ⟨merged, -, read⟩ := bind_eq_ok.mp read
    exact Document.nodup_nodeNames read

theorem nodes_ne_nil (loaded : load settings fs = .ok d) : d.nodes ≠ [] := by
  obtain ⟨d, -, loaded⟩ := bind_eq_ok.mp loaded
  obtain ⟨_, checked, loaded⟩ := bind_eq_ok.mp loaded
  obtain rfl := Except.ok.inj loaded
  intro empty
  rw [Document.check, empty] at checked
  cases checked

end Run

namespace CommandLine

/-! ### Transcripts -/

/-- A transcript that lists names behind the log. -/
structure Lists (log : Writing) (names : List String) (t : Transcript) : Prop where
  status : t.status = .ok 0
  output : t.output = log.output ++ String.join (names.map fun name => name ++ "\n")

/-- A transcript that counts names behind the log. -/
structure Counts (log : Writing) (names : List String) (t : Transcript) : Prop where
  status : t.status = .ok 0
  output : t.output = log.output ++
    (s!"OK: {names.length} nodes defined (" ++ ", ".intercalate names ++ ")" ++ "\n")

/-- A transcript that prints a plan, with the entries of the plan under the names of their nodes. -/
structure PrintsEntries (entries : List (String × String)) (t : Transcript) : Prop where
  status : t.status = .ok 0
  output : t.output = Vagrant.textOfEntries (entries.map Prod.snd)
  entry : ∀ e ∈ entries, ∃ n : CompiledNode, n.name = e.1 ∧ Vagrant.EntryText n e.2

/-- A transcript that refuses a name behind the log. -/
structure Refuses (charset : Charset) (log : Writing) (name : String) (names : List String)
    (t : Transcript) : Prop where
  status : t.status = .ok 1
  output : t.output = ""
  errors : t.errors = log.errors ++ charset.escaped
    ("ERROR: " ++ (s!"Unknown node: {name}. Available: " ++ ", ".intercalate names) ++ "\n")

/-- A transcript that counts and one that lists speak of the same distinct names. -/
structure SameNames (log log' : Writing) (counted listed : Transcript) : Prop where
  status_iff : counted.status = .ok 0 ↔ listed.status = .ok 0
  names : listed.status = .ok 0 → ∃ names : List String,
    names.Nodup ∧ Lists log' names listed ∧ Counts log names counted

/-- An invocation that prints the plan of one node. -/
structure PrintsOne (i : Invocation) : Prop where
  command : i.command = .compile
  jsonOutput : i.jsonOutput = true
  node : i.node ≠ ""

/-- A transcript of a request for the plan of one node of a project with the given entries. -/
structure Selects (charset : Charset) (log : Writing) (name : String)
    (entries : List (String × String)) (t : Transcript) : Prop where
  /-- The plan of a node that there is holds its entry alone. -/
  known : ∀ text, (name, text) ∈ entries → PrintsEntries [(name, text)] t
  unknown : name ∉ entries.map Prod.fst → Refuses charset log name (entries.map Prod.fst) t

/-- The entries of a project in its plan, and how the other commands deal with their names. -/
structure Agrees (rt : Runtime) (env : Environment) (host : Host) (j : Invocation)
    (entries : List (String × String)) (printed listed : Transcript) : Prop where
  distinct : (entries.map Prod.fst).Nodup
  prints : PrintsEntries entries printed
  /-- The names are listed if all of them can be printed. -/
  lists : (∀ name ∈ entries.map Prod.fst, rt.charset.takes name = true) →
    Lists (logged rt j env host) (entries.map Prod.fst) listed
  /-- Otherwise the listing breaks off. -/
  breaksOff : (∃ name ∈ entries.map Prod.fst, rt.charset.takes name = false) →
    listed.status = .error .unencodable
  selects : ∀ words l, Request.ofWords words = .ok (.run l) → PrintsOne l → SameOptions l j →
    Selects rt.charset (logged rt l env host) l.node entries (transcript rt words env host)

variable (rt : Runtime) {i j k : Invocation} {env : Environment} {host : Host}

/-! ### Counting and listing -/

theorem takes_countLine (d : Document) :
    rt.charset.takes (countLine d) = d.nodeNames.all rt.charset.takes := by
  have front : Json.Ascii ("OK: " ++ toString d.nodes.length ++ " nodes defined (").toList := by
    rw [String.toList_append, String.toList_append, Nat.toString_eq_repr, Nat.toList_repr]
    exact Json.ascii_append.mpr ⟨Json.ascii_append.mpr ⟨by decide,
      Json.ascii_of_numeral (Json.numeral_toDigits _)⟩, by decide⟩
  have line : countLine d = "OK: " ++ toString d.nodes.length ++ " nodes defined (" ++
      (", ".intercalate d.nodeNames ++ ")") := by
    rw [countLine, String.append_assoc]
    rfl
  rw [line, Charset.takes_ascii_append front, Charset.takes_append (by decide),
    Charset.takes_intercalate (by decide) (by decide)]

theorem run_of_unloaded {failure : Failure} (reads : i.command = .validate ∨ i.command = .nodes)
    (unloaded : Run.load (settingsOf i env host) host.files = .error failure) : ∃ rs,
    (Session.ofInvocation rt i env).run { host } = (.error failure, Course.tell rs { host }) := by
  have ran := Session.run_ofInvocation rt i env host
  rw [settingsOf] at unloaded
  rcases reads with command | command
  · simp only [command, Session.run_validate, unloaded] at ran
    exact ⟨_, ran⟩
  · simp only [command, Session.run_nodes, unloaded] at ran
    exact ⟨_, ran⟩

theorem run_of_counts (counts : i.command = .validate)
    (loaded : Run.load (settingsOf i env host) host.files = .ok d) : ∃ rs,
    (Session.ofInvocation rt i env).run { host } =
      (.ok 0, (Course.tell rs { host }).print [countLine d]) := by
  have ran := Session.run_ofInvocation rt i env host
  rw [settingsOf] at loaded
  simp only [counts, Session.run_validate, loaded] at ran
  exact ⟨_, ran⟩

theorem run_of_lists (lists : i.command = .nodes)
    (loaded : Run.load (settingsOf i env host) host.files = .ok d) : ∃ rs,
    (Session.ofInvocation rt i env).run { host } =
      (.ok 0, (Course.tell rs { host }).print d.nodeNames) := by
  have ran := Session.run_ofInvocation rt i env host
  rw [settingsOf] at loaded
  simp only [lists, Session.run_nodes, loaded] at ran
  exact ⟨_, ran⟩

section
variable {words : List String} (asked : Request.ofWords words = .ok (.run i))
include asked

/-- A project that cannot be loaded is neither counted nor listed. -/
theorem failsWith_of_unloaded {failure : Failure} (reads : i.command = .validate ∨ i.command = .nodes)
    (unloaded : Run.load (settingsOf i env host) host.files = .error failure) :
    (transcript rt words env host).FailsWith rt.charset (logged rt i env host) failure := by
  obtain ⟨rs, ran⟩ := run_of_unloaded rt reads unloaded
  exact failsWith_transcript asked ran (rfl : (Course.tell rs { host }).events = rs.map .record)

section
variable (loaded : Run.load (settingsOf i env host) host.files = .ok d)
include loaded

theorem lists_of_loaded (lists : i.command = .nodes)
    (taken : ∀ name ∈ d.nodeNames, rt.charset.takes name = true) :
    Lists (logged rt i env host) d.nodeNames (transcript rt words env host) := by
  obtain ⟨rs, ran⟩ := run_of_lists rt lists loaded
  rw [transcript_printed asked ran rfl taken]
  exact ⟨rfl, rfl⟩

theorem counts_of_loaded (counts : i.command = .validate)
    (taken : ∀ name ∈ d.nodeNames, rt.charset.takes name = true) :
    Counts (logged rt i env host) d.nodeNames (transcript rt words env host) := by
  obtain ⟨rs, ran⟩ := run_of_counts rt counts loaded
  have whole : rt.charset.takes (countLine d) = true := by
    rw [takes_countLine]
    exact List.all_eq_true.mpr taken
  rw [transcript_printed asked ran rfl (List.forall_mem_singleton.mpr whole)]
  refine ⟨rfl, ?_⟩
  have count : d.nodeNames.length = d.nodes.length := List.length_map _
  rw [count]
  rfl

/-- A name that cannot be printed breaks both commands off. -/
theorem breaksOff_of_loaded (reads : i.command = .validate ∨ i.command = .nodes)
    (refused : ∃ name ∈ d.nodeNames, rt.charset.takes name = false) :
    (transcript rt words env host).status = .error .unencodable := by
  rcases reads with counts | lists
  · obtain ⟨rs, ran⟩ := run_of_counts rt counts loaded
    have whole : rt.charset.takes (countLine d) = false := by
      rw [takes_countLine, List.all_eq_false]
      simpa using refused
    exact status_transcript_of_refused asked ran rfl ⟨_, List.mem_singleton_self _, whole⟩
  · obtain ⟨rs, ran⟩ := run_of_lists rt lists loaded
    exact status_transcript_of_refused asked ran rfl refused

end

end

/-- Counting and listing succeed for the same projects. -/
theorem sameNames_of_transcripts {counting listing : List String}
    (first : Request.ofWords counting = .ok (.run i)) (counts : i.command = .validate)
    (second : Request.ofWords listing = .ok (.run j)) (lists : j.command = .nodes)
    (same : SameOptions i j) :
    SameNames (logged rt i env host) (logged rt j env host) (transcript rt counting env host)
      (transcript rt listing env host) := by
  have project := Run.load_congr (same.sameProject env host) host.files
  cases loaded : Run.load (settingsOf j env host) host.files with
  | error failure =>
    have counted := (failsWith_of_unloaded rt first (.inl counts) (project.trans loaded)).status
    have listed := (failsWith_of_unloaded rt second (.inr lists) loaded).status
    rw [← counted] at listed
    refine ⟨by rw [listed], fun succeeded => ?_⟩
    rw [listed, counted] at succeeded
    exact absurd succeeded failure.status_ne
  | ok d =>
    by_cases taken : ∀ name ∈ d.nodeNames, rt.charset.takes name = true
    · have listed := lists_of_loaded rt second loaded lists taken
      have counted := counts_of_loaded rt first (project.trans loaded) counts taken
      exact ⟨⟨fun _ => listed.status, fun _ => counted.status⟩,
        fun _ => ⟨d.nodeNames, Run.nodup_nodeNames loaded, listed, counted⟩⟩
    · have refused : ∃ name ∈ d.nodeNames, rt.charset.takes name = false := by simpa using taken
      have counted :=
        breaksOff_of_loaded rt first (project.trans loaded) (.inl counts) refused
      have listed := breaksOff_of_loaded rt second loaded (.inr lists) refused
      refine ⟨by rw [counted, listed], fun succeeded => ?_⟩
      cases listed.symm.trans succeeded

/-! ### Plans -/

/-- The JSON text of the nodes of a project that are asked for. -/
def askedText (i : Invocation) (settings : Settings) (fs : Files) : Except Failure String := do
  planValue (← chosenNodes i settings fs) >>= Json.document

theorem run_compile_of_json (json : i.jsonOutput = true) (settings : Settings) (host : Host) :
    ∃ rs after, (Session.compile rt i settings).run { host } =
      match askedText i settings host.files with
      | .error failure => (.error failure, (Course.tell rs { host }).inHost after)
      | .ok text => (.ok 0, ((Course.tell rs { host }).inHost after).print [text]) := by
  obtain ⟨rs, after, -, ran⟩ := Session.run_chosen rt i settings { host }
  refine ⟨rs, after, ?_⟩
  rw [Session.compile, Step.run_bind, ran, askedText]
  cases chosenNodes i settings host.files with
  | error failure => rfl
  | ok nodes =>
    simp only [ok_bind, Step.run_bind, Session.run_printPlan_of_json json]
    cases planValue nodes >>= Json.document <;> rfl

theorem takes_askedText {settings : Settings} {fs : Files} {text : String}
    (made : askedText i settings fs = .ok text) : rt.charset.takes text = true := by
  obtain ⟨nodes, -, made⟩ := bind_eq_ok.mp made
  obtain ⟨plan, -, made⟩ := bind_eq_ok.mp made
  exact Charset.takes_of_ascii (Json.ascii_document made)

section
variable {words : List String} (asked : Request.ofWords words = .ok (.run i))
  (command : i.command = .compile) (json : i.jsonOutput = true)
include asked command json

theorem failsWith_of_unasked {failure : Failure}
    (unmade : askedText i (settingsOf i env host) host.files = .error failure) :
    (transcript rt words env host).FailsWith rt.charset (logged rt i env host) failure := by
  obtain ⟨rs, after, ran⟩ := run_compile_of_json rt json (settingsOf i env host) host
  rw [unmade] at ran
  have whole := Session.run_ofInvocation rt i env host
  simp only [command] at whole
  exact failsWith_transcript asked (whole.trans ran)
    (rfl : ((Course.tell rs { host }).inHost after).events = rs.map .record)

/-- The plan is printed alone, as the log stands on the error output. -/
theorem printed_of_asked {text : String}
    (made : askedText i (settingsOf i env host) host.files = .ok text) :
    (transcript rt words env host).status = .ok 0 ∧
      (transcript rt words env host).output = text ++ "\n" := by
  obtain ⟨rs, after, ran⟩ := run_compile_of_json rt json (settingsOf i env host) host
  rw [made] at ran
  have whole := Session.run_ofInvocation rt i env host
  simp only [command] at whole
  have taken : ∀ line ∈ [text], rt.charset.takes line = true :=
    List.forall_mem_singleton.mpr (takes_askedText rt made)
  have silent : (logged rt i env host).output = "" := Runtime.output_log_of_json json 0 _
  rw [transcript_printed asked (whole.trans ran) rfl taken, silent]
  exact ⟨rfl, by simp [Printout.line]⟩

theorem status_of_isOk (made : (askedText i (settingsOf i env host) host.files).isOk = true) :
    (transcript rt words env host).status = .ok 0 := by
  obtain ⟨text, made⟩ := exists_of_isOk made
  exact (printed_of_asked rt asked command json made).1

end

/-- The entries of a plan: the names of its nodes with their texts. -/
def entriesOf (nodes : List CompiledNode) (texts : List String) : List (String × String) :=
  (nodes.zip texts).map fun entry => (entry.1.name, entry.2)

section
variable {texts : List String} (written : List.Forall₂ Vagrant.EntryText nodes texts)
include written

theorem names_entriesOf : (entriesOf nodes texts).map Prod.fst = nodes.map CompiledNode.name := by
  rw [entriesOf, List.map_map]
  change (nodes.zip texts).map (CompiledNode.name ∘ Prod.fst) = _
  rw [← List.map_map, List.map_fst_zip written.length_eq.le]

theorem texts_entriesOf : (entriesOf nodes texts).map Prod.snd = texts := by
  rw [entriesOf, List.map_map]
  exact List.map_snd_zip written.length_eq.ge

theorem mem_entriesOf {entry : String × String} (member : entry ∈ entriesOf nodes texts) :
    ∃ n ∈ nodes, n.name = entry.1 ∧ Vagrant.EntryText n entry.2 := by
  obtain ⟨⟨n, text⟩, there, rfl⟩ := List.mem_map.mp member
  exact ⟨n, (List.of_mem_zip there).1, rfl, (List.forall₂_iff_zip.mp written).2 there⟩

end

theorem planText_eq_ok_iff_document {text : String} : Vagrant.planText nodes = .ok text ↔
    ∃ made, (planValue nodes >>= Json.document) = .ok made ∧ made ++ "\n" = text := by
  rw [Vagrant.planText]
  cases planValue nodes with
  | error failure => simp [bind, Except.bind]
  | ok plan =>
    rw [ok_bind, ok_bind, Vagrant.textOfPlan, bind_eq_ok]
    simp [pure, Except.pure]

section
variable {words : List String} {texts : List String}
  (asked : Request.ofWords words = .ok (.run i)) (command : i.command = .compile)
  (json : i.jsonOutput = true)
include asked command json

/-- The plan of the nodes that are asked for is printed entry by entry. -/
theorem printsEntries_of_asked
    (chosen : chosenNodes i (settingsOf i env host) host.files = .ok nodes) (some : nodes ≠ []) (written : List.Forall₂ Vagrant.EntryText nodes texts) :
    PrintsEntries (entriesOf nodes texts) (transcript rt words env host) := by
  obtain ⟨text, made, whole⟩ := planText_eq_ok_iff_document.mp
    ((Vagrant.planText_eq_ok_iff some).mpr ⟨texts, written, rfl⟩)
  have ended : askedText i (settingsOf i env host) host.files = .ok text :=
    bind_eq_ok.mpr ⟨nodes, chosen, made⟩
  obtain ⟨status, output⟩ := printed_of_asked rt asked command json ended
  refine ⟨status, ?_, fun e member => ?_⟩
  · rw [output, whole, texts_entriesOf written]
  · obtain ⟨n, -, named, shown⟩ := mem_entriesOf written member
    exact ⟨n, named, shown⟩

end

/-- Of a project with these nodes, one is selected by its name. -/
theorem selects_of_compiled {words texts : List String}
    (asked : Request.ofWords words = .ok (.run i)) (prints : PrintsOne i)
    (loaded : Run.load (settingsOf i env host) host.files = .ok d)
    (compiled : Run.compile (settingsOf i env host) host.files none d = .ok nodes)
    (written : List.Forall₂ Vagrant.EntryText nodes texts) :
    Selects rt.charset (logged rt i env host) i.node (entriesOf nodes texts)
      (transcript rt words env host) := by
  have names := names_of_compile _ _ none d compiled
  refine ⟨fun text member => ?_, fun unknown => ?_⟩
  · obtain ⟨n, there, named, shown⟩ := mem_entriesOf written member
    have distinct : (nodes.map CompiledNode.name).Nodup := names ▸ Run.nodup_nodeNames loaded
    have chosen : chosenNodes i (settingsOf i env host) host.files = .ok [n] := by
      rw [chosenNodes, loaded, ok_bind, compiled, ok_bind,
        selectNodes_of_mem prints.node distinct there named]
    have alone : List.Forall₂ Vagrant.EntryText [n] [text] := .cons shown .nil
    have printed := printsEntries_of_asked rt asked prints.command prints.jsonOutput chosen
      (List.cons_ne_nil n []) alone
    have entry : entriesOf [n] [text] = [(i.node, text)] :=
      congrArg (fun name => [(name, text)]) named
    rwa [entry] at printed
  · rw [names_entriesOf written] at unknown ⊢
    have refused : askedText i (settingsOf i env host) host.files =
        .error (.problem (.unknownNode i.node d.nodeNames)) := by
      rw [askedText, chosenNodes, loaded, ok_bind, compiled, ok_bind,
        selectNodes_of_not_mem prints.node unknown]
      rfl
    have failed := failsWith_of_unasked rt asked prints.command prints.jsonOutput refused
    have silent : (logged rt i env host).output = "" :=
      Runtime.output_log_of_json prints.jsonOutput 0 _
    rw [names]
    exact ⟨failed.status, failed.output.trans silent, failed.errors⟩

def twoNodes : Host :=
  ⟨(Files.empty ["work"]).place (.ofString "vagrant.yaml")
    (.file "nodes: {web: null, db: null}\n".toUTF8.toList), [], []⟩

/-- A runtime with a log and outputs that encode every character, but no half of one. -/
def logging : Runtime := { Runtime.plain with charset := .unicode, logs := true }

def halfNode : Host :=
  ⟨(Files.empty ["work"]).place (.ofString "vagrant.yaml")
    (.file "nodes: \x7b\"\\ud800\": null\x7d\n".toUTF8.toList), [], []⟩

end CommandLine

end MachinePlan
