import MachinePlan.Proofs.Document.Layered
import MachinePlan.Proofs.Document.Nodes
import MachinePlan.Proofs.Wording
import MachinePlan.Proofs.Wordless
import MachinePlan.Run

/-!
# What the loading of a document quotes

Loading fails with a problem that quotes a path of the two files, or with one that quotes the name of
a node (`reveals_load`). Every node of a document that is loaded has such a name (`named_of_load`).
-/

namespace MachinePlan

open Text Value

variable {sources : String → Prop}

/-- A problem with the configuration, with line breaks from some sources. -/
def Problem.OfDocument (sources : String → Prop) (p : Problem) : Prop :=
  (∃ problem, p = .config problem) ∧ p.Traced sources

theorem Value.entries?_of_entries {v : Value} {es : Entries} (opened : v.entries = .ok es) :
    v.entries? = some es := by
  rw [entries] at opened
  split at opened
  case h_1 found => rw [found, Except.ok.inj opened]
  case h_2 => cases opened

namespace Node

variable {node attr : String} {attrs : Entries}

theorem ofDocument_attributeShape (source : sources node) (plain : Unbroken attr.toList)
    (shape : Shape) (v : Value) :
    Problem.OfDocument sources (.config (.attributeShape node attr shape v.kindName)) := by
  have first : BreaksFrom sources node := breaksFrom_of_source source
  have second : BreaksFrom sources attr := breaksFrom_of_unbroken plain
  have third : BreaksFrom sources v.kindName := breaksFrom_of_unbroken v.unbroken_kindName
  exact ⟨⟨_, rfl⟩, List.forall_mem_cons.mpr ⟨first, List.forall_mem_cons.mpr
    ⟨second, List.forall_mem_singleton.mpr third⟩⟩⟩

theorem reveals_listAttribute (source : sources node) (plain : Unbroken attr.toList) :
    Reveals (·.OfDocument sources) (listAttribute node attrs attr) := by
  unfold listAttribute
  split
  · exact .ok []
  · exact .ok _
  · exact .problem (ofDocument_attributeShape source plain .list _)

theorem reveals_mapAttribute (source : sources node) (plain : Unbroken attr.toList) :
    Reveals (·.OfDocument sources) (mapAttribute node attrs attr) := by
  unfold mapAttribute
  split
  · exact .ok []
  · exact .ok _
  · exact .problem (ofDocument_attributeShape source plain .mapping _)

theorem reveals_ofEntries (source : sources node) (attrs : Entries) :
    Reveals (·.OfDocument sources) (ofEntries node attrs) :=
  .bind (reveals_listAttribute source (by decide +kernel)) fun _ _ =>
  .bind (reveals_listAttribute source (by decide +kernel)) fun _ _ =>
  .bind (reveals_listAttribute source (by decide +kernel)) fun _ _ =>
  .bind (reveals_listAttribute source (by decide +kernel)) fun _ _ =>
  .bind (reveals_listAttribute source (by decide +kernel)) fun _ _ =>
  .bind (reveals_mapAttribute source (by decide +kernel)) fun _ _ => .ok _

theorem reveals_ofNamed (source : sources node) (v : Value) :
    Reveals (·.OfDocument sources) (ofNamed node v) := by
  unfold ofNamed
  split
  · exact reveals_ofEntries source []
  · exact reveals_ofEntries source _
  · refine .problem ⟨⟨_, rfl⟩, List.forall_mem_cons.mpr ⟨breaksFrom_of_source source, ?_⟩⟩
    exact List.forall_mem_singleton.mpr (breaksFrom_of_unbroken (unbroken_kindName _))

theorem name_of_ofNamed {v : Value} {n : Node} (read : ofNamed node v = .ok n) : n.name = node := by
  have named {attrs : Entries} (read : ofEntries node attrs = .ok n) : n.name = node := by
    obtain ⟨_, _, read⟩ := bind_eq_ok.mp read
    obtain ⟨_, _, read⟩ := bind_eq_ok.mp read
    obtain ⟨_, _, read⟩ := bind_eq_ok.mp read
    obtain ⟨_, _, read⟩ := bind_eq_ok.mp read
    obtain ⟨_, _, read⟩ := bind_eq_ok.mp read
    obtain ⟨_, _, read⟩ := bind_eq_ok.mp read
    cases read
    rfl
  unfold ofNamed at read
  split at read
  · exact named read
  · exact named read
  · cases read

end Node

namespace Document

/-- The mapping that a document is to be made of: that of the primary file, with that of the override
file laid over it where there is one. -/
inductive Merged (fs : Files) (p : Path) (override : Option Path) (data : Value) : Prop
  | primary (base : loadPrimary fs p = .ok data) (nothing : loadOverride fs override = .ok none)
  | both {lower upper : Value} {q : Path} (base : loadPrimary fs p = .ok lower)
    (above : loadOverride fs override = .ok (some (q, upper))) (laid : merge lower upper = .ok data)

/-- A name in the section of the nodes. -/
def NamesNode (data : Value) (name : String) : Prop :=
  ∃ fields es entry, data.entries? = some fields ∧ nodeEntries fields = .ok es ∧ entry ∈ es ∧
    entry.1.text = .ok name

/-- What the reader of the markup says about a file that is no well-formed document. -/
def Complains (fs : Files) (p : Path) (reason : String) : Prop :=
  ∃ bytes, fs.readBytes p = .ok bytes ∧ reason = fs.readers.complaint p.text bytes

/-- All that a message can quote of a file itself comes from some sources. -/
structure ToldFrom (sources : String → Prop) (fs : Files) (p : Path) : Prop where
  path : sources p.text
  complaint : ∀ reason, Complains fs p reason → sources reason

variable {fs : Files} {p q : Path} {override : Option Path} {data : Value} {es : Entries}
  {old ns : List (String × Node)} {d : Document} {paths : List Path}

theorem reveals_readNodes (names : ∀ entry ∈ es, ∀ name, entry.1.text = .ok name → sources name)
    (old : List (String × Node)) : Reveals (·.OfDocument sources) (readNodes old es) := by
  induction es generalizing old with
  | nil => exact .ok old
  | cons entry es ih =>
    obtain ⟨first, others⟩ := List.forall_mem_cons.mp names
    refine .bind (wordless_text _).reveals fun name text => ?_
    exact .bind (Node.reveals_ofNamed (first name text) _) fun _ _ => ih others _

theorem reveals_ofValue (names : ∀ name, NamesNode data name → sources name) (paths : List Path) :
    Reveals (·.OfDocument sources) (ofValue data paths) := by
  refine .bind (wordless_entries data).reveals fun fields opened => ?_
  have whole : data.entries? = some fields := entries?_of_entries opened
  have declared : Reveals (·.OfDocument sources) (nodeEntries fields) := by
    rw [nodeEntries]
    split
    · exact .ok _
    · exact .problem ⟨⟨_, rfl⟩, List.forall_mem_nil _⟩
  refine .bind declared fun es listed => .bind (reveals_readNodes ?_ []) fun _ _ => ?_
  · exact fun entry member name text => names name ⟨fields, es, entry, whole, listed, member, text⟩
  · exact .bind (wordless_elementsOrNone _).reveals fun _ _ =>
      .bind (wordless_texts _).reveals fun _ _ => .ok _

theorem ofDocument_path {problem : ConfigProblem} {path : String} (quotes : problem.quotes = [path])
    (source : sources path) : Problem.OfDocument sources (.config problem) := by
  refine ⟨⟨problem, rfl⟩, ?_⟩
  change ∀ text ∈ problem.quotes, BreaksFrom sources text
  rw [quotes]
  exact List.forall_mem_singleton.mpr (breaksFrom_of_source source)

theorem reveals_loadFile (told : ToldFrom sources fs p) (n : Nat) :
    Reveals (·.OfDocument sources) (loadFile fs n p) := by
  have read : Reveals (·.OfDocument sources) (fs.readValue n p) := by
    rw [Files.readValue]
    refine .bind (fs.wordless_readBytes p).reveals fun bytes held => ?_
    split
    · exact .ok _
    · refine .problem ⟨⟨_, rfl⟩, List.forall_mem_cons.mpr ⟨breaksFrom_of_source told.path, ?_⟩⟩
      exact List.forall_mem_singleton.mpr
        (breaksFrom_of_source (told.complaint _ ⟨bytes, held, rfl⟩))
    · exact .fault _
  rw [loadFile]
  split
  · exact .problem (ofDocument_path rfl told.path)
  · refine .bind read fun v _ => ?_
    split
    · exact .ok none
    · split
      · exact .problem (ofDocument_path rfl told.path)
      · exact .ok (some v)

theorem reveals_load (primary : ToldFrom sources fs p) (second : ToldFrom sources fs q)
    (names : ∀ data, Merged fs p (some q) data → ∀ name, NamesNode data name → sources name) :
    Reveals (·.OfDocument sources) (load fs p (some q)) := by
  have base : Reveals (·.OfDocument sources) (loadPrimary fs p) := by
    refine .bind (reveals_loadFile primary 0) fun held _ => ?_
    cases held with
    | some v => exact .ok v
    | none => exact .problem (ofDocument_path rfl primary.path)
  have above : Reveals (·.OfDocument sources) (loadOverride fs (some q)) := by
    rw [loadOverride]
    split
    · exact .bind (reveals_loadFile second 1) fun _ _ => .ok _
    · exact .ok _
  refine .bind base fun lower loaded => .bind above fun upper asked => ?_
  cases upper with
  | none => exact reveals_ofValue (names lower (.primary loaded asked)) [p]
  | some named =>
    refine .bind (wordless_merge _ _).reveals fun whole laid => ?_
    exact reveals_ofValue (names whole (.both loaded asked laid)) _

/-! ### Documents that are loaded -/

theorem mem_or_mem_of_putNode {name : String} {node : Node} {named : String × Node}
    (member : named ∈ putNode name node old) : named = (name, node) ∨ named ∈ old := by
  induction old with
  | nil => exact .inl (List.mem_singleton.mp member)
  | cons first old ih =>
    obtain ⟨other, there⟩ := first
    rw [putNode] at member
    split at member
    case isTrue same =>
      rw [same] at member
      exact (List.mem_cons.mp member).imp_right (List.mem_cons_of_mem _)
    case isFalse =>
      obtain rfl | member := List.mem_cons.mp member
      · exact .inr List.mem_cons_self
      · exact (ih member).imp_right (List.mem_cons_of_mem _)

/-- A node that is read goes by the text of a key. -/
theorem named_of_readNodes (read : readNodes old es = .ok ns)
    (names : ∀ entry ∈ es, ∀ name, entry.1.text = .ok name → sources name)
    (named : ∀ entry ∈ old, entry.2.name = entry.1 ∧ sources entry.1) :
    ∀ entry ∈ ns, entry.2.name = entry.1 ∧ sources entry.1 := by
  induction es generalizing old with
  | nil =>
    obtain rfl := Except.ok.inj read
    exact named
  | cons entry es ih =>
    obtain ⟨first, others⟩ := List.forall_mem_cons.mp names
    obtain ⟨name, text, read⟩ := bind_eq_ok.mp read
    obtain ⟨node, here, read⟩ := bind_eq_ok.mp read
    refine ih read others fun other member => ?_
    obtain rfl | member := mem_or_mem_of_putNode member
    · exact ⟨Node.name_of_ofNamed here, first name text⟩
    · exact named other member

theorem named_of_ofValue (read : ofValue data paths = .ok d) :
    ∀ entry ∈ d.nodes, entry.2.name = entry.1 ∧ NamesNode data entry.1 := by
  obtain ⟨fields, opened, -⟩ := bind_eq_ok.mp read
  have whole : data.entries? = some fields := entries?_of_entries opened
  obtain ⟨es, listed, declared, -⟩ := ofValue_eq_ok whole read
  refine named_of_readNodes declared (fun entry member name text => ?_) (List.forall_mem_nil _)
  exact ⟨fields, es, entry, whole, listed, member, text⟩

theorem named_of_load (loaded : load fs p override = .ok d) :
    ∃ data, Merged fs p override data ∧
      ∀ entry ∈ d.nodes, entry.2.name = entry.1 ∧ NamesNode data entry.1 := by
  obtain ⟨lower, base, loaded⟩ := bind_eq_ok.mp loaded
  obtain ⟨upper, above, loaded⟩ := bind_eq_ok.mp loaded
  cases upper with
  | none => exact ⟨lower, .primary base above, named_of_ofValue loaded⟩
  | some named =>
    obtain ⟨whole, laid, read⟩ := bind_eq_ok.mp loaded
    exact ⟨whole, .both base above laid, named_of_ofValue read⟩

end Document

/-! ### Checked documents -/

theorem Document.reveals_check {d : Document} (paths : ∀ p ∈ d.sources, sources p.text) :
    Reveals (·.Traced sources) d.check := by
  rw [check]
  split
  · -- of the paths only the first line is quoted
    have whole : BreaksFrom sources d.sourceText := by
      refine breaksFrom_of_breaks (breaks_namesOr (by decide +kernel) _) fun text inside => ?_
      obtain ⟨p, source, rfl⟩ := List.mem_map.mp inside
      exact breaksFrom_of_source (paths p source)
    refine .problem (List.forall_mem_singleton.mpr (whole.of_subset ?_))
    rw [firstLine, String.toList_ofList]
    exact (List.takeWhile_sublist _).subset
  · exact .ok ()

namespace Run

variable {settings : Settings} {fs : Files} {d : Document}

/-- Loading quotes the paths of the two files, what the reader says about them, and the names of
nodes. -/
theorem reveals_load (primary : Document.ToldFrom sources fs settings.configFile)
    (second : Document.ToldFrom sources fs settings.localConfigFile)
    (names : ∀ data, Document.Merged fs settings.configFile (some settings.localConfigFile) data →
      ∀ name, Document.NamesNode data name → sources name) :
    Reveals (·.Traced sources) (load settings fs) := by
  have read := (Document.reveals_load primary second names).mono fun _ told => told.2
  refine .bind read fun d loaded => ?_
  refine .bind (Document.reveals_check fun p member => ?_) fun _ _ => .ok d
  obtain ⟨q, w, same, -, -, paths⟩ | ⟨-, paths⟩ := Document.sources_of_load loaded
  · obtain rfl := Option.some.inj same
    rw [paths] at member
    obtain rfl | member := List.mem_cons.mp member
    · exact primary.path
    · rw [List.mem_singleton.mp member]
      exact second.path
  · rw [paths] at member
    rw [List.mem_singleton.mp member]
    exact primary.path

theorem load_eq_ok (loaded : load settings fs = .ok d) :
    Document.load fs settings.configFile (some settings.localConfigFile) = .ok d := by
  obtain ⟨_, loaded, checked⟩ := bind_eq_ok.mp loaded
  obtain ⟨_, -, same⟩ := bind_eq_ok.mp checked
  cases same
  exact loaded

end Run

end MachinePlan
