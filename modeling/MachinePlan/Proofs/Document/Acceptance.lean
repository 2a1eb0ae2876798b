import MachinePlan.Proofs.Compile.Problems
import MachinePlan.Proofs.Document.Texts

/-!
# Which documents are accepted

A document is read node by node before the first node is compiled, so what it is refused for comes
in two rounds: the containers of all nodes, then the parts of all nodes. Listing both rounds without
running either says which documents compile, and what the others are refused for
(`compiled_acceptance`).
-/

namespace MachinePlan

open Value

namespace Node

def attributes (v : Value) : Entries := v.part?.getD []

/-- The node of some attributes, with no items in place of what is no list and no entries in place
of what is no mapping. -/
def declared (name : String) (v : Value) : Node :=
  let attrs := attributes v
  let items (attr : String) := (getD attr attrs).row?.getD []
  { name
    box := getD "box" attrs
    hostname := getD "hostname" attrs
    autostart := getD "autostart" attrs
    memory := getD "memory" attrs
    cpus := getD "cpus" attrs
    chipset := getD "chipset" attrs
    networks := items "networks"
    forwardedPorts := items "forwarded_ports"
    syncedFolders := items "synced_folders"
    provisioners := items "provisioners"
    providers := (getD "providers" attrs).part?.getD []
    externalFunctions := items "external_functions" }

/-- The attributes that have to be lists, in the order in which they are read. -/
def listAttributes : List String :=
  ["networks", "forwarded_ports", "synced_folders", "provisioners", "external_functions"]

/-- The containers of a node that are not what they have to be, in the order in which they are
read. -/
def containerProblems (name : String) (v : Value) : List ConfigProblem :=
  partProblem (.nodeNotMapping name) v ++
    ((listAttributes.flatMap fun attr =>
        rowProblem (.attributeShape name attr .list) (getD attr (attributes v))) ++
      partProblem (.attributeShape name "providers" .mapping) (getD "providers" (attributes v)))

variable {name attr : String} {attrs : Entries} {v : Value}

theorem firstOf_listAttribute (name : String) (attrs : Entries) (attr : String) :
    FirstOf (· = (getD attr attrs).row?.getD [])
      (rowProblem (.attributeShape name attr .list) (getD attr attrs))
      (listAttribute name attrs attr) := by
  rw [listAttribute, rowProblem, row?]
  cases (getD attr attrs).opened with
  | null | list => exact .ok rfl
  | _ => exact .refused _ []

theorem firstOf_mapAttribute (name : String) (attrs : Entries) (attr : String) :
    FirstOf (· = (getD attr attrs).part?.getD [])
      (partProblem (.attributeShape name attr .mapping) (getD attr attrs))
      (mapAttribute name attrs attr) := by
  rw [mapAttribute, partProblem, part?]
  cases (getD attr attrs).opened with
  | null | map => exact .ok rfl
  | _ => exact .refused _ []

theorem firstOf_ofEntries (name : String) (mapping : v.part? = some attrs) :
    FirstOf (· = declared name v) (containerProblems name v) (ofEntries name attrs) := by
  have same : attributes v = attrs := by rw [attributes, mapping, Option.getD_some]
  rw [containerProblems, partProblem_eq_nil_iff.mpr (by rw [IsPart, mapping]; rfl),
    List.nil_append, declared, same]
  simp only [listAttributes, List.flatMap_cons, List.flatMap_nil, List.append_nil,
    List.append_assoc]
  refine .bind (firstOf_listAttribute name attrs _) ?_
  rintro _ rfl
  refine .bind (firstOf_listAttribute name attrs _) ?_
  rintro _ rfl
  refine .bind (firstOf_listAttribute name attrs _) ?_
  rintro _ rfl
  refine .bind (firstOf_listAttribute name attrs _) ?_
  rintro _ rfl
  refine .bind (firstOf_listAttribute name attrs _) ?_
  rintro _ rfl
  refine .bind_ok (firstOf_mapAttribute name attrs _) ?_
  rintro _ rfl
  exact .ok rfl

theorem firstOf_ofNamed (name : String) (v : Value) :
    FirstOf (· = declared name v) (containerProblems name v) (ofNamed name v) := by
  rw [ofNamed]
  cases opened : v.opened with
  | null => exact firstOf_ofEntries name (by rw [part?, opened])
  | map attrs => exact firstOf_ofEntries name (by rw [part?, opened])
  | _ =>
    have none : v.part? = none := by rw [part?, opened]
    rw [containerProblems, partProblem, none, opened]
    exact .refused _ _

theorem containerProblems_eq_nil_iff : containerProblems name v = [] ↔ v.IsPart ∧
    (∀ attr ∈ listAttributes, (getD attr (attributes v)).IsRow) ∧
      (getD "providers" (attributes v)).IsPart := by
  rw [containerProblems, List.append_eq_nil_iff, List.append_eq_nil_iff, List.flatMap_eq_nil_iff,
    partProblem_eq_nil_iff, partProblem_eq_nil_iff]
  simp only [rowProblem_eq_nil_iff]

end Node

namespace Document

def nodesOf (fields : Entries) : Entries :=
  ((getD "nodes" fields).orElse (.map [])).entries?.getD []

def declaredNode (entry : Value × Value) : String × Node :=
  (entry.1.shown, Node.declared entry.1.shown entry.2)

def sectionProblems (fields : Entries) : List ConfigProblem :=
  if ((getD "nodes" fields).orElse (.map [])).entries?.isSome then [] else [.nodesNotMapping]

/-- What a document can be refused for: its section of nodes, then the containers of all nodes, then
the parts of all nodes, each in the order of the document. -/
def problems (fields : Entries) : List ConfigProblem :=
  sectionProblems fields ++
    ((nodesOf fields).flatMap fun entry => Node.containerProblems entry.1.shown entry.2) ++
      (nodesOf fields).flatMap fun entry => Compile.partProblems (declaredNode entry).2

/-- A document whose nodes stand under distinct names and are regular, with a catalog that is null
or a mapping and plugins that are null or a list. -/
structure Regular (fields : Entries) : Prop where
  names : ∃ names, Named names (nodesOf fields)
  boxes : getD "boxes" fields = .null ∨ (getD "boxes" fields).entries?.isSome = true
  plugins : getD "plugins" fields = .null ∨
    ∃ items, (getD "plugins" fields).opened = .list items
  nodes : ∀ entry ∈ nodesOf fields, (declaredNode entry).2.Regular

/-- A document whose names can be written: no plugin, type, provider or key of parameters holds a
number that is too long. -/
structure ShortNames (fields : Entries) : Prop where
  plugins : ∀ items, (getD "plugins" fields).opened = .list items → ∀ v ∈ items,
    v.holdsLong = false
  nodes : ∀ entry ∈ nodesOf fields, (declaredNode entry).2.ShortNames

/-- Every container and every part of a document is of the kind that it has to be. -/
structure WellShaped (fields : Entries) : Prop where
  nodes : (getD "nodes" fields).isTruthy = false ∨ (getD "nodes" fields).entries?.isSome = true
  node : ∀ entry ∈ nodesOf fields, entry.2.IsPart
  lists : ∀ entry ∈ nodesOf fields, ∀ attr ∈ Node.listAttributes,
    (getD attr (Node.attributes entry.2)).IsRow
  providers : ∀ entry ∈ nodesOf fields, (getD "providers" (Node.attributes entry.2)).IsPart
  forwardedPorts : ∀ entry ∈ nodesOf fields, ∀ port ∈ (declaredNode entry).2.forwardedPorts,
    port.IsPart
  provisionerParams : ∀ entry ∈ nodesOf fields,
    ∀ typed ∈ (declaredNode entry).2.provisioners.flatMap Compile.typedEntries, typed.2.IsPart
  providerParams : ∀ entry ∈ nodesOf fields, ∀ typed ∈ (declaredNode entry).2.providers,
    typed.2.IsPart
  syncedFolders : ∀ entry ∈ nodesOf fields, ∀ folder ∈ (declaredNode entry).2.syncedFolders,
    folder.IsPart

variable {data : Value} {fields es : Entries} {sources : List Path} {registry : Registry}
  {old : List (String × Node)}

theorem sectionProblems_eq_nil_iff : sectionProblems fields = [] ↔
    (getD "nodes" fields).isTruthy = false ∨ (getD "nodes" fields).entries?.isSome = true := by
  rw [sectionProblems, orElse]
  cases (getD "nodes" fields).isTruthy with
  | false => exact iff_of_true rfl (.inl rfl)
  | true => simp [Option.isSome_iff_ne_none]

theorem problems_eq_nil_iff : problems fields = [] ↔ WellShaped fields := by
  simp only [problems, Compile.partProblems, List.append_eq_nil_iff, List.flatMap_eq_nil_iff,
    sectionProblems_eq_nil_iff, Node.containerProblems_eq_nil_iff,
    Compile.itemProblems_eq_nil_iff, Compile.paramsProblems_eq_nil_iff]
  constructor
  · rintro ⟨⟨section', containers⟩, parts⟩
    exact ⟨section', fun e m => (containers e m).1, fun e m => (containers e m).2.1,
      fun e m => (containers e m).2.2, fun e m => (parts e m).1, fun e m => (parts e m).2.1,
      fun e m => (parts e m).2.2.1, fun e m => (parts e m).2.2.2⟩
  · intro shaped
    exact ⟨⟨shaped.nodes, fun e m => ⟨shaped.node e m, shaped.lists e m, shaped.providers e m⟩⟩,
      fun e m => ⟨shaped.forwardedPorts e m, shaped.provisionerParams e m,
        shaped.providerParams e m, shaped.syncedFolders e m⟩⟩

/-! ### Reading -/

theorem firstOf_readNodes (short : ∀ entry ∈ es, entry.1.holdsLong = false) :
    FirstOf (· = putNodes old (es.map declaredNode))
      (es.flatMap fun entry => Node.containerProblems entry.1.shown entry.2)
      (readNodes old es) := by
  induction es generalizing old with
  | nil => exact .ok rfl
  | cons entry es ih =>
    obtain ⟨first, others⟩ := List.forall_mem_cons.mp short
    refine .ok_bind (firstOf_text first) fun name shown => ?_
    obtain rfl := shown
    refine .bind (Node.firstOf_ofNamed _ entry.2) fun node declared => ?_
    obtain rfl := declared
    exact ih others

theorem firstOf_nodeEntries (fields : Entries) :
    FirstOf (· = nodesOf fields) (sectionProblems fields) (nodeEntries fields) := by
  rw [sectionProblems, nodeEntries, nodesOf]
  cases ((getD "nodes" fields).orElse (.map [])).entries? with
  | none => exact .refused _ []
  | some es => exact .ok rfl

theorem firstOf_texts {items : List Value} (short : ∀ v ∈ items, v.holdsLong = false) :
    FirstOf (fun _ => True) [] (texts items) := by
  induction items with
  | nil => exact .ok trivial
  | cons v items ih =>
    obtain ⟨first, others⟩ := List.forall_mem_cons.mp short
    exact .ok_bind (firstOf_text first) fun _ _ => .ok_bind (ih others) fun _ _ => .ok trivial

theorem short_of_named {names : List String} (named : Named names es) :
    ∀ entry ∈ es, entry.1.holdsLong = false := by
  intro entry member
  have key : entry.1 ∈ keys es := List.mem_map_of_mem member
  rw [named.keys_eq, List.mem_map] at key
  obtain ⟨name, -, same⟩ := key
  rw [← same]
  rfl

theorem names_of_declaredNode {names : List String} (named : Named names es) :
    (es.map declaredNode).map Prod.fst = names := by
  have keysShown : (es.map declaredNode).map Prod.fst = (keys es).map shown := by
    rw [keys, List.map_map, List.map_map]
    rfl
  rw [keysShown, named.keys_eq, List.map_map]
  exact List.map_id names

theorem firstOf_ofValue (whole : data.entries? = some fields) (regular : Regular fields)
    (short : ShortNames fields) (sources : List Path) :
    FirstOf (fun d => d.nodes = (nodesOf fields).map declaredNode ∧
        d.boxes = (getD "boxes" fields).orElse (.map []))
      (sectionProblems fields ++
        (nodesOf fields).flatMap fun entry => Node.containerProblems entry.1.shown entry.2)
      (ofValue data sources) := by
  obtain ⟨names, named⟩ := regular.names
  have entries : data.entries = .ok fields := by rw [Value.entries, whole]
  -- no two nodes have one name, so none takes the place of another
  have distinct : putNodes [] ((nodesOf fields).map declaredNode) =
      (nodesOf fields).map declaredNode := by
    refine putNodes_of_distinct ?_
    rw [List.nil_append, names_of_declaredNode named]
    exact named.distinct
  obtain ⟨items, listed, given⟩ := elementsOrNone_of_list regular.plugins
  have shortItems : ∀ v ∈ items, v.holdsLong = false := by
    rcases given with ⟨-, rfl⟩ | opened
    · exact List.forall_mem_nil _
    · exact short.plugins items opened
  rw [ofValue, entries]
  refine .ok_bind (P := (· = fields)) (.ok rfl) ?_
  rintro _ rfl
  refine .bind (firstOf_nodeEntries _) ?_
  rintro _ rfl
  refine .bind_ok (firstOf_readNodes (short_of_named named)) ?_
  rintro _ rfl
  rw [listed]
  refine .ok_bind (P := (· = items)) (.ok rfl) ?_
  rintro _ rfl
  exact .ok_bind (firstOf_texts shortItems) fun _ _ => .ok ⟨distinct, rfl⟩

/-! ### Reading and compiling -/

theorem entries?_orElse_of_regular (regular : Regular fields) :
    ∃ catalog, ((getD "boxes" fields).orElse (.map [])).entries? = some catalog := by
  rcases regular.boxes with none | mapping
  · rw [none]
    exact ⟨[], rfl⟩
  · obtain ⟨catalog, known⟩ := Option.isSome_iff_exists.mp mapping
    exact ⟨catalog, orElse_map_nil_of_entries? known⟩

theorem firstOf_compiled (whole : data.entries? = some fields) (regular : Regular fields)
    (short : ShortNames fields) (sources : List Path) (registry : Registry) :
    FirstOf (fun _ => True) (problems fields) (compiled data sources registry) := by
  refine .bind (firstOf_ofValue whole regular short sources) ?_
  rintro d ⟨nodes, boxes⟩
  obtain ⟨catalog, known⟩ := entries?_orElse_of_regular regular
  rw [← boxes] at known
  have declared (named : String × Node) (member : named ∈ d.nodes) :
      ∃ entry ∈ nodesOf fields, declaredNode entry = named := by
    rw [nodes] at member
    exact List.mem_map.mp member
  have regularNodes : ∀ named ∈ d.nodes, named.2.Regular := fun named member => by
    obtain ⟨entry, inside, rfl⟩ := declared named member
    exact regular.nodes entry inside
  have shortNodes : ∀ named ∈ d.nodes, named.2.ShortNames := fun named member => by
    obtain ⟨entry, inside, rfl⟩ := declared named member
    exact short.nodes entry inside
  have ran : FirstOf (fun _ => True) _ (Compile.nodes registry d.boxes d.nodes) :=
    Compile.firstOf_nodes (orElse_map_nil_of_entries? known) regularNodes shortNodes
  have same : (d.nodes.flatMap fun named => Compile.partProblems named.2) =
      (nodesOf fields).flatMap fun entry => Compile.partProblems (declaredNode entry).2 := by
    rw [nodes, List.flatMap_map]
  rwa [same] at ran

/-- How reading and compiling a document ends. -/
structure Acceptance (data : Value) (fields : Entries) (sources : List Path)
    (registry : Registry) : Prop where
  /-- It is refused for problems of the configuration only. -/
  told : ∀ failure, compiled data sources registry = .error failure → ∃ p, failure = .config p
  /-- It compiles exactly when it is well shaped. -/
  accepted_iff : (∃ plan, compiled data sources registry = .ok plan) ↔ WellShaped fields
  /-- It is refused for the first of its problems. -/
  first : ∀ p rest, problems fields = p :: rest →
    compiled data sources registry = .error (.config p)

theorem compiled_acceptance (whole : data.entries? = some fields) (regular : Regular fields)
    (short : ShortNames fields) (sources : List Path) (registry : Registry) :
    Acceptance data fields sources registry := by
  have ended := firstOf_compiled whole regular short sources registry
  refine ⟨fun failure failed => ended.eq_config failed,
    ended.exists_ok_iff.trans problems_eq_nil_iff, fun p rest split => ?_⟩
  rw [split] at ended
  exact ended.eq_error

def threeProblems : Entries :=
  [(.str "nodes", .map [(.str "web", .map [(.str "forwarded_ports", .list [.int 80]),
    (.str "networks", .str "lan")]), (.str "db", .int 5)])]

theorem compiled_acceptance_threeProblems :
    Regular threeProblems ∧ ShortNames threeProblems ∧
      problems threeProblems = [.attributeShape "web" "networks" .list "str",
        .nodeNotMapping "db" "int", .partNotMapping "web" "forwarded_ports[0]" "int"] ∧
      compiled (.map threeProblems) [] .empty =
        .error (.config (.attributeShape "web" "networks" .list "str")) := by
  have regular : Regular threeProblems := by
    refine ⟨⟨["web", "db"], rfl, by decide⟩, .inl rfl, .inl rfl, ?_⟩
    refine List.forall_mem_cons.mpr ⟨?_, List.forall_mem_singleton.mpr ?_⟩
    · exact ⟨rfl, rfl, List.forall_mem_nil _⟩
    · exact ⟨rfl, rfl, List.forall_mem_nil _⟩
  have short : ShortNames threeProblems := by
    refine ⟨nofun, List.forall_mem_cons.mpr ⟨?_, List.forall_mem_singleton.mpr ?_⟩⟩
    · refine ⟨List.forall_mem_nil _, ?_, List.forall_mem_nil _, List.forall_mem_nil _⟩
      exact List.forall_mem_singleton.mpr nofun
    · exact ⟨List.forall_mem_nil _, List.forall_mem_nil _, List.forall_mem_nil _,
        List.forall_mem_nil _⟩
  have listed : problems threeProblems = [.attributeShape "web" "networks" .list "str",
      .nodeNotMapping "db" "int", .partNotMapping "web" "forwarded_ports[0]" "int"] := rfl
  have ends : Acceptance (.map threeProblems) threeProblems [] .empty :=
    compiled_acceptance rfl regular short [] .empty
  exact ⟨regular, short, listed, ends.first _ _ listed⟩

def numberedPlugin (i : Int) : Entries := [(.str "plugins", .list [.int i])]

/-- A number that is too long to be written keeps a document from compiling that is well shaped. -/
theorem compiled_acceptance_fails : ¬ ∀ data fields sources registry,
    data.entries? = some fields → Regular fields → Acceptance data fields sources registry := by
  intro every
  -- the document is well shaped whatever its number, so every number could be written
  have written (i : Int) : ∃ name, numeral i = .ok name := by
    have regular : Regular (numberedPlugin i) :=
      ⟨⟨[], rfl, List.nodup_nil⟩, .inl rfl, .inr ⟨_, rfl⟩, List.forall_mem_nil _⟩
    have ends := every (.map (numberedPlugin i)) _ [] .empty rfl regular
    obtain ⟨plan, ran⟩ := ends.accepted_iff.mpr (problems_eq_nil_iff.mp rfl)
    obtain ⟨d, read, -⟩ := bind_eq_ok.mp ran
    obtain ⟨-, -, -, -, plugins, listed, names⟩ := ofValue_eq_ok rfl read
    obtain rfl : [.int i] = plugins := Except.ok.inj listed
    obtain ⟨name, text, -⟩ := bind_eq_ok.mp names
    exact ⟨name, text⟩
  obtain ⟨name, long⟩ := written numeralBound
  rw [numeral, Int.natAbs_natCast, if_neg (Nat.lt_irrefl _)] at long
  cases long

end Document

end MachinePlan
