import MachinePlan.Proofs.Compile.Nodewise
import MachinePlan.Proofs.Document.Nodes

/-!
# Texts where containers belong

A text can be read character by character, so a place that has to hold a list or a mapping must not
take one. The attributes of a node that are containers refuse a text when the node is read. Three
places take it without a look at its kind: as arguments of a provisioner it counts as none, as the
catalog of boxes it holds no location, and as the plugins it is one plugin for each character
(`texts_read`). None of the three is refused (`unguarded_not_refused`).
-/

namespace MachinePlan

open Value

variable {α β : Type}

/-- A step that fails with problems of the configuration only. -/
def FailsByConfig (r : Except Failure α) : Prop :=
  ∀ failure, r = .error failure → ∃ p, failure = .config p

namespace FailsByConfig

theorem ok (a : α) : FailsByConfig (.ok a) := nofun

theorem error (p : ConfigProblem) : FailsByConfig (.error (.config p) : Except Failure α) := by
  rintro failure ⟨⟩
  exact ⟨p, rfl⟩

theorem bind {first : Except Failure α} {next : α → Except Failure β} (here : FailsByConfig first)
    (rest : ∀ a, FailsByConfig (next a)) : FailsByConfig (first >>= next) := by
  cases first with
  | error failure =>
    obtain ⟨p, rfl⟩ := here failure rfl
    exact .error p
  | ok a => exact rest a

end FailsByConfig

/-! ### Attributes -/

namespace Node

variable {attrs : Entries} {attr s name : String} {v : Value} {n : Node}

/-- The attributes of a node that are lists, and the one that is a mapping. -/
def containerAttributes : List String :=
  ["networks", "forwarded_ports", "synced_folders", "provisioners", "external_functions",
    "providers"]

theorem listAttribute_of_text (node : String) (given : getD attr attrs = .str s) :
    listAttribute node attrs attr = .error (.config (.attributeShape node attr .list "str")) := by
  rw [listAttribute, given]
  rfl

theorem mapAttribute_of_text (node : String) (given : getD attr attrs = .str s) :
    mapAttribute node attrs attr = .error (.config (.attributeShape node attr .mapping "str")) := by
  rw [mapAttribute, given]
  rfl

theorem failsByConfig_listAttribute (node : String) (attrs : Entries) (attr : String) :
    FailsByConfig (listAttribute node attrs attr) := by
  rw [listAttribute]
  split
  · exact .ok _
  · exact .ok _
  · exact .error _

theorem failsByConfig_mapAttribute (node : String) (attrs : Entries) (attr : String) :
    FailsByConfig (mapAttribute node attrs attr) := by
  rw [mapAttribute]
  split
  · exact .ok _
  · exact .ok _
  · exact .error _

theorem failsByConfig_ofEntries (node : String) (attrs : Entries) :
    FailsByConfig (ofEntries node attrs) := by
  refine .bind (failsByConfig_listAttribute node attrs _) fun networks => ?_
  refine .bind (failsByConfig_listAttribute node attrs _) fun ports => ?_
  refine .bind (failsByConfig_listAttribute node attrs _) fun folders => ?_
  refine .bind (failsByConfig_listAttribute node attrs _) fun provisioners => ?_
  refine .bind (failsByConfig_listAttribute node attrs _) fun functions => ?_
  exact .bind (failsByConfig_mapAttribute node attrs _) fun providers => .ok _

theorem failsByConfig_ofNamed (node : String) (v : Value) : FailsByConfig (ofNamed node v) := by
  rw [ofNamed]
  split
  · exact failsByConfig_ofEntries node []
  · exact failsByConfig_ofEntries node _
  · exact .error _

/-- No node is read from attributes of which one is a text and has to be a container. -/
theorem ofEntries_of_text (container : attr ∈ containerAttributes)
    (given : getD attr attrs = .str s) : ofEntries name attrs ≠ .ok n := by
  intro read
  obtain ⟨networks, h₁, read⟩ := bind_eq_ok.mp read
  obtain ⟨ports, h₂, read⟩ := bind_eq_ok.mp read
  obtain ⟨folders, h₃, read⟩ := bind_eq_ok.mp read
  obtain ⟨provisioners, h₄, read⟩ := bind_eq_ok.mp read
  obtain ⟨functions, h₅, read⟩ := bind_eq_ok.mp read
  obtain ⟨providers, h₆, read⟩ := bind_eq_ok.mp read
  simp only [containerAttributes, List.mem_cons, List.not_mem_nil, or_false] at container
  rcases container with rfl | rfl | rfl | rfl | rfl | rfl
  · cases (listAttribute_of_text name given).symm.trans h₁
  · cases (listAttribute_of_text name given).symm.trans h₂
  · cases (listAttribute_of_text name given).symm.trans h₃
  · cases (listAttribute_of_text name given).symm.trans h₄
  · cases (listAttribute_of_text name given).symm.trans h₅
  · cases (mapAttribute_of_text name given).symm.trans h₆

theorem ofNamed_of_text (whole : v.entries? = some attrs) (container : attr ∈ containerAttributes)
    (given : getD attr attrs = .str s) : ofNamed name v ≠ .ok n := by
  rw [entries?] at whole
  rw [ofNamed]
  split at whole
  case h_1 opened =>
    obtain rfl := Option.some.inj whole
    rw [opened]
    exact ofEntries_of_text container given
  case h_2 => cases whole

/-! ### Arguments -/

/-- A parameter of a provisioner, with no arguments in place of a text. -/
def emptiedParam : Value × Value → Value × Value
  | (key, .str s) => (key, if same key Compile.argumentsKey then .list [] else .str s)
  | param => param

/-- A provisioner with its parameters, with no arguments in place of a text. -/
def emptiedType (typed : Value × Value) : Value × Value :=
  match typed.2.entries? with
  | some params => (typed.1, .map (params.map emptiedParam))
  | none => typed

/-- The provisioners at one position, with no arguments in place of a text. -/
def emptiedProvisioner (entry : Value) : Value :=
  .map ((Compile.typedEntries entry).map emptiedType)

/-- The node with no arguments in place of a text. -/
def withoutTextArguments (n : Node) : Node :=
  { n with provisioners := n.provisioners.map emptiedProvisioner }

end Node

namespace Compile

open Node

variable {n : Node} {ops : List Operation} {s name : String} {v box : Value} {es : Entries}
  {location : Option Value}

theorem normalizeArguments_of_text (s : String) : normalizeArguments (.str s) = .ok [] := by
  rw [normalizeArguments, elementsOrNone]
  split
  case isTrue =>
    -- no character is a descriptor
    have none : ((characters s).map Value.str).flatMap descriptorArguments = [] := by
      rw [List.flatMap_map, List.flatMap_eq_nil_iff]
      exact fun _ _ => rfl
    exact congrArg Except.ok none
  case isFalse => rfl

theorem provisionerParams_emptied (provisioner : String) (index : Nat) (params : Entries) :
    provisionerParams provisioner index (params.map emptiedParam) =
      provisionerParams provisioner index params := by
  induction params with
  | nil => rfl
  | cons param params ih =>
    obtain ⟨key, v⟩ := param
    cases v with
    | str s =>
      rw [List.map_cons, emptiedParam, provisionerParams, provisionerParams, ih]
      cases same key argumentsKey with
      | true => rw [if_pos rfl, if_pos rfl, if_pos rfl, normalizeArguments_of_text]; rfl
      | false => rfl
    | _ =>
      rw [List.map_cons, emptiedParam, provisionerParams, provisionerParams, ih]
      nofun

theorem partEntries_of_entries? (n : Node) (part : String) (whole : v.entries? = some es) :
    partEntries n part v = .ok es := by
  rw [entries?] at whole
  rw [partEntries]
  split at whole
  case h_1 opened =>
    obtain rfl := Option.some.inj whole
    rw [opened]
  case h_2 => cases whole

theorem provisionerBlocks_emptied (n : Node) (index : Nat) (types : Entries) :
    provisionerBlocks n.withoutTextArguments index (types.map emptiedType) =
      provisionerBlocks n index types := by
  induction types with
  | nil => rfl
  | cons typed types ih =>
    obtain ⟨kind, params⟩ := typed
    rw [List.map_cons, emptiedType]
    cases whole : params.entries? with
    | none =>
      rw [provisionerBlocks, provisionerBlocks, ih]
      rfl
    | some fields =>
      have emptied (part : String) :
          partEntries n.withoutTextArguments part (.map (fields.map emptiedParam)) =
            .ok (fields.map emptiedParam) := rfl
      simp only [provisionerBlocks, emptied, partEntries_of_entries? n _ whole, bind, Except.bind,
        provisionerParams_emptied, ih]

theorem typedEntries_map (es : Entries) : typedEntries (.map es) = es := rfl

theorem provisioners_emptied (n : Node) (entries : List Value) (i : Nat) :
    provisioners n.withoutTextArguments i (entries.map emptiedProvisioner) =
      provisioners n i entries := by
  induction entries generalizing i with
  | nil => rfl
  | cons entry entries ih =>
    rw [List.map_cons, provisioners, provisioners, emptiedProvisioner, typedEntries_map,
      provisionerBlocks_emptied, ih]

theorem forwardedPorts_withoutTextArguments (n : Node) (i : Nat) (items : List Value) :
    forwardedPorts n.withoutTextArguments i items = forwardedPorts n i items := by
  induction items generalizing i with
  | nil => rfl
  | cons port items ih =>
    rw [forwardedPorts, forwardedPorts, ih]
    rfl

theorem syncedFolders_withoutTextArguments (n : Node) (i : Nat) (items : List Value) :
    syncedFolders n.withoutTextArguments i items = syncedFolders n i items := by
  induction items generalizing i with
  | nil => rfl
  | cons folder items ih =>
    rw [syncedFolders, syncedFolders, ih]
    rfl

theorem providerProperties_withoutTextArguments (n : Node) (es : Entries) :
    providerProperties n.withoutTextArguments es = providerProperties n es := by
  induction es with
  | nil => rfl
  | cons entry es ih =>
    obtain ⟨provider, params⟩ := entry
    rw [providerProperties, providerProperties, ih]
    rfl

/-- A text in the arguments of a provisioner counts as no arguments. -/
theorem node_withoutTextArguments (name : String) (n : Node) (boxes : Value) :
    node name n.withoutTextArguments boxes = node name n boxes := by
  have settings : provisioners n.withoutTextArguments 0 n.withoutTextArguments.provisioners =
      provisioners n 0 n.provisioners := provisioners_emptied n n.provisioners 0
  rw [node, node, settings, forwardedPorts_withoutTextArguments,
    providerProperties_withoutTextArguments, syncedFolders_withoutTextArguments]
  rfl

/-! ### The catalog -/

/-- A text as the catalog holds no location: either it is not asked, or the box does not occur in
it, or there is nothing to find under the name of a box. -/
theorem boxLocation_of_text (found : boxLocation box (.str s) = .ok location) :
    location = none ∧ boxLocation box (.map []) = .ok none := by
  cases box with
  | null => exact ⟨(Except.ok.inj found).symm, rfl⟩
  | str part =>
    refine ⟨?_, rfl⟩
    obtain ⟨occurs, held, found⟩ := bind_eq_ok.mp found
    cases occurs with
    | false => exact (Except.ok.inj found).symm
    | true => cases found
  | _ => cases found

theorem identity_of_textCatalog (ran : identity n (.str s) = .ok ops) :
    identity n (.map []) = .ok ops := by
  obtain ⟨location, found, ran⟩ := bind_eq_ok.mp ran
  obtain ⟨rfl, missing⟩ := boxLocation_of_text found
  rw [identity, missing]
  exact ran

theorem node_of_textCatalog (ran : node name n (.str s) = .ok ops) :
    node name n (.map []) = .ok ops := by
  obtain ⟨identityOps, own, ran⟩ := bind_eq_ok.mp ran
  have same : identity n ((Value.map []).orElse (.map [])) = .ok identityOps := by
    rw [orElse] at own
    split at own
    · exact identity_of_textCatalog own
    · exact own
  exact bind_eq_ok.mpr ⟨identityOps, same, ran⟩

theorem namedNode_of_textCatalog {registry : Registry} {named : String × Node}
    {node : CompiledNode} (ran : namedNode registry (.str s) named = .ok node) :
    namedNode registry (.map []) named = .ok node := by
  obtain ⟨ops, own, ran⟩ := bind_eq_ok.mp ran
  exact bind_eq_ok.mpr ⟨ops, node_of_textCatalog own, ran⟩

/-- What compiles under a text as the catalog compiles to the same under no catalog. -/
theorem document_of_textCatalog {registry : Registry} {d : Document} {compiled : List CompiledNode}
    (catalog : d.boxes = .str s) (ran : document d registry = .ok compiled) :
    document { d with boxes := .map [] } registry = .ok compiled := by
  rw [document, catalog, nodes_eq_ok_iff] at ran
  exact nodes_eq_ok_iff.mpr (ran.imp fun _ _ => namedNode_of_textCatalog)

end Compile

/-! ### Documents -/

namespace Document

variable {data : Value} {fields es attrs : Entries} {entry : Value × Value} {s : String}
  {old ns : List (String × Node)} {d : Document} {sources : List Path} {registry : Registry}

theorem texts_map_str (names : List String) : texts (names.map .str) = .ok names := by
  induction names with
  | nil => rfl
  | cons name names ih =>
    rw [List.map_cons, texts, ih]
    rfl

/-- A text as the plugins is one plugin for each of its characters. -/
theorem plugins_of_text (whole : data.entries? = some fields)
    (given : getD "plugins" fields = .str s) (read : ofValue data sources = .ok d) :
    d.plugins = characters s := by
  obtain ⟨_, _, _, _, plugins, listed, written⟩ := ofValue_eq_ok whole read
  have spelled : plugins = (characters s).map .str := by
    rw [given, elementsOrNone] at listed
    split at listed
    case isTrue => exact (Except.ok.inj listed).symm
    case isFalse empty =>
      have none : s = "" := by simpa [isTruthy] using empty
      rw [none, ← Except.ok.inj listed]
      rfl
  rw [spelled, texts_map_str] at written
  exact (Except.ok.inj written).symm

/-- The keys of entries can be written as names. -/
def Writable (es : Entries) : Prop :=
  ∀ entry ∈ es, ∃ name, entry.1.text = .ok name

/-- A row of entries is not read when no node can be read from one of them, and what is told is
about the configuration. -/
theorem readNodes_refused (member : entry ∈ es)
    (never : ∀ name n, Node.ofNamed name entry.2 ≠ .ok n) (old : List (String × Node)) :
    ∃ failure, readNodes old es = .error failure ∧ (Writable es → ∃ p, failure = .config p) := by
  induction es generalizing old with
  | nil => cases member
  | cons first es ih =>
    obtain ⟨key, attrs⟩ := first
    rw [readNodes]
    rcases text : key.text with failure | name
    · refine ⟨failure, rfl, fun writable => ?_⟩
      obtain ⟨name, written⟩ := writable (key, attrs) List.mem_cons_self
      cases text.symm.trans written
    rcases here : Node.ofNamed name attrs with failure | node
    · refine ⟨failure, ?_, fun _ => Node.failsByConfig_ofNamed name attrs failure here⟩
      simp only [bind, Except.bind, here]
    · have behind : entry ∈ es := by
        rcases List.mem_cons.mp member with rfl | behind
        · exact absurd here (never name node)
        · exact behind
      obtain ⟨failure, refused, told⟩ := ih behind (putNode name node old)
      refine ⟨failure, ?_, fun writable => told fun e inside => ?_⟩
      · simp only [bind, Except.bind, here, refused]
      · exact writable e (List.mem_cons_of_mem _ inside)

def compiled (data : Value) (sources : List Path) (registry : Registry) :
    Except Failure (List CompiledNode) := do
  let d ← ofValue data sources
  Compile.document d registry

/-- A text stands in an attribute of a node that has to be a list or a mapping. -/
def TextInAttribute (es : Entries) (s : String) : Prop :=
  ∃ entry ∈ es, ∃ attrs, entry.2.entries? = some attrs ∧
    ∃ attr ∈ Node.containerAttributes, getD attr attrs = .str s

/-- A text stands in the arguments of a provisioner. -/
def TextInArguments (es : Entries) (s : String) : Prop :=
  ∃ entry ∈ es, ∃ attrs, entry.2.entries? = some attrs ∧
    ∃ items, (getD "provisioners" attrs).opened = .list items ∧
    ∃ item ∈ items, ∃ typed ∈ Compile.typedEntries item, ∃ params, typed.2.entries? = some params ∧
    ∃ key, same key Compile.argumentsKey = true ∧ (key, .str s) ∈ params

theorem compiled_of_textInAttribute (whole : data.entries? = some fields)
    (nodes : (getD "nodes" fields).entries? = some es) (text : TextInAttribute es s)
    (sources : List Path) (registry : Registry) :
    ∃ failure, ofValue data sources = .error failure ∧
      compiled data sources registry = .error failure ∧
      (Writable es → ∃ p, failure = .config p) := by
  obtain ⟨entry, member, attrs, attributes, attr, container, given⟩ := text
  have never : ∀ name n, Node.ofNamed name entry.2 ≠ .ok n := fun _ _ =>
    Node.ofNamed_of_text attributes container given
  obtain ⟨failure, refused, told⟩ := readNodes_refused member never []
  have unread : ofValue data sources = .error failure := by
    simp only [ofValue, entries, whole, nodeEntries_of_entries? nodes, refused, bind, Except.bind]
  refine ⟨failure, unread, ?_, told⟩
  rw [compiled, unread]
  rfl

/-- What becomes of a text in each place that has to hold a container. -/
structure ReadsTexts (data : Value) (fields : Entries) (sources : List Path)
    (registry : Registry) : Prop where
  /-- In an attribute of a node it is refused before anything is compiled. -/
  attributes : ∀ es s, (getD "nodes" fields).entries? = some es → TextInAttribute es s →
    ∃ failure, ofValue data sources = .error failure ∧
      compiled data sources registry = .error failure ∧
      (Writable es → ∃ p, failure = .config p)
  /-- In the arguments of a provisioner it counts as no arguments. -/
  arguments : ∀ d, ofValue data sources = .ok d → ∀ named ∈ d.nodes,
    Compile.node named.1 named.2.withoutTextArguments d.boxes =
      Compile.node named.1 named.2 d.boxes
  /-- As the catalog it holds no location. -/
  boxes : ∀ s d plan, getD "boxes" fields = .str s → ofValue data sources = .ok d →
    Compile.document d registry = .ok plan →
    Compile.document { d with boxes := .map [] } registry = .ok plan
  /-- As the plugins it is one for each character. -/
  plugins : ∀ s d, getD "plugins" fields = .str s → ofValue data sources = .ok d →
    d.plugins = characters s

theorem texts_read (whole : data.entries? = some fields) (sources : List Path)
    (registry : Registry) : ReadsTexts data fields sources registry where
  attributes _ _ nodes text := compiled_of_textInAttribute whole nodes text sources registry
  arguments d _ named _ := Compile.node_withoutTextArguments named.1 named.2 d.boxes
  boxes s d plan given read ran := by
    obtain ⟨_, _, _, boxes, _⟩ := ofValue_eq_ok whole read
    rw [given, orElse] at boxes
    split at boxes
    case isTrue => exact Compile.document_of_textCatalog boxes ran
    case isFalse => exact boxes ▸ ran
  plugins _ _ given read := plugins_of_text whole given read

def textNetworks : Entries :=
  [(.str "web", .map [(.str "networks", .str "private_network")])]

theorem texts_read_networks :
    TextInAttribute textNetworks "private_network" ∧ Writable textNetworks ∧
      ∃ p, compiled (.map [(.str "nodes", .map textNetworks)]) [] .empty = .error (.config p) := by
  have text : TextInAttribute textNetworks "private_network" :=
    ⟨_, List.mem_singleton_self _, _, rfl, "networks", List.mem_cons_self, rfl⟩
  have writable : Writable textNetworks := List.forall_mem_singleton.mpr ⟨"web", rfl⟩
  have whole : (Value.map [(.str "nodes", .map textNetworks)]).entries? =
      some [(.str "nodes", .map textNetworks)] := rfl
  obtain ⟨failure, _, refused, told⟩ := (texts_read whole [] .empty).attributes _ _ rfl text
  obtain ⟨p, rfl⟩ := told writable
  exact ⟨text, writable, p, refused⟩

inductive ContainerPlace where
  | plugins
  | boxes
  | attribute
  | arguments

def ContainerPlace.HoldsText (fields : Entries) (s : String) : ContainerPlace → Prop
  | .plugins => getD "plugins" fields = .str s
  | .boxes => getD "boxes" fields = .str s
  | .attribute => ∃ es, (getD "nodes" fields).entries? = some es ∧ TextInAttribute es s
  | .arguments => ∃ es, (getD "nodes" fields).entries? = some es ∧ TextInArguments es s

def ContainerPlace.Refuses (place : ContainerPlace) : Prop :=
  ∀ data fields s sources registry, data.entries? = some fields → s ≠ "" →
    place.HoldsText fields s → ∃ p, compiled data sources registry = .error (.config p)

def textPlugins : Entries :=
  [(.str "nodes", .map [(.str "web", .null)]), (.str "plugins", .str "ab")]

def textCatalog : Entries :=
  [(.str "nodes", .map [(.str "web", .map [(.str "box", .str "debian")])]),
    (.str "boxes", .str "catalog")]

def textArguments : Entries :=
  [(.str "web", .map [(.str "provisioners",
    .list [.map [(.str "shell", .map [(.str "arguments", .str "ab")])]])])]

theorem textInArguments_textArguments : TextInArguments textArguments "ab" :=
  ⟨_, List.mem_singleton_self _, _, rfl, _, rfl, _, List.mem_singleton_self _, _,
    List.mem_singleton_self _, _, rfl, .str "arguments", rfl, List.mem_singleton_self _⟩

/-- Three of the places take a text. -/
theorem unguarded_not_refused :
    ¬ ContainerPlace.plugins.Refuses ∧ ¬ ContainerPlace.boxes.Refuses ∧
      ¬ ContainerPlace.arguments.Refuses := by
  have taken : ∀ (place : ContainerPlace) (fields : Entries) (s : String) {plan}, s ≠ "" →
      place.HoldsText fields s → compiled (.map fields) [] .empty = .ok plan →
      ¬ place.Refuses := by
    intro place fields s plan some text ran refuses
    obtain ⟨p, refused⟩ := refuses (.map fields) fields s [] .empty rfl some text
    cases ran.symm.trans refused
  refine ⟨?_, ?_, ?_⟩
  · exact taken .plugins textPlugins "ab" (by decide) rfl rfl
  · exact taken .boxes textCatalog "catalog" (by decide) rfl rfl
  · exact taken .arguments [(.str "nodes", .map textArguments)] "ab" (by decide)
      ⟨textArguments, rfl, textInArguments_textArguments⟩ rfl

end Document

end MachinePlan
