import MachinePlan.Proofs.Compile.Blocks

/-!
# The shape of a compiled node

The operations of a node are six sections, one for each category, in a fixed order. Each section
follows the attributes of its category alone, so what a node compiles to can be read off attribute
by attribute, and another node with some attributes in common has the sections of those in common
(`node_shaped`).
-/

namespace MachinePlan

open Value

inductive Category where
  | identity
  | networks
  | forwardedPorts
  | provisioners
  | providers
  | syncedFolders
  deriving DecidableEq

def Category.rank : Category → Nat
  | .identity => 0
  | .networks => 1
  | .forwardedPorts => 2
  | .provisioners => 3
  | .providers => 4
  | .syncedFolders => 5

def Category.all : List Category :=
  [.identity, .networks, .forwardedPorts, .provisioners, .providers, .syncedFolders]

/-- The category of an operation; one of no particular kind has none. -/
def Operation.category? : Operation → Option Category
  | .unspecified => none
  | .setBox _ | .setBoxUrl _ | .setHostname _ => some .identity
  | .addNetwork .. => some .networks
  | .addForwardedPort _ => some .forwardedPorts
  | .addProvisioner .. | .setProvisionerProperty .. | .setProvisionerArguments .. =>
    some .provisioners
  | .setProviderProperty .. | .tuneProvider .. => some .providers
  | .addSyncedFolder .. => some .syncedFolders

def inCategory (c : Category) (ops : List Operation) : List Operation :=
  ops.filter fun op => op.category? = some c

def ofKind (kind : String) (ops : List Operation) : List Operation :=
  ops.filter fun op => op.kind = kind

/-- Two nodes have the attributes of a category in common. -/
def Node.AgreesOn (n m : Node) : Category → Prop
  | .identity => n.box = m.box ∧ n.hostname = m.hostname
  | .networks => n.networks = m.networks
  | .forwardedPorts => n.forwardedPorts = m.forwardedPorts
  | .provisioners => n.provisioners = m.provisioners
  | .providers =>
    n.providers = m.providers ∧ n.memory = m.memory ∧ n.cpus = m.cpus ∧ n.chipset = m.chipset
  | .syncedFolders => n.syncedFolders = m.syncedFolders

namespace Compile

/-- What a type of network adds with its parameters. -/
inductive AddsNetwork : Value × Value → Operation → Prop
  | intro {kind params given : Value} {name : String} (text : kind.text = .ok name)
      (renamed : networkParams params = .ok given) :
      AddsNetwork (kind, params) (.addNetwork (.str name) given)

inductive AddsPort : Value → Operation → Prop
  | intro {port : Value} {params given : Entries} (mapping : port.part? = some params)
      (renamed : normalizeKeys params = .ok given) : AddsPort port (.addForwardedPort (.map given))

inductive SetsProperty : Value × Value × Value → Operation → Prop
  | intro {provider key v : Value} {kind name : String} (kindText : provider.text = .ok kind)
      (text : key.text = .ok name) :
      SetsProperty (provider, key, v) (.setProviderProperty (.str kind) (.str name) v)

inductive AddsFolder : Value → Operation → Prop
  | intro {folder : Value} {params : Entries} (mapping : folder.part? = some params) :
      AddsFolder folder (.addSyncedFolder (getD "host" params) (getD "guest" params)
        (getD "create" params) (getD "owner" params) (getD "group" params))

/-- The keys that are declared for providers, each behind its provider. -/
def declaredProperties (providers : Entries) : List (Value × Value × Value) :=
  providers.flatMap fun (provider, params) => (params.part?.getD []).map (provider, ·)

/-- The operations of one category of a node. -/
def Emits (name : String) (n : Node) (boxes : Value) : Category → List Operation → Prop
  | .identity, ops => identity n (boxes.orElse (.map [])) = .ok ops
  | .networks, ops => List.Forall₂ AddsNetwork (n.networks.flatMap typedEntries) ops
  | .forwardedPorts, ops => List.Forall₂ AddsPort n.forwardedPorts ops
  | .provisioners, ops => ∃ blocks, List.Forall₂ Describes (placedTypes 0 n.provisioners) blocks ∧
      ops = blocks.flatMap Block.operations
  | .providers, ops => ∃ properties,
      List.Forall₂ SetsProperty (declaredProperties n.providers) properties ∧
        ops = properties ++ tuning name n
  | .syncedFolders, ops => List.Forall₂ AddsFolder n.syncedFolders ops

variable {name provider : String} {n m : Node} {boxes key : Value} {es catalog : Entries}
  {items : List Value} {op : Operation} {ops properties : List Operation} {position : Nat}
  {c d : Category} {parts : Category → List Operation}

/-! ### The sections of a node -/

theorem networks_of_pairs (ran : networkPairs es = .ok ops) : List.Forall₂ AddsNetwork es ops := by
  induction es generalizing ops with
  | nil =>
    obtain rfl := Except.ok.inj ran
    exact .nil
  | cons e es ih =>
    rw [networkPairs] at ran
    obtain ⟨given, renamed, ran⟩ := bind_eq_ok.mp ran
    obtain ⟨name, text, ran⟩ := bind_eq_ok.mp ran
    obtain ⟨others, rest, rfl⟩ := map_eq_ok.mp ran
    exact .cons ⟨text, renamed⟩ (ih rest)

theorem ports_of_forwardedPorts (ran : forwardedPorts n position items = .ok ops) :
    List.Forall₂ AddsPort items ops := by
  induction items generalizing position ops with
  | nil =>
    obtain rfl := Except.ok.inj ran
    exact .nil
  | cons port items ih =>
    rw [forwardedPorts] at ran
    obtain ⟨params, mapping, ran⟩ := bind_eq_ok.mp ran
    obtain ⟨given, renamed, ran⟩ := bind_eq_ok.mp ran
    obtain ⟨others, rest, rfl⟩ := map_eq_ok.mp ran
    exact .cons ⟨partEntries_eq_ok.mp mapping, renamed⟩ (ih rest)

theorem properties_of_params (kindText : key.text = .ok provider)
    (ran : providerParams provider es = .ok ops) :
    List.Forall₂ SetsProperty (es.map (key, ·)) ops := by
  induction es generalizing ops with
  | nil =>
    obtain rfl := Except.ok.inj ran
    exact .nil
  | cons e es ih =>
    rw [providerParams] at ran
    obtain ⟨name, text, ran⟩ := bind_eq_ok.mp ran
    obtain ⟨others, rest, rfl⟩ := map_eq_ok.mp ran
    exact .cons ⟨kindText, text⟩ (ih rest)

theorem declaredProperties_cons {v : Value} {params : Entries} (mapping : v.part? = some params) :
    declaredProperties ((key, v) :: es) = params.map (key, ·) ++ declaredProperties es := by
  simp [declaredProperties, mapping]

theorem properties_of_providers (ran : providerProperties n es = .ok ops) :
    List.Forall₂ SetsProperty (declaredProperties es) ops := by
  induction es generalizing ops with
  | nil =>
    obtain rfl := Except.ok.inj ran
    exact .nil
  | cons e es ih =>
    obtain ⟨key, v⟩ := e
    rw [providerProperties] at ran
    obtain ⟨provider, kindText, ran⟩ := bind_eq_ok.mp ran
    obtain ⟨params, mapping, ran⟩ := bind_eq_ok.mp ran
    obtain ⟨here, set, ran⟩ := bind_eq_ok.mp ran
    obtain ⟨others, rest, rfl⟩ := map_eq_ok.mp ran
    rw [declaredProperties_cons (partEntries_eq_ok.mp mapping)]
    exact List.rel_append (properties_of_params kindText set) (ih rest)

theorem folders_of_syncedFolders (ran : syncedFolders n position items = .ok ops) :
    List.Forall₂ AddsFolder items ops := by
  induction items generalizing position ops with
  | nil =>
    obtain rfl := Except.ok.inj ran
    exact .nil
  | cons folder items ih =>
    rw [syncedFolders] at ran
    obtain ⟨params, mapping, ran⟩ := bind_eq_ok.mp ran
    obtain ⟨others, rest, rfl⟩ := map_eq_ok.mp ran
    exact .cons ⟨partEntries_eq_ok.mp mapping⟩ (ih rest)

/-- The operations of a node are its sections in the order of the categories. -/
theorem sections_of_node (ran : node name n boxes = .ok ops) :
    ∃ parts : Category → List Operation, (∀ c, Emits name n boxes c (parts c)) ∧
      ops = Category.all.flatMap parts := by
  rw [node] at ran
  obtain ⟨identityOps, identified, ran⟩ := bind_eq_ok.mp ran
  obtain ⟨networkOps, networked, ran⟩ := bind_eq_ok.mp ran
  obtain ⟨portOps, ported, ran⟩ := bind_eq_ok.mp ran
  obtain ⟨provisionerOps, provisioned, ran⟩ := bind_eq_ok.mp ran
  obtain ⟨providerOps, provided, ran⟩ := bind_eq_ok.mp ran
  obtain ⟨folderOps, shared, rfl⟩ := map_eq_ok.mp ran
  let parts : Category → List Operation
    | .identity => identityOps
    | .networks => networkOps
    | .forwardedPorts => portOps
    | .provisioners => provisionerOps
    | .providers => providerOps ++ tuning name n
    | .syncedFolders => folderOps
  refine ⟨parts, fun c => ?_, by simp [Category.all, parts]⟩
  cases c with
  | identity => exact identified
  | networks => exact networks_of_pairs networked
  | forwardedPorts => exact ports_of_forwardedPorts ported
  | provisioners => exact blocks_of_provisioners provisioned
  | providers => exact ⟨providerOps, properties_of_providers provided, rfl⟩
  | syncedFolders => exact folders_of_syncedFolders shared

/-! ### Each section follows its own attributes -/

theorem AddsNetwork.rightUnique : Relator.RightUnique AddsNetwork := by
  rintro _ _ _ ⟨text, renamed⟩ ⟨text', renamed'⟩
  rw [Except.ok.inj (text.symm.trans text'), Except.ok.inj (renamed.symm.trans renamed')]

theorem AddsPort.rightUnique : Relator.RightUnique AddsPort := by
  rintro _ _ _ ⟨mapping, renamed⟩ ⟨mapping', renamed'⟩
  obtain rfl := Option.some.inj (mapping.symm.trans mapping')
  rw [Except.ok.inj (renamed.symm.trans renamed')]

theorem SetsProperty.rightUnique : Relator.RightUnique SetsProperty := by
  rintro _ _ _ ⟨kindText, text⟩ ⟨kindText', text'⟩
  rw [Except.ok.inj (kindText.symm.trans kindText'), Except.ok.inj (text.symm.trans text')]

theorem AddsFolder.rightUnique : Relator.RightUnique AddsFolder := by
  rintro _ _ _ ⟨mapping⟩ ⟨mapping'⟩
  rw [Option.some.inj (mapping.symm.trans mapping')]

/-- Nodes that agree on a category emit the same operations of it. -/
theorem Emits.unique {ops' : List Operation} (agree : n.AgreesOn m c)
    (here : Emits name n boxes c ops) (there : Emits name m boxes c ops') : ops' = ops := by
  cases c with
  | identity =>
    obtain ⟨box, hostname⟩ := agree
    rw [Emits, identity, box, hostname] at here
    exact Except.ok.inj (there.symm.trans here)
  | networks =>
    rw [Emits, show n.networks = m.networks from agree] at here
    exact List.right_unique_forall₂' AddsNetwork.rightUnique there here
  | forwardedPorts =>
    rw [Emits, show n.forwardedPorts = m.forwardedPorts from agree] at here
    exact List.right_unique_forall₂' AddsPort.rightUnique there here
  | provisioners =>
    rw [Emits, show n.provisioners = m.provisioners from agree] at here
    obtain ⟨blocks, described, rfl⟩ := here
    obtain ⟨blocks', described', rfl⟩ := there
    rw [List.right_unique_forall₂' Describes.rightUnique described' described]
  | providers =>
    obtain ⟨providers, memory, cpus, chipset⟩ := agree
    rw [Emits, tuning, providers, memory, cpus, chipset] at here
    obtain ⟨properties, set, rfl⟩ := here
    obtain ⟨properties', set', rfl⟩ := there
    rw [List.right_unique_forall₂' SetsProperty.rightUnique set' set, tuning]
  | syncedFolders =>
    rw [Emits, show n.syncedFolders = m.syncedFolders from agree] at here
    exact List.right_unique_forall₂' AddsFolder.rightUnique there here

/-! ### What a section holds -/

theorem forall_mem_of_forall₂ {α : Type} {R : α → Operation → Prop} {P : Operation → Prop}
    {xs : List α} (pairs : List.Forall₂ R xs ops) (each : ∀ x op, R x op → P op) :
    ∀ op ∈ ops, P op := by
  intro op member
  obtain ⟨x, -, related⟩ := exists_of_forall₂_of_mem pairs member
  exact each x op related

theorem opened_of_entries? {v : Value} (whole : v.entries? = some es) : v.opened = .map es := by
  rw [entries?] at whole
  split at whole
  case h_1 entries same => rw [same, Option.some.inj whole]
  case h_2 => cases whole

theorem boxLocation_of_hashable {box : Value} (known : boxes.entries? = some catalog)
    (named : box ≠ .null) (hashable : box.isHashable = true) :
    boxLocation box boxes = .ok (lookup box catalog) := by
  have held : boxes.contains box = .ok (hasKey box catalog) := by
    rw [contains, opened_of_entries? known]
    exact if_pos hashable
  rw [boxLocation.eq_2 _ _ named, held, hasKey]
  cases there : lookup box catalog with
  | none => rfl
  | some url =>
    have found : boxes.element box = .ok url := by
      rw [element, opened_of_entries? known]
      simp only [hashable, if_true, there]
    change (boxes.element box >>= fun url => pure (some url)) = _
    rw [found]
    rfl

theorem hashable_of_boxLocation {box : Value} {location : Option Value}
    (known : boxes.entries? = some catalog) (named : box ≠ .null)
    (ran : boxLocation box boxes = .ok location) : box.isHashable = true := by
  rw [boxLocation.eq_2 _ _ named, contains, opened_of_entries? known] at ran
  by_contra unhashable
  obtain ⟨held, found, -⟩ := bind_eq_ok.mp ran
  cases found.symm.trans (if_neg unhashable)

/-- The location of the box stands between the box and the host name, where it is known. -/
theorem opening_of_identity (known : boxes.entries? = some catalog)
    (ran : identity n boxes = .ok ops) :
    ∃ location, ops = .setBox n.box :: (location.map Operation.setBoxUrl).toList ++
        [.setHostname n.hostname] ∧
      ∀ url, location = some url ↔ n.box ≠ .null ∧ lookup n.box catalog = some url := by
  obtain ⟨location, found, rfl⟩ := map_eq_ok.mp ran
  refine ⟨location, rfl, fun url => ?_⟩
  by_cases named : n.box = .null
  · rw [named] at found ⊢
    obtain rfl := Except.ok.inj found
    simp
  · have hashable := hashable_of_boxLocation known named found
    rw [boxLocation_of_hashable known named hashable] at found
    obtain rfl := Except.ok.inj found
    simp [named]

theorem Emits.category (emitted : Emits name n boxes c ops) :
    ∀ op ∈ ops, op.category? = some c := by
  cases c with
  | identity =>
    obtain ⟨location, -, rfl⟩ := map_eq_ok.mp emitted
    cases location <;> simp [Operation.category?]
  | networks => exact forall_mem_of_forall₂ emitted fun _ _ ⟨_, _⟩ => rfl
  | forwardedPorts => exact forall_mem_of_forall₂ emitted fun _ _ ⟨_, _⟩ => rfl
  | provisioners =>
    obtain ⟨blocks, -, rfl⟩ := emitted
    intro op member
    obtain ⟨b, -, member⟩ := List.mem_flatMap.mp member
    rcases List.mem_cons.mp member with rfl | member
    · rfl
    · obtain ⟨s, -, rfl⟩ := List.mem_map.mp member
      cases s <;> rfl
  | providers =>
    obtain ⟨properties, set, rfl⟩ := emitted
    have declared := forall_mem_of_forall₂ (P := fun op => op.category? = some .providers) set
      fun _ _ ⟨_, _⟩ => rfl
    have tuned : ∀ op ∈ tuning name n, op.category? = some .providers := by
      simp [tuning, tunedProviders, Operation.category?]
    intro op member
    exact (List.mem_append.mp member).elim (declared op) (tuned op)
  | syncedFolders => exact forall_mem_of_forall₂ emitted fun _ _ ⟨_⟩ => rfl

/-- A row of sections is in order, and each section can be found in it by its category. -/
theorem inCategory_sections (within : ∀ c, ∀ op ∈ parts c, op.category? = some c) :
    inCategory c (Category.all.flatMap parts) = parts c := by
  have own : inCategory c (parts c) = parts c := by
    refine List.filter_eq_self.mpr fun op member => ?_
    simpa using within c op member
  have others (d : Category) (different : d ≠ c) : inCategory c (parts d) = [] := by
    refine List.filter_eq_nil_iff.mpr fun op member => ?_
    simpa [within d op member] using different
  simp only [inCategory] at own others ⊢
  rw [List.filter_flatMap]
  cases c <;> simp [Category.all, own, others]

theorem ordered_of_sections (within : ∀ c, ∀ op ∈ parts c, op.category? = some c) :
    (Category.all.flatMap parts).Pairwise fun a b =>
      ∀ c ∈ a.category?, ∀ d ∈ b.category?, c.rank ≤ d.rank := by
  refine List.pairwise_flatMap.mpr ⟨fun c _ => ?_, ?_⟩
  · refine List.pairwise_of_forall_mem_list fun a first b second => ?_
    rw [within c a first, within c b second]
    simp
  · have ranked : Category.all.Pairwise fun c d => c.rank ≤ d.rank := by decide
    refine ranked.imp fun {c d} below a first b second => ?_
    rw [within c a first, within d b second]
    simpa using below

theorem category?_of_kind {a b : Operation} (same : a.kind = b.kind) :
    a.category? = b.category? := by
  -- different constructors have different kinds, so only the diagonal is left
  cases a <;> cases b <;> first | rfl | simp [Operation.kind] at same

/-- Operations of one kind are found in the section of their category. -/
theorem ofKind_sections (op : Operation) (within : ∀ c, ∀ op ∈ parts c, op.category? = some c)
    (categorized : op.category? = some c) :
    ofKind op.kind (Category.all.flatMap parts) = ofKind op.kind (parts c) := by
  rw [← inCategory_sections within, ofKind, ofKind, inCategory, List.filter_filter]
  refine List.filter_congr fun other _ => ?_
  by_cases same : other.kind = op.kind
  · simp [same, category?_of_kind same, categorized]
  · simp [same]

theorem ofKind_eq_self {kind : String} (only : ∀ op ∈ ops, op.kind = kind) :
    ofKind kind ops = ops :=
  List.filter_eq_self.mpr fun op member => by simpa using only op member

theorem forall₂_ofKind {α : Type} {R : α → Operation → Prop} {xs : List α} (op : Operation)
    (within : ∀ c, ∀ op ∈ parts c, op.category? = some c) (categorized : op.category? = some c)
    (emitted : List.Forall₂ R xs (parts c)) (only : ∀ x other, R x other → other.kind = op.kind) :
    List.Forall₂ R xs (ofKind op.kind (Category.all.flatMap parts)) := by
  rw [ofKind_sections op within categorized, ofKind_eq_self (forall_mem_of_forall₂ emitted only)]
  exact emitted

/-- The shape of the operations of a node under a display name and with a catalog. -/
structure Shaped (name : String) (n : Node) (boxes : Value) (catalog : Entries)
    (ops : List Operation) : Prop where
  /-- Every operation has a category, and the ranks of the categories never decrease. -/
  categorized : ∀ op ∈ ops, ∃ c, op.category? = some c
  ordered : ops.Pairwise fun a b => ∀ c ∈ a.category?, ∀ d ∈ b.category?, c.rank ≤ d.rank
  /-- The box, its location where the catalog knows it, and the host name come first, and nothing of
  that category behind them. -/
  opening : ∃ location rest, ops = .setBox n.box :: (location.map Operation.setBoxUrl).toList ++
      .setHostname n.hostname :: rest ∧
    (∀ url, location = some url ↔ n.box ≠ .null ∧ lookup n.box catalog = some url) ∧
    ∀ op ∈ rest, op.category? ≠ some .identity
  /-- One operation for each network, forwarded port, property of a provider and synced folder, in
  the order of the document. -/
  networks : List.Forall₂ AddsNetwork (n.networks.flatMap typedEntries) (ofKind "AddNetwork" ops)
  forwardedPorts : List.Forall₂ AddsPort n.forwardedPorts (ofKind "AddForwardedPort" ops)
  properties :
    List.Forall₂ SetsProperty (declaredProperties n.providers) (ofKind "SetProviderProperty" ops)
  syncedFolders : List.Forall₂ AddsFolder n.syncedFolders (ofKind "AddSyncedFolder" ops)
  /-- The known providers are tuned once each, behind every property of a provider and in front of
  every synced folder, and only the first of them can take a chipset. -/
  tuned : ∃ before after, ops = before ++
      [.tuneProvider (.str "virtualbox") n.memory n.cpus (.str name) n.chipset,
        .tuneProvider (.str "vmware_desktop") n.memory n.cpus (.str name) .null,
        .tuneProvider (.str "parallels") n.memory n.cpus (.str name) .null] ++ after ∧
    (∀ op ∈ before, op.kind ≠ "TuneProvider" ∧ op.kind ≠ "AddSyncedFolder") ∧
    ∀ op ∈ after, op.kind ≠ "TuneProvider" ∧ op.kind ≠ "SetProviderProperty"
  /-- A category depends on its own attributes alone. -/
  independent : ∀ {m : Node} {ops' : List Operation} {c : Category},
    node name m boxes = .ok ops' → n.AgreesOn m c → inCategory c ops' = inCategory c ops

theorem kind_of_setsProperty {property : Value × Value × Value} (set : SetsProperty property op) :
    op.kind = "SetProviderProperty" := by
  cases set
  rfl

theorem properties_of_emits (emitted : ∀ c, Emits name n boxes c (parts c)) :
    List.Forall₂ SetsProperty (declaredProperties n.providers)
      (ofKind "SetProviderProperty" (Category.all.flatMap parts)) := by
  obtain ⟨properties, set, provided⟩ := emitted .providers
  have inSection : ofKind "SetProviderProperty" (Category.all.flatMap parts) =
      ofKind "SetProviderProperty" (parts .providers) :=
    ofKind_sections (.setProviderProperty .null .null .null) (fun c => (emitted c).category) rfl
  have first : ofKind "SetProviderProperty" properties = properties :=
    ofKind_eq_self (forall_mem_of_forall₂ set fun _ _ => kind_of_setsProperty)
  have none : ofKind "SetProviderProperty" (tuning name n) = [] := rfl
  rw [inSection, provided]
  rw [ofKind] at first none ⊢
  rwa [List.filter_append, first, none, List.append_nil]

theorem kind_ne_of_category {a b : Operation} (categorized : a.category? = some c)
    (other : b.category? = some d) (different : c ≠ d) : a.kind ≠ b.kind := by
  intro same
  have equal := category?_of_kind same
  rw [categorized, other] at equal
  exact different (Option.some.inj equal)

theorem tuned_of_emits (emitted : ∀ c, Emits name n boxes c (parts c)) :
    ∃ before after, Category.all.flatMap parts = before ++ tuning name n ++ after ∧
      (∀ op ∈ before, op.kind ≠ "TuneProvider" ∧ op.kind ≠ "AddSyncedFolder") ∧
      ∀ op ∈ after, op.kind ≠ "TuneProvider" ∧ op.kind ≠ "SetProviderProperty" := by
  have tune : (Operation.tuneProvider .null .null .null .null .null).category? = some .providers :=
    rfl
  have folder : (Operation.addSyncedFolder .null .null .null .null .null).category? =
    some .syncedFolders := rfl
  obtain ⟨properties, set, provided⟩ := emitted .providers
  -- behind the earlier sections the properties are the first half of the section of providers
  let early : List Category := [.identity, .networks, .forwardedPorts, .provisioners]
  refine ⟨early.flatMap parts ++ properties, parts .syncedFolders, ?_, ?_, ?_⟩
  · simp [Category.all, early, provided]
  · intro op member
    rcases List.mem_append.mp member with member | member
    · obtain ⟨c, first, member⟩ := List.mem_flatMap.mp member
      have apart : ∀ c ∈ early, c ≠ .providers ∧ c ≠ .syncedFolders := by decide
      have here := (emitted c).category op member
      exact ⟨kind_ne_of_category here tune (apart c first).1,
        kind_ne_of_category here folder (apart c first).2⟩
    · rw [forall_mem_of_forall₂ set (fun _ _ => kind_of_setsProperty) op member]
      decide
  · intro op member
    rw [forall_mem_of_forall₂ (emitted .syncedFolders) (P := fun op => op.kind = "AddSyncedFolder")
      (fun _ _ ⟨_⟩ => rfl) op member]
    decide

theorem node_shaped (known : (boxes.orElse (.map [])).entries? = some catalog)
    (ran : node name n boxes = .ok ops) : Shaped name n boxes catalog ops := by
  obtain ⟨parts, emitted, rfl⟩ := sections_of_node ran
  have within (c : Category) := (emitted c).category
  exact {
    categorized := fun op member => by
      obtain ⟨c, -, member⟩ := List.mem_flatMap.mp member
      exact ⟨c, within c op member⟩
    ordered := ordered_of_sections within
    opening := by
      obtain ⟨location, identified, found⟩ := opening_of_identity known (emitted .identity)
      let later : List Category :=
        [.networks, .forwardedPorts, .provisioners, .providers, .syncedFolders]
      have behind : .identity ∉ later := by decide
      refine ⟨location, later.flatMap parts, ?_, found, fun op member identity => ?_⟩
      · simp [Category.all, later, identified]
      · obtain ⟨c, there, member⟩ := List.mem_flatMap.mp member
        obtain rfl := Option.some.inj ((within c op member).symm.trans identity)
        exact behind there
    networks := forall₂_ofKind (.addNetwork .null .null) within rfl (emitted .networks)
      fun _ _ ⟨_, _⟩ => rfl
    forwardedPorts := forall₂_ofKind (.addForwardedPort .null) within rfl
      (emitted .forwardedPorts) fun _ _ ⟨_, _⟩ => rfl
    properties := properties_of_emits emitted
    syncedFolders := forall₂_ofKind (.addSyncedFolder .null .null .null .null .null) within rfl
      (emitted .syncedFolders) fun _ _ ⟨_⟩ => rfl
    tuned := tuned_of_emits emitted
    independent := fun {m ops' c} ran' agree => by
      obtain ⟨parts', emitted', rfl⟩ := sections_of_node ran'
      rw [inCategory_sections fun c => (emitted' c).category, inCategory_sections within]
      exact (emitted c).unique agree (emitted' c) }

/-- A node with something in every category. -/
theorem node_shaped_of_web :
    let n : Node := { (default : Node) with
      box := .str "alma", hostname := .str "web", chipset := .str "ich9"
      networks := [.map [(.str "private_network", .map [(.str "auto-config", .bool true)]),
        (.str "forwarded", .null)], .str "public_network"]
      forwardedPorts := [.map [(.str "guest", .int 80)], .null]
      provisioners := [.str "shell"]
      providers := [(.str "virtualbox", .map [(.str "gui", .bool false)])]
      syncedFolders := [.map [(.str "host", .str ".")]] }
    let boxes : Value := .map [(.str "alma", .str "alma.box")]
    ∃ ops, node "web" n boxes = .ok ops ∧
      ops.map Operation.kind = ["SetBox", "SetBoxURL", "SetHostname", "AddNetwork", "AddNetwork",
        "AddNetwork", "AddForwardedPort", "AddForwardedPort", "AddProvisioner",
        "SetProviderProperty", "TuneProvider", "TuneProvider", "TuneProvider", "AddSyncedFolder"] ∧
      Shaped "web" n boxes [(.str "alma", .str "alma.box")] ops :=
  ⟨_, rfl, rfl, node_shaped rfl rfl⟩

end Compile

end MachinePlan
