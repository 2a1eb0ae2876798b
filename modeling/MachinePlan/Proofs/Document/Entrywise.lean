import MachinePlan.Proofs.Compile.Nodewise
import MachinePlan.Proofs.Document.Nodes

/-!
# Entries that become one node

The keys of a mapping are distinct, but their texts need not be: the number 1 and the text `1` are
two keys and one name. A document has a node for each name, in the order in which the names come
first, and each node is that of the last entry of its name. So every entry has a node of its own
exactly when no two keys have the same text (`nodes_kept`).
-/

namespace MachinePlan.Document

open Value

variable {es : Entries} {old new : List (String × Node)} {named : String × Node} {name : String}
  {node : Node}

/-! ### Putting nodes under their names -/

theorem names_putNode (name : String) (node : Node) (old : List (String × Node)) :
    (putNode name node old).map Prod.fst =
      if name ∈ old.map Prod.fst then old.map Prod.fst else old.map Prod.fst ++ [name] := by
  induction old with
  | nil => rfl
  | cons entry old ih =>
    obtain ⟨other, there⟩ := entry
    rw [putNode]
    by_cases same : other = name
    · rw [if_pos same, List.map_cons, List.map_cons, if_pos (by simp [same])]
    · rw [if_neg same, List.map_cons, ih, List.map_cons]
      simp only [List.mem_cons, Ne.symm same, false_or]
      split <;> rfl

theorem nodup_names_putNode (distinct : (old.map Prod.fst).Nodup) :
    ((putNode name node old).map Prod.fst).Nodup := by
  rw [names_putNode]
  split
  case isTrue => exact distinct
  case isFalse fresh => exact distinct.append (List.nodup_singleton name) (by simpa using fresh)

/-- Putting a node under a name leaves the nodes under other names and no other one under it. -/
theorem mem_putNode (distinct : (old.map Prod.fst).Nodup) (member : named ∈ putNode name node old) :
    named = (name, node) ∨ named ∈ old ∧ named.1 ≠ name := by
  induction old with
  | nil => exact .inl (List.mem_singleton.mp member)
  | cons entry old ih =>
    obtain ⟨other, there⟩ := entry
    obtain ⟨fresh, distinct⟩ := List.nodup_cons.mp distinct
    rw [putNode] at member
    split at member
    case isTrue same =>
      rcases List.mem_cons.mp member with rfl | member
      · exact .inl (by rw [same])
      · have inside : named.1 ∈ old.map Prod.fst := List.mem_map_of_mem member
        refine .inr ⟨List.mem_cons_of_mem _ member, ?_⟩
        rintro rfl
        exact fresh (same ▸ inside)
    case isFalse different =>
      rcases List.mem_cons.mp member with rfl | member
      · exact .inr ⟨List.mem_cons_self, different⟩
      · exact (ih distinct member).imp_right fun kept => ⟨List.mem_cons_of_mem _ kept.1, kept.2⟩

theorem nodup_names_nil : (([] : List (String × Node)).map Prod.fst).Nodup := List.nodup_nil

theorem eraseDups_of_nodup {names : List String} (distinct : names.Nodup) :
    names.eraseDups = names := by
  induction names with
  | nil => rfl
  | cons name names ih =>
    obtain ⟨fresh, distinct⟩ := List.nodup_cons.mp distinct
    have others : names.filter (fun other => !other == name) = names := by
      refine List.filter_eq_self.mpr fun other member => ?_
      have different : other ≠ name := fun same => fresh (same ▸ member)
      simpa using different
    rw [List.eraseDups_cons, others, ih distinct]

theorem nodup_names_putNodes (distinct : (old.map Prod.fst).Nodup) :
    ((putNodes old new).map Prod.fst).Nodup := by
  induction new generalizing old with
  | nil => exact distinct
  | cons named new ih => exact ih (nodup_names_putNode distinct)

/-- The names stand in the order in which they come first. -/
theorem names_putNodes (distinct : (old.map Prod.fst).Nodup) (new : List (String × Node)) :
    (putNodes old new).map Prod.fst = (old.map Prod.fst ++ new.map Prod.fst).eraseDups := by
  induction new generalizing old with
  | nil =>
    rw [List.map_nil, List.append_nil, eraseDups_of_nodup distinct]
    rfl
  | cons named new ih =>
    change (putNodes (putNode named.1 named.2 old) new).map Prod.fst = _
    rw [ih (nodup_names_putNode distinct), names_putNode, List.map_cons]
    split
    case isTrue there =>
      rw [List.eraseDups_append, List.eraseDups_append, List.removeAll, List.removeAll,
        List.filter_cons_of_neg (by simpa using there)]
    case isFalse => rw [List.append_assoc, List.singleton_append]

/-- A node that is left is the last one of its name. -/
theorem mem_putNodes (distinct : (old.map Prod.fst).Nodup) (member : named ∈ putNodes old new) :
    (named ∈ old ∧ named.1 ∉ new.map Prod.fst) ∨
      ∃ before after, new = before ++ named :: after ∧ named.1 ∉ after.map Prod.fst := by
  induction new generalizing old with
  | nil => exact .inl ⟨member, List.not_mem_nil⟩
  | cons first new ih =>
    rcases ih (nodup_names_putNode distinct) member with ⟨kept, last⟩ | ⟨before, after, rfl, last⟩
    · rcases mem_putNode distinct kept with rfl | ⟨kept, different⟩
      · exact .inr ⟨[], new, rfl, last⟩
      · exact .inl ⟨kept, by simp [different, last]⟩
    · exact .inr ⟨first :: before, after, rfl, last⟩

theorem putNodes_nil_of_distinct (distinct : (new.map Prod.fst).Nodup) : putNodes [] new = new :=
  show putNodes [] new = [] ++ new from putNodes_of_distinct distinct

theorem length_putNodes_eq_iff :
    (putNodes [] new).length = new.length ↔ (new.map Prod.fst).Nodup := by
  have distinct : ((putNodes [] new).map Prod.fst).Nodup := nodup_names_putNodes nodup_names_nil
  constructor
  · intro full
    have inside : (putNodes [] new).map Prod.fst ⊆ new.map Prod.fst := by
      intro name member
      rw [names_putNodes nodup_names_nil] at member
      exact List.mem_eraseDups.mp member
    have same : ((putNodes [] new).map Prod.fst).Perm (new.map Prod.fst) :=
      (List.subperm_of_subset distinct inside).perm_of_length_le
        (by rw [List.length_map, List.length_map, full])
    exact same.nodup_iff.mp distinct
  · intro fresh
    rw [putNodes_nil_of_distinct fresh]

/-! ### Entries and nodes -/

theorem texts_of_declared (declared : List.Forall₂ Declares es new) :
    es.map (fun entry => entry.1.text) = (new.map Prod.fst).map .ok := by
  induction declared with
  | nil => rfl
  | cons here _ ih => rw [List.map_cons, List.map_cons, List.map_cons, ih, here.1]

/-- The keys of entries have distinct texts. -/
def DistinctTexts (es : Entries) : Prop :=
  es.Pairwise fun a b => a.1.text ≠ b.1.text

theorem distinctTexts_iff (declared : List.Forall₂ Declares es new) :
    DistinctTexts es ↔ (new.map Prod.fst).Nodup := by
  have texts : DistinctTexts es ↔ (es.map fun entry => entry.1.text).Nodup :=
    List.pairwise_map.symm
  rw [texts, texts_of_declared declared, List.nodup_map_iff fun a b => Except.ok.inj]

/-- What a document keeps of the entries of its section of nodes. -/
structure KeepsEntries (es : Entries) (d : Document) : Prop where
  /-- The names are the texts of the keys, each where it comes first. -/
  names : ∃ names : List String, es.map (fun entry => entry.1.text) = names.map .ok ∧
    d.nodeNames = names.eraseDups
  /-- A node is that of the last entry of its name. -/
  last : ∀ named ∈ d.nodes, ∃ before entry after, es = before ++ entry :: after ∧
    Declares entry named ∧ ∀ later ∈ after, later.1.text ≠ .ok named.1
  /-- There is a node for each entry exactly when the texts of the keys are distinct. -/
  length_eq_iff : d.nodes.length = es.length ↔ DistinctTexts es
  /-- Under distinct texts the nodes are those of the entries, one by one. -/
  declared : DistinctTexts es → List.Forall₂ Declares es d.nodes
  /-- Every node is in the plan, in order. -/
  compiled : ∀ registry compiled, Compile.document d registry = .ok compiled →
    compiled.map CompiledNode.name = d.nodeNames

variable {data : Value} {fields : Entries} {sources : List Path} {d : Document}

/-- A document keeps the entries of its section of nodes but for those whose name comes again. -/
theorem nodes_kept (whole : data.entries? = some fields)
    (nodes : (getD "nodes" fields).entries? = some es) (read : ofValue data sources = .ok d) :
    KeepsEntries es d := by
  obtain ⟨_, found, readNodes, _⟩ := ofValue_eq_ok whole read
  obtain rfl := Except.ok.inj ((nodeEntries_of_entries? nodes).symm.trans found)
  obtain ⟨new, declared, put⟩ := readNodes_eq_ok_iff.mp readNodes
  have distinct_iff := distinctTexts_iff declared
  refine ⟨⟨new.map Prod.fst, texts_of_declared declared, ?_⟩, ?_, ?_, ?_, ?_⟩
  · rw [nodeNames, ← put, names_putNodes nodup_names_nil]
    rfl
  · intro named member
    rw [← put] at member
    obtain ⟨kept, _⟩ | ⟨before, after, rfl, last⟩ := mem_putNodes nodup_names_nil member
    · exact absurd kept List.not_mem_nil
    have behind := List.forall₂_drop_append _ _ _ declared
    obtain ⟨entry, rest, here, others, split⟩ := List.forall₂_cons_right_iff.mp behind
    refine ⟨es.take before.length, entry, rest, ?_, here, ?_⟩
    · rw [← split, List.take_append_drop]
    · intro later member same
      have text : later.1.text ∈ rest.map (fun entry => entry.1.text) := List.mem_map_of_mem member
      rw [same, texts_of_declared others] at text
      obtain ⟨name, member, same⟩ := List.mem_map.mp text
      exact last (Except.ok.inj same ▸ member)
  · rw [← put, declared.length_eq, length_putNodes_eq_iff, distinct_iff]
  · intro distinct
    rw [← put, putNodes_nil_of_distinct (distinct_iff.mp distinct)]
    exact declared
  · intro registry compiled ran
    exact Compile.names_of_nodes ran

def numberAndText : Entries :=
  [(.int 1, .null), (.str "web", .null)]

theorem nodes_kept_numberAndText :
    ∃ d, ofValue (.map [(.str "nodes", .map numberAndText)]) [] = .ok d ∧
      KeepsEntries numberAndText d ∧ DistinctTexts numberAndText := by
  have two : (ofValue (.map [(.str "nodes", .map numberAndText)]) []).map
      (fun d => d.nodes.length) = .ok 2 := by decide +kernel
  rcases read : ofValue (.map [(.str "nodes", .map numberAndText)]) [] with failure | d
  · rw [read] at two
    cases two
  · rw [read] at two
    have whole : (Value.map [(.str "nodes", .map numberAndText)]).entries? =
        some [(.str "nodes", .map numberAndText)] := rfl
    have kept : KeepsEntries numberAndText d := nodes_kept whole rfl read
    exact ⟨d, rfl, kept, kept.length_eq_iff.mp (Except.ok.inj two)⟩

def oneTwice : Entries :=
  [(.int 1, .map [(.str "cpus", .int 1)]), (.str "1", .map [(.str "cpus", .int 2)])]

/-- Not every entry has a node of its own, even under distinct keys. -/
theorem nodes_kept_fails : ¬ ∀ data fields es sources d, data.entries? = some fields →
    (getD "nodes" fields).entries? = some es → KeysSound es → ofValue data sources = .ok d →
    d.nodes.length = es.length := by
  intro every
  have sound : KeysSound oneTwice :=
    keysSound_cons.mpr ⟨⟨rfl, rfl⟩, List.forall_mem_singleton.mpr rfl,
      keysSound_cons.mpr ⟨isKey_str "1", List.forall_mem_nil _, .nil⟩⟩
  have one : (ofValue (.map [(.str "nodes", .map oneTwice)]) []).map
      (fun d => d.nodes.length) = .ok 1 := by decide +kernel
  rcases read : ofValue (.map [(.str "nodes", .map oneTwice)]) [] with failure | d
  · rw [read] at one
    cases one
  · rw [read] at one
    have two := every _ _ oneTwice [] d rfl rfl sound read
    cases two.symm.trans (Except.ok.inj one)

end MachinePlan.Document
