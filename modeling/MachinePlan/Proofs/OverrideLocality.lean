import MachinePlan.Proofs.Compile.Nodewise
import MachinePlan.Proofs.Document.Nodes
import MachinePlan.Proofs.Merge.Kept

/-!
# Overrides are local

From files to operations, an override changes only what it mentions. A node that the override does
not mention is compiled, with its hooks, to the same operations at the same place, whatever else the
override does to other nodes (`override_local`). The catalog of boxes is the one part of a document
that every node can see, so the override must leave it alone.
-/

namespace MachinePlan

open Value

/-- An entry of the section of the nodes is compiled to a node. -/
def CompilesTo (registry : Registry) (boxes : Value) (entry : Value × Value) (node : CompiledNode) :
    Prop :=
  ∃ named, Document.Declares entry named ∧ Compile.namedNode registry boxes named = .ok node

/-- What an override mentions in the section of the nodes, which it may not have. -/
def Overrides (upper ss : Entries) : Prop :=
  (get? "nodes" upper = none ∧ ss = []) ∨
    ∃ w, get? "nodes" upper = some w ∧ w.entries? = some ss

/-- A document that has an end, and an override of it that may have none. Both name their nodes by
distinct texts; the override holds no key twice, as is so of mappings, and has no catalog. -/
structure Overriding (base ps : Entries) (s : Value) (upper ss : Entries)
    (own others : List String) : Prop where
  finite : (Value.map base).isEndless = false
  declared : get? "nodes" base = some (.map ps)
  first : Named own ps
  read : s.entries? = some upper
  distinct : (keys upper).Pairwise fun a b => same a b = false
  overrides : Overrides upper ss
  last : Named others ss
  catalog : get? "boxes" upper = none

/-- How the nodes of a document compile before and after an override. -/
structure Local (own others : List String) (before after : List CompiledNode) : Prop where
  /-- The nodes of the document come first, in their order. -/
  first : before.map CompiledNode.name = own
  /-- The nodes that only the override has follow in its order. -/
  last : after.map CompiledNode.name = own ++ others.filter fun name => !own.contains name
  /-- A node that the override does not mention is compiled to the same node at its place. -/
  untouched : ∀ (i : Nat) (node : CompiledNode), before[i]? = some node → node.name ∉ others → after[i]? = some node

section
variable {registry : Registry} {boxes : Value} {entry : Value × Value} {node other : CompiledNode}
  {own others names : List String} {base upper result ps ss rs es : Entries}
  {ns : List (String × Node)} {compiled : List CompiledNode}

theorem CompilesTo.unique (one : CompilesTo registry boxes entry node)
    (two : CompilesTo registry boxes entry other) : node = other := by
  obtain ⟨⟨name, n⟩, ⟨text, declared⟩, ran⟩ := one
  obtain ⟨⟨name', n'⟩, ⟨text', declared'⟩, ran'⟩ := two
  obtain rfl := Except.ok.inj (text.symm.trans text')
  obtain rfl := Except.ok.inj (declared.symm.trans declared')
  exact Except.ok.inj (ran.symm.trans ran')

/-- A section under distinct names is compiled entry by entry, in order. -/
theorem compilesTo_of_nodes (named : Named names es) (read : Document.readNodes [] es = .ok ns)
    (ran : Compile.nodes registry boxes ns = .ok compiled) :
    List.Forall₂ (CompilesTo registry boxes) es compiled ∧
      compiled.map CompiledNode.name = names := by
  obtain ⟨declared, inOrder⟩ := named.readNodes read
  refine ⟨?_, (Compile.names_of_nodes ran).trans inOrder⟩
  replace ran := Compile.nodes_eq_ok_iff.mp ran
  clear read inOrder named
  induction declared generalizing compiled with
  | nil =>
    cases ran
    exact .nil
  | cons here _ ih =>
    obtain ⟨node, rest, ranHere, ranRest, rfl⟩ := List.forall₂_cons_left_iff.mp ran
    exact .cons ⟨_, here, ranHere⟩ (ih ranRest)

theorem related_at {α β : Type} {related : α → β → Prop} {as : List α} {bs : List β} {a : α} {i : Nat}
    (pairs : List.Forall₂ related as bs) (found : as[i]? = some a) :
    ∃ b, bs[i]? = some b ∧ related a b := by
  induction pairs generalizing i with
  | nil => cases found
  | cons pair _ ih =>
    cases i with
    | zero =>
      obtain rfl := Option.some.inj found
      exact ⟨_, rfl, pair⟩
    | succ i => exact ih found

theorem CompilesTo.name_eq (compiles : CompilesTo registry boxes entry node) :
    entry.1.text = .ok node.name := by
  obtain ⟨named, declares, ran⟩ := compiles
  rw [declares.1, Compile.namedNode_name ran]

/-! ### Sections -/

theorem Named.hasKey_iff (named : Named names es) (name : String) :
    hasKey (.str name) es = names.contains name := by
  rw [Bool.eq_iff_iff, Value.hasKey_iff, named.keys_eq]
  simp [same_str]

/-- What is laid over a section under distinct names adds its own names behind. -/
theorem Kept.named (kept : Kept ps ss rs) (first : Named own ps) (last : Named others ss) :
    Named (own ++ others.filter fun name => !own.contains name) rs where
  keys_eq := by
    rw [kept.ordered last.keysSound, first.keys_eq, last.keys_eq, List.map_append,
      List.filter_map]
    simp only [Function.comp_def, first.hasKey_iff]
  distinct := by
    rw [List.nodup_append]
    refine ⟨first.distinct, last.distinct.filter _, ?_⟩
    rintro name member _ added rfl
    simp [member] at added

/-- An entry of a section that is not mentioned stays at its place. -/
theorem Kept.getElem? (kept : Kept ps ss rs) (first : Named own ps) (last : Named others ss)
    {i : Nat} {k v : Value} (found : ps[i]? = some (k, v)) (absent : lookup k ss = none) :
    rs[i]? = some (k, v) := by
  have inside : i < (keys ps).length := by
    rw [keys, List.length_map]
    exact (List.getElem?_eq_some_iff.mp found).1
  have there : (keys rs)[i]? = some k := by
    rw [kept.ordered last.keysSound, List.getElem?_append_left inside, keys, List.getElem?_map,
      found]
    rfl
  rw [keys, List.getElem?_map, Option.map_eq_some_iff] at there
  obtain ⟨⟨k, w⟩, member, rfl⟩ := there
  have isKey : IsKey k := first.keysSound.isKey k
    (List.mem_map_of_mem (f := Prod.fst) (List.mem_of_getElem? found))
  have before := lookup_of_mem first.keysSound (List.mem_of_getElem? found)
  have after := lookup_of_mem (kept.named first last).keysSound (List.mem_of_getElem? member)
  rw [kept.same k isKey absent, before] at after
  rw [member, Option.some.inj after]

/-- A merged document declares its nodes by the section of the base, with that of the override laid
over it. -/
theorem section_of_kept (kept : KeptBelow base upper result) (own : get? "nodes" base = some (.map ps))
    (overrides : Overrides upper ss) : ∃ rs, get? "nodes" result = some (.map rs) ∧ Kept ps ss rs := by
  rcases overrides with ⟨absent, rfl⟩ | ⟨w, found, read⟩
  · refine ⟨ps, ?_, ⟨by simp, fun _ _ _ => rfl⟩⟩
    rw [get?, kept.same _ (isKey_str "nodes") absent]
    exact own
  · exact kept.below _ ps w ss (isKey_str "nodes") own found read

theorem nodeEntries_of_section (own : get? "nodes" base = some (.map ps)) :
    Document.nodeEntries base = .ok ps := by
  rw [Document.nodeEntries, getD, own, Option.getD_some, orElse_map_nil]
  rfl

end

/-- Whatever else an override does, the nodes that it does not mention compile as they did. -/
theorem override_local {base ps upper ss : Entries} {s m : Value} {own others : List String}
    {registry : Registry} {sources sources' : List Path} {d d' : Document}
    {before after : List CompiledNode} (overriding : Overriding base ps s upper ss own others)
    (merged : merge (.map base) s = .ok m)
    (loaded : Document.ofValue (.map base) sources = .ok d)
    (ran : Compile.document d registry = .ok before)
    (loadedAfter : Document.ofValue m sources' = .ok d')
    (ranAfter : Compile.document d' registry = .ok after) : Local own others before after := by
  obtain ⟨finite, declared, first, read, distinct, overrides, last, catalog⟩ := overriding
  obtain ⟨result, rfl, kept⟩ := merge_kept finite distinct read merged
  obtain ⟨rs, declaredAfter, keptNodes⟩ := section_of_kept kept declared overrides
  obtain ⟨es, found, readBefore, boxes⟩ := Document.ofValue_map_eq_ok loaded
  obtain rfl := Except.ok.inj ((nodeEntries_of_section declared).symm.trans found)
  obtain ⟨es, found, readAfter, boxesAfter⟩ := Document.ofValue_map_eq_ok loadedAfter
  obtain rfl := Except.ok.inj ((nodeEntries_of_section declaredAfter).symm.trans found)
  have sameBoxes : d'.boxes = d.boxes := by
    rw [boxes, boxesAfter, getD, get?, kept.same _ (isKey_str "boxes") catalog]
    rfl
  obtain ⟨pairs, names⟩ := compilesTo_of_nodes first readBefore ran
  rw [Compile.document, sameBoxes] at ranAfter
  obtain ⟨pairsAfter, namesAfter⟩ :=
    compilesTo_of_nodes (keptNodes.named first last) readAfter ranAfter
  refine ⟨names, namesAfter, fun i node at_i fresh => ?_⟩
  -- The entry that the node comes from stands at the same place in the merged section.
  obtain ⟨⟨k, v⟩, entry, compiles⟩ := related_at pairs.flip at_i
  have key : k = .str node.name := by
    have member : k ∈ keys ps := List.mem_map_of_mem (f := Prod.fst) (List.mem_of_getElem? entry)
    rw [first.keys_eq, List.mem_map] at member
    obtain ⟨name, _, rfl⟩ := member
    rw [Except.ok.inj (CompilesTo.name_eq compiles)]
  have absent : lookup k ss = none := by
    rw [← Option.not_isSome_iff_eq_none, key]
    intro mentioned
    rw [← hasKey, last.hasKey_iff, List.contains_iff_mem] at mentioned
    exact fresh mentioned
  obtain ⟨there, at_i, same⟩ := related_at pairsAfter (keptNodes.getElem? first last entry absent)
  rw [at_i, CompilesTo.unique same compiles]

def webAndDb : Entries :=
  [(.str "nodes", .map [(.str "web", .map [(.str "cpus", .int 2)]), (.str "db", .null)])]

def dbOverride : Entries :=
  [(.str "nodes", .map [(.str "db", .map [(.str "memory", .int 512)]), (.str "cache", .null)])]

theorem webAndDb_overriding : ∃ ps ss,
    Overriding webAndDb ps (.map dbOverride) dbOverride ss ["web", "db"] ["db", "cache"] :=
  ⟨_, _, rfl, rfl, ⟨rfl, by decide⟩, rfl, List.pairwise_singleton _ _, .inr ⟨_, rfl, rfl⟩,
    ⟨rfl, by decide⟩, rfl⟩

theorem override_local_webAndDb : ∃ m d d' before after,
    merge (.map webAndDb) (.map dbOverride) = .ok m ∧
    Document.ofValue (.map webAndDb) [] = .ok d ∧ Compile.document d .empty = .ok before ∧
    Document.ofValue m [] = .ok d' ∧ Compile.document d' .empty = .ok after ∧
    Local ["web", "db"] ["db", "cache"] before after := by
  obtain ⟨ps, ss, overriding⟩ := webAndDb_overriding
  refine ⟨_, _, _, _, _, rfl, rfl, rfl, rfl, rfl, ?_⟩
  exact override_local overriding rfl (show Document.ofValue (.map webAndDb) [] = .ok _ from rfl) rfl
    (show Document.ofValue _ [] = .ok _ from rfl) rfl

/-- A document of two nodes, one of which syncs with the section that holds them both. -/
def selfSyncing : Entries :=
  [(.str "nodes", .ring ⟨0, 1, 0⟩ (.map [(.str "host", .map [(.str "cpus", .int 1)]),
    (.str "a", .map [(.str "synced_folders", .list [.again ⟨0, 1, 0⟩ .map])])]))]

/-- In a document that contains itself, an override of one node is seen through the other. -/
theorem override_local_fails_of_selfSyncing : ∃ m d d' before after,
    merge (.map selfSyncing)
      (.map [(.str "nodes", .map [(.str "host", .map [(.str "cpus", .int 2)])])]) = .ok m ∧
    Document.ofValue (.map selfSyncing) [] = .ok d ∧ Compile.document d .empty = .ok before ∧
    Document.ofValue m [] = .ok d' ∧ Compile.document d' .empty = .ok after ∧
    ¬ Local ["host", "a"] ["host"] before after := by
  refine ⟨_, _, _, _, _, rfl, rfl, rfl, rfl, rfl, fun law => ?_⟩
  have seen := law.untouched 1 _ rfl (by decide)
  cases seen

end MachinePlan
