import MachinePlan.Document.Basic
import MachinePlan.Proofs.Entries
import MachinePlan.Proofs.Outcome
import Mathlib.Data.List.Forall2

/-!
# The nodes of a document

Each entry of the section of the nodes declares one node, and the document holds them in order, put
one after the other under their names (`readNodes_eq_ok_iff`). Where the names are distinct texts,
no node takes the place of another.
-/

namespace MachinePlan

open Value

namespace Document

variable {es data : Entries} {entry : Value × Value} {old new ns : List (String × Node)}
  {name : String} {node : Node} {d : Document} {sources : List Path}

/-- An entry of the section of the nodes declares a node under a name. -/
def Declares (entry : Value × Value) (named : String × Node) : Prop :=
  entry.1.text = .ok named.1 ∧ Node.ofNamed named.1 entry.2 = .ok named.2

/-- Nodes put one after the other under their names. -/
def putNodes (old new : List (String × Node)) : List (String × Node) :=
  new.foldl (fun nodes named => putNode named.1 named.2 nodes) old

theorem readNodes_eq_ok_iff :
    readNodes old es = .ok ns ↔ ∃ new, List.Forall₂ Declares es new ∧ putNodes old new = ns := by
  induction es generalizing old with
  | nil => simp [readNodes, putNodes]
  | cons entry es ih =>
    obtain ⟨key, attrs⟩ := entry
    rw [readNodes]
    constructor
    · intro read
      obtain ⟨name, text, read⟩ := bind_eq_ok.mp read
      obtain ⟨node, declared, read⟩ := bind_eq_ok.mp read
      obtain ⟨new, rest, rfl⟩ := ih.mp read
      exact ⟨(name, node) :: new, .cons ⟨text, declared⟩ rest, rfl⟩
    · rintro ⟨_, declared, rfl⟩
      obtain ⟨⟨name, node⟩, new, ⟨text, here⟩, rest, rfl⟩ := List.forall₂_cons_left_iff.mp declared
      exact bind_eq_ok.mpr ⟨name, text, bind_eq_ok.mpr ⟨node, here, ih.mpr ⟨new, rest, rfl⟩⟩⟩

theorem putNode_of_fresh (fresh : name ∉ old.map Prod.fst) :
    putNode name node old = old ++ [(name, node)] := by
  induction old with
  | nil => rfl
  | cons entry old ih =>
    obtain ⟨other, there⟩ := entry
    rw [List.map_cons, List.mem_cons, not_or] at fresh
    rw [putNode, if_neg (Ne.symm fresh.1), ih fresh.2, List.cons_append]

/-- Under distinct names no node takes the place of another. -/
theorem putNodes_of_distinct (distinct : ((old ++ new).map Prod.fst).Nodup) :
    putNodes old new = old ++ new := by
  induction new generalizing old with
  | nil => rw [List.append_nil]; rfl
  | cons named new ih =>
    have fresh : named.1 ∉ old.map Prod.fst := by
      rw [List.map_append, List.nodup_append] at distinct
      intro member
      exact distinct.2.2 named.1 member named.1 (by simp) rfl
    rw [List.append_cons] at distinct
    rw [putNodes, List.foldl_cons, putNode_of_fresh fresh]
    exact (ih distinct).trans (List.append_assoc old [named] new)

theorem orElse_map_nil_of_entries? {v : Value} (whole : v.entries? = some es) :
    (v.orElse (.map [])).entries? = some es := by
  rw [orElse]
  split
  case isTrue => exact whole
  case isFalse falsy =>
    -- only the empty mapping counts as nothing and has entries all the same
    cases v with
    | map fields =>
      cases fields with
      | nil => exact whole
      | cons => exact absurd rfl falsy
    | ring | again => exact absurd rfl falsy
    | _ => cases whole

theorem nodeEntries_of_entries? (whole : (getD "nodes" data).entries? = some es) :
    nodeEntries data = .ok es := by
  rw [nodeEntries, orElse_map_nil_of_entries? whole]

/-- What a document is read from: the nodes, the catalog and the plugins. -/
theorem ofValue_eq_ok {v : Value} (whole : v.entries? = some data)
    (read : ofValue v sources = .ok d) :
    ∃ es, nodeEntries data = .ok es ∧ readNodes [] es = .ok d.nodes ∧
      d.boxes = (getD "boxes" data).orElse (.map []) ∧
      ∃ plugins, (getD "plugins" data).elementsOrNone = .ok plugins ∧
        texts plugins = .ok d.plugins := by
  rw [ofValue, entries, whole] at read
  obtain ⟨fields, found, read⟩ := bind_eq_ok.mp read
  obtain rfl := Except.ok.inj found
  obtain ⟨es, declared, read⟩ := bind_eq_ok.mp read
  obtain ⟨nodes, named, read⟩ := bind_eq_ok.mp read
  obtain ⟨plugins, listed, read⟩ := bind_eq_ok.mp read
  obtain ⟨names, written, read⟩ := bind_eq_ok.mp read
  obtain rfl := Except.ok.inj read
  exact ⟨es, declared, named, rfl, plugins, listed, written⟩

theorem ofValue_map_eq_ok (read : ofValue (.map data) sources = .ok d) :
    ∃ es, nodeEntries data = .ok es ∧ readNodes [] es = .ok d.nodes ∧
      d.boxes = (getD "boxes" data).orElse (.map []) := by
  obtain ⟨es, declared, named, boxes, _⟩ := ofValue_eq_ok rfl read
  exact ⟨es, declared, named, boxes⟩

end Document

/-- The keys of entries are distinct texts. -/
structure Named (names : List String) (es : Entries) : Prop where
  keys_eq : keys es = names.map .str
  distinct : names.Nodup

variable {names : List String} {es : Entries} {new ns : List (String × Node)}

theorem Named.keysSound (named : Named names es) : KeysSound es := by
  refine ⟨?_, ?_⟩
  · intro k member
    rw [named.keys_eq, List.mem_map] at member
    obtain ⟨name, _, rfl⟩ := member
    exact isKey_str name
  · rw [named.keys_eq, List.pairwise_map]
    refine named.distinct.imp fun {a b} different => ?_
    rw [Bool.eq_false_iff]
    intro equal
    exact different (by simpa using (same_str (.str a) b).mp equal)

theorem names_of_declared (texts : keys es = names.map .str)
    (declared : List.Forall₂ Document.Declares es new) : new.map Prod.fst = names := by
  induction declared generalizing names with
  | nil => cases names with
    | nil => rfl
    | cons => cases texts
  | @cons entry named es new here _ ih =>
    cases names with
    | nil => cases texts
    | cons name names =>
      obtain ⟨first, rest⟩ := List.cons.inj texts
      have same : named.1 = name := by
        have text := here.1
        rw [show entry.1 = .str name from first] at text
        exact (Except.ok.inj text).symm
      rw [List.map_cons, same, ih rest]

/-- A section under distinct names makes one node of each entry, in order. -/
theorem Named.readNodes (named : Named names es) (read : Document.readNodes [] es = .ok ns) :
    List.Forall₂ Document.Declares es ns ∧ ns.map Prod.fst = names := by
  obtain ⟨new, declared, rfl⟩ := Document.readNodes_eq_ok_iff.mp read
  have inOrder := names_of_declared named.keys_eq declared
  rw [Document.putNodes_of_distinct (by rw [List.nil_append, inOrder]; exact named.distinct)]
  exact ⟨declared, inOrder⟩

end MachinePlan
