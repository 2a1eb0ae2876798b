import MachinePlan.Backend.Vagrant
import MachinePlan.Proofs.Records
import Mathlib.Data.List.Forall2

/-!
# The layout of plan texts

A plan is laid out entry by entry: between a fixed beginning and a fixed end stand the texts of its
nodes, and the text of a node is the same in whatever plan it stands (`planText_eq_ok_iff`).
-/

namespace MachinePlan

variable {v : Value} {vs : List Value} {nodes : List CompiledNode} {n : CompiledNode} {text : String}

/-! ### Rows of items -/

/-- The text of a row of items is that of each item, one level deeper, with separators between. -/
theorem Json.writeItems_eq_ok_iff {spacing : Json.Spacing} {level : Nat} {cs : List Char} :
    Json.writeItems spacing level vs = .ok cs ↔
      ∃ texts, List.Forall₂ (fun v text => Json.write spacing (level + 1) v = .ok text) vs texts ∧
        cs = (',' :: spacing.between level).intercalate texts := by
  induction vs generalizing cs with
  | nil => simp [Json.writeItems, eq_comm]
  | cons v vs ih =>
    cases vs with
    | nil =>
      simp only [Json.writeItems, List.forall₂_cons_left_iff, List.forall₂_nil_left_iff]
      constructor
      · exact fun wrote => ⟨[cs], ⟨cs, [], wrote, rfl, rfl⟩, List.intercalate_singleton.symm⟩
      · rintro ⟨_, ⟨text, _, wrote, rfl, rfl⟩, rfl⟩
        rw [wrote, List.intercalate_singleton]
    | cons w vs =>
      have split : Json.writeItems spacing level (v :: w :: vs) = do
          let head ← Json.write spacing (level + 1) v
          let tail ← Json.writeItems spacing level (w :: vs)
          return head ++ ',' :: spacing.between level ++ tail := rfl
      rw [split]
      constructor
      · intro wrote
        obtain ⟨head, first, wrote⟩ := bind_eq_ok.mp wrote
        obtain ⟨tail, others, wrote⟩ := bind_eq_ok.mp wrote
        obtain ⟨texts, rest, rfl⟩ := ih.mp others
        obtain ⟨second, texts, below, later, rfl⟩ := List.forall₂_cons_left_iff.mp rest
        obtain rfl := Except.ok.inj wrote
        refine ⟨head :: second :: texts, .cons first rest, ?_⟩
        rw [List.intercalate_cons_cons, List.append_assoc]
      · rintro ⟨_, rows, rfl⟩
        obtain ⟨head, _, first, rest, rfl⟩ := List.forall₂_cons_left_iff.mp rows
        obtain ⟨second, texts, below, later, rfl⟩ := List.forall₂_cons_left_iff.mp rest
        refine bind_eq_ok.mpr ⟨head, first, bind_eq_ok.mpr ⟨_, ih.mpr ⟨_, rest, rfl⟩, ?_⟩⟩
        rw [List.intercalate_cons_cons, List.append_assoc]
        rfl

/-! ### Nodes that are handed on -/

theorem CompiledNode.records_eq_ok_iff :
    CompiledNode.records nodes = .ok vs ↔
      (∀ n ∈ nodes, n.record = .ok n.toValue) ∧ vs = nodes.map CompiledNode.toValue := by
  induction nodes generalizing vs with
  | nil => simp [CompiledNode.records, eq_comm]
  | cons n nodes ih =>
    rw [CompiledNode.records, List.forall_mem_cons]
    constructor
    · intro handed
      obtain ⟨first, here, handed⟩ := bind_eq_ok.mp handed
      obtain ⟨rest, others, handed⟩ := bind_eq_ok.mp handed
      obtain ⟨all, rfl⟩ := ih.mp others
      obtain rfl := (CompiledNode.record_eq_ok_iff.mp here).2
      exact ⟨⟨here, all⟩, (Except.ok.inj handed).symm⟩
    · rintro ⟨⟨here, all⟩, rfl⟩
      exact bind_eq_ok.mpr ⟨_, here, bind_eq_ok.mpr ⟨_, ih.mpr ⟨all, rfl⟩, rfl⟩⟩

/-! ### Plans -/

namespace Vagrant

def EntryText (n : CompiledNode) (entry : String) : Prop :=
  n.record = .ok n.toValue ∧ Json.write Json.indented 2 n.toValue = .ok entry.toList

def planStart : String := "\x7b\n  \"nodes\": [\n    "

def planGap : String := ",\n    "

def planEnd : String := "\n  ]\n\x7d\n"

/-- The text of a plan with the given texts of nodes. -/
def textOfEntries (entries : List String) : String :=
  planStart ++ planGap.intercalate entries ++ planEnd

theorem write_row (some : vs ≠ []) :
    Json.write Json.indented 1 (.list vs) = do
      let body ← Json.writeItems Json.indented 1 vs
      return "[\n    ".toList ++ body ++ "\n  ]".toList := by
  obtain ⟨v, rest, rfl⟩ := List.exists_cons_of_ne_nil some
  have bracketed (body : List Char) : "[\n    ".toList ++ body ++ "\n  ]".toList =
      '[' :: Json.indented.inside 1 ++ body ++ Json.indented.closing 1 ++ [']'] := by
    simp [Json.indented, Json.newline, List.replicate]
  simp only [bracketed]
  rfl

theorem write_plan (v : Value) :
    Json.write Json.indented 0 (.map [(.str "nodes", v)]) = do
      let body ← Json.write Json.indented 1 v
      return "\x7b\n  \"nodes\": ".toList ++ body ++ "\n\x7d".toList := by
  have bracketed (body : List Char) : "\x7b\n  \"nodes\": ".toList ++ body ++ "\n\x7d".toList =
      '\x7b' :: Json.indented.inside 0 ++ (Json.string "nodes" ++ ':' :: ' ' :: body) ++
        Json.indented.closing 0 ++ ['\x7d'] := by
    simp [Json.indented, Json.newline, List.replicate]
    rfl
  simp only [bracketed]
  change (do
    let body ← Json.writeEntries Json.indented 0 [(.str "nodes", v)]
    return _) = _
  rw [Json.writeEntries]
  cases Json.write Json.indented 1 v <;> rfl

theorem textOfEntries_eq (entries : List String) :
    textOfEntries entries = String.ofList ("\x7b\n  \"nodes\": ".toList ++
      ("[\n    ".toList ++ ",\n    ".toList.intercalate (entries.map String.toList) ++
        "\n  ]".toList) ++ "\n\x7d".toList) ++ "\n" := by
  have start : planStart.toList = "\x7b\n  \"nodes\": ".toList ++ "[\n    ".toList := by decide
  have ends : planEnd.toList = "\n  ]".toList ++ ("\n\x7d".toList ++ "\n".toList) := by decide
  rw [← String.toList_inj, textOfEntries]
  simp only [String.toList_append, String.toList_intercalate, String.toList_ofList, start, ends,
    List.append_assoc]
  rfl

theorem textOfPlan_eq_ok_iff (some : vs ≠ []) :
    textOfPlan (.map [(.str "nodes", .list vs)]) = .ok text ↔
      ∃ entries : List String, List.Forall₂ (fun v (entry : String) =>
        Json.write Json.indented 2 v = .ok entry.toList) vs entries ∧
          text = textOfEntries entries := by
  rw [textOfPlan, Json.document, write_plan, write_row some]
  constructor
  · intro laid
    obtain ⟨whole, wrote, laid⟩ := bind_eq_ok.mp laid
    obtain rfl := Except.ok.inj laid
    cases row : Json.writeItems Json.indented 1 vs with
    | error failure =>
      rw [row] at wrote
      cases wrote
    | ok body =>
      rw [row] at wrote
      obtain rfl := Except.ok.inj wrote
      obtain ⟨texts, items, rfl⟩ := Json.writeItems_eq_ok_iff.mp row
      refine ⟨texts.map String.ofList, ?_, ?_⟩
      · rw [List.forall₂_map_right_iff]
        simpa only [String.toList_ofList] using items
      · rw [textOfEntries_eq, List.map_map]
        simp only [Function.comp_def, String.toList_ofList, List.map_id']
        rfl
  · rintro ⟨entries, items, rfl⟩
    have texts : List.Forall₂ (fun v text => Json.write Json.indented 2 v = .ok text) vs
        (entries.map String.toList) := List.forall₂_map_right_iff.mpr items
    rw [Json.writeItems_eq_ok_iff.mpr ⟨entries.map String.toList, texts, rfl⟩, textOfEntries_eq]
    rfl

theorem forall₂_entryText_iff {entries : List String} :
    List.Forall₂ EntryText nodes entries ↔ (∀ n ∈ nodes, n.record = .ok n.toValue) ∧
      List.Forall₂ (fun n (entry : String) =>
        Json.write Json.indented 2 n.toValue = .ok entry.toList) nodes entries :=
  List.forall₂_and_left _ _

/-- A plan of at least one node is laid out around the texts of its nodes. -/
theorem planText_eq_ok_iff (some : nodes ≠ []) :
    planText nodes = .ok text ↔
      ∃ entries, List.Forall₂ EntryText nodes entries ∧ text = textOfEntries entries := by
  have listed : nodes.map CompiledNode.toValue ≠ [] := by simpa using some
  simp only [forall₂_entryText_iff]
  constructor
  · intro laid
    obtain ⟨plan, handed, laid⟩ := bind_eq_ok.mp laid
    obtain ⟨vs, recorded, same⟩ := bind_eq_ok.mp handed
    obtain rfl := Except.ok.inj same
    obtain ⟨all, rfl⟩ := CompiledNode.records_eq_ok_iff.mp recorded
    obtain ⟨entries, written, rfl⟩ := (textOfPlan_eq_ok_iff listed).mp laid
    exact ⟨entries, ⟨all, List.forall₂_map_left_iff.mp written⟩, rfl⟩
  · rintro ⟨entries, ⟨all, written⟩, rfl⟩
    have recorded := CompiledNode.records_eq_ok_iff.mpr ⟨all, rfl⟩
    have laid := (textOfPlan_eq_ok_iff listed).mpr
      ⟨entries, List.forall₂_map_left_iff.mpr written, rfl⟩
    exact bind_eq_ok.mpr ⟨_, bind_eq_ok.mpr ⟨_, recorded, rfl⟩, laid⟩

end Vagrant

end MachinePlan
