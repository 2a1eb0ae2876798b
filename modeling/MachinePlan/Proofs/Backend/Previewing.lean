import MachinePlan.Backend.Preview
import MachinePlan.Proofs.Backend.Layout
import MachinePlan.Proofs.Value.Shown

/-!
# What a preview shows

A preview shows its nodes one after the other, each with one line for every operation, and counts
them below (`shows_printout`). It breaks off only where a value cannot be shown or an operation
cannot be handed on (`printout_complete_iff`).
-/

namespace MachinePlan

/-! ### Printouts -/

namespace Printout

variable {lines : List (Except Failure String)}

theorem ofLines_map_ok (texts : List String) :
    ofLines (texts.map .ok) = ⟨String.join (texts.map line), none⟩ := by
  induction texts with
  | nil => rfl
  | cons text texts ih =>
    rw [List.map_cons, ofLines, ih, List.map_cons, String.join_cons]

/-- A printout is complete when each of its lines can be made. -/
theorem ofLines_failure_iff : (ofLines lines).failure = none ↔ ∀ l ∈ lines, l.isOk = true := by
  induction lines with
  | nil => exact ⟨fun _ => List.forall_mem_nil _, fun _ => rfl⟩
  | cons first lines ih =>
    rw [List.forall_mem_cons]
    cases first with
    | ok text => exact ih.trans (and_iff_right rfl).symm
    | error failure => exact ⟨nofun, fun all => absurd all.1 Bool.false_ne_true⟩

end Printout

/-- Lines that can all be made, as the texts that they are made of. -/
theorem exists_texts {α β : Type} {f : α → Except Failure β} {R : α → β → Prop} {items : List α}
    (all : ∀ x ∈ items, ∃ b, f x = .ok b ∧ R x b) :
    ∃ bs, items.map f = bs.map .ok ∧ List.Forall₂ R items bs := by
  induction items with
  | nil => exact ⟨[], rfl, .nil⟩
  | cons x items ih =>
    rw [List.forall_mem_cons] at all
    obtain ⟨⟨b, made, holds⟩, others⟩ := all
    obtain ⟨bs, rest, hold⟩ := ih others
    exact ⟨b :: bs, by rw [List.map_cons, made, rest, List.map_cons], .cons holds hold⟩

/-! ### Fields and operations -/

namespace Operation

/-- An operation that can be shown: its fields are finite, and their numbers can be written. -/
def Showable (op : Operation) : Prop :=
  ∀ f ∈ op.fields, f.2.isEndless = false ∧ f.2.holdsLong = false

theorem oneLine_kind (op : Operation) : OneLine op.kind := by
  cases op <;> rw [kind] <;> decide +kernel

theorem oneLine_fieldName (op : Operation) : ∀ f ∈ op.fields, OneLine f.1 := by
  have chipset : ∀ v, ∀ f ∈ chipsetField v, OneLine f.1 := by
    intro v
    cases v with
    | null => exact List.forall_mem_nil _
    | _ => exact List.forall_mem_singleton.mpr (show OneLine "chipset" by decide +kernel)
  cases op with
  | tuneProvider _ _ _ _ v =>
    refine List.forall_mem_append.mpr ⟨?_, chipset v⟩
    simp only [List.forall_mem_cons]
    decide +kernel
  | unspecified => exact List.forall_mem_nil _
  | _ =>
    simp only [fields, List.forall_mem_cons]
    decide +kernel

end Operation

structure CompiledNode.Showable (n : CompiledNode) : Prop where
  autostart : n.autostart.holdsLong = false
  operations : ∀ op ∈ n.operations, op.Showable

namespace Preview

variable {op : Operation} {n : CompiledNode} {nodes : List CompiledNode} {v : Value}
  {fields : List (String × Value)} {texts : List String} {text : String}

/-- The text of a field: its name and its value. -/
def ShowsField (entry : Value × Value) (text : String) : Prop :=
  ∃ name shown, entry.1 = .str name ∧ entry.2.display = .ok shown ∧ text = name ++ "=" ++ shown

theorem isOk_fieldTexts (fields : List (String × Value)) :
    (fieldTexts fields).isOk = fields.all fun f => !f.2.holdsLong := by
  induction fields with
  | nil => rfl
  | cons field fields ih =>
    obtain ⟨name, v⟩ := field
    rw [fieldTexts, Value.isOk_bind_bind, Value.isOk_display, ih, List.all_cons]

theorem shows_fieldTexts (shown : fieldTexts fields = .ok texts) :
    List.Forall₂ ShowsField (Operation.entriesOf fields) texts := by
  induction fields generalizing texts with
  | nil =>
    rw [← Except.ok.inj shown]
    exact .nil
  | cons field fields ih =>
    obtain ⟨name, v⟩ := field
    obtain ⟨first, here, shown⟩ := bind_eq_ok.mp shown
    obtain ⟨others, behind, shown⟩ := bind_eq_ok.mp shown
    rw [← Except.ok.inj shown]
    exact .cons ⟨name, first, rfl, here, rfl⟩ (ih behind)

theorem oneLine_fieldTexts (names : ∀ f ∈ fields, OneLine f.1)
    (shown : fieldTexts fields = .ok texts) : ∀ text ∈ texts, OneLine text := by
  induction fields generalizing texts with
  | nil =>
    rw [← Except.ok.inj shown]
    exact List.forall_mem_nil _
  | cons field fields ih =>
    obtain ⟨name, v⟩ := field
    rw [List.forall_mem_cons] at names
    obtain ⟨first, here, shown⟩ := bind_eq_ok.mp shown
    obtain ⟨others, behind, shown⟩ := bind_eq_ok.mp shown
    rw [← Except.ok.inj shown]
    have named := names.1.append (show OneLine "=" by decide +kernel)
    exact List.forall_mem_cons.mpr ⟨named.append (v.oneLine_display here), ih names.2 behind⟩

/-- The line of an operation: its kind, and every field of its record behind the kind. -/
def ShowsOperation (op : Operation) (text : String) : Prop :=
  ∃ fields shown, op.record = .ok (.map ((.str "op", .str op.kind) :: fields)) ∧
    List.Forall₂ ShowsField fields shown ∧
    text = "  [ OK ] " ++ op.kind ++ "(" ++ ", ".intercalate shown ++ ")" ∧ OneLine text

theorem isOk_operationLine_iff : (operationLine op).isOk = true ↔ op.Showable := by
  have finite : op.record.isOk = op.fields.all fun f => !f.2.isEndless := by
    rw [Operation.record, ← List.not_any_eq_all_not]
    cases op.fields.any fun f => f.2.isEndless <;> rfl
  rw [operationLine, Value.isOk_bind_bind op.record, finite, isOk_fieldTexts, Bool.and_eq_true,
    List.all_eq_true, List.all_eq_true, ← forall₂_and]
  simp [Operation.Showable]

theorem shows_operationLine (shown : operationLine op = .ok text) : ShowsOperation op text := by
  obtain ⟨record, handed, shown⟩ := bind_eq_ok.mp shown
  obtain ⟨texts, fields, shown⟩ := bind_eq_ok.mp shown
  obtain rfl := Except.ok.inj shown
  have whole : record = op.toValue := (Operation.record_eq_ok_iff.mp handed).2
  have start : OneLine "  [ OK ] " := by decide +kernel
  have inside := OneLine.intercalate (show OneLine ", " by decide +kernel)
    (oneLine_fieldTexts op.oneLine_fieldName fields)
  rw [whole] at handed
  refine ⟨Operation.entriesOf op.fields, texts, handed, shows_fieldTexts fields, rfl, ?_⟩
  exact (((start.append op.oneLine_kind).append (by decide +kernel)).append inside).append
    (by decide +kernel)

/-! ### Nodes -/

/-- The line of a wish to start with the others, if there is such a wish. -/
inductive ShowsStart : Value → List String → Prop
  | none : ShowsStart .null []
  | some {v : Value} {shown : String} (wish : v ≠ .null) (text : v.text = .ok shown) :
    ShowsStart v ["  autostart: " ++ shown]

theorem autostartLines_of_wish (wish : v ≠ .null) :
    autostartLines v = [v.text.map ("  autostart: " ++ ·)] := by
  cases v with
  | null => exact absurd rfl wish
  | _ => rfl

theorem isOk_autostartLines_iff :
    (∀ l ∈ autostartLines v, l.isOk = true) ↔ v.holdsLong = false := by
  by_cases wish : v = .null
  · rw [wish]
    exact ⟨fun _ => rfl, fun _ => List.forall_mem_nil _⟩
  · rw [autostartLines_of_wish wish, List.forall_mem_singleton, ← Bool.not_eq_true',
      ← Value.isOk_text]
    cases v.text <;> rfl

/-- The lines of a node: its name, its wish to start, and one line for each operation. -/
def ShowsNode (n : CompiledNode) (texts : List String) : Prop :=
  ∃ start shown, ShowsStart n.autostart start ∧ List.Forall₂ ShowsOperation n.operations shown ∧
    texts = ("Node: " ++ n.name) :: start ++ shown ++ [""]

theorem isOk_nodeLines_iff : (∀ l ∈ nodeLines n, l.isOk = true) ↔ n.Showable := by
  rw [nodeLines, List.forall_mem_append, List.forall_mem_append, List.forall_mem_cons,
    List.forall_mem_singleton, isOk_autostartLines_iff, List.forall_mem_map]
  constructor
  · rintro ⟨⟨⟨-, start⟩, operations⟩, -⟩
    exact ⟨start, fun op member => isOk_operationLine_iff.mp (operations op member)⟩
  · rintro ⟨start, operations⟩
    exact ⟨⟨⟨rfl, start⟩, fun op member => isOk_operationLine_iff.mpr (operations op member)⟩, rfl⟩

theorem shows_autostartLines (short : v.holdsLong = false) :
    ∃ start, autostartLines v = start.map .ok ∧ ShowsStart v start := by
  by_cases wish : v = .null
  · rw [wish]
    exact ⟨[], rfl, .none⟩
  · obtain ⟨shown, text⟩ := exists_of_isOk (v.isOk_text.trans (congrArg not short))
    refine ⟨["  autostart: " ++ shown], ?_, .some wish text⟩
    rw [autostartLines_of_wish wish, text]
    rfl

theorem shows_nodeLines (showable : n.Showable) :
    ∃ texts, nodeLines n = texts.map .ok ∧ ShowsNode n texts := by
  obtain ⟨start, above, wish⟩ := shows_autostartLines showable.autostart
  obtain ⟨shown, made, operations⟩ := exists_texts (R := ShowsOperation) fun op member => by
    obtain ⟨text, line⟩ := exists_of_isOk
      (isOk_operationLine_iff.mpr (showable.operations op member))
    exact ⟨text, line, shows_operationLine line⟩
  refine ⟨("Node: " ++ n.name) :: start ++ shown ++ [""], ?_, start, shown, wish, operations, rfl⟩
  rw [nodeLines, above, made]
  simp

/-! ### Plans -/

/-- The lines of a plan: those of its nodes in order, below a heading and above the numbers of nodes
and of operations. -/
def ShowsPlan (nodes : List CompiledNode) (output : String) : Prop :=
  ∃ blocks total, List.Forall₂ ShowsNode nodes blocks ∧
    total = (nodes.flatMap fun n => n.operations).length ∧
    output = String.join ((["", rule, "  DRY-RUN: boxfile apply", rule, ""] ++ blocks.flatten ++
      [rule, s!"  Summary: {nodes.length} nodes, {total} operations",
        "  Mode: DRY-RUN (no changes made)", rule]).map Printout.line)

theorem operationCount_eq :
    operationCount nodes = (nodes.flatMap fun n => n.operations).length := by
  induction nodes with
  | nil => rfl
  | cons n nodes ih => rw [operationCount, ih, List.flatMap_cons, List.length_append]

/-- A preview is complete when each of its nodes can be shown. -/
theorem printout_complete_iff : (printout nodes).failure = none ↔ ∀ n ∈ nodes, n.Showable := by
  have fixed : ∀ texts : List String, ∀ l ∈ texts.map (Except.ok (ε := Failure)), l.isOk = true := by
    intro texts
    rw [List.forall_mem_map]
    exact fun _ _ => rfl
  rw [printout, Printout.ofLines_failure_iff, lines, List.forall_mem_append, List.forall_mem_append,
    List.forall_mem_flatMap, and_iff_left (fixed (summary nodes)), and_iff_right (fixed heading)]
  exact forall₂_congr fun n _ => isOk_nodeLines_iff

theorem shows_nodes (showable : ∀ n ∈ nodes, n.Showable) :
    ∃ blocks, nodes.flatMap nodeLines = blocks.flatten.map .ok ∧
      List.Forall₂ ShowsNode nodes blocks := by
  induction nodes with
  | nil => exact ⟨[], rfl, .nil⟩
  | cons n nodes ih =>
    rw [List.forall_mem_cons] at showable
    obtain ⟨texts, made, shown⟩ := shows_nodeLines showable.1
    obtain ⟨blocks, others, behind⟩ := ih showable.2
    refine ⟨texts :: blocks, ?_, .cons shown behind⟩
    rw [List.flatMap_cons, made, others, List.flatten_cons, List.map_append]

theorem shows_printout (showable : ∀ n ∈ nodes, n.Showable) :
    ShowsPlan nodes (printout nodes).output := by
  obtain ⟨blocks, made, shown⟩ := shows_nodes showable
  refine ⟨blocks, operationCount nodes, shown, operationCount_eq, ?_⟩
  rw [printout, lines, made, ← List.map_append, ← List.map_append, Printout.ofLines_map_ok, heading, summary]

end Preview

end MachinePlan
