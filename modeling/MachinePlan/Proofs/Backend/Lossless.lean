import MachinePlan.Proofs.Backend.Writing
import MachinePlan.Proofs.Compile.Explained
import MachinePlan.Proofs.Json.Reading
import MachinePlan.Proofs.Json.Writing
import MachinePlan.Proofs.Records

/-!
# Plan files lose nothing

A plan is read back from its text in two steps, each the inverse of one that wrote it: the text
denotes the plan as a mapping and nothing else, and the mapping names every compiled node
(`nodesOf?_plan`). So different plans never have one text (`Vagrant.planText_lossless`).
-/

namespace MachinePlan

/-! ### Reading nodes back -/

/-- The compiled nodes of a plan. -/
def nodesOf? : Value → Option (List CompiledNode)
  | .map entries =>
    match Value.get? "nodes" entries with
    | some (.list nodes) => nodes.mapM CompiledNode.ofValue?
    | _ => none
  | _ => none

theorem nodesOf?_plan (nodes : List CompiledNode) :
    nodesOf? (.map [(.str "nodes", .list (nodes.map CompiledNode.toValue))]) = some nodes :=
  mapM_of_inverse CompiledNode.ofValue?_toValue nodes

/-! ### Plain nodes -/

/-- A compiled node that JSON has a form of its own for: its name is a text of characters, its wish
to start is a truth value or null, and its operations hold plain values. -/
structure CompiledNode.Plain (n : CompiledNode) : Prop where
  name : ∃ s, Value.str n.name = Json.textValue s
  autostart : n.autostart = .null ∨ ∃ b, n.autostart = .bool b
  operations : ∀ op ∈ n.operations, ∀ field ∈ op.fields, Json.Plain field.2

theorem Json.Plain.jsonable {v : Value} (plain : Json.Plain v) : Value.Jsonable v := by
  induction plain with
  | null => exact .null
  | bool b => exact .bool b
  | int short => exact .int short
  | text s => exact .str _
  | list _ ih => exact .list ih
  | map names _ _ ih =>
    refine .map (fun e member => ?_) ih
    obtain ⟨s, same⟩ := names e member
    rw [same]
    exact .str _

theorem CompiledNode.Plain.jsonable {n : CompiledNode} (plain : n.Plain) : n.Jsonable where
  autostart := by
    rcases plain.autostart with same | ⟨b, same⟩ <;> rw [same]
    · exact .null
    · exact .bool b
  operations op member field inside := (plain.operations op member field inside).jsonable

theorem plain_str {s : String} (spelled : Text.spelledString s = s) : Json.Plain (.str s) := by
  rw [← spelled]
  exact .text s.toList

/-- A mapping under distinct names without halves. -/
theorem plain_entriesOf {fields : List (String × Value)} {names : List String}
    (named : fields.map Prod.fst = names)
    (spelled : ∀ name ∈ names, Text.spelledString name = name) (distinct : names.Nodup)
    (values : ∀ field ∈ fields, Json.Plain field.2) :
    Json.Plain (.map (Operation.entriesOf fields)) := by
  subst named
  refine .map ?_ ?_ ?_
  · intro e member
    obtain ⟨field, inside, rfl⟩ := List.mem_map.mp member
    have fixed := spelled field.1 (List.mem_map_of_mem inside)
    exact ⟨field.1.toList, congrArg Value.str fixed.symm⟩
  · have keys : (Operation.entriesOf fields).map Prod.fst =
        (fields.map Prod.fst).map Value.str := by
      rw [Operation.entriesOf, List.map_map, List.map_map]
      rfl
    rw [keys]
    exact distinct.map fun _ _ => Value.str.inj
  · intro e member
    obtain ⟨field, inside, rfl⟩ := List.mem_map.mp member
    exact values field inside

/-- The names in the mapping of an operation of any kind. -/
theorem Operation.names_fine (op : Operation) :
    (∀ name ∈ op.kind :: "op" :: op.fields.map Prod.fst, Text.spelledString name = name) ∧
      ("op" :: op.fields.map Prod.fst).Nodup := by
  cases op with
  | tuneProvider provider memory cpus name chipset =>
    cases chipset <;>
      (simp only [kind, fields, chipsetField, List.append_nil, List.cons_append, List.nil_append,
        List.map_cons, List.map_nil]; decide)
  | _ =>
    simp only [kind, fields, List.map_cons, List.map_nil]
    decide

theorem Operation.plain_toValue {op : Operation} (plain : ∀ field ∈ op.fields, Json.Plain field.2) :
    Json.Plain op.toValue := by
  obtain ⟨spelled, distinct⟩ := op.names_fine
  rw [List.forall_mem_cons] at spelled
  have values : ∀ field ∈ ("op", .str op.kind) :: op.fields, Json.Plain field.2 :=
    List.forall_mem_cons.mpr ⟨plain_str spelled.1, plain⟩
  exact plain_entriesOf (show _ = "op" :: op.fields.map Prod.fst from rfl) spelled.2 distinct values

theorem CompiledNode.Plain.toValue {n : CompiledNode} (plain : n.Plain) : Json.Plain n.toValue := by
  have name : Json.Plain (.str n.name) := by
    obtain ⟨s, same⟩ := plain.name
    rw [same]
    exact .text s
  have operations : Json.Plain (.list (n.operations.map Operation.toValue)) := by
    refine .list fun v member => ?_
    obtain ⟨op, inside, rfl⟩ := List.mem_map.mp member
    exact Operation.plain_toValue (plain.operations op inside)
  rw [CompiledNode.toValue]
  rcases plain.autostart with same | ⟨b, same⟩ <;> rw [same]
  · refine plain_entriesOf (show _ = ["name", "operations"] from rfl) (by decide) (by decide) ?_
    simp [autostartField, name, operations]
  · refine plain_entriesOf (show _ = ["name", "autostart", "operations"] from rfl) (by decide)
      (by decide) ?_
    simp [autostartField, name, operations, Json.Plain.bool]

/-! ### Plans -/

namespace Vagrant

variable {nodes others : List CompiledNode}

theorem plain_plan (plain : ∀ n ∈ nodes, n.Plain) :
    Json.Plain (.map [(.str "nodes", .list (nodes.map CompiledNode.toValue))]) := by
  have listed : Json.Plain (.list (nodes.map CompiledNode.toValue)) := by
    refine .list fun v member => ?_
    obtain ⟨n, inside, rfl⟩ := List.mem_map.mp member
    exact (plain n inside).toValue
  change Json.Plain (.map (Operation.entriesOf [("nodes", _)]))
  exact plain_entriesOf (show _ = ["nodes"] from rfl) (by decide) (List.nodup_singleton _)
    (List.forall_mem_singleton.mpr listed)

/-- The text of a plan denotes the plan. -/
theorem planText_isText (plain : ∀ n ∈ nodes, n.Plain) :
    ∃ text, Json.document (.map [(.str "nodes", .list (nodes.map CompiledNode.toValue))]) = .ok text ∧
      Json.Ascii text.toList ∧ planText nodes = .ok (text ++ "\n") ∧
      Json.IsText (.map [(.str "nodes", .list (nodes.map CompiledNode.toValue))]) (text ++ "\n") := by
  obtain ⟨text, wrote, denotes, ascii⟩ := (plain_plan plain).document
  refine ⟨text, wrote, ascii, ?_, denotes⟩
  rw [planText, planValue_of_jsonable fun n member => (plain n member).jsonable]
  change textOfPlan _ = _
  rw [textOfPlan, wrote]
  rfl

theorem planText_injective (plain : ∀ n ∈ nodes, n.Plain) (plain' : ∀ n ∈ others, n.Plain)
    (same : planText others = planText nodes) : others = nodes := by
  obtain ⟨text, -, -, wrote, denotes⟩ := planText_isText plain
  obtain ⟨text', -, -, wrote', denotes'⟩ := planText_isText plain'
  rw [wrote, wrote', Except.ok.injEq] at same
  rw [same] at denotes'
  have plans := congrArg nodesOf? (denotes'.unique denotes)
  rw [nodesOf?_plan, nodesOf?_plan] at plans
  exact Option.some.inj plans

/-- Plain nodes are handed over as an indented ASCII text with a line break behind it. The text
denotes the plan of the nodes and nothing else, the nodes can be read back from it, and no other
plain nodes have the same one. -/
theorem planText_lossless (plain : ∀ n ∈ nodes, n.Plain) :
    ∃ plan text, plan = .map [(.str "nodes", .list (nodes.map CompiledNode.toValue))] ∧
      Json.document plan = .ok text ∧ Json.Ascii text.toList ∧
      planText nodes = .ok (text ++ "\n") ∧
      (∀ (v : Vagrant) host, host.files.IsTree → host.files.Writable v.planFile →
        ∃ after, (v.backend.apply nodes).run host = (.ok (), after)) ∧
      (∀ (v : Vagrant) host after, (v.backend.apply nodes).run host = (.ok (), after) →
        after.files.readBytes v.planFile = .ok (text ++ "\n").toUTF8.toList) ∧
      (∀ v, Json.IsText v (text ++ "\n") ↔ v = plan) ∧
      Json.read? (text ++ "\n") = some plan ∧ nodesOf? plan = some nodes ∧
      ∀ others, (∀ n ∈ others, n.Plain) → planText others = planText nodes → others = nodes := by
  obtain ⟨text, document, ascii, wrote, denotes⟩ := planText_isText plain
  refine ⟨_, text, rfl, document, ascii, wrote, ?_, ?_, ?_, Json.read_of_isText denotes,
    nodesOf?_plan nodes, fun others plain' => planText_injective plain plain'⟩
  · intro v host tree writable
    obtain ⟨files, done, -⟩ := writePlan_of_writable tree writable nodes
    rw [wrote] at done
    exact ⟨_, done⟩
  · intro v host after done
    obtain ⟨text', wrote', put⟩ := writePlan_eq_ok done
    obtain rfl : text ++ "\n" = text' := Except.ok.inj (wrote.symm.trans wrote')
    exact put.readBytes
  · intro v
    constructor
    · exact fun other => other.unique denotes
    · rintro rfl
      exact denotes

/-- Two nodes with characters outside ASCII, nested values and left out fields. -/
def mixedNodes : List CompiledNode :=
  [⟨"web", .bool true, [.setBox (.str "é😀"),
      .addNetwork (.str "private") (.map [(.str "ports", .list [.int 80, .null]), (.str "", .map [])]),
      .tuneProvider (.str "virtualbox") (.int (-512)) .null (.str "web\n") .null]⟩,
    ⟨"db", .null, [.unspecified]⟩]

theorem planText_lossless_mixed :
    (∀ n ∈ mixedNodes, n.Plain) ∧ ∃ text, planText mixedNodes = .ok text ∧
      (Json.read? text).bind nodesOf? = some mixedNodes ∧
      planText mixedNodes ≠ planText mixedNodes.reverse := by
  have short : ∀ {i : Int}, i.natAbs < 10 ^ 3 → Json.Plain (.int i) := fun small =>
    .int (Nat.lt_of_lt_of_le small (Value.pow_le_numeralBound (by decide)))
  have none : Json.Plain (.map []) := .map (List.forall_mem_nil _) .nil (List.forall_mem_nil _)
  have row : Json.Plain (.list [.int 80, .null]) := .list (by simp [short, Json.Plain.null])
  have ports : Json.Plain (.map [(.str "ports", .list [.int 80, .null]), (.str "", .map [])]) := by
    change Json.Plain (.map (Operation.entriesOf [("ports", _), ("", _)]))
    exact plain_entriesOf (show _ = ["ports", ""] from rfl) (by decide) (by decide)
      (by simp [none, row])
  have plain : ∀ n ∈ mixedNodes, n.Plain := by
    refine List.forall_mem_cons.mpr ⟨⟨⟨"web".toList, rfl⟩, .inr ⟨true, rfl⟩, ?_⟩,
      List.forall_mem_singleton.mpr ⟨⟨"db".toList, rfl⟩, .inl rfl, ?_⟩⟩
    · have box : Json.Plain (.str "é😀") := plain_str (by decide)
      have kind : Json.Plain (.str "private") := plain_str (by decide)
      have provider : Json.Plain (.str "virtualbox") := plain_str (by decide)
      have name : Json.Plain (.str "web\n") := plain_str (by decide)
      refine List.forall_mem_cons.mpr ⟨List.forall_mem_singleton.mpr box, List.forall_mem_cons.mpr
        ⟨List.forall_mem_cons.mpr ⟨kind, List.forall_mem_singleton.mpr ports⟩,
          List.forall_mem_singleton.mpr ?_⟩⟩
      exact List.forall_mem_cons.mpr ⟨provider, List.forall_mem_cons.mpr ⟨short (by decide),
        List.forall_mem_cons.mpr ⟨.null, List.forall_mem_singleton.mpr name⟩⟩⟩
    · exact List.forall_mem_singleton.mpr (List.forall_mem_nil _)
  obtain ⟨plan, text, -, -, -, wrote, -, -, -, read, recovered, only⟩ := planText_lossless plain
  refine ⟨plain, _, wrote, ?_, fun same => ?_⟩
  · rw [read]
    exact recovered
  · have turned : ∀ n ∈ mixedNodes.reverse, n.Plain := fun n member =>
      plain n (List.mem_reverse.mp member)
    have names := congrArg (List.map CompiledNode.name) (only mixedNodes.reverse turned same.symm)
    exact absurd names (by decide)

end Vagrant

end MachinePlan
