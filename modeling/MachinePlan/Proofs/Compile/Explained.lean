import MachinePlan.Backend.Vagrant
import MachinePlan.Compile.Document
import MachinePlan.Proofs.Records
import MachinePlan.Proofs.Value.Jsonable

/-!
# Compiling ends with a plan or a problem

A node whose attributes are JSON values compiles to operations over JSON values, or ends with a
problem in words (`explained_namedNode`), as long as its box is no container and its provisioners
name rows of arguments; and operations over JSON values have a plan text (`explained_planText`).
-/

namespace MachinePlan

open Value

def Operation.Jsonable (op : Operation) : Prop := ∀ f ∈ op.fields, Value.Jsonable f.2

abbrev Operation.AllJsonable (ops : List Operation) : Prop := ∀ op ∈ ops, op.Jsonable

structure CompiledNode.Jsonable (n : CompiledNode) : Prop where
  autostart : Value.Jsonable n.autostart
  operations : Operation.AllJsonable n.operations

/-- The arguments of a provisioner are given in a row. -/
def ArgumentsInRow (entry : Value) : Prop :=
  ∀ typed ∈ Compile.typedEntries entry, ∀ params, typed.2 = .map params →
    ∀ p ∈ params, same p.1 Compile.argumentsKey = true → Row p.2

/-- A node that can be compiled without touching a value in a way that it does not allow. -/
structure Node.Tame (n : Node) : Prop where
  box : Value.Jsonable n.box
  hashable : n.box.isHashable = true
  hostname : Value.Jsonable n.hostname
  autostart : Value.Jsonable n.autostart
  memory : Value.Jsonable n.memory
  cpus : Value.Jsonable n.cpus
  chipset : Value.Jsonable n.chipset
  networks : ∀ v ∈ n.networks, Value.Jsonable v
  forwardedPorts : ∀ v ∈ n.forwardedPorts, Value.Jsonable v
  syncedFolders : ∀ v ∈ n.syncedFolders, Value.Jsonable v
  provisioners : ∀ v ∈ n.provisioners, Value.Jsonable v ∧ ArgumentsInRow v
  /-- Their positions can be written. -/
  positions : n.provisioners.length ≤ numeralBound
  providers : Value.Jsonable (.map n.providers)
  externalFunctions : ∀ v ∈ n.externalFunctions, Value.Jsonable v

namespace Compile

variable {n : Node} {es : Entries} {items : List Value} {v boxes entry : Value}

/-! ### Parts of nodes -/

theorem typedEntries_jsonable (fine : Jsonable entry) :
    ∀ typed ∈ typedEntries entry, Jsonable typed.1 ∧ Jsonable typed.2 := by
  rw [typedEntries]
  cases read : entry.entries? with
  | none => simpa using ⟨fine, Jsonable.null⟩
  | some es =>
    rw [eq_map_of_entries? fine.finite read] at fine
    exact fun typed member => ⟨(fine.of_map typed member).1.jsonable, (fine.of_map typed member).2⟩

theorem explained_partEntries (n : Node) (part : String) (fine : Jsonable v) :
    Explained (fun es => Jsonable (.map es) ∧ (es = [] ∨ v = .map es)) (partEntries n part v) := by
  rw [partEntries, fine.opened]
  cases fine with
  | null => exact .ok ⟨.map (List.forall_mem_nil _) (List.forall_mem_nil _), .inl rfl⟩
  | map known values => exact .ok ⟨.map known values, .inr rfl⟩
  | _ => exact .problem _

theorem explained_normalizedPairs (all : ∀ e ∈ es, Jsonable e.1 ∧ Jsonable e.2) :
    Explained (fun pairs => ∀ e ∈ pairs, JsonKey e.1 ∧ Jsonable e.2) (normalizedPairs es) := by
  induction es with
  | nil => exact .ok (by simp)
  | cons e es ih =>
    obtain ⟨k, v⟩ := e
    obtain ⟨key, value⟩ := all (k, v) List.mem_cons_self
    have rest := ih fun f member => all f (List.mem_cons_of_mem _ member)
    rw [normalizedPairs]
    have name : Explained (fun _ => True) (normalizeKey k) := .bind key.text fun _ _ => .ok trivial
    refine .bind name fun name _ => .bind rest fun pairs fine => .ok ?_
    exact List.forall_mem_cons.mpr ⟨⟨.str name, value⟩, fine⟩

theorem explained_normalizeKeys (fine : Jsonable (.map es)) :
    Explained (fun fs => Jsonable (.map fs)) (normalizeKeys es) := by
  have all : ∀ e ∈ es, Jsonable e.1 ∧ Jsonable e.2 := fun e member =>
    ⟨(fine.of_map e member).1.jsonable, (fine.of_map e member).2⟩
  exact .bind (explained_normalizedPairs all) fun pairs known => .ok (jsonable_ofPairs known)

theorem explained_normalizeArguments (fine : Jsonable v) (row : Row v) :
    Explained (fun arguments => Jsonable (.list arguments)) (normalizeArguments v) := by
  refine .bind (elements_of_row fine row) fun descriptors all => .ok (.list ?_)
  intro argument member
  obtain ⟨descriptor, inside, member⟩ := List.mem_flatMap.mp member
  rw [descriptorArguments] at member
  cases read : descriptor.entries? with
  | none => simp [read] at member
  | some es =>
    have found := all descriptor inside
    rw [eq_map_of_entries? found.finite read] at found
    simp only [read, List.mem_append, Option.mem_toList] at member
    rcases member with named | valued
    · obtain ⟨k, there, -⟩ := mem_of_lookup named
      exact (found.of_map _ there).2
    · obtain ⟨k, there, -⟩ := mem_of_lookup valued
      exact (found.of_map _ there).2

/-! ### Operations -/

theorem explained_boxLocation (tame : n.Tame) (fine : Jsonable (.map es)) :
    Explained (fun location => ∀ url ∈ location, Jsonable url)
      (boxLocation n.box (.map es)) := by
  have found : ∀ box : Value, box.isHashable = true →
      Explained (fun location : Option Value => ∀ url ∈ location, Jsonable url) (do
        if ← (Value.map es).contains box then return some (← (Value.map es).element box)
        else return none) := by
    intro box hashable
    have held : (Value.map es).contains box = .ok (hasKey box es) := if_pos hashable
    rw [held]
    cases there : lookup box es with
    | none =>
      rw [show hasKey box es = false by rw [hasKey, there]; rfl]
      exact .ok (by simp)
    | some url =>
      have element : (Value.map es).element box = .ok url := by
        rw [Value.element, (fine.opened :)]
        simp only [hashable, if_true, there]
      rw [show hasKey box es = true by rw [hasKey, there]; rfl]
      obtain ⟨k, member, -⟩ := mem_of_lookup there
      simp only [bind, Except.bind, if_true, element]
      refine .ok ?_
      rintro _ ⟨⟩
      exact (fine.of_map _ member).2
  have hashable := tame.hashable
  cases box : n.box with
  | null => exact .ok (by simp)
  | _ =>
    rw [box] at hashable
    exact found _ hashable

theorem explained_identity (tame : n.Tame) (fine : Jsonable (.map es)) :
    Explained Operation.AllJsonable (identity n (.map es)) := by
  refine .bind (explained_boxLocation tame fine) fun location all => .ok ?_
  intro op member
  simp only [List.mem_append, List.mem_singleton, Option.mem_toList, Option.map_eq_some_iff]
    at member
  rcases member with (rfl | ⟨url, here, rfl⟩) | rfl
  · simpa [Operation.Jsonable, Operation.fields] using tame.box
  · simpa [Operation.Jsonable, Operation.fields] using all url here
  · simpa [Operation.Jsonable, Operation.fields] using tame.hostname

theorem explained_networkParams (fine : Jsonable v) : Explained Jsonable (networkParams v) := by
  rw [networkParams]
  cases read : v.entries? with
  | none => exact .ok fine
  | some es =>
    rw [eq_map_of_entries? fine.finite read] at fine
    exact .map (explained_normalizeKeys fine) fun _ fine => fine

theorem explained_networkPairs (all : ∀ e ∈ es, Jsonable e.1 ∧ Jsonable e.2) :
    Explained Operation.AllJsonable (networkPairs es) := by
  induction es with
  | nil => exact .ok (List.forall_mem_nil _)
  | cons e es ih =>
    obtain ⟨kind, params⟩ := e
    obtain ⟨key, value⟩ := all (kind, params) List.mem_cons_self
    have rest := ih fun f member => all f (List.mem_cons_of_mem _ member)
    rw [networkPairs]
    refine .bind (explained_networkParams value) fun params fine => .bind key.text fun name _ => ?_
    refine .bind rest fun ops others => .ok (List.forall_mem_cons.mpr ⟨?_, others⟩)
    simpa [Operation.Jsonable, Operation.fields] using ⟨Jsonable.str name, fine⟩

theorem explained_networks (tame : n.Tame) : Explained Operation.AllJsonable (networks n) := by
  refine explained_networkPairs fun e member => ?_
  obtain ⟨entry, inside, member⟩ := List.mem_flatMap.mp member
  exact typedEntries_jsonable (tame.networks entry inside) e member

theorem explained_forwardedPorts (n : Node) (all : ∀ v ∈ items, Jsonable v) :
    ∀ i, Explained Operation.AllJsonable (forwardedPorts n i items) := by
  induction items with
  | nil => exact fun _ => .ok (List.forall_mem_nil _)
  | cons port items ih =>
    intro i
    have rest := ih fun v member => all v (List.mem_cons_of_mem _ member)
    rw [forwardedPorts]
    refine .bind (explained_partEntries n _ (all port List.mem_cons_self)) fun params fine => ?_
    refine .bind (explained_normalizeKeys fine.1) fun params fine => .bind (rest (i + 1)) ?_
    refine fun ops others => .ok (List.forall_mem_cons.mpr ⟨?_, others⟩)
    simpa [Operation.Jsonable, Operation.fields] using fine

theorem jsonable_position {i : Nat} (small : i < numeralBound) : Jsonable (.int i) := .int small

theorem explained_provisionerParams {index : Nat} (kind : String) (small : index < numeralBound)
    (fine : Jsonable (.map es)) (rows : ∀ p ∈ es, same p.1 argumentsKey = true → Row p.2) :
    Explained Operation.AllJsonable (provisionerParams kind index es) := by
  induction es with
  | nil => exact .ok (List.forall_mem_nil _)
  | cons e es ih =>
    obtain ⟨key, value⟩ := e
    obtain ⟨known, here⟩ := fine.of_map (key, value) List.mem_cons_self
    have others : Jsonable (.map es) :=
      .map (fun f member => (fine.of_map f (List.mem_cons_of_mem _ member)).1)
        fun f member => (fine.of_map f (List.mem_cons_of_mem _ member)).2
    have rest := ih others fun p member => rows p (List.mem_cons_of_mem _ member)
    have next : ∀ op : Operation, op.Jsonable → Explained Operation.AllJsonable
        (do return op :: (← provisionerParams kind index es)) := fun op fine =>
      .bind rest fun ops others => .ok (List.forall_mem_cons.mpr ⟨fine, others⟩)
    rw [provisionerParams]
    split
    case isTrue arguments =>
      have row := rows (key, value) List.mem_cons_self arguments
      refine .bind (explained_normalizeArguments here row) fun _ fine => next _ ?_
      simpa [Operation.Jsonable, Operation.fields] using
        ⟨Jsonable.str kind, jsonable_position small, fine⟩
    case isFalse =>
      refine .bind known.jsonable.text fun name _ => next _ ?_
      simpa [Operation.Jsonable, Operation.fields] using
        ⟨Jsonable.str kind, jsonable_position small, Jsonable.str name, here⟩

theorem allJsonable_append {first second : List Operation} (fine : Operation.AllJsonable first)
    (fine' : Operation.AllJsonable second) : Operation.AllJsonable (first ++ second) :=
  List.forall_mem_append.mpr ⟨fine, fine'⟩

theorem explained_provisionerBlocks {index : Nat} (n : Node) (small : index < numeralBound)
    (all : ∀ e ∈ es, Jsonable e.1 ∧ Jsonable e.2)
    (rows : ∀ typed ∈ es, ∀ params, typed.2 = .map params →
      ∀ p ∈ params, same p.1 argumentsKey = true → Row p.2) :
    Explained Operation.AllJsonable (provisionerBlocks n index es) := by
  induction es with
  | nil => exact .ok (List.forall_mem_nil _)
  | cons e es ih =>
    obtain ⟨kind, params⟩ := e
    obtain ⟨key, value⟩ := all (kind, params) List.mem_cons_self
    have rest := ih (fun f member => all f (List.mem_cons_of_mem _ member))
      fun typed member => rows typed (List.mem_cons_of_mem _ member)
    rw [provisionerBlocks]
    refine .bind key.text fun kind _ => .bind (explained_partEntries n _ value) ?_
    rintro entries ⟨fine, part⟩
    have row : ∀ p ∈ entries, same p.1 argumentsKey = true → Row p.2 := by
      rcases part with rfl | whole
      · exact List.forall_mem_nil _
      · exact rows (_, params) List.mem_cons_self entries whole
    refine .bind (explained_provisionerParams kind small fine row) fun ops here => ?_
    refine .bind rest fun others there => .ok (allJsonable_append ?_ there)
    refine List.forall_mem_cons.mpr ⟨?_, here⟩
    simpa [Operation.Jsonable, Operation.fields] using ⟨Jsonable.str kind, jsonable_position small⟩

theorem explained_provisioners (n : Node)
    (all : ∀ v ∈ items, Jsonable v ∧ ArgumentsInRow v) :
    ∀ i, i + items.length ≤ numeralBound →
      Explained Operation.AllJsonable (provisioners n i items) := by
  induction items with
  | nil => exact fun _ _ => .ok (List.forall_mem_nil _)
  | cons entry items ih =>
    intro i few
    rw [List.length_cons] at few
    obtain ⟨fine, rows⟩ := all entry List.mem_cons_self
    have small : i < numeralBound := by omega
    have first := explained_provisionerBlocks n small (typedEntries_jsonable fine) rows
    have rest := ih (fun v member => all v (List.mem_cons_of_mem _ member)) (i + 1) (by omega)
    rw [provisioners]
    exact .bind first fun ops here => .bind rest fun others there =>
      .ok (allJsonable_append here there)

theorem explained_providerParams (provider : String)
    (all : ∀ e ∈ es, JsonKey e.1 ∧ Jsonable e.2) :
    Explained Operation.AllJsonable (providerParams provider es) := by
  induction es with
  | nil => exact .ok (List.forall_mem_nil _)
  | cons e es ih =>
    obtain ⟨key, value⟩ := e
    obtain ⟨known, here⟩ := all (key, value) List.mem_cons_self
    have rest := ih fun f member => all f (List.mem_cons_of_mem _ member)
    rw [providerParams]
    refine .bind known.jsonable.text fun name _ => .bind rest fun ops others => .ok ?_
    refine List.forall_mem_cons.mpr ⟨?_, others⟩
    simpa [Operation.Jsonable, Operation.fields] using
      ⟨Jsonable.str provider, Jsonable.str name, here⟩

theorem explained_providerProperties (n : Node) (all : ∀ e ∈ es, JsonKey e.1 ∧ Jsonable e.2) :
    Explained Operation.AllJsonable (providerProperties n es) := by
  induction es with
  | nil => exact .ok (List.forall_mem_nil _)
  | cons e es ih =>
    obtain ⟨provider, params⟩ := e
    obtain ⟨known, here⟩ := all (provider, params) List.mem_cons_self
    have rest := ih fun f member => all f (List.mem_cons_of_mem _ member)
    rw [providerProperties]
    refine .bind known.jsonable.text fun name _ => .bind (explained_partEntries n _ here) ?_
    rintro entries ⟨fine, -⟩
    exact .bind (explained_providerParams name fine.of_map) fun ops here => .bind rest
      fun others there => .ok (allJsonable_append here there)

theorem tuning_jsonable (name : String) (tame : n.Tame) :
    Operation.AllJsonable (tuning name n) := by
  intro op member
  obtain ⟨⟨provider, takesChipset⟩, -, rfl⟩ := List.mem_map.mp member
  have chipset : ∀ f ∈ Operation.chipsetField (if takesChipset then n.chipset else .null),
      Jsonable f.2 := by
    intro f member
    cases takesChipset with
    | false => exact absurd member (List.not_mem_nil)
    | true =>
      rw [if_pos rfl] at member
      have same : f.2 = n.chipset := by
        cases chipset : n.chipset <;> simp_all [Operation.chipsetField]
      rw [same]
      exact tame.chipset
  intro f member
  rw [Operation.fields, List.mem_append] at member
  rcases member with member | member
  · simp only [List.mem_cons, List.not_mem_nil, or_false] at member
    rcases member with rfl | rfl | rfl | rfl
    · exact .str provider
    · exact tame.memory
    · exact tame.cpus
    · exact .str name
  · exact chipset f member

theorem explained_syncedFolders (n : Node) (all : ∀ v ∈ items, Jsonable v) :
    ∀ i, Explained Operation.AllJsonable (syncedFolders n i items) := by
  induction items with
  | nil => exact fun _ => .ok (List.forall_mem_nil _)
  | cons folder items ih =>
    intro i
    have rest := ih (fun v member => all v (List.mem_cons_of_mem _ member)) (i + 1)
    rw [syncedFolders]
    refine .bind (explained_partEntries n _ (all folder List.mem_cons_self)) ?_
    rintro entries ⟨fine, -⟩
    refine .bind rest fun ops others => .ok (List.forall_mem_cons.mpr ⟨?_, others⟩)
    have part : ∀ name, Jsonable (getD name entries) := fun name =>
      jsonable_getD name fun e member => (fine.of_map e member).2
    simp [Operation.Jsonable, Operation.fields, part]

/-- Each category of operations ends with operations over JSON values or with a problem. -/
theorem explained_node (name : String) (tame : n.Tame) (fine : Jsonable (.map es)) :
    Explained Operation.AllJsonable (node name n (.map es)) := by
  have catalog : ∃ fs, (Value.map es).orElse (.map []) = .map fs ∧ Jsonable (.map fs) := by
    cases es with
    | nil => exact ⟨[], rfl, fine⟩
    | cons e es => exact ⟨e :: es, rfl, fine⟩
  obtain ⟨fs, same, fine⟩ := catalog
  rw [node, same]
  refine .bind (explained_identity tame fine) fun identity h₁ => ?_
  refine .bind (explained_networks tame) fun networks h₂ => ?_
  refine .bind (explained_forwardedPorts n tame.forwardedPorts 0) fun ports h₃ => ?_
  refine .bind (explained_provisioners n tame.provisioners 0 (by simpa using tame.positions))
    fun provisioners h₄ => ?_
  refine .bind (explained_providerProperties n tame.providers.of_map) fun providers h₅ => ?_
  refine .bind (explained_syncedFolders n tame.syncedFolders 0) fun folders h₆ => .ok ?_
  exact allJsonable_append (allJsonable_append (allJsonable_append (allJsonable_append
    (allJsonable_append (allJsonable_append h₁ h₂) h₃) h₄) h₅) (tuning_jsonable name tame)) h₆

/-! ### Nodes -/

/-- Where no hooks are, a node that asks for one ends with a problem. -/
theorem explained_hooked {ops : List Operation} (tame : n.Tame)
    (fine : Operation.AllJsonable ops) :
    Explained Operation.AllJsonable (hooked Registry.empty n ops) := by
  rw [hooked]
  have known := tame.externalFunctions
  cases names : n.externalFunctions with
  | nil => exact .ok fine
  | cons name rest =>
    rw [names] at known
    simp only [Registry.dispatch]
    cases told : name.text with
    | error failure =>
      have text := (known name List.mem_cons_self).text
      rw [told] at text
      cases text
      exact .problem _
    | ok text => exact .problem _

theorem explained_namedNode {entry : String × Node} (tame : entry.2.Tame)
    (fine : Jsonable (.map es)) :
    Explained CompiledNode.Jsonable (namedNode Registry.empty (.map es) entry) := by
  rw [namedNode]
  refine .bind (explained_node entry.1 tame fine) fun ops fine => ?_
  exact .bind (explained_hooked tame fine) fun ops fine => .ok ⟨tame.autostart, fine⟩

theorem explained_nodes {ns : List (String × Node)} (tame : ∀ entry ∈ ns, entry.2.Tame)
    (fine : Jsonable (.map es)) :
    Explained (fun compiled => ∀ n ∈ compiled, n.Jsonable) (nodes Registry.empty (.map es) ns) := by
  induction ns with
  | nil => exact .ok (List.forall_mem_nil _)
  | cons entry ns ih =>
    have rest := ih fun other member => tame other (List.mem_cons_of_mem _ member)
    rw [nodes]
    refine .bind (explained_namedNode (tame entry List.mem_cons_self) fine) fun n here => ?_
    exact .bind rest fun others there => .ok (List.forall_mem_cons.mpr ⟨here, there⟩)

end Compile

/-! ### Plans -/

theorem Operation.Jsonable.toValue {op : Operation} (fine : op.Jsonable) :
    Value.Jsonable op.toValue := by
  refine .map ?_ ?_
  · refine List.forall_mem_cons.mpr ⟨.str "op", fun e member => ?_⟩
    obtain ⟨f, -, rfl⟩ := List.mem_map.mp member
    exact .str f.1
  · refine List.forall_mem_cons.mpr ⟨.str op.kind, fun e member => ?_⟩
    obtain ⟨f, inside, rfl⟩ := List.mem_map.mp member
    exact fine f inside

theorem Operation.Jsonable.isFinite {op : Operation} (fine : op.Jsonable) : op.Finite :=
  fun f member => (fine f member).finite

theorem CompiledNode.Jsonable.record {n : CompiledNode} (fine : n.Jsonable) :
    n.record = .ok n.toValue :=
  record_eq_ok_iff.mpr ⟨fun op member => (fine.operations op member).isFinite, rfl⟩

theorem CompiledNode.Jsonable.toValue {n : CompiledNode} (fine : n.Jsonable) :
    Value.Jsonable n.toValue := by
  have autostart : ∀ f ∈ CompiledNode.autostartField n.autostart, Value.Jsonable f.2 := by
    intro f member
    have same : f.2 = n.autostart := by
      cases chosen : n.autostart <;> simp_all [CompiledNode.autostartField]
    rw [same]
    exact fine.autostart
  have operations : Value.Jsonable (.list (n.operations.map Operation.toValue)) := by
    refine .list fun v member => ?_
    obtain ⟨op, inside, rfl⟩ := List.mem_map.mp member
    exact (fine.operations op inside).toValue
  refine .map ?_ ?_
  · intro e member
    obtain ⟨f, -, rfl⟩ := List.mem_map.mp member
    exact .str f.1
  · intro e member
    obtain ⟨f, inside, rfl⟩ := List.mem_map.mp member
    rw [List.mem_append, List.mem_append] at inside
    rcases inside with (named | chosen) | last
    · rw [List.mem_singleton.mp named]
      exact .str n.name
    · exact autostart f chosen
    · rw [List.mem_singleton.mp last]
      exact operations

theorem planValue_of_jsonable {nodes : List CompiledNode} (fine : ∀ n ∈ nodes, n.Jsonable) :
    planValue nodes = .ok (.map [(.str "nodes", .list (nodes.map CompiledNode.toValue))]) := by
  have records : CompiledNode.records nodes = .ok (nodes.map CompiledNode.toValue) := by
    induction nodes with
    | nil => rfl
    | cons n nodes ih =>
      have rest := ih fun other member => fine other (List.mem_cons_of_mem _ member)
      rw [CompiledNode.records, (fine n List.mem_cons_self).record, rest]
      rfl
  rw [planValue, records]
  rfl

/-- Compiled nodes over JSON values have a plan text. -/
theorem explained_planText {nodes : List CompiledNode} (fine : ∀ n ∈ nodes, n.Jsonable) :
    Explained (fun _ => True) (Vagrant.planText nodes) := by
  have plan : Value.Jsonable (.map [(.str "nodes", .list (nodes.map CompiledNode.toValue))]) := by
    refine .map (by simpa using JsonKey.str "nodes") ?_
    rw [List.forall_mem_singleton]
    refine .list fun v member => ?_
    obtain ⟨n, inside, rfl⟩ := List.mem_map.mp member
    exact (fine n inside).toValue
  have document : Explained (fun _ => True) (Json.document _) :=
    .map (plan.write Json.indented 0) fun _ _ => trivial
  rw [Vagrant.planText, planValue_of_jsonable fine]
  change Explained _ (Vagrant.textOfPlan _)
  rw [Vagrant.textOfPlan]
  exact .bind document fun _ _ => .ok trivial

end MachinePlan
