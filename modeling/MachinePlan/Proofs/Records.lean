import MachinePlan.Proofs.Outcome
import MachinePlan.Value.Mapping

/-!
# Records

The mappings as which operations and compiled nodes are handed on. A record shows the kind and then
the declared fields in order; it leaves out a chipset and a wish to start that are null, and nothing
else. So one function makes every operation again from its record, and another every compiled node
(`records_invertible`). Only what holds itself is not handed on.
-/

namespace MachinePlan

variable {op : Operation} {ops : List Operation} {n : CompiledNode} {v : Value} {vs : List Value}

/-! ### Reading back -/

def Operation.ofValue? : Value → Option Operation
  | .map ((.str "op", .str kind) :: fields) =>
    (Operation.ofArguments kind (fields.map Prod.snd)).toOption
  | _ => none

def CompiledNode.ofValue? : Value → Option CompiledNode
  | .map entries =>
    match Value.get? "name" entries, Value.get? "operations" entries with
    | some (.str name), some (.list operations) => do
      let operations ← operations.mapM Operation.ofValue?
      return ⟨name, Value.getD "autostart" entries, operations⟩
    | _, _ => none
  | _ => none

theorem mapM_of_inverse {α β : Type} {f : α → β} {g : β → Option α} (inverse : ∀ a, g (f a) = some a)
    (as : List α) : (as.map f).mapM g = some as := by
  induction as with
  | nil => rfl
  | cons a as ih =>
    rw [List.map_cons, List.mapM_cons, inverse, ih]
    rfl

theorem Operation.values_entriesOf (fields : List (String × Value)) :
    (Operation.entriesOf fields).map Prod.snd = fields.map Prod.snd := by
  rw [Operation.entriesOf, List.map_map]
  rfl

/-- The kind and the fields make the operation again; a chipset that was left out is null. -/
theorem Operation.ofArguments_fields (op : Operation) :
    Operation.ofArguments op.kind (op.fields.map Prod.snd) = .ok op := by
  cases op with
  | tuneProvider provider memory cpus name chipset => cases chipset <;> rfl
  | _ => rfl

theorem Operation.ofValue?_toValue (op : Operation) : Operation.ofValue? op.toValue = some op := by
  rw [Operation.toValue, Operation.ofValue?, Operation.values_entriesOf, op.ofArguments_fields]
  rfl

/-- A wish that was left out is null. -/
theorem CompiledNode.ofValue?_toValue (n : CompiledNode) :
    CompiledNode.ofValue? n.toValue = some n := by
  obtain ⟨name, autostart, operations⟩ := n
  have read : CompiledNode.ofValue? (CompiledNode.toValue ⟨name, autostart, operations⟩) =
      ((operations.map Operation.toValue).mapM Operation.ofValue?).bind
        fun operations => some ⟨name, autostart, operations⟩ := by
    cases autostart <;> rfl
  rw [read, mapM_of_inverse Operation.ofValue?_toValue]
  rfl

/-! ### Handing on -/

/-- No field holds itself. -/
def Operation.Finite (op : Operation) : Prop := ∀ field ∈ op.fields, field.2.isEndless = false

theorem Operation.finite_iff :
    op.Finite ↔ (op.fields.any fun (_, v) => v.isEndless) = false := by
  simp [Operation.Finite]

theorem Operation.record_of_finite (finite : op.Finite) : op.record = .ok op.toValue := by
  rw [Operation.record, Operation.finite_iff.mp finite]
  rfl

theorem Operation.record_of_endless (endless : ¬ op.Finite) :
    op.record = .error (.fault .endless) := by
  rw [Operation.finite_iff, Bool.not_eq_false] at endless
  rw [Operation.record, endless]
  rfl

theorem Operation.record_eq_ok_iff : op.record = .ok v ↔ op.Finite ∧ v = op.toValue := by
  by_cases finite : op.Finite
  · rw [op.record_of_finite finite, Except.ok.injEq, eq_comm, and_iff_right finite]
  · rw [op.record_of_endless finite]
    exact ⟨nofun, fun whole => absurd whole.1 finite⟩

theorem Operation.records_eq_ok_iff :
    Operation.records ops = .ok vs ↔ (∀ op ∈ ops, op.Finite) ∧ vs = ops.map Operation.toValue := by
  induction ops generalizing vs with
  | nil => simp [Operation.records, eq_comm]
  | cons op ops ih =>
    rw [Operation.records, List.forall_mem_cons]
    constructor
    · intro handed
      obtain ⟨first, here, handed⟩ := bind_eq_ok.mp handed
      obtain ⟨rest, others, handed⟩ := bind_eq_ok.mp handed
      obtain ⟨finite, rfl⟩ := Operation.record_eq_ok_iff.mp here
      obtain ⟨all, rfl⟩ := ih.mp others
      exact ⟨⟨finite, all⟩, (Except.ok.inj handed).symm⟩
    · rintro ⟨⟨finite, all⟩, rfl⟩
      exact bind_eq_ok.mpr ⟨_, Operation.record_of_finite finite,
        bind_eq_ok.mpr ⟨_, ih.mpr ⟨all, rfl⟩, rfl⟩⟩

theorem Operation.records_of_endless (endless : ¬ ∀ op ∈ ops, op.Finite) :
    Operation.records ops = .error (.fault .endless) := by
  induction ops with
  | nil => exact absurd (List.forall_mem_nil _) endless
  | cons op ops ih =>
    rw [Operation.records]
    by_cases finite : op.Finite
    · have rest := ih fun all => endless (List.forall_mem_cons.mpr ⟨finite, all⟩)
      rw [Operation.record_of_finite finite, rest]
      rfl
    · rw [Operation.record_of_endless finite]
      rfl

theorem CompiledNode.record_eq_ok_iff :
    n.record = .ok v ↔ (∀ op ∈ n.operations, op.Finite) ∧ v = n.toValue := by
  constructor
  · intro handed
    obtain ⟨rows, recorded, done⟩ := bind_eq_ok.mp handed
    exact ⟨(Operation.records_eq_ok_iff.mp recorded).1, (Except.ok.inj done).symm⟩
  · rintro ⟨finite, rfl⟩
    exact bind_eq_ok.mpr ⟨_, Operation.records_eq_ok_iff.mpr ⟨finite, rfl⟩, rfl⟩

theorem CompiledNode.record_of_endless (endless : ¬ ∀ op ∈ n.operations, op.Finite) :
    n.record = .error (.fault .endless) := by
  rw [CompiledNode.record, Operation.records_of_endless endless]
  rfl

/-! ### Declared fields -/

/-- The names of the fields of every kind of operation, in the order of their declaration. -/
def declaredFields : List (String × List String) :=
  [("ConfigOperation", []), ("SetBox", ["box"]), ("SetBoxURL", ["url"]),
    ("SetHostname", ["hostname"]), ("AddNetwork", ["network_type", "params"]),
    ("AddForwardedPort", ["params"]), ("AddProvisioner", ["provisioner", "index"]),
    ("SetProvisionerProperty", ["provisioner", "index", "key", "value"]),
    ("SetProvisionerArguments", ["provisioner", "index", "arguments"]),
    ("SetProviderProperty", ["provider", "key", "value"]),
    ("TuneProvider", ["provider", "memory", "cpus", "name", "chipset"]),
    ("AddSyncedFolder", ["host", "guest", "create", "owner", "group"])]

/-- The one field that may be left out of the record of an operation. -/
def optionalField (kind : String) : Option String :=
  if kind = "TuneProvider" then some "chipset" else none

def Value.isNull : Value → Bool
  | .null => true
  | _ => false

/-- A field stands in a record unless it is the optional one and null. -/
def isRecorded (optional : Option String) (field : String × Value) : Bool :=
  !(optional == some field.1 && field.2.isNull)

/-- The operation is the one of its kind with these values for all its declared fields. -/
def Operation.Declares (op : Operation) (fields : List (String × Value)) : Prop :=
  (op.kind, fields.map Prod.fst) ∈ declaredFields ∧
    Operation.ofArguments op.kind (fields.map Prod.snd) = .ok op

/-- How an operation is handed on: as its kind with its declared fields behind it, or not at all. -/
inductive Operation.HandedOn (op : Operation) : Except Failure Value → Prop
  | record {fields : List (String × Value)} (declares : op.Declares fields) (finite : op.Finite) :
      op.HandedOn (.ok (.map (entriesOf
        (("op", .str op.kind) :: fields.filter (isRecorded (optionalField op.kind))))))
  | refused (endless : ¬ op.Finite) : op.HandedOn (.error (.fault .endless))

/-- How a compiled node is handed on: with the records of its operations, or not at all. -/
inductive CompiledNode.HandedOn (n : CompiledNode) : Except Failure Value → Prop
  | record {rows : List Value} (handed : Operation.records n.operations = .ok rows) :
      n.HandedOn (.ok (.map (Operation.entriesOf
        ([("name", .str n.name), ("autostart", n.autostart), ("operations", .list rows)].filter
          (isRecorded (some "autostart"))))))
  | refused (endless : ¬ ∀ op ∈ n.operations, op.Finite) : n.HandedOn (.error (.fault .endless))

theorem Operation.exists_declares (op : Operation) : ∃ fields, op.Declares fields ∧
    op.fields = fields.filter (isRecorded (optionalField op.kind)) := by
  cases op with
  | tuneProvider provider memory cpus name chipset =>
    refine ⟨[("provider", provider), ("memory", memory), ("cpus", cpus), ("name", name),
      ("chipset", chipset)], ⟨by simp [declaredFields, kind], rfl⟩, ?_⟩
    cases chipset <;> rfl
  | _ => exact ⟨_, ⟨by simp [declaredFields, kind, fields], ofArguments_fields _⟩, rfl⟩

theorem Operation.handedOn_record (op : Operation) : op.HandedOn op.record := by
  by_cases finite : op.Finite
  · obtain ⟨fields, declares, recorded⟩ := op.exists_declares
    rw [record_of_finite finite, toValue, recorded]
    exact .record declares finite
  · rw [record_of_endless finite]
    exact .refused finite

theorem CompiledNode.toValue_eq (n : CompiledNode) :
    n.toValue = .map (Operation.entriesOf ([("name", .str n.name), ("autostart", n.autostart),
      ("operations", .list (n.operations.map Operation.toValue))].filter
        (isRecorded (some "autostart")))) := by
  rw [CompiledNode.toValue]
  cases n.autostart <;> rfl

theorem CompiledNode.handedOn_record (n : CompiledNode) : n.HandedOn n.record := by
  by_cases finite : ∀ op ∈ n.operations, op.Finite
  · rw [record_eq_ok_iff.mpr ⟨finite, rfl⟩, n.toValue_eq]
    exact .record (Operation.records_eq_ok_iff.mpr ⟨finite, rfl⟩)
  · rw [record_of_endless finite]
    exact .refused finite

/-! ### Inverses -/

theorem Operation.ofValue?_record (handed : op.record = .ok v) :
    Operation.ofValue? v = some op := by
  obtain ⟨-, rfl⟩ := record_eq_ok_iff.mp handed
  exact op.ofValue?_toValue

theorem Operation.mapM_ofValue?_records (handed : Operation.records ops = .ok vs) :
    vs.mapM Operation.ofValue? = some ops := by
  obtain ⟨-, rfl⟩ := records_eq_ok_iff.mp handed
  exact mapM_of_inverse ofValue?_toValue ops

theorem CompiledNode.ofValue?_record (handed : n.record = .ok v) :
    CompiledNode.ofValue? v = some n := by
  obtain ⟨-, rfl⟩ := record_eq_ok_iff.mp handed
  exact n.ofValue?_toValue

/-- What is handed on is made of all that there is, and can be read back by two functions. -/
structure RecordsDecoded (operation : Value → Option Operation)
    (node : Value → Option CompiledNode) : Prop where
  handedOn : ∀ op : Operation, op.HandedOn op.record
  decoded : ∀ (op : Operation) (v : Value), op.record = .ok v → operation v = some op
  injective : ∀ (op other : Operation) (v : Value), op.record = .ok v → other.record = .ok v →
    op = other
  rows_injective : ∀ (ops others : List Operation) (vs : List Value),
    Operation.records ops = .ok vs → Operation.records others = .ok vs → ops = others
  node_handedOn : ∀ n : CompiledNode, n.HandedOn n.record
  node_decoded : ∀ (n : CompiledNode) (v : Value), n.record = .ok v → node v = some n
  node_injective : ∀ (n other : CompiledNode) (v : Value), n.record = .ok v →
    other.record = .ok v → n = other

theorem records_invertible : RecordsDecoded Operation.ofValue? CompiledNode.ofValue? where
  handedOn := Operation.handedOn_record
  decoded _ _ := Operation.ofValue?_record
  injective _ _ _ here there :=
    Option.some.inj ((Operation.ofValue?_record here).symm.trans (Operation.ofValue?_record there))
  rows_injective _ _ _ here there :=
    Option.some.inj ((Operation.mapM_ofValue?_records here).symm.trans
      (Operation.mapM_ofValue?_records there))
  node_handedOn := CompiledNode.handedOn_record
  node_decoded _ _ := CompiledNode.ofValue?_record
  node_injective _ _ _ here there :=
    Option.some.inj ((CompiledNode.ofValue?_record here).symm.trans
      (CompiledNode.ofValue?_record there))

/-- A node that is not to start, with a null and a false chipset and values of many kinds. -/
def assortedNode : CompiledNode :=
  ⟨"web", .bool false, [.setBox .null,
    .addForwardedPort (.map [(.tuple [.int 1, .float (.nan none)], .list [.date ⟨2024, 2, 29⟩]),
      (.null, .map [(.bool true, .bytes [255])])]),
    .tuneProvider (.str "virtualbox") .null (.int 2) (.str "web") .null,
    .tuneProvider (.str "parallels") .null (.int 2) (.str "web") (.bool false)]⟩

theorem records_invertible_assorted : ∃ v, assortedNode.record = .ok v ∧
    CompiledNode.ofValue? v = some assortedNode ∧
    { assortedNode with autostart := .null }.record ≠ .ok v := by
  have handed : assortedNode.record = .ok assortedNode.toValue := rfl
  refine ⟨_, handed, records_invertible.node_decoded _ _ handed, fun same => ?_⟩
  have one := records_invertible.node_injective _ _ _ handed same
  cases congrArg CompiledNode.autostart one

/-- A host name that holds itself. -/
def selfNamed : Value := .ring ⟨0, 1, 0⟩ (.map [(.str "hostname", .again ⟨0, 1, 0⟩ .map)])

theorem records_invertible_fails_of_selfNamed : ¬ ∀ op : Operation, ∃ v, op.record = .ok v ∧
    Operation.ofValue? v = some op := by
  intro every
  obtain ⟨v, handed, -⟩ := every (.setHostname selfNamed)
  cases handed

end MachinePlan
