import MachinePlan.Compile.Node
import MachinePlan.Proofs.Entries
import MachinePlan.Proofs.Value.Initial
import Mathlib.Data.List.Forall2
import Mathlib.Data.List.SplitBy

/-!
# Blocks of provisioners

The operations of the provisioners of a node are one flat row. Cut in front of each operation that
opens a provisioner it falls into blocks, one for each type that the entries name, and a block tells
the position of its entry, its type, and its parameters in order. So the row can be decoded, and two
lists of provisioners compile to one row exactly when they have the same blocks
(`provisioners_decodable`).
-/

namespace MachinePlan

open Value

/-- The entries of a value that has to be a mapping; null is the empty mapping. -/
def Value.part? (v : Value) : Option Entries :=
  match v.opened with
  | .null => some []
  | .map entries => some entries
  | _ => none

def Operation.opens : Operation → Bool
  | .addProvisioner .. => true
  | _ => false

def Operation.setsArguments : Operation → Bool
  | .setProvisionerArguments .. => true
  | _ => false

namespace Compile

/-- What one parameter of a provisioner sets. -/
inductive Setting where
  | arguments (values : List Value)
  | property (name : String) (value : Value)

def Setting.operation (kind : String) (position : Nat) : Setting → Operation
  | .arguments values =>
    .setProvisionerArguments (.str kind) (.int position) (.list values)
  | .property name value =>
    .setProvisionerProperty (.str kind) (.int position) (.str name) value

def Setting.isArguments : Setting → Bool
  | .arguments _ => true
  | .property .. => false

/-- A provisioner of a type from the entry at a position, with its settings in order. -/
structure Block where
  kind : String
  position : Nat
  settings : List Setting

/-- The operations of a block: it is opened, then configured, under its type and its position. -/
def Block.operations (b : Block) : List Operation :=
  .addProvisioner (.str b.kind) (.int b.position) ::
    b.settings.map (Setting.operation b.kind b.position)

/-- The parameter `arguments` is flattened; any other is set under the text of its key, with its
value unchanged. -/
inductive Sets : Value × Value → Setting → Prop
  | arguments {v : Value} {values : List Value} (flat : normalizeArguments v = .ok values) :
      Sets (.str "arguments", v) (.arguments values)
  | property {key v : Value} {name : String} (other : key ≠ .str "arguments")
      (text : key.text = .ok name) : Sets (key, v) (.property name v)

def placedTypes (start : Nat) (items : List Value) : List (Nat × Value × Value) :=
  (items.zipIdx start).flatMap fun (entry, position) => (typedEntries entry).map (position, ·)

structure Describes (placed : Nat × Value × Value) (b : Block) : Prop where
  position : b.position = placed.1
  kind : placed.2.1.text = .ok b.kind
  settings : ∃ params, placed.2.2.part? = some params ∧ List.Forall₂ Sets params b.settings

/-- The operations cut in front of each one that opens a provisioner. -/
def cut (ops : List Operation) : List (List Operation) :=
  ops.splitBy fun _ next => !next.opens

variable {n : Node} {part kind : String} {v key : Value} {es : Entries} {items : List Value}
  {op : Operation} {ops : List Operation} {position : Nat} {settings : List Setting}
  {blocks : List Block} {placed : List (Nat × Value × Value)}

/-! ### From parameters to blocks -/

theorem partEntries_eq_ok : partEntries n part v = .ok es ↔ v.part? = some es := by
  rw [partEntries, part?]
  cases v.opened <;> simp

theorem settings_of_provisionerParams (ran : provisionerParams kind position es = .ok ops) :
    ∃ settings, List.Forall₂ Sets es settings ∧
      ops = settings.map (Setting.operation kind position) := by
  induction es generalizing ops with
  | nil =>
    obtain rfl := Except.ok.inj ran
    exact ⟨[], .nil, rfl⟩
  | cons e es ih =>
    obtain ⟨key, v⟩ := e
    rw [provisionerParams] at ran
    split at ran
    case isTrue reserved =>
      obtain rfl := (same_str key "arguments").mp reserved
      obtain ⟨values, flat, ran⟩ := bind_eq_ok.mp ran
      obtain ⟨op, here, ran⟩ := bind_eq_ok.mp ran
      obtain rfl := Except.ok.inj here
      obtain ⟨others, rest, rfl⟩ := map_eq_ok.mp ran
      obtain ⟨settings, set, rfl⟩ := ih rest
      exact ⟨.arguments values :: settings, .cons (.arguments flat) set, rfl⟩
    case isFalse free =>
      have other : key ≠ .str "arguments" := fun reserved => free ((same_str key _).mpr reserved)
      obtain ⟨name, text, ran⟩ := bind_eq_ok.mp ran
      obtain ⟨op, here, ran⟩ := bind_eq_ok.mp ran
      obtain rfl := Except.ok.inj here
      obtain ⟨others, rest, rfl⟩ := map_eq_ok.mp ran
      obtain ⟨settings, set, rfl⟩ := ih rest
      exact ⟨.property name v :: settings, .cons (.property other text) set, rfl⟩

theorem blocks_of_provisionerBlocks (ran : provisionerBlocks n position es = .ok ops) :
    ∃ blocks, List.Forall₂ Describes (es.map (position, ·)) blocks ∧
      ops = blocks.flatMap Block.operations := by
  induction es generalizing ops with
  | nil =>
    obtain rfl := Except.ok.inj ran
    exact ⟨[], .nil, rfl⟩
  | cons e es ih =>
    obtain ⟨key, v⟩ := e
    rw [provisionerBlocks] at ran
    obtain ⟨kind, text, ran⟩ := bind_eq_ok.mp ran
    obtain ⟨params, mapping, ran⟩ := bind_eq_ok.mp ran
    obtain ⟨set, here, ran⟩ := bind_eq_ok.mp ran
    obtain ⟨others, rest, rfl⟩ := map_eq_ok.mp ran
    obtain ⟨settings, sets, rfl⟩ := settings_of_provisionerParams here
    obtain ⟨blocks, described, rfl⟩ := ih rest
    exact ⟨⟨kind, position, settings⟩ :: blocks,
      .cons ⟨rfl, text, params, partEntries_eq_ok.mp mapping, sets⟩ described, rfl⟩

theorem blocks_of_provisioners (ran : provisioners n position items = .ok ops) :
    ∃ blocks, List.Forall₂ Describes (placedTypes position items) blocks ∧
      ops = blocks.flatMap Block.operations := by
  induction items generalizing position ops with
  | nil =>
    obtain rfl := Except.ok.inj ran
    exact ⟨[], .nil, rfl⟩
  | cons entry items ih =>
    rw [provisioners] at ran
    obtain ⟨first, here, ran⟩ := bind_eq_ok.mp ran
    obtain ⟨others, rest, rfl⟩ := map_eq_ok.mp ran
    obtain ⟨blocks, described, rfl⟩ := blocks_of_provisionerBlocks here
    obtain ⟨more, behind, rfl⟩ := ih rest
    exact ⟨blocks ++ more, List.rel_append described behind, List.flatMap_append.symm⟩

/-! ### From operations back to blocks -/

theorem Setting.operation_injective : Function.Injective (Setting.operation kind position) := by
  intro s t same
  cases s <;> cases t <;> simp_all [Setting.operation]

theorem Block.operations_injective : Function.Injective Block.operations := by
  rintro ⟨kind, position, settings⟩ ⟨kind', position', settings'⟩ same
  obtain ⟨opening, rest⟩ := List.cons.inj same
  obtain ⟨rfl, rfl⟩ : kind = kind' ∧ position = position' := by simpa using opening
  exact congrArg (Block.mk kind position) (Setting.operation_injective.list_map rest)

theorem cut_blocks (blocks : List Block) :
    cut (blocks.flatMap Block.operations) = blocks.map Block.operations := by
  rw [cut, List.flatMap]
  -- behind its opening a block only sets
  have sets (b : Block) (s : Setting) : (!(s.operation b.kind b.position).opens) = true := by
    cases s <;> rfl
  refine List.splitBy_flatten ?_ ?_ ?_
  · simp [Block.operations]
  · intro piece member
    obtain ⟨b, -, rfl⟩ := List.mem_map.mp member
    refine (List.pairwise_cons.mpr ⟨?_, ?_⟩).isChain
    · rintro _ member
      obtain ⟨s, -, rfl⟩ := List.mem_map.mp member
      exact sets b s
    · exact List.pairwise_map.mpr (List.pairwise_of_forall fun _ s => sets b s)
  · refine (List.pairwise_map.mpr (List.pairwise_of_forall fun b c => ?_)).isChain
    exact ⟨List.cons_ne_nil _ _, List.cons_ne_nil _ _, rfl⟩

theorem Sets.rightUnique : Relator.RightUnique Sets := by
  intro param s t first second
  cases first with
  | arguments flat =>
    cases second with
    | arguments again => rw [Except.ok.inj (flat.symm.trans again)]
    | property other => exact absurd rfl other
  | property other text =>
    cases second with
    | arguments => exact absurd rfl other
    | property _ again => rw [Except.ok.inj (text.symm.trans again)]

theorem Describes.rightUnique : Relator.RightUnique Describes := by
  rintro placed ⟨kind, _, settings⟩ ⟨kind', _, settings'⟩ ⟨rfl, text, params, mapping, sets⟩
    ⟨rfl, again, params', mapping', sets'⟩
  obtain rfl : kind = kind' := Except.ok.inj (text.symm.trans again)
  obtain rfl : params = params' := Option.some.inj (mapping.symm.trans mapping')
  exact congrArg (Block.mk kind placed.1) (List.right_unique_forall₂' Sets.rightUnique sets sets')

/-- A row of operations is that of one row of blocks only. -/
theorem blocks_injective {others : List Block}
    (same : others.flatMap Block.operations = blocks.flatMap Block.operations) :
    others = blocks := by
  have pieces := congrArg cut same
  rw [cut_blocks, cut_blocks] at pieces
  exact Block.operations_injective.list_map pieces

/-! ### What is read off the operations -/

theorem exists_of_forall₂_of_mem {α β : Type} {R : α → β → Prop} {xs : List α} {ys : List β} {y : β}
    (pairs : List.Forall₂ R xs ys) (member : y ∈ ys) : ∃ x ∈ xs, R x y := by
  induction pairs with
  | nil => cases member
  | cons here _ ih =>
    rcases List.mem_cons.mp member with rfl | member
    · exact ⟨_, List.mem_cons_self, here⟩
    · obtain ⟨x, there, related⟩ := ih member
      exact ⟨x, List.mem_cons_of_mem _ there, related⟩

theorem not_sets_reserved {param : Value × Value} : ¬ Sets param (.property "arguments" v) := by
  rintro (_ | ⟨other, text⟩)
  exact other (eq_str_of_text text (by decide))

theorem sets_arguments_iff {param : Value × Value} {setting : Setting} (set : Sets param setting) :
    setting.isArguments = true ↔ param.1 = .str "arguments" := by
  cases set with
  | arguments => simp [Setting.isArguments]
  | property other => simp [Setting.isArguments, other]

theorem setsArguments_operation (s : Setting) :
    (s.operation kind position).setsArguments = s.isArguments := by
  cases s <;> rfl

/-- Where no key stands twice, the arguments are set at most once. -/
theorem once_of_sets (distinct : (keys es).Pairwise fun a b => same a b = false)
    (sets : List.Forall₂ Sets es settings) :
    settings.Pairwise fun s t => ¬ (s.isArguments = true ∧ t.isArguments = true) := by
  induction sets with
  | nil => exact .nil
  | @cons param setting es settings here rest ih =>
    obtain ⟨fresh, distinct⟩ := List.pairwise_cons.mp distinct
    refine List.pairwise_cons.mpr ⟨?_, ih distinct⟩
    rintro t member ⟨first, second⟩
    obtain ⟨other, there, set⟩ := exists_of_forall₂_of_mem rest member
    have apart := fresh other.1 (List.mem_map_of_mem there)
    rw [(sets_arguments_iff here).mp first, (sets_arguments_iff set).mp second] at apart
    cases apart

theorem Describes.reserved_notMem {b : Block} {one : Nat × Value × Value}
    (describes : Describes one b) (provisioner position v : Value) :
    .setProvisionerProperty provisioner position (.str "arguments") v ∉ b.operations := by
  obtain ⟨params, -, sets⟩ := describes.settings
  intro member
  rcases List.mem_cons.mp member with opening | member
  · cases opening
  · obtain ⟨s, set, made⟩ := List.mem_map.mp member
    obtain ⟨param, -, here⟩ := exists_of_forall₂_of_mem sets set
    cases s with
    | arguments => cases made
    | property name w =>
      injection made with _ _ key
      obtain rfl := Value.str.inj key
      exact not_sets_reserved here

theorem Describes.once {b : Block} {one : Nat × Value × Value} (describes : Describes one b)
    (distinct : ∀ params, one.2.2.part? = some params →
      (keys params).Pairwise fun a b => same a b = false) :
    b.operations.Pairwise fun a b => ¬ (a.setsArguments = true ∧ b.setsArguments = true) := by
  obtain ⟨params, mapping, sets⟩ := describes.settings
  have single := once_of_sets (distinct params mapping) sets
  refine List.pairwise_cons.mpr ⟨fun _ _ both => absurd both.1 Bool.false_ne_true, ?_⟩
  refine List.pairwise_map.mpr (single.imp fun {s t} apart => ?_)
  rwa [setsArguments_operation, setsArguments_operation]

/-- What the operations of a list of provisioners tell about the list. -/
structure Decodable (items : List Value) (ops : List Operation) : Prop where
  /-- Cut at the openings, the operations are the blocks of the types that the entries name. -/
  blocks : ∃ blocks, List.Forall₂ Describes (placedTypes 0 items) blocks ∧
    cut ops = blocks.map Block.operations
  reserved : ∀ provisioner position v,
    .setProvisionerProperty provisioner position (.str "arguments") v ∉ ops
  /-- No block sets arguments twice, as no mapping holds a key twice. -/
  once : (∀ placed ∈ placedTypes 0 items, ∀ params, placed.2.2.part? = some params →
      (keys params).Pairwise fun a b => same a b = false) →
    ∀ piece ∈ cut ops,
      piece.Pairwise fun a b => ¬ (a.setsArguments = true ∧ b.setsArguments = true)
  /-- Another list compiles to the same operations exactly when it has the same blocks. -/
  same_iff : ∀ {m : Node} {others : List Value} {ops' : List Operation},
    provisioners m 0 others = .ok ops' → (ops' = ops ↔ ∃ blocks,
      List.Forall₂ Describes (placedTypes 0 items) blocks ∧
        List.Forall₂ Describes (placedTypes 0 others) blocks)
  /-- Two entries of one type each never compile like one entry of one type. -/
  unmerged : ∀ {m : Node} {before after : List Value} {first second whole : Value}
    {ops' : List Operation}, items = before ++ first :: second :: after →
    (typedEntries first).length = 1 → (typedEntries second).length = 1 →
    (typedEntries whole).length = 1 →
    provisioners m 0 (before ++ whole :: after) = .ok ops' → ops' ≠ ops

theorem placedTypes_cons (entry : Value) :
    placedTypes position (entry :: items) =
      (typedEntries entry).map (position, ·) ++ placedTypes (position + 1) items := rfl

theorem length_placedTypes : (placedTypes position items).length =
    (items.map fun entry => (typedEntries entry).length).sum := by
  induction items generalizing position with
  | nil => rfl
  | cons entry items ih => simp [placedTypes_cons, ih]

/-- The operations of provisioners can be decoded: they fall into the blocks of the types that the
entries name, and nothing but these blocks decides them. -/
theorem provisioners_decodable (ran : provisioners n 0 items = .ok ops) : Decodable items ops := by
  obtain ⟨blocks, described, rfl⟩ := blocks_of_provisioners ran
  have same_iff {m : Node} {others : List Value} {ops' : List Operation}
      (compiled : provisioners m 0 others = .ok ops') :
      ops' = blocks.flatMap Block.operations ↔ ∃ blocks,
        List.Forall₂ Describes (placedTypes 0 items) blocks ∧
          List.Forall₂ Describes (placedTypes 0 others) blocks := by
    obtain ⟨blocks', described', rfl⟩ := blocks_of_provisioners compiled
    constructor
    · intro same
      -- one row of operations is cut into one row of blocks
      obtain rfl := blocks_injective same
      exact ⟨blocks', described, described'⟩
    · rintro ⟨both, one, other⟩
      have left := List.right_unique_forall₂' Describes.rightUnique described one
      have right := List.right_unique_forall₂' Describes.rightUnique described' other
      rw [left, right]
  exact {
    blocks := ⟨blocks, described, cut_blocks blocks⟩
    reserved := fun provisioner position v member => by
      obtain ⟨b, inside, member⟩ := List.mem_flatMap.mp member
      obtain ⟨one, -, describes⟩ := exists_of_forall₂_of_mem described inside
      exact describes.reserved_notMem provisioner position v member
    once := fun distinct piece member => by
      rw [cut_blocks] at member
      obtain ⟨b, inside, rfl⟩ := List.mem_map.mp member
      obtain ⟨one, there, describes⟩ := exists_of_forall₂_of_mem described inside
      exact describes.once (distinct one there)
    same_iff
    unmerged := fun split one two merged compiled same => by
      obtain ⟨both, apart, together⟩ := (same_iff compiled).mp same
      -- the blocks are as many as the types, of which the merged entry has one less
      have lengths := apart.length_eq.trans together.length_eq.symm
      simp [length_placedTypes, split, one, two, merged] at lengths }

/-- Two provisioners of one type, the second of them a bare entry behind an empty one. -/
theorem provisioners_decodable_of_shells :
    let params : Entries := [(.str "path", .str "a.sh"),
      (.str "arguments", .list [.map [(.str "name", .str "-v")]])]
    let items := [.map [(.str "shell", .map params)], .map [], .str "shell"]
    let ops := [.addProvisioner (.str "shell") (.int 0),
      .setProvisionerProperty (.str "shell") (.int 0) (.str "path") (.str "a.sh"),
      .setProvisionerArguments (.str "shell") (.int 0) (.list [.str "-v"]),
      .addProvisioner (.str "shell") (.int 2)]
    provisioners default 0 items = .ok ops ∧ Decodable items ops :=
  ⟨rfl, provisioners_decodable (n := default) rfl⟩

end Compile

end MachinePlan
