import MachinePlan.Proofs.Compile.Keywords
import MachinePlan.Proofs.Compile.Problems

/-!
# Flattened arguments

A row of descriptors becomes one flat row of arguments. Each mapping in it gives what it holds as
its name and then what it holds as its value, whatever that is; everything else in the row gives
nothing. So rows can be flattened piece by piece, what is no mapping can be put in and taken out, and
neither the order of the entries of a mapping nor its other entries matter (`arguments_flattened`).
-/

namespace MachinePlan

open Value

namespace Compile

/-- A mapping that holds a value under a text. -/
def Holds (name : String) (d v : Value) : Prop := ∃ es, d.entries? = some es ∧ get? name es = some v

/-- A mapping that has a text among its keys. -/
def has (name : String) (d : Value) : Bool := (d.entries?.bind (get? name)).isSome

def isMapping (d : Value) : Bool := d.entries?.isSome

/-- The rules by which descriptors give arguments, one after the other. -/
inductive ArgumentsOf : List Value → List Value → Prop
  | nil : ArgumentsOf [] []
  /-- Such a descriptor need not even be a mapping. -/
  | neither {d : Value} {ds args : List Value} (unnamed : has "name" d = false)
      (unvalued : has "value" d = false) (rest : ArgumentsOf ds args) : ArgumentsOf (d :: ds) args
  | named {d n : Value} {ds args : List Value} (name : Holds "name" d n)
      (unvalued : has "value" d = false) (rest : ArgumentsOf ds args) :
      ArgumentsOf (d :: ds) (n :: args)
  | valued {d v : Value} {ds args : List Value} (unnamed : has "name" d = false)
      (value : Holds "value" d v) (rest : ArgumentsOf ds args) : ArgumentsOf (d :: ds) (v :: args)
  | both {d n v : Value} {ds args : List Value} (name : Holds "name" d n)
      (value : Holds "value" d v) (rest : ArgumentsOf ds args) :
      ArgumentsOf (d :: ds) (n :: v :: args)

/-- The entries that make arguments. -/
def described (es : Entries) : Entries :=
  es.filter fun e => same e.1 (.str "name") || same e.1 (.str "value")

/-- The same descriptor but for the order of its entries and for those that make no arguments. No key
of a mapping is there twice. -/
def Rearranged (d e : Value) : Prop :=
  d = e ∨ ∃ es fs, d.entries? = some es ∧ e.entries? = some fs ∧ (keys (described es)).Nodup ∧
    (described es).Perm (described fs)

/-- What a row of descriptors is flattened to. -/
structure Flattened (ds args : List Value) : Prop where
  rules : ∀ others, ArgumentsOf ds others ↔ others = args
  length_eq : args.length = ds.countP (has "name") + ds.countP (has "value")
  /-- The arguments of a descriptor stand between those of the descriptors around it. -/
  placed : ∀ before d after, ds = before ++ d :: after → ∃ front own back,
    args = front ++ own ++ back ∧ ArgumentsOf before front ∧ ArgumentsOf [d] own ∧
      ArgumentsOf after back
  append : ∀ more others, normalizeArguments (.list more) = .ok others →
    normalizeArguments (.list (ds ++ more)) = .ok (args ++ others)
  /-- Only the mappings in the row count. -/
  mappings : ∀ es, es.filter isMapping = ds.filter isMapping →
    normalizeArguments (.list es) = .ok args
  rearranged : ∀ es, List.Forall₂ Rearranged ds es → normalizeArguments (.list es) = .ok args

variable {d e v : Value} {ds args others xs ys : List Value} {es fs : Entries} {name : String}

/-! ### One descriptor -/

theorem holds_of_bind (found : d.entries?.bind (get? name) = some v) : Holds name d v :=
  Option.bind_eq_some_iff.mp found

theorem Holds.bind (holds : Holds name d v) : d.entries?.bind (get? name) = some v :=
  Option.bind_eq_some_iff.mpr holds

theorem descriptorArguments_eq (d : Value) : descriptorArguments d =
    (d.entries?.bind (get? "name")).toList ++ (d.entries?.bind (get? "value")).toList := by
  rw [descriptorArguments]
  cases d.entries? <;> rfl

theorem length_descriptorArguments (d : Value) :
    (descriptorArguments d).length = (if has "name" d then 1 else 0) + if has "value" d then 1 else 0 := by
  rw [descriptorArguments_eq, has, has]
  cases d.entries?.bind (get? "name") <;> cases d.entries?.bind (get? "value") <;> rfl

theorem descriptorArguments_of_not_mapping (other : isMapping d = false) :
    descriptorArguments d = [] := by
  rw [descriptorArguments_eq, Option.not_isSome_iff_eq_none.mp (Bool.eq_false_iff.mp other)]
  rfl

theorem get?_described (es : Entries) (wanted : name = "name" ∨ name = "value") :
    get? name (described es) = get? name es := by
  induction es with
  | nil => rfl
  | cons entry es ih =>
    obtain ⟨k, w⟩ := entry
    have here : described ((k, w) :: es) =
        if same k (.str "name") || same k (.str "value") then (k, w) :: described es
        else described es := List.filter_cons
    rw [get?, get?, here, lookup_cons]
    split
    · rw [lookup_cons]
      exact if_congr Iff.rfl rfl ih
    · -- an entry that is left out is under neither of the two keys
      rename_i other
      have unwanted : same k (.str name) = false := by
        rw [Bool.not_eq_true, Bool.or_eq_false_iff] at other
        obtain rfl | rfl := wanted
        · exact other.1
        · exact other.2
      rw [if_neg (by rw [unwanted]; decide)]
      exact ih

theorem keysSound_described (distinct : (keys (described es)).Nodup) : KeysSound (described es) := by
  refine keysSound_of_nodup ?_ distinct
  intro k member
  obtain ⟨entry, kept, rfl⟩ := List.mem_map.mp member
  have wanted := List.of_mem_filter kept
  rw [Bool.or_eq_true, same_str, same_str] at wanted
  obtain named | valued := wanted
  · exact ⟨_, named⟩
  · exact ⟨_, valued⟩

theorem get?_of_perm (distinct : (keys (described es)).Nodup)
    (same : (described es).Perm (described fs)) (wanted : name = "name" ∨ name = "value") :
    get? name es = get? name fs := by
  -- without keys that are there twice, what is found does not depend on the order
  have distinct' : (keys (described fs)).Nodup := (same.map Prod.fst).nodup_iff.mp distinct
  rw [← get?_described es wanted, ← get?_described fs wanted]
  refine Option.ext fun v => ?_
  rw [get?, get?, ← mem_iff_lookup (keysSound_described distinct), ←
    mem_iff_lookup (keysSound_described distinct')]
  exact same.mem_iff

theorem Rearranged.descriptorArguments_eq (rearranged : Rearranged d e) :
    descriptorArguments e = descriptorArguments d := by
  obtain rfl | ⟨es, fs, whole, other, distinct, same⟩ := rearranged
  · rfl
  · rw [descriptorArguments, descriptorArguments, whole, other]
    simp only [get?_of_perm distinct same (.inl rfl), get?_of_perm distinct same (.inr rfl)]

/-! ### Rows of descriptors -/

theorem flattenArguments_cons (d : Value) (ds : List Value) :
    flattenArguments (d :: ds) = descriptorArguments d ++ flattenArguments ds := rfl

theorem flattenArguments_append (xs ys : List Value) :
    flattenArguments (xs ++ ys) = flattenArguments xs ++ flattenArguments ys :=
  List.flatMap_append

theorem argumentsOf_flattenArguments (ds : List Value) : ArgumentsOf ds (flattenArguments ds) := by
  induction ds with
  | nil => exact .nil
  | cons d ds ih =>
    rw [flattenArguments_cons, descriptorArguments_eq]
    cases name : d.entries?.bind (get? "name") <;> cases value : d.entries?.bind (get? "value")
    · exact .neither (by rw [has, name]; rfl) (by rw [has, value]; rfl) ih
    · exact .valued (by rw [has, name]; rfl) (holds_of_bind value) ih
    · exact .named (holds_of_bind name) (by rw [has, value]; rfl) ih
    · exact .both (holds_of_bind name) (holds_of_bind value) ih

theorem bind_of_has (absent : has name d = false) : d.entries?.bind (get? name) = none :=
  Option.not_isSome_iff_eq_none.mp (Bool.eq_false_iff.mp absent)

theorem ArgumentsOf.eq (rules : ArgumentsOf ds args) : args = flattenArguments ds := by
  induction rules with
  | nil => rfl
  | neither unnamed unvalued _ ih =>
    rw [flattenArguments_cons, descriptorArguments_eq, bind_of_has unnamed, bind_of_has unvalued, ← ih]
    rfl
  | named name unvalued _ ih =>
    rw [flattenArguments_cons, descriptorArguments_eq, name.bind, bind_of_has unvalued, ← ih]
    rfl
  | valued unnamed value _ ih =>
    rw [flattenArguments_cons, descriptorArguments_eq, bind_of_has unnamed, value.bind, ← ih]
    rfl
  | both name value _ ih =>
    rw [flattenArguments_cons, descriptorArguments_eq, name.bind, value.bind, ← ih]
    rfl

theorem argumentsOf_iff : ArgumentsOf ds args ↔ args = flattenArguments ds :=
  ⟨ArgumentsOf.eq, fun same => same ▸ argumentsOf_flattenArguments ds⟩

theorem length_flattenArguments (ds : List Value) :
    (flattenArguments ds).length = ds.countP (has "name") + ds.countP (has "value") := by
  induction ds with
  | nil => rfl
  | cons d ds ih =>
    rw [flattenArguments_cons, List.length_append, length_descriptorArguments, ih, List.countP_cons,
      List.countP_cons]
    omega

theorem flattenArguments_filter (ds : List Value) :
    flattenArguments (ds.filter isMapping) = flattenArguments ds := by
  induction ds with
  | nil => rfl
  | cons d ds ih =>
    rw [flattenArguments_cons, ← ih]
    cases mapping : isMapping d with
    | true => rw [List.filter_cons_of_pos mapping, flattenArguments_cons]
    | false =>
      rw [List.filter_cons_of_neg (by simp [mapping]), descriptorArguments_of_not_mapping mapping,
        List.nil_append]

theorem flattenArguments_of_rearranged (rows : List.Forall₂ Rearranged ds xs) :
    flattenArguments xs = flattenArguments ds := by
  induction rows with
  | nil => rfl
  | cons here _ ih => rw [flattenArguments_cons, flattenArguments_cons, here.descriptorArguments_eq, ih]

theorem normalizeArguments_of_opened (listed : v.opened = .list ds) :
    normalizeArguments v = .ok (flattenArguments ds) := by
  obtain ⟨items, read, none | opened⟩ := elementsOrNone_of_list (.inr ⟨ds, listed⟩)
  · rw [none.1] at listed
    cases listed
  · obtain rfl := Value.list.inj (listed.symm.trans opened)
    rw [normalizeArguments, read]
    rfl

theorem normalizeArguments_list (ds : List Value) :
    normalizeArguments (.list ds) = .ok (flattenArguments ds) :=
  normalizeArguments_of_opened rfl

/-- Every list of descriptors is flattened, also one that holds itself. -/
theorem arguments_flattened (v : Value) (ds : List Value) (listed : v.opened = .list ds) :
    ∃ args, normalizeArguments v = .ok args ∧ Flattened ds args := by
  refine ⟨flattenArguments ds, normalizeArguments_of_opened listed, ?_⟩
  exact {
    rules := fun _ => argumentsOf_iff
    length_eq := length_flattenArguments ds
    placed := by
      rintro before d after rfl
      refine ⟨_, _, _, ?_, argumentsOf_flattenArguments before, argumentsOf_flattenArguments [d],
        argumentsOf_flattenArguments after⟩
      rw [List.append_assoc, ← flattenArguments_append, ← flattenArguments_append]
      rfl
    append := by
      intro more others flat
      rw [normalizeArguments_list, Except.ok.injEq] at flat
      rw [normalizeArguments_list, flattenArguments_append, flat]
    mappings := by
      intro es same
      rw [normalizeArguments_list, ← flattenArguments_filter es, same, flattenArguments_filter]
    rearranged := by
      intro es rows
      rw [normalizeArguments_list, flattenArguments_of_rearranged rows] }

def mixedDescriptors : List Value :=
  [.map [(.str "value", .null), (.str "name", .str "-v")], .str "name",
    .map [(.str "name", .bool false), (.str "note", .int 1)], .map []]

theorem arguments_flattened_mixed : (Value.list mixedDescriptors).opened = .list mixedDescriptors ∧
    ∃ args, normalizeArguments (.list mixedDescriptors) = .ok args ∧ Flattened mixedDescriptors args :=
  ⟨rfl, arguments_flattened (.list mixedDescriptors) mixedDescriptors rfl⟩

example : normalizeArguments (.list mixedDescriptors) = .ok [.str "-v", .null, .bool false] :=
  rfl

end Compile

end MachinePlan
