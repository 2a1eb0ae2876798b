import MachinePlan.Compile.Document
import MachinePlan.Proofs.Compile.Shape
import MachinePlan.Proofs.Value.Shown

/-!
# The problems of a node

What a node is refused for can be listed without compiling it: every part that has to be a mapping
and is none, in the order in which the parts are compiled. Where the names in the node can be
written, it compiles if the list is empty, and otherwise it is refused for the first problem in it
(`firstOf_node`).
-/

namespace MachinePlan

open Value

/-! ### Ending with the first of some problems -/

/-- A step that ends with the first of some problems, and with a result that has a property where
there are none. -/
inductive FirstOf {α : Type} (P : α → Prop) : List ConfigProblem → Except Failure α → Prop
  | ok {a : α} (holds : P a) : FirstOf P [] (.ok a)
  | refused (p : ConfigProblem) (rest : List ConfigProblem) :
      FirstOf P (p :: rest) (.error (.config p))

namespace FirstOf

variable {α β : Type} {P : α → Prop} {Q : β → Prop} {ps qs : List ConfigProblem}
  {r : Except Failure α} {next : α → Except Failure β}

theorem bind (first : FirstOf P ps r) (rest : ∀ a, P a → FirstOf Q qs (next a)) :
    FirstOf Q (ps ++ qs) (r >>= next) := by
  cases first with
  | ok holds => exact rest _ holds
  | refused p ps => exact .refused p (ps ++ qs)

theorem ok_bind (first : FirstOf P [] r) (rest : ∀ a, P a → FirstOf Q qs (next a)) :
    FirstOf Q qs (r >>= next) :=
  bind first rest

theorem bind_ok (first : FirstOf P ps r) (rest : ∀ a, P a → FirstOf Q [] (next a)) :
    FirstOf Q ps (r >>= next) := by
  simpa using bind first rest

theorem exists_ok_iff (ended : FirstOf P ps r) : (∃ a, r = .ok a) ↔ ps = [] := by
  cases ended <;> simp

theorem eq_error {p : ConfigProblem} {rest : List ConfigProblem}
    (ended : FirstOf P (p :: rest) r) : r = .error (.config p) := by
  cases ended
  rfl

theorem eq_config {failure : Failure} (ended : FirstOf P ps r) (failed : r = .error failure) :
    ∃ p, failure = .config p := by
  cases ended with
  | ok => cases failed
  | refused p =>
    obtain rfl := Except.error.inj failed
    exact ⟨p, rfl⟩

end FirstOf

/-! ### Parts -/

namespace Value

/-- The items of a value that has to be a list; null is the empty list. -/
def row? (v : Value) : Option (List Value) :=
  match v.opened with
  | .null => some []
  | .list items => some items
  | _ => none

/-- A value that is null or a mapping. -/
def IsPart (v : Value) : Prop := v.part?.isSome = true

/-- A value that is null or a list. -/
def IsRow (v : Value) : Prop := v.row?.isSome = true

def shown (v : Value) : String :=
  match v.text with
  | .ok s => s
  | .error _ => ""

/-- The problem of a value that has to be a mapping, with the name of its kind. -/
def partProblem (problem : String → ConfigProblem) (v : Value) : List ConfigProblem :=
  if v.part?.isSome then [] else [problem v.opened.kindName]

def rowProblem (problem : String → ConfigProblem) (v : Value) : List ConfigProblem :=
  if v.row?.isSome then [] else [problem v.opened.kindName]

variable {v : Value} {problem : String → ConfigProblem}

theorem partProblem_eq_nil_iff : partProblem problem v = [] ↔ v.IsPart := by
  rw [partProblem, IsPart]
  split <;> simp_all

theorem rowProblem_eq_nil_iff : rowProblem problem v = [] ↔ v.IsRow := by
  rw [rowProblem, IsRow]
  split <;> simp_all

theorem text_eq_shown (short : v.holdsLong = false) : v.text = .ok v.shown := by
  have written := isOk_text v
  rw [short] at written
  obtain ⟨s, text⟩ := exists_of_isOk written
  rw [shown, text]

theorem firstOf_text (short : v.holdsLong = false) : FirstOf (· = v.shown) [] v.text := by
  rw [text_eq_shown short]
  exact .ok rfl

theorem elementsOrNone_of_list (listed : v = .null ∨ ∃ items, v.opened = .list items) :
    ∃ items, v.elementsOrNone = .ok items ∧ (v = .null ∧ items = [] ∨ v.opened = .list items) := by
  rcases listed with rfl | ⟨items, opened⟩
  · exact ⟨[], rfl, .inl ⟨rfl, rfl⟩⟩
  · refine ⟨items, ?_, .inr opened⟩
    rw [elementsOrNone, elements, opened]
    split
    case isTrue => rfl
    case isFalse falsy =>
      -- only the empty list counts as nothing and is opened as a list all the same
      cases v with
      | list rest =>
        obtain rfl := Value.list.inj opened
        cases rest with
        | nil => rfl
        | cons => exact absurd rfl falsy
      | ring | again => exact absurd rfl falsy
      | _ => cases opened

end Value

namespace Compile

/-- No key of the entries holds a number that is too long to be written. -/
def ShortKeys (es : Entries) : Prop := ∀ k ∈ keys es, k.holdsLong = false

/-- The problems of the items of a list of mappings, from a position on. -/
def itemProblems (n : Node) (part : Nat → String) (position : Nat) (items : List Value) :
    List ConfigProblem :=
  (items.zipIdx position).flatMap fun (v, i) => partProblem (.partNotMapping n.name (part i)) v

def paramsProblems (n : Node) (part : String → String) (types : Entries) : List ConfigProblem :=
  types.flatMap fun (kind, params) =>
    partProblem (.partNotMapping n.name (part kind.shown)) params

/-- The parts of a node that are no mappings although they have to be, in the order in which they
are compiled. -/
def partProblems (n : Node) : List ConfigProblem :=
  itemProblems n (fun i => s!"forwarded_ports[{i}]") 0 n.forwardedPorts ++
    (paramsProblems n (fun kind => s!"provisioner '{kind}' parameters")
        (n.provisioners.flatMap typedEntries) ++
      (paramsProblems n (fun provider => s!"provider '{provider}' parameters") n.providers ++
        itemProblems n (fun i => s!"synced_folders[{i}]") 0 n.syncedFolders))

variable {n : Node} {part kind : String} {v boxes : Value} {es catalog : Entries}
  {items : List Value} {position : Nat}

theorem itemProblems_eq_nil_iff {part : Nat → String} :
    itemProblems n part position items = [] ↔ ∀ v ∈ items, v.IsPart := by
  induction items generalizing position with
  | nil => simp [itemProblems]
  | cons v items ih =>
    have split : itemProblems n part position (v :: items) =
        partProblem (.partNotMapping n.name (part position)) v ++
          itemProblems n part (position + 1) items := rfl
    rw [split, List.append_eq_nil_iff, partProblem_eq_nil_iff, ih, List.forall_mem_cons]

theorem paramsProblems_eq_nil_iff {part : String → String} :
    paramsProblems n part es = [] ↔ ∀ typed ∈ es, typed.2.IsPart := by
  rw [paramsProblems, List.flatMap_eq_nil_iff]
  exact forall₂_congr fun _ _ => partProblem_eq_nil_iff

theorem firstOf_partEntries (n : Node) (part : String) (v : Value) :
    FirstOf (fun es => v.part? = some es) (partProblem (.partNotMapping n.name part) v)
      (partEntries n part v) := by
  rw [partEntries, partProblem, part?]
  cases v.opened with
  | null | map => exact .ok rfl
  | _ => exact .refused _ []

theorem firstOf_normalizeKeys (short : ShortKeys es) :
    FirstOf (fun _ => True) [] (normalizeKeys es) := by
  have pairs : FirstOf (fun _ => True) [] (normalizedPairs es) := by
    induction es with
    | nil => exact .ok trivial
    | cons e es ih =>
      obtain ⟨first, others⟩ := List.forall_mem_cons.mp short
      have name : FirstOf (fun _ => True) [] (normalizeKey e.1) :=
        .ok_bind (firstOf_text first) fun _ _ => .ok trivial
      refine .ok_bind name fun _ _ => ?_
      exact .ok_bind (ih others) fun _ _ => .ok trivial
  exact .ok_bind pairs fun _ _ => .ok trivial

/-! ### The parts of a node -/

structure ShortType (params? : Value → Option Entries) (typed : Value × Value) : Prop where
  kind : typed.1.holdsLong = false
  keys : ∀ params, params? typed.2 = some params → ShortKeys params

theorem firstOf_networkPairs (short : ∀ typed ∈ es, ShortType entries? typed) :
    FirstOf (fun _ => True) [] (networkPairs es) := by
  induction es with
  | nil => exact .ok trivial
  | cons e es ih =>
    obtain ⟨first, others⟩ := List.forall_mem_cons.mp short
    have params : FirstOf (fun _ => True) [] (networkParams e.2) := by
      rw [networkParams]
      cases read : e.2.entries? with
      | none => exact .ok trivial
      | some fields =>
        have renamed := firstOf_normalizeKeys (first.keys fields read)
        exact .ok_bind renamed fun _ _ => .ok trivial
    refine .ok_bind params fun _ _ => .ok_bind (firstOf_text first.kind) fun _ _ => ?_
    exact .ok_bind (ih others) fun _ _ => .ok trivial

theorem firstOf_forwardedPorts (n : Node)
    (short : ∀ port ∈ items, ∀ params, port.part? = some params → ShortKeys params) :
    FirstOf (fun _ => True) (itemProblems n (fun i => s!"forwarded_ports[{i}]") position items)
      (forwardedPorts n position items) := by
  induction items generalizing position with
  | nil => exact .ok trivial
  | cons port items ih =>
    obtain ⟨first, others⟩ := List.forall_mem_cons.mp short
    refine .bind (firstOf_partEntries n _ port) fun params mapping => ?_
    refine .ok_bind (firstOf_normalizeKeys (first params mapping)) fun _ _ => ?_
    exact .bind_ok (ih others) fun _ _ => .ok trivial

theorem firstOf_syncedFolders (n : Node) (items : List Value) :
    FirstOf (fun _ => True) (itemProblems n (fun i => s!"synced_folders[{i}]") position items)
      (syncedFolders n position items) := by
  induction items generalizing position with
  | nil => exact .ok trivial
  | cons folder items ih =>
    refine .bind (firstOf_partEntries n _ folder) fun params mapping => ?_
    exact .bind_ok ih fun _ _ => .ok trivial

/-- The arguments of a provisioner are null or a list. -/
def ListedArguments (params : Entries) : Prop :=
  ∀ v, (.str "arguments", v) ∈ params → v = .null ∨ ∃ items, v.opened = .list items

theorem firstOf_provisionerParams (short : ShortKeys es) (listed : ListedArguments es) :
    FirstOf (fun _ => True) [] (provisionerParams kind position es) := by
  induction es with
  | nil => exact .ok trivial
  | cons e es ih =>
    obtain ⟨key, v⟩ := e
    obtain ⟨first, others⟩ := List.forall_mem_cons.mp short
    have rest := ih others fun v member => listed v (List.mem_cons_of_mem _ member)
    have next (op : Operation) : FirstOf (fun _ => True) []
        (do return op :: (← provisionerParams kind position es)) :=
      .ok_bind rest fun _ _ => .ok trivial
    rw [provisionerParams]
    split
    case isTrue reserved =>
      obtain rfl := (same_str key "arguments").mp reserved
      obtain ⟨items, flat, -⟩ := elementsOrNone_of_list (listed v List.mem_cons_self)
      rw [normalizeArguments, flat]
      exact next _
    case isFalse => exact .ok_bind (firstOf_text first) fun _ _ => next _

theorem paramsProblems_append (part : String → String) (first second : Entries) :
    paramsProblems n part (first ++ second) =
      paramsProblems n part first ++ paramsProblems n part second := List.flatMap_append

theorem firstOf_provisionerBlocks (n : Node) (short : ∀ typed ∈ es, ShortType part? typed)
    (listed : ∀ typed ∈ es, ∀ params, typed.2.part? = some params → ListedArguments params) :
    FirstOf (fun _ => True)
      (paramsProblems n (fun kind => s!"provisioner '{kind}' parameters") es)
      (provisionerBlocks n position es) := by
  induction es with
  | nil => exact .ok trivial
  | cons e es ih =>
    obtain ⟨first, others⟩ := List.forall_mem_cons.mp short
    obtain ⟨arguments, behind⟩ := List.forall_mem_cons.mp listed
    refine .ok_bind (firstOf_text first.kind) fun kind shown => ?_
    obtain rfl := shown
    refine .bind (firstOf_partEntries n _ e.2) fun params mapping => ?_
    refine .ok_bind (firstOf_provisionerParams (first.keys params mapping)
      (arguments params mapping)) fun _ _ => ?_
    exact .bind_ok (ih others behind) fun _ _ => .ok trivial

theorem firstOf_provisioners (n : Node)
    (short : ∀ typed ∈ items.flatMap typedEntries, ShortType part? typed)
    (listed : ∀ typed ∈ items.flatMap typedEntries, ∀ params, typed.2.part? = some params →
      ListedArguments params) :
    FirstOf (fun _ => True)
      (paramsProblems n (fun kind => s!"provisioner '{kind}' parameters")
        (items.flatMap typedEntries))
      (provisioners n position items) := by
  induction items generalizing position with
  | nil => exact .ok trivial
  | cons entry items ih =>
    rw [List.flatMap_cons, List.forall_mem_append] at short listed
    rw [List.flatMap_cons, paramsProblems_append]
    refine .bind (firstOf_provisionerBlocks n short.1 listed.1) fun _ _ => ?_
    exact .bind_ok (ih short.2 listed.2) fun _ _ => .ok trivial

theorem firstOf_providerParams (provider : String) (short : ShortKeys es) :
    FirstOf (fun _ => True) [] (providerParams provider es) := by
  induction es with
  | nil => exact .ok trivial
  | cons e es ih =>
    obtain ⟨first, others⟩ := List.forall_mem_cons.mp short
    refine .ok_bind (firstOf_text first) fun _ _ => ?_
    exact .ok_bind (ih others) fun _ _ => .ok trivial

theorem firstOf_providerProperties (n : Node) (short : ∀ typed ∈ es, ShortType part? typed) :
    FirstOf (fun _ => True)
      (paramsProblems n (fun provider => s!"provider '{provider}' parameters") es)
      (providerProperties n es) := by
  induction es with
  | nil => exact .ok trivial
  | cons e es ih =>
    obtain ⟨first, others⟩ := List.forall_mem_cons.mp short
    refine .ok_bind (firstOf_text first.kind) fun provider shown => ?_
    obtain rfl := shown
    refine .bind (firstOf_partEntries n _ e.2) fun params mapping => ?_
    refine .ok_bind (firstOf_providerParams _ (first.keys params mapping)) fun _ _ => ?_
    exact .bind_ok (ih others) fun _ _ => .ok trivial

end Compile

/-! ### Whole nodes -/

/-- A node whose box can be looked up, that calls no hooks, and whose provisioners take null or a
list as their arguments. -/
structure Node.Regular (n : Node) : Prop where
  hashable : n.box.isHashable = true
  noHooks : n.externalFunctions = []
  listed : ∀ typed ∈ n.provisioners.flatMap Compile.typedEntries,
    ∀ params, typed.2.part? = some params → Compile.ListedArguments params

/-- A node whose names can be written: no type, provider or key of parameters holds a number that
is too long. -/
structure Node.ShortNames (n : Node) : Prop where
  networks : ∀ typed ∈ n.networks.flatMap Compile.typedEntries, Compile.ShortType entries? typed
  forwardedPorts : ∀ port ∈ n.forwardedPorts, ∀ params, port.part? = some params →
    Compile.ShortKeys params
  provisioners : ∀ typed ∈ n.provisioners.flatMap Compile.typedEntries,
    Compile.ShortType part? typed
  providers : ∀ typed ∈ n.providers, Compile.ShortType part? typed

namespace Compile

variable {name : String} {registry : Registry} {n : Node} {boxes : Value} {catalog : Entries}
  {ns : List (String × Node)}

theorem firstOf_identity (known : boxes.entries? = some catalog) (regular : n.Regular) :
    FirstOf (fun _ => True) [] (identity n boxes) := by
  have found : FirstOf (fun _ => True) [] (boxLocation n.box boxes) := by
    by_cases named : n.box = .null
    · rw [named]
      exact .ok trivial
    · rw [boxLocation_of_hashable known named regular.hashable]
      exact .ok trivial
  exact .ok_bind found fun _ _ => .ok trivial

theorem firstOf_node (known : (boxes.orElse (.map [])).entries? = some catalog)
    (regular : n.Regular) (short : n.ShortNames) :
    FirstOf (fun _ => True) (partProblems n) (node name n boxes) := by
  refine .ok_bind (firstOf_identity known regular) fun _ _ => ?_
  refine .ok_bind (firstOf_networkPairs short.networks) fun _ _ => ?_
  refine .bind (firstOf_forwardedPorts n short.forwardedPorts) fun _ _ => ?_
  refine .bind (firstOf_provisioners n short.provisioners regular.listed) fun _ _ => ?_
  refine .bind (firstOf_providerProperties n short.providers) fun _ _ => ?_
  exact .bind_ok (firstOf_syncedFolders n n.syncedFolders) fun _ _ => .ok trivial

theorem firstOf_namedNode (known : (boxes.orElse (.map [])).entries? = some catalog)
    (regular : n.Regular) (short : n.ShortNames) :
    FirstOf (fun _ => True) (partProblems n) (namedNode registry boxes (name, n)) := by
  refine .bind_ok (firstOf_node known regular short) fun ops _ => ?_
  have unchanged : hooked registry n ops = .ok ops := by
    rw [hooked, regular.noHooks, Registry.dispatch]
  rw [unchanged]
  exact .ok trivial

theorem firstOf_nodes (known : (boxes.orElse (.map [])).entries? = some catalog)
    (regular : ∀ named ∈ ns, named.2.Regular) (short : ∀ named ∈ ns, named.2.ShortNames) :
    FirstOf (fun _ => True) (ns.flatMap fun named => partProblems named.2)
      (nodes registry boxes ns) := by
  induction ns with
  | nil => exact .ok trivial
  | cons named ns ih =>
    obtain ⟨here, regular⟩ := List.forall_mem_cons.mp regular
    obtain ⟨first, short⟩ := List.forall_mem_cons.mp short
    refine .bind (firstOf_namedNode known here first) fun _ _ => ?_
    exact .bind_ok (ih regular short) fun _ _ => .ok trivial

end Compile

end MachinePlan
