import MachinePlan.Proofs.Compile.Shape
import MachinePlan.Proofs.Pairs
import MachinePlan.Proofs.Value.Shown

/-!
# Keywords

Parameters are handed on under keywords: the texts of their keys with underscores for hyphens. Keys
that are apart can have one keyword. It then stands where the first of them stood and holds the
value of the last, and no value is touched (`keywords_formed`).
-/

namespace MachinePlan

open Value

namespace Compile

def IsKeyword (key : Value) (name : String) : Prop :=
  ∃ text, key.text = .ok text ∧ name.toList = text.toList.map fun c => if c = '-' then '_' else c

/-- What becomes of entries whose keys have the given keywords. -/
structure UnderKeywords (es : Entries) (names : List String) (normal : Entries) : Prop where
  keywords : List.Forall₂ (fun e name => IsKeyword e.1 name) es names
  /-- Each keyword is there once, in the order in which they come first. -/
  keys_eq : keys normal = names.eraseDups.map .str
  distinct : (keys normal).Nodup
  /-- A keyword holds the value of the last key that has it. -/
  last : ∀ name v, (.str name, v) ∈ normal ↔ ∃ before key after, es = before ++ (key, v) :: after ∧
    IsKeyword key name ∧ ∀ e ∈ after, ¬ IsKeyword e.1 name
  hyphenless : ∀ name ∈ names, '-' ∉ name.toList
  again : normalizeKeys normal = .ok normal
  /-- Where no two keys have one keyword, nothing is lost. -/
  kept : names.Nodup → normal.map Prod.snd = es.map Prod.snd

/-- Pairs under texts, as entries. -/
def namedEntries (named : List (String × Value)) : Entries := named.map fun p => (.str p.1, p.2)

variable {key v : Value} {name : String} {es normal pairs : Entries} {names : List String}
  {named : List (String × Value)}

/-! ### Keywords of keys -/

theorem normalizeKey_eq_ok : normalizeKey key = .ok name ↔ IsKeyword key name := by
  unfold normalizeKey IsKeyword
  constructor
  · intro made
    obtain ⟨text, written, made⟩ := bind_eq_ok.mp made
    refine ⟨text, written, ?_⟩
    rw [← Except.ok.inj made, String.toList_ofList]
  · rintro ⟨text, written, same⟩
    refine bind_eq_ok.mpr ⟨text, written, ?_⟩
    rw [← same, String.ofList_toList]
    rfl

theorem normalizeKey_eq_error {failure : Failure} :
    normalizeKey key = .error failure ↔ key.holdsLong = true ∧ failure = .fault .value := by
  unfold normalizeKey
  rw [bind_eq_error, text_eq_error]
  simp [pure, Except.pure]

theorem IsKeyword.unique {other : String} (here : IsKeyword key name) (there : IsKeyword key other) :
    name = other := by
  have same := (normalizeKey_eq_ok.mpr here).symm.trans (normalizeKey_eq_ok.mpr there)
  exact Except.ok.inj same

theorem IsKeyword.hyphenless (keyword : IsKeyword key name) : '-' ∉ name.toList := by
  obtain ⟨text, -, same⟩ := keyword
  rw [same, List.mem_map]
  rintro ⟨c, -, hyphen⟩
  by_cases h : c = '-'
  · rw [if_pos h] at hyphen
    cases hyphen
  · rw [if_neg h] at hyphen
    exact h hyphen

theorem isKeyword_of_hyphenless (bare : '-' ∉ name.toList) : IsKeyword (.str name) name := by
  refine ⟨name, rfl, ?_⟩
  have same : ∀ c ∈ name.toList, (if c = '-' then '_' else c) = c := by
    intro c member
    rw [if_neg]
    rintro rfl
    exact bare member
  rw [List.map_congr_left same, List.map_id']

/-! ### Pairs under keywords -/

theorem normalizedPairs_eq_ok : normalizedPairs es = .ok pairs ↔
    ∃ named, List.Forall₂ (fun e p => IsKeyword e.1 p.1 ∧ e.2 = p.2) es named ∧
      pairs = namedEntries named := by
  induction es generalizing pairs with
  | nil =>
    constructor
    · intro made
      exact ⟨[], .nil, (Except.ok.inj made).symm⟩
    · rintro ⟨named, related, rfl⟩
      cases related
      rfl
  | cons e es ih =>
    obtain ⟨key, v⟩ := e
    rw [normalizedPairs]
    constructor
    · intro made
      obtain ⟨name, keyword, made⟩ := bind_eq_ok.mp made
      obtain ⟨others, rest, made⟩ := bind_eq_ok.mp made
      obtain ⟨named, related, rfl⟩ := ih.mp rest
      refine ⟨(name, v) :: named, .cons ⟨normalizeKey_eq_ok.mp keyword, rfl⟩ related, ?_⟩
      exact (Except.ok.inj made).symm
    · rintro ⟨_, related, rfl⟩
      obtain ⟨⟨name, w⟩, named, ⟨keyword, rfl⟩, rest, rfl⟩ := List.forall₂_cons_left_iff.mp related
      refine bind_eq_ok.mpr ⟨name, normalizeKey_eq_ok.mpr keyword, ?_⟩
      exact bind_eq_ok.mpr ⟨namedEntries named, ih.mpr ⟨named, rest, rfl⟩, rfl⟩

theorem normalizedPairs_eq_error {failure : Failure} : normalizedPairs es = .error failure ↔
    (∃ k ∈ keys es, k.holdsLong = true) ∧ failure = .fault .value := by
  induction es with
  | nil => simp [normalizedPairs]
  | cons e es ih =>
    obtain ⟨key, v⟩ := e
    rw [normalizedPairs, keys_cons, bind_eq_error, normalizeKey_eq_error]
    constructor
    · rintro (⟨long, rfl⟩ | ⟨name, -, failed⟩)
      · exact ⟨⟨key, List.mem_cons_self, long⟩, rfl⟩
      · rcases bind_eq_error.mp failed with failed | ⟨others, -, made⟩
        · obtain ⟨⟨k, member, long⟩, rfl⟩ := ih.mp failed
          exact ⟨⟨k, List.mem_cons_of_mem _ member, long⟩, rfl⟩
        · cases made
    · rintro ⟨⟨k, member, long⟩, rfl⟩
      rcases ended : normalizeKey key with failure | name
      · obtain ⟨first, -⟩ := normalizeKey_eq_error.mp ended
        exact .inl ⟨first, rfl⟩
      · refine .inr ⟨name, rfl, bind_eq_error.mpr (.inl (ih.mpr ⟨⟨k, ?_, long⟩, rfl⟩))⟩
        rcases List.mem_cons.mp member with rfl | member
        · rw [normalizeKey_eq_error.mpr ⟨long, rfl⟩] at ended
          cases ended
        · exact member

/-! ### Entries made of pairs -/

theorem hasKey_str : hasKey (.str name) es = true ↔ .str name ∈ keys es := by
  rw [hasKey_iff]
  constructor
  · rintro ⟨k, member, same⟩
    rwa [(same_str k name).mp same] at member
  · intro member
    exact ⟨_, member, (same_str _ name).mpr rfl⟩

theorem ofPairs_concat (named : List (String × Value)) (name : String) (v : Value) :
    ofPairs (namedEntries (named ++ [(name, v)])) =
      insert (.str name) v (ofPairs (namedEntries named)) := by
  simp [ofPairs, namedEntries]

theorem keys_ofPairs (named : List (String × Value)) :
    keys (ofPairs (namedEntries named)) = (named.map Prod.fst).eraseDups.map .str := by
  induction named using List.reverseRecOn with
  | nil => rfl
  | append_singleton named p ih =>
    obtain ⟨name, v⟩ := p
    have there : hasKey (.str name) (ofPairs (namedEntries named)) = true ↔
        name ∈ named.map Prod.fst := by
      rw [hasKey_str, ih, List.mem_map_of_injective fun a b => Value.str.inj, List.mem_eraseDups]
    rw [ofPairs_concat, keys_insert, ih, List.map_append, List.map_singleton, List.eraseDups_append,
      List.map_append, List.removeAll]
    by_cases known : name ∈ named.map Prod.fst
    · rw [if_pos (there.mpr known), List.filter_cons_of_neg (by simpa using known)]
      exact (List.append_nil _).symm
    · rw [if_neg (fun held => known (there.mp held)),
        List.filter_cons_of_pos (by simpa using known)]
      rfl

theorem keysSound_ofPairs (named : List (String × Value)) :
    KeysSound (ofPairs (namedEntries named)) := by
  induction named using List.reverseRecOn with
  | nil => exact .nil
  | append_singleton named p ih =>
    rw [ofPairs_concat]
    exact ih.insert (isKey_str p.1) p.2

/-- Under a text stands what was put there last. -/
theorem lookup_ofPairs (named : List (String × Value)) (name : String) :
    lookup (.str name) (ofPairs (namedEntries named)) = named.reverse.lookup name := by
  induction named using List.reverseRecOn with
  | nil => rfl
  | append_singleton named p ih =>
    obtain ⟨other, v⟩ := p
    rw [ofPairs_concat, lookup_insert (isKey_str name), List.reverse_append,
      List.reverse_singleton, List.singleton_append, lookup_pair, ih]
    by_cases same : name = other
    · rw [if_pos ((same_str _ name).mpr (by rw [same])), if_pos same]
    · have apart : ¬ Value.same (.str other) (.str name) = true := by
        intro equal
        exact same (Value.str.inj ((same_str _ name).mp equal)).symm
      rw [if_neg apart, if_neg same]

theorem mem_iff_lookup (sound : KeysSound es) :
    (.str name, v) ∈ es ↔ lookup (.str name) es = some v := by
  constructor
  · exact lookup_of_mem sound
  · intro found
    obtain ⟨k, member, same⟩ := mem_of_lookup found
    rwa [(same_str k name).mp same] at member

theorem lookup_reverse_eq_some : named.reverse.lookup name = some v ↔
    ∃ before after, named = before ++ (name, v) :: after ∧ ∀ p ∈ after, p.1 ≠ name := by
  rw [List.lookup_eq_some_iff]
  constructor
  · rintro ⟨behind, front, split, apart⟩
    refine ⟨front.reverse, behind.reverse, ?_, ?_⟩
    · rw [← List.reverse_reverse named, split]
      simp
    · intro p member
      simpa using (bne_iff_ne.mp (apart p (List.mem_reverse.mp member))).symm
  · rintro ⟨before, after, rfl, apart⟩
    refine ⟨after.reverse, before.reverse, by simp, ?_⟩
    intro p member
    exact bne_iff_ne.mpr (apart p (List.mem_reverse.mp member)).symm

/-! ### Entries under keywords -/

theorem keys_nodup (sound : KeysSound es) : (keys es).Nodup := by
  refine sound.distinct.imp_of_mem fun {a b} here _ apart same => ?_
  have equal := (sound.isKey a here).2
  rw [← same, equal] at apart
  cases apart

theorem normalizeKeys_of_hyphenless (sound : KeysSound es)
    (bare : ∀ k ∈ keys es, ∃ name, k = .str name ∧ '-' ∉ name.toList) :
    normalizeKeys es = .ok es := by
  have pairs : normalizedPairs es = .ok es := by
    clear sound
    induction es with
    | nil => rfl
    | cons e es ih =>
      obtain ⟨key, v⟩ := e
      rw [keys_cons, List.forall_mem_cons] at bare
      obtain ⟨⟨name, rfl, free⟩, bare⟩ := bare
      have first := normalizeKey_eq_ok.mpr (isKeyword_of_hyphenless free)
      exact bind_eq_ok.mpr ⟨name, first, bind_eq_ok.mpr ⟨es, ih bare, rfl⟩⟩
  exact bind_eq_ok.mpr ⟨es, pairs, congrArg Except.ok (ofPairs_of_sound sound)⟩

theorem ofPairs_of_nodup (distinct : (named.map Prod.fst).Nodup) :
    ofPairs (namedEntries named) = namedEntries named := by
  have under : keys (namedEntries named) = (named.map Prod.fst).map .str := by
    simp [keys, namedEntries]
  refine ofPairs_of_sound (keysSound_of_nodup ?_ ?_)
  · rw [under]
    exact List.forall_mem_map.mpr fun name _ => ⟨name, rfl⟩
  · rw [under]
    exact distinct.map fun a b => Value.str.inj

theorem values_namedEntries
    (related : List.Forall₂ (fun e p => IsKeyword e.1 p.1 ∧ e.2 = p.2) es named) :
    (namedEntries named).map Prod.snd = es.map Prod.snd := by
  induction related with
  | nil => rfl
  | cons here _ ih => simp [namedEntries, here.2, ← ih]

theorem exists_split {α β : Type} {R : α → β → Prop} {xs : List α} {before after : List β} {b : β}
    (pairs : List.Forall₂ R xs (before ++ b :: after)) :
    ∃ front a back, xs = front ++ a :: back ∧ R a b ∧ List.Forall₂ R back after := by
  have behind := List.forall₂_drop_append _ _ _ pairs
  obtain ⟨a, back, here, rest, split⟩ := List.forall₂_cons_right_iff.mp behind
  refine ⟨xs.take before.length, a, back, ?_, here, rest⟩
  rw [← split, List.take_append_drop]

theorem mem_ofPairs_iff
    (related : List.Forall₂ (fun e p => IsKeyword e.1 p.1 ∧ e.2 = p.2) es named) :
    (.str name, v) ∈ ofPairs (namedEntries named) ↔
      ∃ before key after, es = before ++ (key, v) :: after ∧ IsKeyword key name ∧
        ∀ e ∈ after, ¬ IsKeyword e.1 name := by
  rw [mem_iff_lookup (keysSound_ofPairs named), lookup_ofPairs, lookup_reverse_eq_some]
  constructor
  · rintro ⟨before, after, rfl, last⟩
    obtain ⟨front, ⟨key, w⟩, back, rfl, ⟨keyword, rfl⟩, rest⟩ := exists_split related
    refine ⟨front, key, back, rfl, keyword, fun e member again => ?_⟩
    obtain ⟨p, there, here⟩ := exists_of_forall₂_of_mem rest.flip member
    exact last p there (here.1.unique again)
  · rintro ⟨before, key, after, rfl, keyword, last⟩
    obtain ⟨front, ⟨other, w⟩, back, rfl, ⟨here, rfl⟩, rest⟩ := exists_split related.flip
    obtain rfl := here.unique keyword
    refine ⟨front, back, rfl, fun p member same => ?_⟩
    obtain ⟨e, there, again⟩ := exists_of_forall₂_of_mem rest.flip member
    exact last e there (same ▸ again.1)

theorem underKeywords_of_normalizeKeys (made : normalizeKeys es = .ok normal) :
    ∃ names, UnderKeywords es names normal := by
  obtain ⟨pairs, read, made⟩ := bind_eq_ok.mp made
  obtain ⟨named, related, rfl⟩ := normalizedPairs_eq_ok.mp read
  obtain rfl := Except.ok.inj made
  have sound := keysSound_ofPairs named
  have keywords : List.Forall₂ (fun e name => IsKeyword e.1 name) es (named.map Prod.fst) :=
    List.forall₂_map_right_iff.mpr (related.imp fun _ _ here => here.1)
  have hyphenless : ∀ name ∈ named.map Prod.fst, '-' ∉ name.toList := by
    intro name member
    obtain ⟨e, -, keyword⟩ := exists_of_forall₂_of_mem keywords member
    exact keyword.hyphenless
  have bare : ∀ k ∈ keys (ofPairs (namedEntries named)),
      ∃ name, k = .str name ∧ '-' ∉ name.toList := by
    intro k member
    rw [keys_ofPairs, List.mem_map] at member
    obtain ⟨name, member, rfl⟩ := member
    exact ⟨name, rfl, hyphenless name (List.mem_eraseDups.mp member)⟩
  exact ⟨named.map Prod.fst, {
    keywords
    keys_eq := keys_ofPairs named
    distinct := keys_nodup sound
    last := fun _ _ => mem_ofPairs_iff related
    hyphenless
    again := normalizeKeys_of_hyphenless sound bare
    kept := fun distinct => by rw [ofPairs_of_nodup distinct, values_namedEntries related] }⟩

theorem normalizeKeys_eq_error {failure : Failure} : normalizeKeys es = .error failure ↔
    (∃ k ∈ keys es, k.holdsLong = true) ∧ failure = .fault .value := by
  unfold normalizeKeys
  rw [bind_eq_error, normalizedPairs_eq_error]
  simp [pure, Except.pure]

/-! ### Parameters of operations -/

/-- What is handed on for parameters: a mapping under keywords, and anything else as it is. -/
inductive HandedOn : Value → Value → Prop
  | mapping {params : Value} {es : Entries} {names : List String} {normal : Entries}
      (whole : params.entries? = some es) (under : UnderKeywords es names normal) :
      HandedOn params (.map normal)
  | other {params : Value} (none : params.entries? = none) : HandedOn params params

theorem handedOn_of_networkParams {params given : Value} (made : networkParams params = .ok given) :
    HandedOn params given := by
  unfold networkParams at made
  split at made
  case h_1 es whole =>
    obtain ⟨normal, renamed, rfl⟩ := map_eq_ok.mp made
    obtain ⟨names, under⟩ := underKeywords_of_normalizeKeys renamed
    exact .mapping whole under
  case h_2 none =>
    obtain rfl := Except.ok.inj made
    exact .other none

/-- The parameters of networks and forwarded ports in the operations of a node. -/
structure ParamsUnderKeywords (n : Node) (ops : List Operation) : Prop where
  networks : List.Forall₂ (fun pair op => ∃ kind given, op = .addNetwork kind given ∧
    HandedOn pair.2 given) (n.networks.flatMap typedEntries) (ofKind "AddNetwork" ops)
  forwardedPorts : List.Forall₂ (fun port op => ∃ es names normal, port.part? = some es ∧
    op = .addForwardedPort (.map normal) ∧ UnderKeywords es names normal)
    n.forwardedPorts (ofKind "AddForwardedPort" ops)

theorem paramsUnderKeywords_of_node {n : Node} {boxes : Value} {ops : List Operation}
    (ran : node name n boxes = .ok ops) : ParamsUnderKeywords n ops := by
  obtain ⟨parts, emitted, rfl⟩ := sections_of_node ran
  have within (c : Category) := (emitted c).category
  constructor
  case networks =>
    refine (forall₂_ofKind (.addNetwork .null .null) within rfl (emitted .networks)
      fun _ _ ⟨_, _⟩ => rfl).imp ?_
    rintro _ _ ⟨_, renamed⟩
    exact ⟨_, _, rfl, handedOn_of_networkParams renamed⟩
  case forwardedPorts =>
    refine (forall₂_ofKind (.addForwardedPort .null) within rfl (emitted .forwardedPorts)
      fun _ _ ⟨_, _⟩ => rfl).imp ?_
    rintro _ _ ⟨mapping, renamed⟩
    obtain ⟨names, under⟩ := underKeywords_of_normalizeKeys renamed
    exact ⟨_, names, _, mapping, rfl, under⟩

/-- Entries are brought under keywords unless one of their keys has no text, because it holds a whole
number that is too long to be written; and so are the parameters of every network and every forwarded
port of a node. -/
theorem keywords_formed :
    (∀ es : Entries, (∀ k ∈ keys es, k.holdsLong = false) →
      ∃ names normal, normalizeKeys es = .ok normal ∧ UnderKeywords es names normal) ∧
    (∀ es : Entries, (∃ k ∈ keys es, k.holdsLong = true) →
      normalizeKeys es = .error (.fault .value)) ∧
    ∀ name n boxes ops, node name n boxes = .ok ops → ParamsUnderKeywords n ops := by
  refine ⟨fun es short => ?_, fun es long => normalizeKeys_eq_error.mpr ⟨long, rfl⟩,
    fun _ _ _ _ => paramsUnderKeywords_of_node⟩
  cases made : normalizeKeys es with
  | error failure =>
    obtain ⟨⟨k, member, long⟩, -⟩ := normalizeKeys_eq_error.mp made
    rw [short k member] at long
    cases long
  | ok normal =>
    obtain ⟨names, under⟩ := underKeywords_of_normalizeKeys made
    exact ⟨names, normal, rfl, under⟩

/-- Two pairs of keys with one keyword each; between them stands a key of its own. -/
def collidingKeys : Entries :=
  [(.str "host-ip", .int 1), (.date ⟨2024, 2, 29⟩, .null), (.str "guest", .int 80),
    (.str "host_ip", .map [(.str "a-b", .int 2)]), (.str "2024_02_29", .bool false)]

theorem keywords_formed_colliding :
    (∀ k ∈ keys collidingKeys, k.holdsLong = false) ∧
    ∃ names, UnderKeywords collidingKeys names
      [(.str "host_ip", .map [(.str "a-b", .int 2)]), (.str "2024_02_29", .bool false),
        (.str "guest", .int 80)] := by
  have short : ∀ k ∈ keys collidingKeys, k.holdsLong = false := by decide +kernel
  obtain ⟨names, normal, made, under⟩ := keywords_formed.1 collidingKeys short
  have found : normalizeKeys collidingKeys = .ok
      [(.str "host_ip", .map [(.str "a-b", .int 2)]), (.str "2024_02_29", .bool false),
        (.str "guest", .int 80)] := by rfl
  obtain rfl := Except.ok.inj (made.symm.trans found)
  exact ⟨short, names, under⟩

/-- A number that is too long to be written has no keyword. -/
theorem keywords_formed_fails : ¬ ∀ es : Entries, ∃ names normal,
    normalizeKeys es = .ok normal ∧ UnderKeywords es names normal := by
  intro every
  obtain ⟨names, normal, made, -⟩ := every [(.int numeralBound, .null)]
  have long : ∃ k ∈ keys [(.int numeralBound, .null)], k.holdsLong = true :=
    ⟨_, List.mem_cons_self, holdsLong_numeralBound⟩
  rw [normalizeKeys_eq_error.mpr ⟨long, rfl⟩] at made
  cases made

end Compile

end MachinePlan
