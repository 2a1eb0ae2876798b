import MachinePlan.Proofs.Merge.PathLaw

/-!
# Merging three layers

Whether two layers are merged first or last makes no difference, except where the middle one holds
something other than a mapping between two mappings: laid over the first it hides that one from the
last, but the last alone hides it. Without such a place, both ways give one and the same value, with
the same order and spelling of keys (`merge_assoc_of_joined`).
-/

namespace MachinePlan

open Value

/-- At the end of a path, something that is no mapping stands between two mappings. -/
def Separated (first middle last : Value) : Prop :=
  ∃ path x y z, first.at? path = some x ∧ middle.at? path = some y ∧ last.at? path = some z ∧
    x.entries? ≠ none ∧ y.entries? = none ∧ z.entries? ≠ none

section
variable {a b c : Entries} {below : Option Value} {k : Value} {v w : Value} {vs ws : Entries}

theorem separated_of_lookup {x : Value} (first : lookup k a = some x) (middle : lookup k b = some v)
    (last : lookup k c = some w) (separated : Separated x v w) :
    Separated (.map a) (.map b) (.map c) := by
  obtain ⟨path, x', v', w', hx, hv, hw, kinds⟩ := separated
  refine ⟨k :: path, x', v', w', ?_, ?_, ?_, kinds⟩
  · rw [at?_map_cons, first]; exact hx
  · rw [at?_map_cons, middle]; exact hv
  · rw [at?_map_cons, last]; exact hw

theorem separated_of_entriesBelow (trees : ∀ x, below = some x → x.IsTree)
    (separated : Separated (.map (entriesBelow below)) (.map vs) (.map ws)) :
    ∃ x, below = some x ∧ Separated x (.map vs) (.map ws) := by
  obtain ⟨path, x, y, z, hx, hy, hz, kx, ky, kz⟩ := separated
  cases path with
  | nil =>
    obtain rfl := Option.some.inj hy
    cases ky
  | cons l path =>
    rw [at?_entriesBelow trees] at hx
    obtain ⟨x₀, here, hx⟩ := Option.bind_eq_some_iff.mp hx
    exact ⟨x₀, here, l :: path, x, y, z, hx, hy, hz, kx, ky, kz⟩

theorem separated_under_key {x : Value} (separated : Separated x (.map b) w) :
    ∃ k x₀ y z, x.at? [k] = some x₀ ∧ lookup k b = some y ∧ w.at? [k] = some z ∧ Separated x₀ y z := by
  obtain ⟨path, x, y, z, first, middle, last, kinds⟩ := separated
  cases path with
  | nil =>
    obtain rfl := Option.some.inj middle
    cases kinds.2.1
  | cons k path =>
    obtain ⟨x', here, first⟩ := at?_cons_eq_some.mp first
    obtain ⟨y', there, middle⟩ := at?_cons_eq_some.mp middle
    obtain ⟨z', beyond, last⟩ := at?_cons_eq_some.mp last
    rw [at?_map_cons, Option.bind_eq_some_iff] at there
    obtain ⟨_, there, ⟨⟩⟩ := there
    exact ⟨k, x', y', z', here, there, beyond, path, x, y, z, first, middle, last, kinds⟩

theorem mergeAt_map_of_plain (layer : Layer ws) (plain : v.entries? = none) :
    mergeAt (some v) (.map ws) = .map ws := by
  rw [mergeAt_map layer.keysSound]
  cases v with
  | map es => cases plain
  | _ => rw [entriesBelow, mergeEntries_nil_left layer.keysSound]; simp

theorem sizeOf_lt_of_lookup (found : lookup k c = some (.map ws)) : sizeOf ws < sizeOf c := by
  obtain ⟨l, member, _⟩ := mem_of_lookup found
  have entry := List.sizeOf_lt_of_mem member
  have inside : sizeOf ws < sizeOf (l, Value.map ws) := by
    simp
    omega
  omega

/-- At one place three values merge alike from either side, if mappings that the last one holds
there do. -/
theorem mergeAt_assoc (trees : ∀ x, below = some x → x.IsTree) (middle : v.IsTree) (last : w.IsTree)
    (joined : ∀ x, below = some x → ¬ Separated x v w)
    (deeper : ∀ us vs ws, w = .map ws → Layer us → Layer vs → Layer ws →
      ¬ Separated (.map us) (.map vs) (.map ws) →
      mergeEntries (mergeEntries us vs) ws = mergeEntries us (mergeEntries vs ws)) :
    mergeAt (some (mergeAt below v)) w = mergeAt below (mergeAt (some v) w) := by
  cases above : w.entries? with
  | none =>
    simp only [mergeAt_of_no_entries last.finite above]
  | some ws =>
    obtain rfl := eq_map_of_entries? last.finite above
    cases between : v.entries? with
    | none =>
      rw [mergeAt_of_no_entries middle.finite between, mergeAt_map_of_plain last between]
      cases below with
      | none => rw [mergeAt_none]
      | some x =>
        have plain : x.entries? = none := by
          by_contra kind
          exact joined x rfl ⟨[], x, v, .map ws, rfl, rfl, rfl, kind, between, by simp⟩
        rw [mergeAt_map_of_plain last plain]
    | some vs =>
      obtain rfl := eq_map_of_entries? middle.finite between
      have inner : Layer (mergeEntries vs ws) := mergeEntries_layer vs ws middle last
      have joined : ¬ Separated (.map (entriesBelow below)) (.map vs) (.map ws) := by
        intro separated
        obtain ⟨x, here, separated⟩ := separated_of_entriesBelow trees separated
        exact joined x here separated
      rw [mergeAt_map middle.keysSound, mergeAt_map last.keysSound, mergeAt_map last.keysSound,
        entriesBelow_map, entriesBelow_map, mergeAt_map inner.keysSound,
        deeper _ vs ws rfl (entriesBelow_layer trees) middle last joined]

/-- Both ways of merging three layers agree key by key; they go deeper only where the last layer
holds a mapping, so the induction is on its size. -/
theorem mergeEntries_assoc (a b c : Entries) (first : Layer a) (middle : Layer b) (last : Layer c)
    (joined : ¬ Separated (.map a) (.map b) (.map c)) :
    mergeEntries (mergeEntries a b) c = mergeEntries a (mergeEntries b c) := by
  have ab := mergeEntries_keysSound first.keysSound middle.keysSound
  have bc := mergeEntries_keysSound middle.keysSound last.keysSound
  refine ext_of_lookup (mergeEntries_keysSound ab last.keysSound) ?_ fun k _ => ?_
  · rw [keys_mergeEntries _ last.keysSound, keys_mergeEntries a bc,
      keys_mergeEntries a middle.keysSound,
      keys_mergeEntries b last.keysSound, List.filter_append, List.filter_filter,
      List.append_assoc]
    simp only [hasKey_mergeEntries first.keysSound middle.keysSound, Bool.not_or]
  · rw [lookup_mergeEntries ab last.keysSound, lookup_mergeEntries first.keysSound bc,
      lookup_mergeEntries middle.keysSound last.keysSound,
      lookup_mergeEntries first.keysSound middle.keysSound]
    cases above : lookup k c with
    | none => rfl
    | some w =>
      cases between : lookup k b with
      | none => simp only [mergeAt_none]
      | some v =>
        refine congrArg some (mergeAt_assoc (fun x found => first.lookup found)
          (middle.lookup between) (last.lookup above) ?_ ?_)
        · intro x found separated
          exact joined (separated_of_lookup found between above separated)
        -- Only where the last layer holds a mapping, which is smaller than the layer.
        · rintro us vs ws rfl below between above joined
          have smaller := sizeOf_lt_of_lookup ‹lookup k c = some (.map ws)›
          exact mergeEntries_assoc us vs ws below between above joined
termination_by sizeOf c

end

/-- Three layers of which the middle one separates no mappings merge alike from either side. -/
theorem merge_assoc_of_joined {a b c : Entries} (first : Layer a) (middle : Layer b) (last : Layer c)
    (joined : ¬ Separated (.map a) (.map b) (.map c)) :
    ∃ ab bc abc, merge (.map a) (.map b) = .ok ab ∧ merge ab (.map c) = .ok abc ∧
      merge (.map b) (.map c) = .ok bc ∧ merge (.map a) bc = .ok abc := by
  have ab : Layer (mergeEntries a b) := mergeEntries_layer a b first middle
  have bc : Layer (mergeEntries b c) := mergeEntries_layer b c middle last
  refine ⟨_, _, _, merge_of_finite first.finite middle.finite, merge_of_finite ab.finite last.finite,
    merge_of_finite middle.finite last.finite, ?_⟩
  rw [mergeEntries_assoc a b c first middle last joined]
  exact merge_of_finite first.finite bc.finite

theorem merge_assoc_of_joined_nested :
    ∃ ab bc abc,
      merge (.map [(.str "nodes", .map [(.str "web", .map [])]), (.str "boxes", .map [(.int 1, .null)])])
        (.map [(.str "nodes", .map [(.str "web", .null)])]) = .ok ab ∧
      merge ab (.map [(.str "boxes", .map [(.bool true, .int 2)]),
        (.str "nodes", .map [(.str "db", .map [])])]) = .ok abc ∧
      merge (.map [(.str "nodes", .map [(.str "web", .null)])])
        (.map [(.str "boxes", .map [(.bool true, .int 2)]),
          (.str "nodes", .map [(.str "db", .map [])])]) = .ok bc ∧
      merge (.map [(.str "nodes", .map [(.str "web", .map [])]),
        (.str "boxes", .map [(.int 1, .null)])]) bc = .ok abc := by
  refine merge_assoc_of_joined ⟨rfl, ?_⟩ ⟨rfl, ?_⟩ ⟨rfl, ?_⟩ ?_
  case refine_4 =>
    intro separated
    obtain ⟨k, x, y, z, first, middle, last, separated⟩ := separated_under_key separated
    cases k <;> simp [lookup, same, sameAtom] at middle
    obtain ⟨rfl, rfl⟩ := middle
    obtain rfl := Option.some.inj last
    obtain ⟨k, x, y, z, first, middle, last, separated⟩ := separated_under_key separated
    cases k <;> simp [lookup, same, sameAtom] at middle
    obtain ⟨rfl, rfl⟩ := middle
    cases last
  all_goals
    simp [IsSound, EntriesSound, keysSound_cons, IsKey, isHashable, same, sameAtom, KeysSound.nil,
      boolInt]

/-- A layer that gives nodes below the section of nodes a provider's property. -/
def resizing : Value :=
  .map [(.str "nodes", .map [(.str "nodes", .map []),
    (.str "providers", .map [(.str "virtualbox", .map [(.str "a", .int 3)])])])]

/-- Over a layer that contains itself, an empty mapping makes a copy of what is there so far: laid
over it before or after the property changes, it keeps one size or the other. -/
theorem merge_assoc_fails_of_selfNested :
    ¬ Separated selfNested (.map [(.str "nodes", providing 1)]) resizing ∧
    ¬ ∃ ab bc abc, merge selfNested (.map [(.str "nodes", providing 1)]) = .ok ab ∧
      merge ab resizing = .ok abc ∧
      merge (.map [(.str "nodes", providing 1)]) resizing = .ok bc ∧
      merge selfNested bc = .ok abc := by
  constructor
  · intro separated
    obtain ⟨k, x, y, z, first, middle, last, separated⟩ := separated_under_key separated
    cases k <;> simp [lookup, same, sameAtom] at middle
    obtain ⟨rfl, rfl⟩ := middle
    obtain rfl := Option.some.inj first
    obtain ⟨k, x, y, z, first, middle, last, separated⟩ := separated_under_key separated
    cases k <;> simp [lookup, same, sameAtom] at middle
    obtain ⟨rfl, rfl⟩ := middle
    cases first
  · rintro ⟨ab, bc, abc, first, left, second, right⟩
    obtain rfl := Except.ok.inj first
    obtain rfl := Except.ok.inj second
    obtain rfl := Except.ok.inj left
    have sizes := congrArg (Option.map (at? [.str "nodes", .str "nodes", .str "providers",
      .str "virtualbox", .str "a"])) (congrArg Except.toOption right)
    cases sizes

end MachinePlan
