import MachinePlan.Proofs.Merge.Entries

/-!
# What a merge holds at a path

The merge works one level at a time; here is what it holds at the end of a path of any length. A
path is blocked where the upper layer holds something other than a mapping above its end. At the end
of a blocked path the merge holds nothing, and at the end of any other what the upper layer holds
there is merged with what the base holds there (`at?_mergeEntries`).
-/

namespace MachinePlan

open Value

/-- Above the end of the path the value holds something that is no mapping. -/
def Blocked (v : Value) (path : List Value) : Prop :=
  ∃ above below w, path = above ++ below ∧ below ≠ [] ∧ v.at? above = some w ∧ w.entries? = none

variable {base upper : Entries} {k : Value} {v w : Value} {path : List Value}

theorem Blocked.ne_nil (blocked : Blocked v path) : path ≠ [] := by
  obtain ⟨above, below, _, rfl, deeper, _⟩ := blocked
  simp [deeper]

theorem blocked_of_plain (plain : v.entries? = none) (deeper : path ≠ []) : Blocked v path :=
  ⟨[], path, v, rfl, deeper, rfl, plain⟩

theorem blocked_map_cons :
    Blocked (.map upper) (k :: path) ↔ ∃ w, lookup k upper = some w ∧ Blocked w path := by
  constructor
  · rintro ⟨above, below, x, split, deeper, found, plain⟩
    cases above with
    | nil =>
      obtain rfl := Option.some.inj found
      cases plain
    | cons l above =>
      obtain ⟨rfl, rest⟩ := List.cons.inj split
      rw [at?_map_cons] at found
      obtain ⟨w, inside, found⟩ := Option.bind_eq_some_iff.mp found
      exact ⟨w, inside, above, below, x, rest, deeper, found, plain⟩
  · rintro ⟨w, inside, above, below, x, rfl, deeper, found, plain⟩
    exact ⟨k :: above, below, x, rfl, deeper, by rw [at?_map_cons, inside]; exact found, plain⟩

theorem at?_mergeEntries_cons (lower : Layer base) (layer : Layer upper) (k : Value)
    (path : List Value) :
    (Value.map (mergeEntries base upper)).at? (k :: path) =
      match lookup k upper with
      | none => (Value.map base).at? (k :: path)
      | some w => (mergeAt (lookup k base) w).at? path := by
  rw [at?_map_cons, lookup_mergeEntries lower.keysSound layer.keysSound]
  cases lookup k upper <;> rfl

theorem entriesBelow_layer {below : Option Value} (trees : ∀ w, below = some w → w.IsTree) :
    Layer (entriesBelow below) := by
  cases below with
  | none => exact IsTree.nil
  | some w =>
    cases w with
    | map es => exact trees _ rfl
    | _ => exact IsTree.nil

theorem at?_entriesBelow {below : Option Value} (trees : ∀ w, below = some w → w.IsTree) :
    (Value.map (entriesBelow below)).at? (k :: path) = below.bind (at? (k :: path)) := by
  cases below with
  | none => rfl
  | some w =>
    cases w with
    | ring o contents => cases (trees _ rfl).finite
    | _ => rfl

theorem at?_mergeEntries_of_blocked (lower : Layer base) (layer : Layer upper)
    (blocked : Blocked (.map upper) path) :
    (Value.map (mergeEntries base upper)).at? path = none := by
  induction path generalizing base upper with
  | nil => exact absurd rfl blocked.ne_nil
  | cons k path ih =>
    obtain ⟨w, inside, blocked⟩ := blocked_map_cons.mp blocked
    have tree := layer.lookup inside
    rw [at?_mergeEntries_cons lower layer, inside]
    show (mergeAt (lookup k base) w).at? path = none
    cases read : w.entries? with
    | none =>
      rw [mergeAt_of_no_entries tree.finite read]
      cases path with
      | nil => exact absurd rfl blocked.ne_nil
      | cons l path => exact at?_cons_of_no_entries read
    | some us =>
      obtain rfl := eq_map_of_entries? tree.finite read
      rw [mergeAt_map tree.keysSound]
      exact ih (entriesBelow_layer fun x found => lower.lookup found) tree blocked

/-- At the end of an open path the upper layer is laid over the base. -/
theorem at?_mergeEntries (lower : Layer base) (layer : Layer upper)
    (opened : ¬ Blocked (.map upper) path) :
    (Value.map (mergeEntries base upper)).at? path =
      match (Value.map upper).at? path with
      | none => (Value.map base).at? path
      | some w => some (mergeAt ((Value.map base).at? path) w) := by
  induction path generalizing base upper with
  | nil => simp [mergeAt]
  | cons k path ih =>
    rw [at?_mergeEntries_cons lower layer, at?_map_cons k path upper]
    cases inside : lookup k upper with
    | none => rfl
    | some w =>
      have tree := layer.lookup inside
      have opened : ¬ Blocked w path := fun blocked =>
        opened (blocked_map_cons.mpr ⟨w, inside, blocked⟩)
      cases path with
      | nil =>
        rw [at?_map_cons]
        cases lookup k base <;> rfl
      | cons l path =>
        cases read : w.entries? with
        | none => exact absurd (blocked_of_plain read (by simp)) opened
        | some us =>
          obtain rfl := eq_map_of_entries? tree.finite read
          have trees : ∀ x, lookup k base = some x → x.IsTree := fun x found => lower.lookup found
          show (mergeAt (lookup k base) (.map us)).at? (l :: path) = _
          rw [mergeAt_map tree.keysSound, ih (entriesBelow_layer trees) tree opened,
            at?_entriesBelow trees, at?_map_cons k]
          rfl

/-- What the merge of two layers holds at the end of a path. -/
structure PathLaw (base upper merged : Value) (path : List Value) : Prop where
  /-- Below a value that is no mapping there is nothing. -/
  cut : Blocked upper path → merged.at? path = none
  /-- A value that is no mapping is taken over as it is. -/
  replaced : ∀ v, upper.at? path = some v → v.entries? = none → merged.at? path = some v
  /-- A mapping is merged with the mapping that the base holds there, or with an empty one. -/
  laid : ∀ us, upper.at? path = some (.map us) →
    ∃ ms, merged.at? path = some (.map ms) ∧
      merge (.map (entriesBelow (base.at? path))) (.map us) = .ok (.map ms)
  /-- Where a key is missing in the upper layer, the base is seen through it. -/
  kept : ¬ Blocked upper path → upper.at? path = none → merged.at? path = base.at? path
  /-- Where both hold mappings, the keys of the base stand first and those of the upper layer alone
  follow, in the order and the spelling of their layers and each once. -/
  ordered : ∀ bs us, base.at? path = some (.map bs) → upper.at? path = some (.map us) →
    ∃ ms, merged.at? path = some (.map ms) ∧
      keys ms = keys bs ++ (keys us).filter (fun k => !hasKey k bs) ∧
      (keys ms).Pairwise fun a b => same a b = false

theorem not_blocked_of_at? (found : v.at? path = some w) : ¬ Blocked v path := by
  rintro ⟨above, below, x, rfl, deeper, short, plain⟩
  induction above generalizing v with
  | nil =>
    obtain rfl := Option.some.inj short
    cases below with
    | nil => exact deeper rfl
    | cons l below =>
      rw [List.nil_append, at?_cons_of_no_entries plain] at found
      cases found
  | cons k above ih =>
    rw [List.cons_append, at?] at found
    rw [at?] at short
    obtain ⟨y, inside, found⟩ := Option.bind_eq_some_iff.mp found
    rw [inside] at short
    exact ih found short

/-- The merge of two layers holds at every path what the layers say. -/
theorem merge_path_law (lower : Layer base) (layer : Layer upper) :
    ∃ merged, merge (.map base) (.map upper) = .ok merged ∧
      ∀ path, PathLaw (.map base) (.map upper) merged path := by
  refine ⟨_, merge_of_finite lower.finite layer.finite, fun path => ?_⟩
  have laidOver : ∀ w, (Value.map upper).at? path = some w →
      (Value.map (mergeEntries base upper)).at? path =
        some (mergeAt ((Value.map base).at? path) w) := by
    intro w found
    rw [at?_mergeEntries lower layer (not_blocked_of_at? found), found]
  constructor
  case cut => exact at?_mergeEntries_of_blocked lower layer
  case replaced =>
    intro v found plain
    rw [laidOver v found, mergeAt_of_no_entries (layer.at? found).finite plain]
  case laid =>
    intro us found
    have tree : Layer us := layer.at? found
    have trees : Layer (entriesBelow ((Value.map base).at? path)) :=
      entriesBelow_layer fun w inside => lower.at? inside
    refine ⟨_, ?_, merge_of_finite trees.finite tree.finite⟩
    rw [laidOver _ found, mergeAt_map tree.keysSound]
  case kept =>
    intro opened missing
    rw [at?_mergeEntries lower layer opened, missing]
  case ordered =>
    intro bs us below found
    have tree : Layer us := layer.at? found
    have inside : Layer bs := lower.at? below
    refine ⟨mergeEntries bs us, ?_, keys_mergeEntries bs tree.keysSound,
      (mergeEntries_keysSound inside.keysSound tree.keysSound).distinct⟩
    rw [laidOver _ found, below, mergeAt_map tree.keysSound]
    rfl

theorem merge_path_law_nested : ∃ merged,
    merge
      (.map [(.str "a", .map [(.int 1, .null), (.str "b", .list [])]), (.str "c", .int 3)])
      (.map [(.str "d", .null), (.str "a", .map [(.bool true, .str "x"), (.str "b", .map [])])]) =
        .ok merged ∧
    ∀ path, PathLaw
      (.map [(.str "a", .map [(.int 1, .null), (.str "b", .list [])]), (.str "c", .int 3)])
      (.map [(.str "d", .null), (.str "a", .map [(.bool true, .str "x"), (.str "b", .map [])])])
      merged path := by
  refine merge_path_law ⟨rfl, ?_⟩ ⟨rfl, ?_⟩ <;>
    simp [IsSound, EntriesSound, keysSound_cons, IsKey, isHashable, same, sameAtom, KeysSound.nil,
      boolInt]

/-- A document whose section of nodes is the document again. -/
def selfNested : Value := .ring ⟨0, 1, 0⟩ (.map [(.str "nodes", .again ⟨0, 1, 0⟩ .map)])

/-- The part of a node that gives a provider a property. -/
def providing (size : Int) : Value :=
  .map [(.str "providers", .map [(.str "virtualbox", .map [(.str "a", .int size)])])]

/-- A base that contains itself is copied as a whole. What is laid over the copy at one path is
then seen at all the paths that come back to it. -/
theorem merge_path_law_fails_of_selfNested :
    ¬ ∃ merged, merge selfNested (.map [(.str "nodes", providing 1)]) = .ok merged ∧
      ∀ path, PathLaw selfNested (.map [(.str "nodes", providing 1)]) merged path := by
  rintro ⟨merged, ran, law⟩
  obtain rfl := Except.ok.inj ran
  have opened : ¬ Blocked (.map [(.str "nodes", providing 1)])
      [.str "nodes", .str "nodes", .str "providers"] := by
    simp [providing, blocked_map_cons, lookup, same, sameAtom]
  have seen := (law [.str "nodes", .str "nodes", .str "providers"]).kept opened rfl
  cases seen

end MachinePlan
