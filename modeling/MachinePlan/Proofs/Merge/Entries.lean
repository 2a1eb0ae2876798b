import MachinePlan.Proofs.Layer
import MachinePlan.Proofs.Merge.Laying

/-!
# One level of a merge

What the merge of two layers that have an end holds under each key (`lookup_mergeEntries`) and in
which order its keys stand (`keys_mergeEntries`).
-/

namespace MachinePlan

open Value

variable {base upper : Entries} {below : Option Value} {q : Value}

theorem mergeAt_none (v : Value) : mergeAt none v = v := by
  cases v <;> simp [mergeAt]

theorem mergeAt_of_no_entries {v : Value} (finite : v.isEndless = false) (plain : v.entries? = none) :
    mergeAt below v = v := by
  cases v with
  | map es => cases plain
  | _ => simp [mergeAt]

/-- The entries that a mapping laid over a place is merged with. -/
def entriesBelow : Option Value → Entries
  | some (.map lower) => lower
  | _ => []

theorem mergeEntries_cons (base rest : Entries) (key value : Value) :
    mergeEntries base ((key, value) :: rest) =
      mergeEntries (insert key (mergeAt (lookup key base) value) base) rest := by
  rw [mergeEntries]

@[simp] theorem entriesBelow_map (es : Entries) : entriesBelow (some (.map es)) = es := rfl

theorem laid_mergeEntries (base upper : Entries) :
    Laid (fun below v here => here = mergeAt below v) base upper (mergeEntries base upper) := by
  induction upper generalizing base with
  | nil => rw [mergeEntries]; exact .nil base
  | cons entry rest ih =>
    rw [mergeEntries_cons]
    exact .cons rfl (ih _)

theorem keys_mergeEntries (base : Entries) (above : KeysSound upper) :
    keys (mergeEntries base upper) =
      keys base ++ (keys upper).filter fun k => !hasKey k base :=
  (laid_mergeEntries base upper).keys_eq above

theorem mergeEntries_keysSound (sound : KeysSound base) (above : KeysSound upper) :
    KeysSound (mergeEntries base upper) :=
  (laid_mergeEntries base upper).keysSound sound above

/-- A merge holds under a key what the upper layer holds there, merged with what is below it. -/
theorem lookup_mergeEntries (sound : KeysSound base) (above : KeysSound upper) (q : Value) :
    lookup q (mergeEntries base upper) =
      match lookup q upper with
      | none => lookup q base
      | some w => some (mergeAt (lookup q base) w) := by
  by_cases isKey : IsKey q
  · cases found : lookup q upper with
    | none => exact (laid_mergeEntries base upper).lookup_of_absent isKey found
    | some w =>
      obtain ⟨_, rfl, last⟩ :=
        (laid_mergeEntries base upper).lookup_of_present isKey above.distinct found
      exact last
  · rw [lookup_of_not_isKey (mergeEntries_keysSound sound above) isKey,
      lookup_of_not_isKey above isKey, lookup_of_not_isKey sound isKey]

theorem hasKey_mergeEntries (sound : KeysSound base) (above : KeysSound upper) (q : Value) :
    hasKey q (mergeEntries base upper) = (hasKey q base || hasKey q upper) := by
  simp only [hasKey, lookup_mergeEntries sound above]
  cases lookup q upper <;> simp

theorem mergeEntries_nil_left (above : KeysSound upper) : mergeEntries [] upper = upper := by
  refine ext_of_lookup (mergeEntries_keysSound KeysSound.nil above) ?_ ?_
  · rw [keys_mergeEntries [] above]
    simp [hasKey, lookup]
  · intro k _
    rw [lookup_mergeEntries KeysSound.nil above]
    cases found : lookup k upper <;> simp [lookup, mergeAt_none]

/-- Over a row with the same keys a row comes out as it is, if each of its values does over the one
below. -/
theorem mergeEntries_of_sameKeys (sound : KeysSound base) (sameKeys : keys upper = keys base)
    (all : ∀ k v w, lookup k base = some v → lookup k upper = some w → mergeAt (some v) w = w) :
    mergeEntries base upper = upper := by
  have above : KeysSound upper :=
    ⟨by rw [sameKeys]; exact sound.isKey, by rw [sameKeys]; exact sound.distinct⟩
  refine ext_of_lookup (mergeEntries_keysSound sound above) ?_ fun k _ => ?_
  · have none : (keys upper).filter (fun k => !hasKey k base) = [] := by
      rw [List.filter_eq_nil_iff, sameKeys]
      intro k member
      have there : hasKey k base = true := hasKey_iff.mpr ⟨k, member, (sound.isKey k member).2⟩
      simp [there]
    rw [keys_mergeEntries base above, none, List.append_nil, sameKeys]
  · have absent : lookup k upper = none ↔ lookup k base = none := by
      rw [lookup_eq_none_iff, lookup_eq_none_iff, sameKeys]
    rw [lookup_mergeEntries sound above]
    cases found : lookup k upper with
    | none => exact absent.mp found
    | some w =>
      cases below : lookup k base with
      | none => cases found.symm.trans (absent.mpr below)
      | some v => exact congrArg some (all k v w below found)

/-- A mapping laid over a place is merged with the mapping there, or with nothing. -/
theorem mergeAt_map (above : KeysSound upper) :
    mergeAt below (.map upper) = .map (mergeEntries (entriesBelow below) upper) := by
  cases below with
  | none => simp [mergeAt, entriesBelow, mergeEntries_nil_left above]
  | some v =>
    cases v with
    | map lower => simp [mergeAt, entriesBelow]
    | _ => simp [mergeAt, entriesBelow, mergeEntries_nil_left above]

/-! ### Merges of trees -/

mutual

theorem mergeAt_isTree (below : Option Value) (v : Value) (lower : ∀ w, below = some w → w.IsTree)
    (tree : v.IsTree) : (mergeAt below v).IsTree := by
  cases v with
  | map upper =>
    cases below with
    | none => rwa [mergeAt_none]
    | some w =>
      cases w with
      | map es =>
        rw [mergeAt]
        exact mergeEntries_layer es upper (lower _ rfl) tree
      | _ => simpa only [mergeAt] using tree
  | _ => simpa only [mergeAt] using tree
termination_by structural v

theorem mergeEntries_layer (base upper : Entries) (lower : Layer base) (layer : Layer upper) :
    Layer (mergeEntries base upper) := by
  cases upper with
  | nil => simpa only [mergeEntries] using lower
  | cons entry rest =>
    obtain ⟨key, value⟩ := entry
    obtain ⟨isKey, tree, above⟩ := layer.of_cons
    have here := mergeAt_isTree (lookup key base) value (fun w found => lower.lookup found) tree
    rw [mergeEntries_cons]
    exact mergeEntries_layer _ rest (lower.insert isKey here) above
termination_by structural upper

end

theorem orElse_map_nil (es : Entries) : (Value.map es).orElse (.map []) = .map es := by
  cases es <;> rfl

/-- Layers that have an end merge without failure, and the merge is `mergeEntries`. -/
theorem merge_of_finite (lower : (Value.map base).isEndless = false)
    (above : (Value.map upper).isEndless = false) :
    merge (.map base) (.map upper) = .ok (.map (mergeEntries base upper)) := by
  unfold merge
  rw [orElse_map_nil]
  cases upper with
  | nil => rfl
  | cons entry rest =>
    have ended : ((Value.map base).isEndless || (Value.map (entry :: rest)).isEndless) = false := by
      rw [lower, above]
      rfl
    simp only [ended]
    rfl

end MachinePlan
