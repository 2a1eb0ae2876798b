import MachinePlan.Proofs.Merge.Assoc

/-!
# Layers that are laid over twice

A layer that is laid over itself changes nothing (`mergeEntries_self`). Since three layers merge
alike from either side, a layer that a merge was made of changes nothing either when it is laid over
the merge once more, or the merge over it (`merge_absorbs`).
-/

namespace MachinePlan

open Value

variable {base upper : Entries}

/-! ### A layer over itself -/

theorem mergeEntries_of_values {es : Entries} (sound : KeysSound es)
    (values : ∀ e ∈ es, mergeAt (some e.2) e.2 = e.2) : mergeEntries es es = es := by
  refine mergeEntries_of_sameKeys sound rfl fun k v w below found => ?_
  obtain rfl := Option.some.inj (below.symm.trans found)
  obtain ⟨l, member, -⟩ := mem_of_lookup below
  exact values (l, v) member

mutual

theorem mergeAt_self (v : Value) (tree : v.IsTree) : mergeAt (some v) v = v := by
  cases v with
  | map es => rw [mergeAt, mergeEntries_of_values tree.keysSound (mergeAt_self_of_mem es tree)]
  | _ => rfl
termination_by structural v

theorem mergeAt_self_of_mem (es : Entries) (layer : Layer es) :
    ∀ e ∈ es, mergeAt (some e.2) e.2 = e.2 := by
  cases es with
  | nil => exact List.forall_mem_nil _
  | cons entry es =>
    obtain ⟨k, v⟩ := entry
    obtain ⟨-, tree, rest⟩ := layer.of_cons
    exact List.forall_mem_cons.mpr ⟨mergeAt_self v tree, mergeAt_self_of_mem es rest⟩
termination_by structural es

end

theorem mergeEntries_self (layer : Layer base) : mergeEntries base base = base :=
  mergeEntries_of_values layer.keysSound (mergeAt_self_of_mem base layer)

/-! ### A layer and a merge that holds it -/

/-- What stands in the middle is the last layer itself, so nothing is hidden from it. -/
theorem not_separated_right (v w : Value) : ¬ Separated v w w := by
  rintro ⟨path, x, y, z, -, middle, last, -, plain, kind⟩
  obtain rfl := Option.some.inj (middle.symm.trans last)
  exact kind plain

theorem not_separated_left (v w : Value) : ¬ Separated v v w := by
  rintro ⟨path, x, y, z, first, middle, -, kind, plain, -⟩
  obtain rfl := Option.some.inj (first.symm.trans middle)
  exact kind plain

theorem mergeEntries_upper_again (lower : Layer base) (layer : Layer upper) :
    mergeEntries (mergeEntries base upper) upper = mergeEntries base upper := by
  rw [mergeEntries_assoc base upper upper lower layer layer (not_separated_right _ _),
    mergeEntries_self layer]

theorem mergeEntries_lower_again (lower : Layer base) (layer : Layer upper) :
    mergeEntries base (mergeEntries base upper) = mergeEntries base upper := by
  rw [← mergeEntries_assoc base base upper lower lower layer (not_separated_left _ _),
    mergeEntries_self lower]

/-- Laying a layer over something that holds it already changes nothing. -/
structure Absorbs (base upper : Value) : Prop where
  itself : merge base base = .ok base
  merged : ∃ whole, merge base upper = .ok whole ∧ merge whole upper = .ok whole ∧
    merge base whole = .ok whole

/-- Two layers without containers that hold themselves absorb what is laid over them again: the
merged value is the same, with its keys in the same order and the same spelling at every level. -/
theorem merge_absorbs (lower : Layer base) (layer : Layer upper) :
    Absorbs (.map base) (.map upper) := by
  have merged : Layer (mergeEntries base upper) := mergeEntries_layer base upper lower layer
  constructor
  case itself => rw [merge_of_finite lower.finite lower.finite, mergeEntries_self lower]
  case merged =>
    refine ⟨_, merge_of_finite lower.finite layer.finite, ?_, ?_⟩
    · rw [merge_of_finite merged.finite layer.finite, mergeEntries_upper_again lower layer]
    · rw [merge_of_finite lower.finite merged.finite, mergeEntries_lower_again lower layer]

theorem merge_absorbs_nested :
    Absorbs
      (.map [(.str "a", .map [(.int 1, .null), (.str "b", .list [])]), (.str "c", .int 3)])
      (.map [(.str "d", .null), (.str "c", .map [(.str "x", .date ⟨2024, 2, 29⟩)]),
        (.str "a", .map [(.bool true, .str "x"), (.str "b", .map [])])]) ∧
    ∃ whole,
      merge (.map [(.str "a", .map [(.int 1, .null), (.str "b", .list [])]), (.str "c", .int 3)])
        (.map [(.str "d", .null), (.str "c", .map [(.str "x", .date ⟨2024, 2, 29⟩)]),
          (.str "a", .map [(.bool true, .str "x"), (.str "b", .map [])])]) = .ok (.map whole) ∧
      keys whole = [.str "a", .str "c", .str "d"] := by
  refine ⟨merge_absorbs ⟨rfl, ?_⟩ ⟨rfl, ?_⟩, _, rfl, rfl⟩ <;>
    simp [IsSound, EntriesSound, keysSound_cons, IsKey, isHashable, same, sameAtom, KeysSound.nil,
      boolInt]

/-- A layer that contains itself cannot be laid over itself: the merge goes down without end. -/
theorem merge_absorbs_fails_of_selfNested : ¬ Absorbs selfNested (.map []) := by
  intro absorbs
  have endless : (merge selfNested selfNested).isOk = false := by decide +kernel
  rw [absorbs.itself] at endless
  cases endless

end MachinePlan
