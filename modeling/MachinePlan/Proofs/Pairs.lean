/-!
# Pairs under names

What is found under a name in a row of pairs: the first pair with that name, and where the names are
distinct, each pair (`lookup_pair_of_mem`).
-/

namespace MachinePlan

variable {β : Type} {name : String} {b : β} {pairs : List (String × β)}

theorem lookup_pair (name other : String) (b : β) (rest : List (String × β)) :
    List.lookup other ((name, b) :: rest) = if other = name then some b else rest.lookup other := by
  rw [List.lookup_cons]
  by_cases same : other = name
  · rw [if_pos same, beq_iff_eq.mpr same]
  · rw [if_neg same, beq_eq_false_iff_ne.mpr same]

theorem mem_of_lookup_pair (found : pairs.lookup name = some b) : (name, b) ∈ pairs := by
  obtain ⟨before, after, rfl, -⟩ := List.lookup_eq_some_iff.mp found
  exact List.mem_append_right before List.mem_cons_self

theorem lookup_pair_of_mem (distinct : (pairs.map Prod.fst).Nodup) (member : (name, b) ∈ pairs) :
    pairs.lookup name = some b := by
  induction pairs with
  | nil => cases member
  | cons pair rest ih =>
    obtain ⟨first, old⟩ := pair
    obtain ⟨fresh, distinct⟩ := List.nodup_cons.mp distinct
    rw [lookup_pair]
    rcases List.mem_cons.mp member with here | later
    · cases here
      rw [if_pos rfl]
    · have elsewhere : name ≠ first := fun same =>
        fresh (List.mem_map.mpr ⟨(name, b), later, same⟩)
      rw [if_neg elsewhere, ih distinct later]

theorem lookup_eq_none_of_notMem (absent : name ∉ pairs.map Prod.fst) :
    pairs.lookup name = none := by
  rw [List.lookup_eq_none_iff]
  intro pair member
  rw [bne_iff_ne]
  rintro rfl
  exact absent (List.mem_map_of_mem member)

end MachinePlan
