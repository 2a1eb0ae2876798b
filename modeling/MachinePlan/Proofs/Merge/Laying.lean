import MachinePlan.Proofs.Entries

/-!
# Laying one row of entries over another

A merge goes through the entries of the upper layer and puts each, one after the other, into a row
that begins as that of the lower layer. `Laid` is the form of every such run, whatever becomes of
two values that meet. The row grows while the run looks into it; because the keys of the upper layer
are distinct, no entry is met twice, and every key finds in the end what met under it.
-/

namespace MachinePlan

open Value

/-- The entries of an upper layer are laid over those of a base; `meets below v here` says that
`here` is what becomes of a value over what is below it. -/
inductive Laid (meets : Option Value → Value → Value → Prop) : Entries → Entries → Entries → Prop
  | nil (base : Entries) : Laid meets base [] base
  | cons {base rest result : Entries} {key v here : Value} (met : meets (lookup key base) v here)
      (later : Laid meets (insert key here base) rest result) :
      Laid meets base ((key, v) :: rest) result

namespace Laid

variable {meets : Option Value → Value → Value → Prop} {base upper result : Entries} {q w : Value}

theorem lookup_of_absent (laid : Laid meets base upper result) (isKey : IsKey q)
    (absent : lookup q upper = none) : lookup q result = lookup q base := by
  induction laid with
  | nil => rfl
  | @cons base rest result key v here _ _ ih =>
    rw [lookup_cons] at absent
    split at absent
    · cases absent
    · rename_i other
      rw [ih absent, lookup_insert isKey, if_neg other]

theorem lookup_of_present (laid : Laid meets base upper result) (isKey : IsKey q)
    (distinct : (keys upper).Pairwise fun a b => same a b = false) (found : lookup q upper = some w) :
    ∃ here, meets (lookup q base) w here ∧ lookup q result = some here := by
  induction laid with
  | nil => cases found
  | @cons base rest result key v here met later ih =>
    obtain ⟨fresh, distinct⟩ := List.pairwise_cons.mp (keys_cons ▸ distinct)
    rw [lookup_cons] at found
    split at found
    · rename_i equal
      obtain rfl := Option.some.inj found
      have head := isKey.isKey_of_same equal
      -- The keys of the upper layer are distinct, so the rest of it does not meet this one again.
      have once : lookup q rest = none := by
        rw [← lookup_congr head equal, lookup_eq_none_iff]
        intro l member
        rw [Bool.eq_false_iff]
        intro again
        have twice := head.same_iff.mpr (head.same_right_iff.mp again).symm
        rw [fresh l member] at twice
        cases twice
      refine ⟨here, ?_, ?_⟩
      · rwa [← lookup_congr head equal]
      · rw [later.lookup_of_absent isKey once, lookup_insert isKey, if_pos equal]
    · rename_i other
      obtain ⟨there, meeting, last⟩ := ih distinct found
      rw [lookup_insert isKey, if_neg other] at meeting
      exact ⟨there, meeting, last⟩

theorem hasKey_insert (isKey : IsKey q) (key v : Value) (es : Entries) :
    hasKey q (insert key v es) = (same key q || hasKey q es) := by
  rw [hasKey, lookup_insert isKey, hasKey]
  cases same key q <;> rfl

theorem keys_eq (laid : Laid meets base upper result) (sound : KeysSound upper) :
    keys result = keys base ++ (keys upper).filter fun k => !hasKey k base := by
  induction laid with
  | nil => simp
  | @cons base rest result key v here _ _ ih =>
    obtain ⟨head, fresh, tail⟩ := keysSound_cons.mp sound
    have apart : ∀ k ∈ keys rest, hasKey k (insert key here base) = hasKey k base := by
      intro k member
      rw [hasKey_insert (tail.isKey k member), fresh k member, Bool.false_or]
    rw [ih tail, keys_insert, keys_cons, List.filter_congr fun k member => by rw [apart k member]]
    cases present : hasKey key base <;> simp [present]

theorem keysSound (laid : Laid meets base upper result) (sound : KeysSound base)
    (above : KeysSound upper) : KeysSound result := by
  induction laid with
  | nil => exact sound
  | cons _ _ ih =>
    obtain ⟨head, _, tail⟩ := keysSound_cons.mp above
    exact ih (sound.insert head _) tail

end Laid

end MachinePlan
