import MachinePlan.Proofs.KeyEquality

/-!
# Laws of ordered mappings

What `lookup` and `insert` do to a row of entries whose keys are sound: every key equal to itself
and to no other. Such a row is determined by its keys in order and by what is found under them
(`ext_of_lookup`), which is how equalities of merged mappings are proved.
-/

namespace MachinePlan.Value

def keys (es : Entries) : List Value := es.map Prod.fst

/-- Every key can be found again, and no two are the same key. -/
structure KeysSound (es : Entries) : Prop where
  isKey : ∀ k ∈ keys es, IsKey k
  distinct : (keys es).Pairwise fun a b => same a b = false

section
variable {k key q : Value} {v w : Value} {es fs rest : Entries}

@[simp] theorem keys_nil : keys [] = [] := rfl

@[simp] theorem keys_cons : keys ((k, v) :: es) = k :: keys es := rfl

theorem KeysSound.nil : KeysSound [] := ⟨by simp, by simp⟩

theorem keysSound_cons :
    KeysSound ((k, v) :: es) ↔ IsKey k ∧ (∀ l ∈ keys es, same k l = false) ∧ KeysSound es := by
  constructor
  · rintro ⟨isKey, distinct⟩
    rw [keys_cons, List.pairwise_cons] at distinct
    exact ⟨isKey k (by simp), distinct.1, fun l member => isKey l (by simp [member]), distinct.2⟩
  · rintro ⟨head, fresh, isKey, distinct⟩
    refine ⟨?_, ?_⟩
    · intro l member
      rcases List.mem_cons.mp member with rfl | member
      · exact head
      · exact isKey l member
    · rw [keys_cons, List.pairwise_cons]
      exact ⟨fresh, distinct⟩

/-! ### Looking up -/

theorem lookup_cons (q k v : Value) (es : Entries) :
    lookup q ((k, v) :: es) = if same k q then some v else lookup q es := rfl

theorem lookup_eq_none_iff : lookup q es = none ↔ ∀ k ∈ keys es, same k q = false := by
  induction es with
  | nil => simp [lookup]
  | cons entry es ih =>
    obtain ⟨k, v⟩ := entry
    rw [lookup_cons]
    cases h : same k q <;> simp [h, ih]

theorem mem_of_lookup (found : lookup q es = some v) : ∃ k, (k, v) ∈ es ∧ same k q = true := by
  induction es with
  | nil => simp [lookup] at found
  | cons entry es ih =>
    obtain ⟨k, w⟩ := entry
    rw [lookup_cons] at found
    split at found
    · rename_i equal
      obtain rfl := Option.some.inj found
      exact ⟨k, by simp, equal⟩
    · obtain ⟨l, member, equal⟩ := ih found
      exact ⟨l, List.mem_cons_of_mem _ member, equal⟩

theorem lookup_of_mem (sound : KeysSound es) (member : (k, v) ∈ es) : lookup k es = some v := by
  induction es with
  | nil => simp at member
  | cons entry es ih =>
    obtain ⟨l, w⟩ := entry
    obtain ⟨head, fresh, tail⟩ := keysSound_cons.mp sound
    rw [lookup_cons]
    rcases List.mem_cons.mp member with equal | member
    · obtain ⟨rfl, rfl⟩ := Prod.mk.inj equal
      rw [if_pos head.2]
    · have other := fresh k (List.mem_map_of_mem (f := Prod.fst) member)
      rw [other, if_neg (by simp), ih tail member]

theorem lookup_congr (isKey : IsKey q) (equal : same q k = true) : lookup q es = lookup k es := by
  induction es with
  | nil => rfl
  | cons entry es ih =>
    obtain ⟨l, w⟩ := entry
    have turned : same l q = same l k := by
      rw [Bool.eq_iff_iff, isKey.same_right_iff, (isKey.of_same equal).same_right_iff,
        isKey.same_iff.mp equal]
    rw [lookup_cons, lookup_cons, turned, ih]

theorem lookup_of_not_isKey (sound : KeysSound es) (odd : ¬ IsKey q) : lookup q es = none := by
  rw [lookup_eq_none_iff]
  intro k member
  rw [Bool.eq_false_iff]
  exact fun equal => odd ((sound.isKey k member).of_same equal)

theorem hasKey_iff : hasKey q es = true ↔ ∃ k ∈ keys es, same k q = true := by
  rw [hasKey, Option.isSome_iff_ne_none, ne_eq, lookup_eq_none_iff]
  simp

/-- Sound rows of entries with the same keys in the same order and the same values under them are
one row. -/
theorem ext_of_lookup (sound : KeysSound es) (keysEqual : keys es = keys fs)
    (found : ∀ k ∈ keys es, lookup k es = lookup k fs) : es = fs := by
  induction es generalizing fs with
  | nil => cases fs with
    | nil => rfl
    | cons entry fs => simp [keys] at keysEqual
  | cons entry es ih =>
    obtain ⟨k, v⟩ := entry
    cases fs with
    | nil => simp [keys] at keysEqual
    | cons other fs =>
      obtain ⟨l, w⟩ := other
      obtain ⟨rfl, keysRest⟩ := List.cons.inj (keysEqual : k :: keys es = l :: keys fs)
      obtain ⟨head, fresh, tail⟩ := keysSound_cons.mp sound
      have value : v = w := by
        simpa [lookup_cons, head.2] using found k (by simp)
      have rest : es = fs := by
        refine ih tail keysRest fun l member => ?_
        have below := found l (by simp [member])
        rwa [lookup_cons, lookup_cons, fresh l member, if_neg (by simp), if_neg (by simp)] at below
      rw [value, rest]

/-! ### Inserting -/

theorem keys_insert (key v : Value) (es : Entries) :
    keys (insert key v es) = if hasKey key es then keys es else keys es ++ [key] := by
  induction es with
  | nil => simp [insert, hasKey, lookup]
  | cons entry es ih =>
    obtain ⟨k, w⟩ := entry
    cases equal : same k key with
    | true => simp [insert, hasKey, lookup, equal]
    | false =>
      have same : hasKey key ((k, w) :: es) = hasKey key es := by simp [hasKey, lookup, equal]
      simp only [insert, equal, Bool.false_eq_true, if_false, keys_cons, ih, same]
      split <;> simp

/-- A key finds what was inserted last under it, and otherwise what was there before. -/
theorem lookup_insert (isKey : IsKey q) (key v : Value) (es : Entries) :
    lookup q (insert key v es) = if same key q then some v else lookup q es := by
  induction es with
  | nil => rfl
  | cons entry es ih =>
    obtain ⟨k, w⟩ := entry
    cases equal : same k key with
    | true =>
      have turned : same key q = same k q := by
        rw [Bool.eq_iff_iff]
        constructor
        · intro found
          have key := isKey.isKey_of_same found
          rw [isKey.same_right_iff, key.same_right_iff.mp equal, key.same_iff.mp found]
        · intro found
          have head := isKey.isKey_of_same found
          rw [isKey.same_right_iff, ← head.same_iff.mp equal, head.same_iff.mp found]
      simp only [insert, equal, if_true, lookup_cons, turned]
      split <;> rfl
    | false =>
      simp only [insert, equal, Bool.false_eq_true, if_false, lookup_cons, ih]
      cases first : same k q with
      | false => simp
      | true =>
        have apart : same key q = false := by
          rw [Bool.eq_false_iff]
          intro second
          have head := isKey.isKey_of_same first
          rw [head.same_iff.mpr ((head.same_iff.mp first).trans
            (isKey.same_right_iff.mp second).symm)] at equal
          cases equal
        simp [apart]

theorem KeysSound.insert (sound : KeysSound es) (fresh : IsKey key) (v : Value) :
    KeysSound (insert key v es) := by
  have equal := keys_insert key v es
  cases present : hasKey key es with
  | true =>
    rw [present, if_pos rfl] at equal
    exact ⟨by rw [equal]; exact sound.isKey, by rw [equal]; exact sound.distinct⟩
  | false =>
    rw [present, if_neg (by simp)] at equal
    refine ⟨?_, ?_⟩
    · intro k member
      rw [equal, List.mem_append, List.mem_singleton] at member
      rcases member with member | rfl
      · exact sound.isKey k member
      · exact fresh
    · rw [equal, List.pairwise_append]
      refine ⟨sound.distinct, List.pairwise_singleton _ _, ?_⟩
      intro k member l single
      obtain rfl := List.mem_singleton.mp single
      rw [Bool.eq_false_iff]
      intro same
      rw [hasKey_iff.mpr ⟨k, member, same⟩] at present
      cases present

theorem insert_of_fresh (fresh : lookup key es = none) (v : Value) :
    insert key v es = es ++ [(key, v)] := by
  induction es with
  | nil => rfl
  | cons entry es ih =>
    obtain ⟨k, w⟩ := entry
    rw [lookup_eq_none_iff, keys_cons, List.forall_mem_cons] at fresh
    rw [insert, fresh.1, if_neg Bool.false_ne_true, ih (lookup_eq_none_iff.mpr fresh.2)]
    rfl

/-- Pairs without a key in common are the entries that they make. -/
theorem ofPairs_of_sound (sound : KeysSound es) : ofPairs es = es := by
  have whole : ∀ fs seen : Entries, KeysSound (seen ++ fs) →
      fs.foldl (fun es e => insert e.1 e.2 es) seen = seen ++ fs := by
    intro fs
    induction fs with
    | nil => exact fun seen _ => (List.append_nil seen).symm
    | cons entry fs ih =>
      obtain ⟨k, v⟩ := entry
      intro seen sound
      have fresh : lookup k seen = none := by
        rw [lookup_eq_none_iff]
        intro l member
        have apart := sound.distinct
        rw [keys, List.map_append, List.pairwise_append] at apart
        exact apart.2.2 l member k List.mem_cons_self
      rw [List.append_cons] at sound ⊢
      rw [List.foldl_cons, insert_of_fresh fresh, ih _ sound]
  exact whole es [] sound

theorem keysSound_of_nodup (names : ∀ k ∈ keys es, ∃ name, k = .str name) (nodup : (keys es).Nodup) :
    KeysSound es := by
  refine ⟨fun k member => ?_, nodup.imp_of_mem fun {a b} here there apart => ?_⟩
  · obtain ⟨name, rfl⟩ := names k member
    exact isKey_str name
  · obtain ⟨name, rfl⟩ := names a here
    obtain ⟨other, rfl⟩ := names b there
    rw [Bool.eq_false_iff]
    exact fun equal => apart (congrArg Value.str (eq_of_beq equal))

end

end MachinePlan.Value
