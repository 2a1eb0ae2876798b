import MachinePlan.Text.Half

/-!
# Texts without halves

No character is half of one, so the code points of a spelled text are its characters
(`codes_spellAll`).
-/

namespace MachinePlan.Text

theorem isHalf_toNat (c : Char) : isHalf c.toNat = false := by
  have valid : c.toNat < 0xd800 ∨ 0xdfff < c.toNat ∧ c.toNat < 0x110000 := c.valid
  rw [isHalf, Bool.and_eq_false_iff, decide_eq_false_iff_not, decide_eq_false_iff_not]
  omega

theorem codes_spell_append (c : Char) (cs : List Char) :
    codes (spell c.toNat ++ cs) = c.toNat :: codes cs := by
  rw [spell, isHalf_toNat, if_neg Bool.false_ne_true]
  split
  case isTrue mark =>
    rw [mark]
    rfl
  case isFalse other =>
    have apart : c ≠ halfMark := fun same => other (congrArg Char.toNat same)
    rw [Char.ofNat_toNat, List.singleton_append, codes, codes]
    cases cs with
    | nil => rfl
    | cons d rest =>
      rw [pieces, if_neg (by simp [apart])]
      rfl

/-- The mark is spelled twice, so that it is not taken for the front of a half. -/
theorem codes_spellAll (cs : List Char) : codes (spellAll cs) = cs.map Char.toNat := by
  induction cs with
  | nil => rfl
  | cons c cs ih =>
    rw [List.map_cons, ← ih]
    exact codes_spell_append c (spellAll cs)

end MachinePlan.Text
