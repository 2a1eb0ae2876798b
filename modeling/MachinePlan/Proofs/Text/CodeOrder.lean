import MachinePlan.Proofs.Text.Half
import Mathlib.Data.Prod.Lex
import Mathlib.Data.String.Basic

/-!
# The order of texts

Any two texts are in one order (`precedes_trans`, `precedes_of_not_precedes`).
Where they spell rows of code points, halves of characters among them, it is the order of these
rows (`precedes_ofCodes`).
-/

namespace MachinePlan.Text

variable {s t u : String} {n : Nat} {ms ns : List Nat}

/-- The numbers of characters and of halves. -/
def IsCode (n : Nat) : Prop := n < 0x110000

/-- The text that spells a row of code points. -/
def ofCodes (ns : List Nat) : String := String.ofList (ns.flatMap spell)

/-! ### Code points of spelled texts -/

theorem toNat_ofNat (valid : n.isValidChar) : (Char.ofNat n).toNat = n := by
  rw [Char.ofNat, dif_pos valid]
  rfl

theorem codes_half (half : isHalf n = true) (cs : List Char) :
    codes (spell n ++ cs) = n :: codes cs := by
  have range : 0xd800 ≤ n ∧ n < 0xe000 := by simpa [isHalf] using half
  have shifted : (Char.ofNat (n + halfShift)).toNat = n + halfShift :=
    toNat_ofNat (.inr ⟨by rw [halfShift]; omega, by rw [halfShift]; omega⟩)
  have other : Char.ofNat (n + halfShift) ≠ halfMark := by
    intro same
    have number := congrArg Char.toNat same
    rw [shifted, show halfMark.toNat = 0x10ffff from rfl, halfShift] at number
    omega
  have completes : completesMark (Char.ofNat (n + halfShift)) = true := by
    rw [completesMark, shifted, Nat.add_sub_cancel, half, Bool.or_true]
  rw [spell, if_pos half, List.cons_append, List.singleton_append, codes, pieces,
    if_pos (by rw [completes]; rfl), List.map_cons, pieceCode, if_neg other, shifted,
    Nat.add_sub_cancel]
  rfl

theorem codes_spell (code : IsCode n) (cs : List Char) : codes (spell n ++ cs) = n :: codes cs := by
  cases half : isHalf n with
  | true => exact codes_half half cs
  | false =>
    have valid : n.isValidChar := by
      rw [isHalf, Bool.and_eq_false_iff, decide_eq_false_iff_not, decide_eq_false_iff_not] at half
      rw [IsCode] at code
      exact half.imp (by omega) (by omega)
    rw [← toNat_ofNat valid]
    exact codes_spell_append _ cs

theorem codes_ofCodes (all : ∀ n ∈ ns, IsCode n) : codes (ofCodes ns).toList = ns := by
  rw [ofCodes, String.toList_ofList]
  induction ns with
  | nil => rfl
  | cons n ns ih =>
    rw [List.forall_mem_cons] at all
    rw [List.flatMap_cons, codes_spell all.1, ih all.2]

/-! ### The order -/

theorem precedes_iff :
    precedes s t = true ↔ toLex (codes s.toList, s) < toLex (codes t.toList, t) := by
  rw [precedes, Prod.Lex.toLex_lt_toLex, Bool.or_eq_true, Bool.and_eq_true, decide_eq_true_iff,
    decide_eq_true_iff, decide_eq_true_iff]

theorem precedes_trans (first : precedes s t = true) (second : precedes t u = true) :
    precedes s u = true :=
  precedes_iff.mpr ((precedes_iff.mp first).trans (precedes_iff.mp second))

theorem precedes_of_not_precedes (apart : s ≠ t) (after : ¬ precedes s t = true) :
    precedes t s = true := by
  rw [precedes_iff] at after ⊢
  refine lt_of_le_of_ne (not_lt.mp after) fun same => apart ?_
  exact (congrArg (fun p => (ofLex p).2) same).symm

/-- Texts are ordered as the code points they spell. -/
theorem precedes_ofCodes (left : ∀ n ∈ ns, IsCode n) (right : ∀ n ∈ ms, IsCode n) :
    precedes (ofCodes ns) (ofCodes ms) = true ↔ ns < ms := by
  rw [precedes, codes_ofCodes left, codes_ofCodes right, Bool.or_eq_true, Bool.and_eq_true,
    decide_eq_true_iff, decide_eq_true_iff, decide_eq_true_iff]
  refine ⟨?_, .inl⟩
  rintro (before | ⟨rfl, before⟩)
  · exact before
  · exact absurd before (lt_irrefl _)

end MachinePlan.Text
