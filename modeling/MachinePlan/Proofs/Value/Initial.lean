import MachinePlan.Proofs.Value.Shown

/-!
# How values in writing begin

A text stands for itself, and whatever is written for another value begins with a digit, a sign, a
bracket, a quote or the first letter of the name of its kind, which is never an `a`. So a key that
is written as a word with that initial is the word itself (`eq_str_of_text`).
-/

namespace MachinePlan

def HasInitial (c : Char) (s : String) : Prop := s.toList.head? = some c

namespace HasInitial

variable {c d : Char} {s t : String} {cs : List Char}

instance : Decidable (HasInitial c s) := inferInstanceAs (Decidable (s.toList.head? = some c))

theorem ofList_cons (c : Char) (cs : List Char) : HasInitial c (String.ofList (c :: cs)) := by
  rw [HasInitial, String.toList_ofList]
  rfl

theorem append (first : HasInitial c s) : HasInitial c (s ++ t) := by
  unfold HasInitial at *
  rw [String.toList_append, List.head?_append, first]
  rfl

theorem not_of_ne (first : HasInitial c s) (other : c ≠ d) : ¬ HasInitial d s := by
  unfold HasInitial at *
  rw [first]
  exact fun same => other (Option.some.inj same)

theorem not_of_notMem (absent : c ∉ cs) : ¬ HasInitial c (String.ofList cs) := by
  rw [HasInitial, String.toList_ofList]
  exact fun first => absent (List.mem_of_mem_head? first)

end HasInitial

/-! ### Numbers and dates -/

theorem a_notMem_decimalDigits (width n : Nat) : 'a' ∉ Text.decimalDigits width n := by
  rw [Text.decimalDigits, List.mem_append, not_or]
  refine ⟨fun zeros => absurd (List.eq_of_mem_replicate zeros) (by decide), fun digit => ?_⟩
  cases Nat.isDigit_of_mem_toDigits (by decide) (by decide) digit

theorem initial_ne_a_int (i : Int) : ¬ HasInitial 'a' (toString i) := by
  rw [Int.toString_eq_repr]
  cases i with
  | ofNat n =>
    intro first
    have digit := List.mem_of_mem_head? first
    rw [Int.repr, Nat.toList_repr] at digit
    cases Nat.isDigit_of_mem_toDigits (by decide) (by decide) digit
  | negSucc n =>
    have minus : HasInitial '-' (Int.repr (.negSucc n)) :=
      HasInitial.append (s := "-") (by decide)
    exact minus.not_of_ne (by decide)

theorem Binary64.initial_ne_a_text (x : Binary64) :
    ¬ HasInitial 'a' (x.text Value.numberLayout) := by
  cases x with
  | nan =>
    change ¬ HasInitial 'a' Value.numberLayout.nan
    decide
  | infinite negative => cases negative <;> decide
  | finite negative s e =>
    have digits : 'a' ∉ (if s = 0 then ['0', '.', '0']
        else layDigits Value.numberLayout (shortest s e)) := by
      split
      · decide
      · exact notMem_layDigits a_notMem_decimalDigits (by decide) _ _
    refine HasInitial.not_of_notMem ?_
    cases negative
    · exact digits
    · exact List.not_mem_cons_of_ne_of_not_mem (by decide) digits

theorem Date.initial_ne_a_iso (d : Date) : ¬ HasInitial 'a' d.iso := by
  refine HasInitial.not_of_notMem ?_
  simp [a_notMem_decimalDigits]

theorem DateTime.initial_ne_a_iso (t : DateTime) : ¬ HasInitial 'a' (t.iso ' ') := by
  have day : 'a' ∉ t.date.iso.toList := by
    rw [Date.iso, String.toList_ofList]
    simp [a_notMem_decimalDigits]
  have offset : 'a' ∉ (t.offset.map isoOffset).getD [] := by
    cases t.offset with
    | none => exact List.not_mem_nil
    | some o =>
      simp only [Option.map_some, Option.getD_some, isoOffset]
      split <;> simp [a_notMem_decimalDigits]
  refine HasInitial.not_of_notMem ?_
  simp only [List.mem_append, List.mem_cons, day, offset, a_notMem_decimalDigits]
  split <;> simp [a_notMem_decimalDigits]

theorem Date.hasInitial_display (d : Date) : HasInitial 'd' d.display := by
  have start : HasInitial 'd' "datetime.date(" := by decide +kernel
  exact start.append.append.append.append.append.append

theorem DateTime.hasInitial_display (t : DateTime) : HasInitial 'd' t.display := by
  have start : HasInitial 'd' "datetime.datetime(" := by decide +kernel
  dsimp only [DateTime.display]
  exact start.append.append.append.append.append.append.append.append.append.append.append.append

/-! ### Values -/

namespace Value

variable {v : Value} {s : String}

theorem initial_ne_a_bracketed (form : Form) (parts : String) :
    ¬ HasInitial 'a' (bracketed form parts) := by
  cases form with
  | list => exact HasInitial.not_of_ne (c := '[') (.append (.append (by decide))) (by decide)
  | map => exact HasInitial.not_of_ne (c := '\x7b') (.append (.append (by decide))) (by decide)
  | tuple => exact HasInitial.not_of_ne (c := '(') (.append (.append (by decide))) (by decide)

theorem initial_ne_a_display (v : Value) : ∀ {s}, v.display = .ok s → ¬ HasInitial 'a' s := by
  intro s shown
  cases v with
  | int i =>
    change numeral i = .ok s at shown
    rw [numeral] at shown
    split at shown
    · rw [← Except.ok.inj shown]
      exact initial_ne_a_int i
    · cases shown
  | list | map =>
    obtain ⟨parts, -, rest⟩ := bind_eq_ok.mp shown
    rw [← Except.ok.inj rest]
    exact initial_ne_a_bracketed _ _
  | tuple items =>
    cases items with
    | nil =>
      rw [← Except.ok.inj shown]
      exact initial_ne_a_bracketed _ _
    | cons first others =>
      cases others <;>
      · obtain ⟨parts, -, rest⟩ := bind_eq_ok.mp shown
        rw [← Except.ok.inj rest]
        exact initial_ne_a_bracketed _ _
  | set items =>
    cases items with
    | nil =>
      rw [← Except.ok.inj shown]
      decide
    | cons =>
      obtain ⟨parts, -, rest⟩ := bind_eq_ok.mp shown
      rw [← Except.ok.inj rest]
      exact initial_ne_a_bracketed _ _
  | ring _ v => exact initial_ne_a_display v shown
  | again =>
    rw [← Except.ok.inj shown]
    exact initial_ne_a_bracketed _ _
  | null =>
    rw [← Except.ok.inj shown]
    decide
  | bool b =>
    rw [← Except.ok.inj shown]
    cases b <;> decide
  | float x =>
    rw [← Except.ok.inj shown]
    exact x.initial_ne_a_text
  | str s =>
    rw [← Except.ok.inj shown]
    refine (HasInitial.ofList_cons _ _).not_of_ne ?_
    rw [Text.quoteFor]
    split <;> decide
  | date d =>
    rw [← Except.ok.inj shown]
    exact d.hasInitial_display.not_of_ne (by decide)
  | datetime t =>
    rw [← Except.ok.inj shown]
    exact t.hasInitial_display.not_of_ne (by decide)
  | bytes =>
    rw [← Except.ok.inj shown]
    exact (HasInitial.ofList_cons _ _).not_of_ne (by decide)
termination_by structural v

/-- Only a text is written as a word that begins with an `a`: the word itself. -/
theorem eq_str_of_text (written : v.text = .ok s) (initial : HasInitial 'a' s) : v = .str s := by
  cases v with
  | str => exact congrArg Value.str (Except.ok.inj written)
  | date d => exact absurd (Except.ok.inj written ▸ initial) d.initial_ne_a_iso
  | datetime t => exact absurd (Except.ok.inj written ▸ initial) t.initial_ne_a_iso
  | _ => exact absurd initial (initial_ne_a_display _ written)

end Value

end MachinePlan
