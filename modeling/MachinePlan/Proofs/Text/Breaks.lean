import MachinePlan.Proofs.Text.Lines
import MachinePlan.Text.Quoted

/-!
# Line breaks in composed texts

The line breaks of a text that is put together are those of its parts (`breaks_append`,
`breaks_intercalate`), so they can be traced back to where they come from. Numerals and quoted texts
have none (`unbroken_toDigits`, `unbroken_quoted`, `unbroken_quotedBytes`).
-/

namespace MachinePlan.Text

variable {c quote : Char} {line : List Char} {s t sep : String} {rows : List String}
  {sources : String → Prop}

def breaks (s : String) : List Char := s.toList.filter isBreak

/-- Every line break of a text stands in one of its sources. -/
def BreaksFrom (sources : String → Prop) (s : String) : Prop :=
  ∀ c ∈ s.toList, isBreak c = true → ∃ text, sources text ∧ c ∈ text.toList

theorem newline_notMem (unbroken : Unbroken line) : '\n' ∉ line := by
  intro member
  cases unbroken '\n' member

/-! ### Parts of a text -/

theorem breaks_append : breaks (s ++ t) = breaks s ++ breaks t := by
  rw [breaks, String.toList_append, List.filter_append]
  rfl

theorem breaks_eq_nil_iff : breaks s = [] ↔ Unbroken s.toList := by
  rw [breaks, List.filter_eq_nil_iff]
  simp only [Bool.not_eq_true, Unbroken]

theorem breaks_intercalate (plain : breaks sep = []) (rows : List String) :
    breaks (sep.intercalate rows) = rows.flatMap breaks := by
  rw [breaks, String.toList_intercalate]
  induction rows with
  | nil => rfl
  | cons first rows ih =>
    cases rows with
    | nil =>
      rw [List.map_singleton, List.intercalate_singleton, List.flatMap_singleton]
      rfl
    | cons second rows =>
      rw [List.map_cons, List.map_cons, List.intercalate_cons_cons, ← List.map_cons,
        List.filter_append, List.filter_append, ih, List.flatMap_cons]
      change breaks first ++ breaks sep ++ _ = _
      rw [plain, List.append_nil]
      rfl

theorem breaksFrom_of_unbroken (unbroken : Unbroken s.toList) : BreaksFrom sources s := by
  intro c member isBreak
  rw [unbroken c member] at isBreak
  cases isBreak

theorem breaksFrom_of_source (source : sources s) : BreaksFrom sources s :=
  fun _ member _ => ⟨s, source, member⟩

theorem BreaksFrom.of_subset (whole : BreaksFrom sources t) (part : s.toList ⊆ t.toList) :
    BreaksFrom sources s := fun c member ends => whole c (part member) ends

theorem BreaksFrom.unbroken (whole : BreaksFrom sources s)
    (all : ∀ t, sources t → Unbroken t.toList) : Unbroken s.toList := by
  intro c member
  by_contra ends
  rw [Bool.not_eq_false] at ends
  obtain ⟨t, source, inside⟩ := whole c member ends
  cases ends.symm.trans (all t source c inside)

theorem breaksFrom_of_breaks (same : breaks s = rows.flatMap breaks)
    (all : ∀ row ∈ rows, BreaksFrom sources row) : BreaksFrom sources s := by
  intro c member isBreak
  have inside : c ∈ breaks s := List.mem_filter.mpr ⟨member, isBreak⟩
  rw [same] at inside
  obtain ⟨row, here, inside⟩ := List.mem_flatMap.mp inside
  exact all row here c (List.mem_filter.mp inside).1 isBreak

theorem unbroken_iff_of_breaks (same : breaks s = rows.flatMap breaks) :
    Unbroken s.toList ↔ ∀ row ∈ rows, Unbroken row.toList := by
  rw [← breaks_eq_nil_iff, same, List.flatMap_eq_nil_iff]
  simp only [breaks_eq_nil_iff]

/-! ### Numerals -/

theorem isBreak_digitChar (d : Nat) : isBreak d.digitChar = false := by
  have all : ∀ d : Fin 16, isBreak (Nat.digitChar d) = false := by decide
  rcases Nat.lt_or_ge d 16 with small | large
  · exact all ⟨d, small⟩
  · have other : d.digitChar = '*' := by
      unfold Nat.digitChar
      repeat rw [if_neg (by omega)]
    rw [other]
    decide

theorem unbroken_toDigits {base : Nat} (proper : 1 < base) (n : Nat) :
    Unbroken (Nat.toDigits base n) := by
  induction n using Nat.strongRecOn with
  | ind n ih =>
    have last : Unbroken [(n % base).digitChar] :=
      List.forall_mem_singleton.mpr (isBreak_digitChar (n % base))
    rcases Nat.lt_or_ge n base with small | large
    · rwa [Nat.mod_eq_of_lt small, ← Nat.toDigits_of_lt_base small] at last
    · rw [Nat.toDigits_of_base_le proper large]
      exact List.forall_mem_append.mpr ⟨ih (n / base) (Nat.div_lt_self (by omega) proper), last⟩

theorem unbroken_nat (n : Nat) : Unbroken (toString n).toList := by
  rw [Nat.toString_eq_repr, Nat.toList_repr]
  exact unbroken_toDigits (by decide) n

theorem unbroken_zeros (n : Nat) : Unbroken (List.replicate n '0') := by
  intro c member
  rw [List.eq_of_mem_replicate member]
  decide

theorem unbroken_hexDigits (width n : Nat) : Unbroken (hexDigits width n) :=
  List.forall_mem_append.mpr ⟨unbroken_zeros _, unbroken_toDigits (by decide) n⟩

theorem unbroken_decimalDigits (width n : Nat) : Unbroken (decimalDigits width n) :=
  List.forall_mem_append.mpr ⟨unbroken_zeros _, unbroken_toDigits (by decide) n⟩

/-! ### Quoted texts -/

theorem isPrintable_of_isBreak (ends : isBreak c = true) : isPrintable c = false := by
  simp only [isBreak, Bool.or_eq_true, Bool.and_eq_true, decide_eq_true_eq, beq_iff_eq] at ends
  have shown : ¬ (32 ≤ c.toNat ∧ c.toNat < 127) := by omega
  have range : ∃ r ∈ unprintableRanges, r.1 ≤ c.toNat ∧ c.toNat ≤ r.2 := by
    obtain (((ascii | ascii) | next) | separator) | separator := ends
    · exact ⟨(0x0, 0x1f), by decide, by omega, by omega⟩
    · exact ⟨(0x0, 0x1f), by decide, by omega, by omega⟩
    · exact ⟨(0x7f, 0xa0), by decide, by omega, by omega⟩
    · exact ⟨(0x2028, 0x202f), by decide, by omega, by omega⟩
    · exact ⟨(0x2028, 0x202f), by decide, by omega, by omega⟩
  simp only [isPrintable, Bool.and_eq_true, decide_eq_true_eq, if_neg shown]
  rw [Bool.not_eq_false', List.any_eq_true]
  simpa only [Bool.and_eq_true, decide_eq_true_eq] using range

theorem unbroken_cons (plain : isBreak c = false) (rest : Unbroken line) : Unbroken (c :: line) :=
  List.forall_mem_cons.mpr ⟨plain, rest⟩

/-- Line breaks are escaped. -/
theorem unbroken_escapeChar (proper : isBreak quote = false) (c : Char) :
    Unbroken (escapeChar quote c) := by
  have slash : isBreak '\\' = false := by decide
  have numbered (mark : Char) (plain : isBreak mark = false) (width : Nat) :
      Unbroken ('\\' :: mark :: hexDigits width c.toNat) :=
    unbroken_cons slash (unbroken_cons plain (unbroken_hexDigits width c.toNat))
  have named (letter : Char) (plain : isBreak letter = false) : Unbroken ['\\', letter] :=
    unbroken_cons slash (List.forall_mem_singleton.mpr plain)
  rw [escapeChar]
  split
  case isTrue special =>
    refine named c ?_
    rw [Bool.or_eq_true, decide_eq_true_eq, decide_eq_true_eq] at special
    obtain rfl | rfl := special
    · exact proper
    · exact slash
  iterate 3
    split
    · exact named _ (by decide)
  split
  case isTrue printable =>
    refine List.forall_mem_singleton.mpr (Bool.eq_false_iff.mpr fun ends => ?_)
    cases (isPrintable_of_isBreak ends).symm.trans printable
  case isFalse =>
    split
    · exact numbered 'x' (by decide) 2
    · split
      · exact numbered 'u' (by decide) 4
      · exact numbered 'U' (by decide) 8

theorem isBreak_quoteFor (cs : List Char) : isBreak (quoteFor cs) = false := by
  rw [quoteFor]
  split <;> decide

theorem unbroken_escapeCode (proper : isBreak quote = false) (n : Nat) :
    Unbroken (escapeCode quote n) := by
  rw [escapeCode]
  split
  · exact unbroken_cons (by decide) (unbroken_cons (by decide) (unbroken_hexDigits 4 n))
  · exact unbroken_escapeChar proper _

theorem unbroken_quoted (cs : List Char) : Unbroken (quoted cs) := by
  have proper := isBreak_quoteFor cs
  refine unbroken_cons proper (List.forall_mem_append.mpr ⟨fun c member => ?_, ?_⟩)
  · obtain ⟨n, -, inside⟩ := List.mem_flatMap.mp member
    exact unbroken_escapeCode proper n c inside
  · exact List.forall_mem_singleton.mpr proper

theorem unbroken_quotedBytes (bs : List UInt8) : Unbroken (quotedBytes bs) := by
  have proper := isBreak_quoteFor (bs.map fun b => Char.ofNat b.toNat)
  refine unbroken_cons (by decide) (unbroken_cons proper
    (List.forall_mem_append.mpr ⟨fun c member => ?_, List.forall_mem_singleton.mpr proper⟩))
  obtain ⟨b, -, inside⟩ := List.mem_flatMap.mp member
  rw [escapeByte] at inside
  split at inside
  · exact unbroken_escapeChar proper _ c inside
  · exact unbroken_cons (by decide) (unbroken_cons (by decide) (unbroken_hexDigits 2 _)) c inside

end MachinePlan.Text
