import MachinePlan.Proofs.Text.Pieces
import MachinePlan.Text.Numeral

/-!
# Runs of digits

A decimal digit, of whatever script, is no blank, no letter and no mark, so a run of digits is a
numeral as it stands: nothing is taken off it, and it denotes the number with these digits, unless
it is too long (`readInt?_digits`).
-/

namespace MachinePlan.Text

variable {c d : Char} {i base acc : Nat} {after : Bool} {ds cs : List Char}

/-- What holds of every character in the table of digits holds of every digit. -/
theorem of_isDigit {P : Char → Prop} (table : ∀ z ∈ digitZeros, ∀ k < 10, P (Char.ofNat (z + k)))
    (digit : isDigit c = true) : P c := by
  rw [isDigit, digitValue?, Option.isSome_map] at digit
  obtain ⟨z, found⟩ := Option.isSome_iff_exists.mp digit
  have range := List.find?_some found
  simp only [Bool.and_eq_true, decide_eq_true_eq] at range
  have code := table z (List.mem_of_find?_eq_some found) (c.toNat - z) (by omega)
  rwa [Nat.add_sub_cancel' range.1, Char.ofNat_toNat] at code

theorem isBlank_of_isDigit (digit : isDigit c = true) : isBlank c = false :=
  of_isDigit (P := fun c => isBlank c = false) (by decide +kernel) digit

theorem baseDigit?_of_isDigit (digit : isDigit c = true) : baseDigit? c = digitValue? c := by
  have noLetter : ('a' ≤ c && c ≤ 'z') = false ∧ ('A' ≤ c && c ≤ 'Z') = false :=
    of_isDigit (P := fun c => ('a' ≤ c && c ≤ 'z') = false ∧ ('A' ≤ c && c ≤ 'Z') = false)
      (by decide +kernel) digit
  rw [baseDigit?, noLetter.1, noLetter.2]
  rfl

def digitValue (c : Char) : Nat := (digitValue? c).getD 0

theorem digitValue?_of_isDigit (digit : isDigit c = true) :
    digitValue? c = some (digitValue c) ∧ digitValue c < 10 := by
  obtain ⟨i, value⟩ := Option.isSome_iff_exists.mp digit
  have same : digitValue c = i := by rw [digitValue, value, Option.getD_some]
  refine ⟨same ▸ value, same ▸ ?_⟩
  obtain ⟨z, found, rfl⟩ := Option.map_eq_some_iff.mp value
  have range := List.find?_some found
  simp only [Bool.and_eq_true, decide_eq_true_eq] at range
  omega

theorem ne_of_isDigit (digit : isDigit c = true) (mark : isDigit d = false) : c ≠ d := by
  rintro rfl
  exact absurd digit (by simp [mark])

/-! ### The number that a run denotes -/

def numberOf (ds : List Char) : Nat :=
  ds.foldl (fun n c => n * 10 + digitValue c) 0

theorem digitsValue_go_cons (value : baseDigit? c = some i) (small : i < base) (bar : c ≠ '_')
    (cs : List Char) :
    digitsValue?.go base acc after (c :: cs) = digitsValue?.go base (acc * base + i) true cs := by
  rw [digitsValue?.go]
  · simp only [value, if_pos small]
  · exact bar

theorem digitsValue_go_of_digits (digits : ∀ c ∈ ds, isDigit c = true) :
    digitsValue?.go 10 acc true ds = some (ds.foldl (fun n c => n * 10 + digitValue c) acc) := by
  induction ds generalizing acc with
  | nil => rfl
  | cons c ds ih =>
    have digit := digits c List.mem_cons_self
    obtain ⟨value, small⟩ := digitValue?_of_isDigit digit
    rw [← baseDigit?_of_isDigit digit] at value
    rw [digitsValue_go_cons value small (ne_of_isDigit digit (by decide)) ds]
    exact ih fun d member => digits d (List.mem_cons_of_mem c member)

theorem digitsValue?_of_digits (digits : ∀ c ∈ ds, isDigit c = true) (nonempty : ds ≠ []) :
    digitsValue? 10 ds = some (numberOf ds) := by
  obtain ⟨c, rest, rfl⟩ := List.exists_cons_of_ne_nil nonempty
  have digit := digits c List.mem_cons_self
  obtain ⟨value, small⟩ := digitValue?_of_isDigit digit
  rw [← baseDigit?_of_isDigit digit] at value
  rw [digitsValue?, digitsValue_go_cons value small (ne_of_isDigit digit (by decide)) rest]
  exact digitsValue_go_of_digits fun d member => digits d (List.mem_cons_of_mem c member)

theorem numberOf_zeros_append {zeros : List Char} (zero : ∀ c ∈ zeros, digitValue c = 0)
    (ds : List Char) : numberOf (zeros ++ ds) = numberOf ds := by
  induction zeros with
  | nil => rfl
  | cons c zeros ih =>
    rw [← ih fun d member => zero d (List.mem_cons_of_mem c member)]
    rw [List.cons_append, numberOf, List.foldl_cons, zero c List.mem_cons_self]
    rfl

/-! ### Numerals -/

theorem isNumeralBlank_of_isDigit (digit : isDigit c = true) : isNumeralBlank c = false := by
  rw [isNumeralBlank, isBlank_of_isDigit digit, Bool.false_and]

theorem trimBy_of_digits {p : Char → Bool} (other : ∀ c, isDigit c = true → p c = false)
    (digits : ∀ c ∈ ds, isDigit c = true) (nonempty : ds ≠ []) : trimBy p ds = ds := by
  have kept : trimBy p ([] ++ ds ++ []) = ds := trimBy_between (by simp) (by simp) nonempty
    (fun c head => other c (digits c (List.mem_of_mem_head? head)))
    (fun c last => other c (digits c (List.mem_of_mem_getLast? last)))
  rwa [List.append_nil, List.nil_append] at kept

theorem splitSign_of_digits (digits : ∀ c ∈ ds, isDigit c = true) : splitSign ds = (false, ds) := by
  rw [splitSign]
  all_goals
    rintro rest rfl
    exact absurd (digits _ List.mem_cons_self) (by decide)

/-- A decimal numeral has no name of its base in front. -/
theorem dropBaseName_ten (cs : List Char) : dropBaseName 10 cs = cs := by
  unfold dropBaseName
  split
  · exact if_neg (by simp [baseLetter])
  · rfl

/-- A run of digits is read as the number that it denotes, unless it is too long. -/
theorem readInt?_digits (digits : ∀ c ∈ ds, isDigit c = true) (nonempty : ds ≠ []) :
    readInt? 10 ds = if maxDigits < ds.length then none else some (numberOf ds : Int) := by
  have trimmed : trimBy isNumeralBlank ds = ds :=
    trimBy_of_digits (fun c => isNumeralBlank_of_isDigit) digits nonempty
  have bare : ds.filter (· != '_') = ds := by
    refine List.filter_eq_self.mpr fun c member => ?_
    simpa using ne_of_isDigit (digits c member) (d := '_') (by decide)
  rw [readInt?, trimmed, splitSign_of_digits digits]
  simp only [dropBaseName_ten, bare, digitsValue?_of_digits digits nonempty]
  simp

theorem readInt?_of_digits (digits : ∀ c ∈ ds, isDigit c = true) (nonempty : ds ≠ [])
    (short : ds.length ≤ maxDigits) : readInt? 10 ds = some (numberOf ds : Int) := by
  rw [readInt?_digits digits nonempty, if_neg (Nat.not_lt.mpr short)]

theorem readInt?_of_long (digits : ∀ c ∈ ds, isDigit c = true) (nonempty : ds ≠ [])
    (long : maxDigits < ds.length) : readInt? 10 ds = none := by
  rw [readInt?_digits digits nonempty, if_pos long]

end MachinePlan.Text
