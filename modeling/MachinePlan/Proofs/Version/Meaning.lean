import MachinePlan.Proofs.Outcome
import MachinePlan.Proofs.Version.Dotted
import MachinePlan.Version.Constraint

/-!
# What a constraint means

A clause in writing is a sign and a dotted number with blanks around both, and it holds of a version
when the two numbers stand in the order that the sign names. A version satisfies a constraint of
such clauses exactly when every clause holds of it, whatever their order and their spelling
(`satisfies_meaning`).
-/

namespace MachinePlan.Version

open Text

def Comparison.signs : Comparison → List (List Char)
  | .atLeast => [['>', '=']]
  | .atMost => [['<', '=']]
  | .equal => [[], ['='], ['=', '=']]
  | .different => [['!', '=']]
  | .above => [['>']]
  | .below => [['<']]

/-- What a comparison says about two numbers. -/
def Comparison.Means : Comparison → Lex (ℕ → ℤ) → Lex (ℕ → ℤ) → Prop
  | .atLeast, s, t => t ≤ s
  | .atMost, s, t => s ≤ t
  | .equal, s, t => s = t
  | .different, s, t => s ≠ t
  | .above, s, t => t < s
  | .below, s, t => s < t

def Blank (cs : List Char) : Prop := ∀ c ∈ cs, isBlank c = true

/-- A clause in writing: a sign and a dotted number, with blanks around both. -/
structure Written where
  comparison : Comparison
  sign : List Char
  required : Dotted
  before : List Char
  between : List Char
  after : List Char
  signed : sign ∈ comparison.signs
  blank_before : Blank before
  blank_between : Blank between
  blank_after : Blank after

namespace Written

def chars (w : Written) : List Char :=
  w.before ++ w.sign ++ w.between ++ w.required.chars ++ w.after

def Holds (w : Written) (v : Dotted) : Prop := w.comparison.Means v.number w.required.number

end Written

/-- A clause that is blank or well formed, with components that are short enough to be read. -/
inductive WellFormed : List Char → Prop
  | blank {text : List Char} (blank : Blank text) : WellFormed text
  | written (w : Written) (short : w.required.IsShort) : WellFormed w.chars

def clauses (constraint : String) : List (List Char) := splitAt ',' constraint.toList

variable {c : Char} {rest text : List Char} {v r : Dotted} {s t : Lex (ℕ → ℤ)} {o : Ordering}
  {comparison : Comparison} {w other : Written} {pieces : List (List Char)} {constraint : String}

/-! ### Comparisons -/

theorem Comparison.holds_iff (order : o.Compares s t) :
    comparison.holds o = true ↔ comparison.Means s t := by
  cases comparison with
  | atLeast => exact bne_iff_ne.trans order.ne_lt
  | atMost => exact bne_iff_ne.trans order.ne_gt
  | equal => exact beq_iff_eq.trans order.eq_eq
  | different => exact bne_iff_ne.trans (not_congr order.eq_eq)
  | above => exact beq_iff_eq.trans order.eq_gt
  | below => exact beq_iff_eq.trans order.eq_lt

theorem check_of_short (comparison : Comparison) (short : v.IsShort) (shortRequired : r.IsShort) :
    ∃ answer, Clause.check v.text ⟨comparison, r.chars⟩ = .ok answer ∧
      (answer = true ↔ comparison.Means v.number r.number) := by
  have actual : components v.text = .ok v.values := by
    rw [components, Dotted.components?_text short]
  have required : components (String.ofList r.chars) = .ok r.values := by
    rw [components, ← Dotted.text, Dotted.components?_text shortRequired]
  rw [Clause.check, actual, required]
  exact ⟨_, rfl, Comparison.holds_iff (compare_compares _ _)⟩

/-! ### Reading a clause -/

theorem takeComparison_of_digit (digit : isDigit c = true) :
    takeComparison (c :: rest) = (.equal, c :: rest) := by
  have noMark {mark : Char} (bare : isDigit mark = false) : c ≠ mark := ne_of_isDigit digit bare
  have above : c ≠ '>' := noMark (by decide)
  have below : c ≠ '<' := noMark (by decide)
  have equal : c ≠ '=' := noMark (by decide)
  have different : c ≠ '!' := noMark (by decide)
  simp [takeComparison, above, below, equal, different]

theorem takeComparison_sign {sign : List Char} (signed : sign ∈ comparison.signs)
    (nonempty : sign ≠ []) (other : c ≠ '=') :
    takeComparison (sign ++ c :: rest) = (comparison, c :: rest) := by
  cases comparison with
  | atLeast | atMost | different =>
    obtain rfl := List.mem_singleton.mp signed
    rfl
  | above | below =>
    obtain rfl := List.mem_singleton.mp signed
    simp [takeComparison, other]
  | equal =>
    rcases List.mem_cons.mp signed with rfl | signed
    · exact absurd rfl nonempty
    · rcases List.mem_cons.mp signed with rfl | signed
      · simp [takeComparison, other]
      · obtain rfl := List.mem_singleton.mp signed
        rfl

theorem isBlank_of_sign {sign : List Char} (signed : sign ∈ comparison.signs) :
    ∀ c ∈ sign.head?, isBlank c = false := by
  have all : ∀ comparison : Comparison, ∀ sign ∈ comparison.signs,
      sign.head?.all (!isBlank ·) = true := by
    intro comparison
    cases comparison <;> decide
  intro c head
  have here := all comparison sign signed
  rw [Option.mem_def.mp head] at here
  simpa using here

theorem equal_of_bare (bare : [] ∈ comparison.signs) : comparison = .equal := by
  cases comparison <;> simp_all [Comparison.signs]

namespace Written

theorem exists_cons_required (w : Written) :
    ∃ c rest, w.required.chars = c :: rest ∧ isDigit c = true :=
  w.required.exists_cons_chars

theorem nonblank (w : Written) : ¬ Blank w.chars := by
  obtain ⟨c, rest, number, digit⟩ := w.exists_cons_required
  intro blank
  have inside : c ∈ w.chars := by simp [chars, number]
  exact absurd (blank c inside) (by simp [isBlank_of_isDigit digit])

theorem isBlank_of_last (w : Written) : ∀ c ∈ w.required.chars.getLast?, isBlank c = false :=
  fun c last => isBlank_of_isDigit (w.required.isDigit_of_mem_getLast? c last)

/-- Behind its sign a clause does not go on with another mark. -/
theorem exists_cons_between (w : Written) :
    ∃ c rest, w.between ++ w.required.chars = c :: rest ∧ c ≠ '=' := by
  cases gap : w.between with
  | nil =>
    obtain ⟨c, rest, number, digit⟩ := w.exists_cons_required
    exact ⟨c, rest, number, ne_of_isDigit digit (by decide)⟩
  | cons c gap' =>
    refine ⟨c, gap' ++ w.required.chars, rfl, ?_⟩
    rintro rfl
    have blank := w.blank_between '=' (by simp [gap])
    exact absurd blank (by decide)

/-- Without the blanks around it a clause is a sign, then a number behind more blanks. -/
theorem takeComparison_trim (w : Written) : ∃ gap, Blank gap ∧
    takeComparison (trim w.chars) = (w.comparison, gap ++ w.required.chars) := by
  obtain ⟨d, digits, number, digit⟩ := w.exists_cons_required
  -- without a sign the blanks in front of the number are one run, all of which is trimmed
  by_cases bare : w.sign = []
  case pos =>
    have equal : w.comparison = .equal := equal_of_bare (bare ▸ w.signed)
    have trimmed : trim w.chars = w.required.chars := by
      rw [chars, bare, List.append_nil]
      refine trimBy_between ?_ w.blank_after (by simp [number]) ?_ w.isBlank_of_last
      · intro c member
        exact (List.mem_append.mp member).elim (w.blank_before c) (w.blank_between c)
      · rw [number]
        rintro _ ⟨⟩
        exact isBlank_of_isDigit digit
    refine ⟨[], fun _ member => absurd member List.not_mem_nil, ?_⟩
    rw [trimmed, number, takeComparison_of_digit digit, equal, List.nil_append]
  case neg =>
    have trimmed : trim w.chars = w.sign ++ (w.between ++ w.required.chars) := by
      have whole :
          w.chars = w.before ++ (w.sign ++ (w.between ++ w.required.chars)) ++ w.after := by
        simp [chars]
      rw [whole]
      refine trimBy_between w.blank_before w.blank_after (by simp [number]) ?_ ?_
      · intro c head
        rw [List.head?_append_of_ne_nil _ bare] at head
        exact isBlank_of_sign w.signed c head
      · intro c last
        rw [← List.append_assoc, List.getLast?_append_of_ne_nil _ (by simp [number])] at last
        exact w.isBlank_of_last c last
    obtain ⟨c, rest, behind, other⟩ := w.exists_cons_between
    refine ⟨w.between, w.blank_between, ?_⟩
    rw [trimmed, behind, takeComparison_sign w.signed bare other]

theorem trim_ne_nil (w : Written) : trim w.chars ≠ [] := by
  obtain ⟨gap, -, taken⟩ := w.takeComparison_trim
  obtain ⟨c, rest, number, -⟩ := w.exists_cons_required
  have nothing : takeComparison [] = (.equal, []) := rfl
  intro empty
  rw [empty, nothing] at taken
  simp [number] at taken

theorem ofText?_chars (w : Written) :
    Clause.ofText? w.chars = some ⟨w.comparison, w.required.chars⟩ := by
  obtain ⟨gap, blank, taken⟩ := w.takeComparison_trim
  have dropped : (gap ++ w.required.chars).dropWhile isBlank = w.required.chars := by
    refine dropWhile_append_of_head blank ?_
    obtain ⟨c, rest, number, digit⟩ := w.exists_cons_required
    rw [number]
    rintro _ ⟨⟩
    exact isBlank_of_isDigit digit
  rw [Clause.ofText?, taken]
  simp [dropped, w.required.head_chars, w.required.takeDotted_chars]

/-- What a clause says is determined by its characters. -/
theorem eq_of_chars (same : w.chars = other.chars) :
    w.comparison = other.comparison ∧ w.required = other.required := by
  have read := w.ofText?_chars
  rw [same, other.ofText?_chars] at read
  obtain ⟨comparison, required⟩ := Clause.mk.inj (Option.some.inj read)
  exact ⟨comparison.symm, Dotted.chars_injective required.symm⟩

theorem holds_iff_of_chars (same : w.chars = other.chars) : w.Holds v ↔ other.Holds v := by
  obtain ⟨comparison, required⟩ := eq_of_chars same
  rw [Holds, Holds, comparison, required]

end Written

/-! ### Checking a constraint -/

theorem forall_written_cons {P : Written → Prop} :
    (∀ w : Written, w.chars ∈ text :: pieces → P w) ↔
      (∀ w : Written, w.chars = text → P w) ∧ ∀ w : Written, w.chars ∈ pieces → P w := by
  simp only [List.mem_cons, or_imp, forall_and]

theorem holds_of_blank (blank : Blank text) : ∀ w : Written, w.chars = text → w.Holds v :=
  fun w same => absurd (same ▸ blank) w.nonblank

theorem holds_of_chars (w : Written) :
    (∀ other : Written, other.chars = w.chars → other.Holds v) ↔ w.Holds v :=
  ⟨fun all => all w rfl, fun holds _ same => (Written.holds_iff_of_chars same).mpr holds⟩

theorem checkClauses_of_blank (blank : Blank text) (version : String) (rest : List (List Char)) :
    checkClauses version (text :: rest) = checkClauses version rest := by
  rw [checkClauses, if_pos (by simp [trim_of_blank blank])]

theorem checkClauses_written (w : Written) (version : String) (rest : List (List Char)) :
    checkClauses version (w.chars :: rest) =
      Clause.check version ⟨w.comparison, w.required.chars⟩ >>= fun here =>
        if here then checkClauses version rest else .ok false := by
  rw [checkClauses, if_neg (by simp [w.trim_ne_nil]), w.ofText?_chars]
  rfl

/-- A row of well-formed clauses is decided: it is satisfied exactly when each of them holds. -/
theorem checkClauses_of_wellFormed (short : v.IsShort)
    (wellFormed : ∀ text ∈ pieces, WellFormed text) :
    ∃ answer, checkClauses v.text pieces = .ok answer ∧
      (answer = true ↔ ∀ w : Written, w.chars ∈ pieces → w.Holds v) := by
  induction pieces with
  | nil => exact ⟨true, rfl, by simp⟩
  | cons text pieces ih =>
    obtain ⟨answer, ran, means⟩ := ih fun text member =>
      wellFormed text (List.mem_cons_of_mem _ member)
    rw [forall_written_cons]
    cases wellFormed text List.mem_cons_self with
    | blank blank =>
      refine ⟨answer, ?_, means.trans (and_iff_right (holds_of_blank blank)).symm⟩
      rw [checkClauses_of_blank blank, ran]
    | written clause shortRequired =>
      obtain ⟨here, checked, verdict⟩ := check_of_short clause.comparison short shortRequired
      have step : checkClauses v.text (clause.chars :: pieces) =
          if here then checkClauses v.text pieces else .ok false := by
        rw [checkClauses_written, checked]
        rfl
      rw [step, holds_of_chars, Written.Holds, ← verdict]
      cases here with
      | false => exact ⟨false, rfl, by simp⟩
      | true => exact ⟨answer, ran, by simpa using means⟩

theorem satisfies_of_wellFormed (short : v.IsShort)
    (wellFormed : ∀ text ∈ clauses constraint, WellFormed text) :
    ∃ answer, satisfies v.text constraint = .ok answer ∧
      (answer = true ↔ ∀ w : Written, w.chars ∈ clauses constraint → w.Holds v) :=
  checkClauses_of_wellFormed short wellFormed

theorem satisfies_congr {v' : Dotted} {constraint' : String} (short : v.IsShort)
    (short' : v'.IsShort) (wellFormed : ∀ text ∈ clauses constraint, WellFormed text)
    (wellFormed' : ∀ text ∈ clauses constraint', WellFormed text)
    (same : (∀ w : Written, w.chars ∈ clauses constraint' → w.Holds v') ↔
      ∀ w : Written, w.chars ∈ clauses constraint → w.Holds v) :
    satisfies v'.text constraint' = satisfies v.text constraint := by
  obtain ⟨answer, ran, means⟩ := satisfies_of_wellFormed short wellFormed
  obtain ⟨answer', ran', means'⟩ := satisfies_of_wellFormed short' wellFormed'
  rw [ran, ran', Bool.eq_iff_iff.mpr (means'.trans (same.trans means.symm))]

/-- The same clause in other characters: its comparison with another spelling of its number. -/
inductive SameClause : List Char → List Char → Prop
  | refl (text : List Char) : SameClause text text
  | respelled {w w' : Written} (comparison : w'.comparison = w.comparison)
      (required : w.required.Respelled w'.required) (short : w'.required.IsShort) :
      SameClause w.chars w'.chars

theorem SameClause.holds_iff {text' : List Char} (same : SameClause text text') :
    (∀ w : Written, w.chars = text' → w.Holds v) ↔ ∀ w : Written, w.chars = text → w.Holds v := by
  cases same with
  | refl => exact Iff.rfl
  | respelled comparison required =>
    rw [holds_of_chars, holds_of_chars, Written.Holds, comparison, required.number, Written.Holds]

theorem holds_of_sameClauses {pieces' : List (List Char)}
    (same : List.Forall₂ SameClause pieces pieces') :
    (∀ w : Written, w.chars ∈ pieces' → w.Holds v) ↔
      ∀ w : Written, w.chars ∈ pieces → w.Holds v := by
  induction same with
  | nil => exact Iff.rfl
  | cons here _ ih => rw [forall_written_cons, forall_written_cons, here.holds_iff, ih]

theorem wellFormed_of_sameClauses {pieces' : List (List Char)}
    (same : List.Forall₂ SameClause pieces pieces')
    (wellFormed : ∀ text ∈ pieces, WellFormed text) : ∀ text ∈ pieces', WellFormed text := by
  induction same with
  | nil => exact wellFormed
  | cons here _ ih =>
    rw [List.forall_mem_cons] at wellFormed ⊢
    refine ⟨?_, ih wellFormed.2⟩
    cases here with
    | refl => exact wellFormed.1
    | respelled _ _ short => exact .written _ short

/-! ### A single clause -/

def Written.plain {sign : List Char} (signed : sign ∈ comparison.signs) (r : Dotted) : Written where
  comparison
  sign
  required := r
  before := []
  between := []
  after := []
  signed
  blank_before := fun _ member => absurd member List.not_mem_nil
  blank_between := fun _ member => absurd member List.not_mem_nil
  blank_after := fun _ member => absurd member List.not_mem_nil

theorem clauses_plain {sign : List Char} (signed : sign ∈ comparison.signs) (r : Dotted) :
    clauses (String.ofList sign ++ r.text) = [(Written.plain signed r).chars] := by
  have free : ',' ∉ sign ++ r.chars := by
    have all : ∀ comparison : Comparison, ∀ sign ∈ comparison.signs, ',' ∉ sign := by
      intro comparison
      cases comparison <;> decide
    rw [List.mem_append, not_or]
    exact ⟨all comparison sign signed, r.comma_notMem_chars⟩
  rw [clauses, String.toList_append, Dotted.text, String.toList_ofList, String.toList_ofList,
    splitAt_of_notMem free]
  simp [Written.chars, Written.plain]

theorem satisfies_plain {sign : List Char} (signed : sign ∈ comparison.signs) (short : v.IsShort)
    (shortRequired : r.IsShort) :
    ∃ answer, satisfies v.text (String.ofList sign ++ r.text) = .ok answer ∧
      (answer = true ↔ comparison.Means v.number r.number) := by
  have pieces := clauses_plain signed r
  have wellFormed : ∀ text ∈ clauses (String.ofList sign ++ r.text), WellFormed text := by
    rw [pieces]
    intro text member
    obtain rfl := List.mem_singleton.mp member
    exact .written _ shortRequired
  obtain ⟨answer, ran, means⟩ := satisfies_of_wellFormed short wellFormed
  rw [pieces] at means
  refine ⟨answer, ran, means.trans ?_⟩
  simp only [List.mem_singleton]
  exact holds_of_chars (Written.plain signed r)

theorem satisfies_plain_iff {sign : List Char} (signed : sign ∈ comparison.signs)
    (short : v.IsShort) (shortRequired : r.IsShort) :
    satisfies v.text (String.ofList sign ++ r.text) = .ok true ↔
      comparison.Means v.number r.number := by
  obtain ⟨answer, ran, means⟩ := satisfies_plain signed short shortRequired
  rw [ran, ← means, Except.ok.injEq]

/-- The answers to the comparisons of two versions: exactly one strict comparison holds, and each
other comparison is the opposite of a strict one. -/
structure Answers (v r : Dotted) (lt eq gt : Bool) : Prop where
  below : satisfies v.text ("<" ++ r.text) = .ok lt
  equal : satisfies v.text ("=" ++ r.text) = .ok eq
  above : satisfies v.text (">" ++ r.text) = .ok gt
  single : [lt, eq, gt].count true = 1
  atLeast : satisfies v.text (">=" ++ r.text) = .ok !lt
  atMost : satisfies v.text ("<=" ++ r.text) = .ok !gt
  different : satisfies v.text ("!=" ++ r.text) = .ok !eq

theorem answers_of_short (short : v.IsShort) (shortRequired : r.IsShort) :
    ∃ lt eq gt, Answers v r lt eq gt := by
  have plain (comparison : Comparison) (sign : List Char) (signed : sign ∈ comparison.signs) :=
    satisfies_plain signed short shortRequired
  obtain ⟨lt, below, isBelow⟩ := plain .below ['<'] (by decide)
  obtain ⟨eq, equal, isEqual⟩ := plain .equal ['='] (by decide)
  obtain ⟨gt, above, isAbove⟩ := plain .above ['>'] (by decide)
  obtain ⟨ge, atLeast, isAtLeast⟩ := plain .atLeast ['>', '='] (by decide)
  obtain ⟨le, atMost, isAtMost⟩ := plain .atMost ['<', '='] (by decide)
  obtain ⟨ne, different, isDifferent⟩ := plain .different ['!', '='] (by decide)
  obtain rfl : ge = !lt := by
    rw [Bool.eq_iff_iff, isAtLeast, Bool.not_eq_true', Bool.eq_false_iff, Ne, isBelow]
    exact not_lt.symm
  obtain rfl : le = !gt := by
    rw [Bool.eq_iff_iff, isAtMost, Bool.not_eq_true', Bool.eq_false_iff, Ne, isAbove]
    exact not_lt.symm
  obtain rfl : ne = !eq := by
    rw [Bool.eq_iff_iff, isDifferent, Bool.not_eq_true', Bool.eq_false_iff, Ne, isEqual]
    exact Iff.rfl
  refine ⟨lt, eq, gt, below, equal, above, ?_, atLeast, atMost, different⟩
  rcases lt_trichotomy v.number r.number with order | order | order
  · obtain rfl : lt = true := isBelow.mpr order
    obtain rfl : eq = false := Bool.eq_false_iff.mpr fun same => order.ne (isEqual.mp same)
    obtain rfl : gt = false := Bool.eq_false_iff.mpr fun more => order.asymm (isAbove.mp more)
    rfl
  · obtain rfl : lt = false := Bool.eq_false_iff.mpr fun less => (isBelow.mp less).ne order
    obtain rfl : eq = true := isEqual.mpr order
    obtain rfl : gt = false := Bool.eq_false_iff.mpr fun more => (isAbove.mp more).ne order.symm
    rfl
  · obtain rfl : lt = false := Bool.eq_false_iff.mpr fun less => order.asymm (isBelow.mp less)
    obtain rfl : eq = false := Bool.eq_false_iff.mpr fun same => order.ne (isEqual.mp same).symm
    obtain rfl : gt = true := isAbove.mpr order
    rfl

/-- What a constraint of well-formed clauses says about a version. -/
structure Meaning (v : Dotted) (constraint : String) : Prop where
  /-- The constraint is satisfied exactly when each of its clauses holds. -/
  decided : ∃ answer, satisfies v.text constraint = .ok answer ∧
    (answer = true ↔ ∀ w : Written, w.chars ∈ clauses constraint → w.Holds v)
  /-- The order of the clauses, repetitions and blank clauses do not matter. -/
  rearranged : ∀ other : String,
    (∀ text, ¬ Blank text → (text ∈ clauses other ↔ text ∈ clauses constraint)) →
      satisfies v.text other = satisfies v.text constraint
  /-- Nor does the spelling of the numbers in the clauses and of the version. -/
  respelled : ∀ {v' : Dotted} {other : String}, v.Respelled v' → v'.IsShort →
    List.Forall₂ SameClause (clauses constraint) (clauses other) →
      satisfies v'.text other = satisfies v.text constraint
  extended : satisfies (v.text ++ ".0") constraint = satisfies v.text constraint
  /-- Any two versions stand in exactly one of the three strict comparisons. -/
  ordered : ∀ r : Dotted, r.IsShort → ∃ lt eq gt, Answers v r lt eq gt
  transitive : ∀ sign ∈ ["<", "<=", "=", ">=", ">"], ∀ r t : Dotted, r.IsShort → t.IsShort →
    satisfies v.text (sign ++ r.text) = .ok true → satisfies r.text (sign ++ t.text) = .ok true →
      satisfies v.text (sign ++ t.text) = .ok true

theorem transitive_of_short (comparison : Comparison) (sign : List Char) {u : Dotted}
    (signed : sign ∈ comparison.signs)
    (trans : ∀ {s t u : Lex (ℕ → ℤ)}, comparison.Means s t → comparison.Means t u →
      comparison.Means s u)
    (short : v.IsShort) (shortR : r.IsShort) (shortU : u.IsShort)
    (first : satisfies v.text (String.ofList sign ++ r.text) = .ok true)
    (second : satisfies r.text (String.ofList sign ++ u.text) = .ok true) :
    satisfies v.text (String.ofList sign ++ u.text) = .ok true :=
  (satisfies_plain_iff signed short shortU).mpr <|
    trans ((satisfies_plain_iff signed short shortR).mp first)
      ((satisfies_plain_iff signed shortR shortU).mp second)

theorem wellFormed_of_rearranged {others : List (List Char)}
    (same : ∀ text, ¬ Blank text → (text ∈ others ↔ text ∈ pieces))
    (wellFormed : ∀ text ∈ pieces, WellFormed text) : ∀ text ∈ others, WellFormed text := by
  intro text member
  by_cases blank : Blank text
  · exact .blank blank
  · exact wellFormed text ((same text blank).mp member)

theorem satisfies_meaning (short : v.IsShort)
    (wellFormed : ∀ text ∈ clauses constraint, WellFormed text) : Meaning v constraint where
  decided := satisfies_of_wellFormed short wellFormed
  rearranged := fun other same => by
    refine satisfies_congr short short wellFormed (wellFormed_of_rearranged same wellFormed) ?_
    exact forall_congr' fun w => imp_congr_left (same w.chars w.nonblank)
  respelled := fun {v' other} spelled short' same => by
    refine satisfies_congr short short' wellFormed (wellFormed_of_sameClauses same wellFormed) ?_
    rw [holds_of_sameClauses same]
    simp only [Written.Holds, spelled.number]
  extended := by
    have short' := Dotted.isShort_extended short
    rw [← Dotted.text_extended]
    refine satisfies_congr short short' wellFormed wellFormed ?_
    simp only [Written.Holds, Dotted.Respelled.extended.number]
  ordered := fun r shortRequired => answers_of_short short shortRequired
  transitive := fun sign listed r u shortR shortU first second => by
    simp only [List.mem_cons, List.not_mem_nil, or_false] at listed
    rcases listed with rfl | rfl | rfl | rfl | rfl
    · exact transitive_of_short .below ['<'] (by decide) lt_trans short shortR shortU first second
    · exact transitive_of_short .atMost ['<', '='] (by decide) le_trans short shortR shortU first
        second
    · exact transitive_of_short .equal ['='] (by decide) Eq.trans short shortR shortU first second
    · exact transitive_of_short .atLeast ['>', '='] (by decide) (fun s t => le_trans t s) short
        shortR shortU first second
    · exact transitive_of_short .above ['>'] (by decide) (fun s t => lt_trans t s) short shortR
        shortU first second

/-- A version in a range that is given by two clauses, behind which a blank one stands. -/
theorem satisfies_meaning_of_range :
    let two : Component := ⟨['2'], List.cons_ne_nil _ _, List.forall_mem_singleton.mpr rfl⟩
    let four : Component := ⟨['0', '4'], List.cons_ne_nil _ _,
      List.forall_mem_cons.mpr ⟨rfl, List.forall_mem_singleton.mpr rfl⟩⟩
    let v : Dotted := ⟨[two, four], List.cons_ne_nil _ _⟩
    v.text = "2.04" ∧ v.IsShort ∧ (∀ text ∈ clauses ">= 2, <3, ", WellFormed text) ∧
      Meaning v ">= 2, <3, " := by
  intro two four v
  have short : v.IsShort := by simp [Dotted.IsShort, Component.IsShort, v, two, four, maxDigits]
  have space : Blank [' '] := by simp [Blank, isBlank_space]
  have nothing : Blank [] := fun _ member => absurd member List.not_mem_nil
  let three : Component := ⟨['3'], List.cons_ne_nil _ _, List.forall_mem_singleton.mpr rfl⟩
  let atLeast : Written := ⟨.atLeast, ['>', '='], ⟨[two], List.cons_ne_nil _ _⟩, [], [' '], [],
    by decide, nothing, space, nothing⟩
  let below : Written := ⟨.below, ['<'], ⟨[three], List.cons_ne_nil _ _⟩, [' '], [], [],
    by decide, space, nothing, nothing⟩
  have wellFormed : ∀ text ∈ clauses ">= 2, <3, ", WellFormed text := by
    have pieces : clauses ">= 2, <3, " = [atLeast.chars, below.chars, [' ']] := rfl
    rw [pieces, List.forall_mem_cons, List.forall_mem_cons, List.forall_mem_singleton]
    refine ⟨.written atLeast ?_, .written below ?_, .blank space⟩
    · simp [Dotted.IsShort, Component.IsShort, atLeast, two, maxDigits]
    · simp [Dotted.IsShort, Component.IsShort, below, three, maxDigits]
  exact ⟨by decide, short, wellFormed, satisfies_meaning short wellFormed⟩

end MachinePlan.Version
