import MachinePlan.Proofs.Version.Meaning

/-!
# Which clause decides

The clauses of a constraint are checked one after another, and the first one that is not satisfied,
not well formed or too long to be read decides (`checkClauses_eq_iff`). A malformed clause is
reported where it decides (`malformed_reported`); behind a clause that is not satisfied it goes
unnoticed (`malformed_reported_fails`).
-/

namespace MachinePlan.Version

open Text

/-- A clause that is neither blank nor a sign and a dotted number. -/
def Malformed (text : List Char) : Prop := ¬ Blank text ∧ ∀ w : Written, w.chars ≠ text

/-- A clause that asks for nothing, or for something that holds of the version. -/
def Satisfied (v : Dotted) (text : List Char) : Prop :=
  Blank text ∨ ∃ w : Written, w.chars = text ∧ w.Holds v

/-- A clause in which all numbers to be compared are short enough to be read. -/
def Readable (v : Dotted) (text : List Char) : Prop :=
  ∀ w : Written, w.chars = text → v.IsShort ∧ w.required.IsShort

/-- A clause that is checked and then followed by the next one. -/
def Passes (v : Dotted) (text : List Char) : Prop := Satisfied v text ∧ Readable v text

/-- The answer of a clause that is the last to be checked. -/
inductive Decides (v : Dotted) : List Char → Except Failure Bool → Prop
  | malformed {text : List Char} (malformed : Malformed text) :
      Decides v text (.error (.config (.badClause (String.ofList (trim text)))))
  | unsatisfied (w : Written) (short : v.IsShort) (shortRequired : w.required.IsShort)
      (fails : ¬ w.Holds v) : Decides v w.chars (.ok false)
  | tooLong (w : Written) (long : ¬ (v.IsShort ∧ w.required.IsShort)) :
      Decides v w.chars (.error (.fault .value))

/-- The answer of a row of clauses: all of them pass, or the first that does not pass decides. -/
inductive Settled (v : Dotted) : List (List Char) → Except Failure Bool → Prop
  | passed {pieces : List (List Char)} (all : ∀ text ∈ pieces, Passes v text) :
      Settled v pieces (.ok true)
  | decided {before after : List (List Char)} {text : List Char} {answer : Except Failure Bool}
      (passed : ∀ text ∈ before, Passes v text) (decides : Decides v text answer) :
      Settled v (before ++ text :: after) answer

variable {cs text : List Char} {v r : Dotted} {pieces before after : List (List Char)}
  {constraint : String} {clause : Clause} {comparison : Comparison} {answer : Except Failure Bool}

/-! ### What is read as a clause -/

theorem blank_iff_trim : Blank text ↔ trim text = [] := by
  constructor
  · exact trim_of_blank
  · intro nothing
    obtain ⟨front, back, whole, blankFront, blankBack⟩ := exists_trimBy isBlank text
    have kept : trimBy isBlank text = [] := nothing
    rw [kept, List.append_nil] at whole
    intro c member
    rw [whole] at member
    exact (List.mem_append.mp member).elim (blankFront c) (blankBack c)

/-- A comparison is taken off as one of its signs. -/
theorem exists_sign (cs : List Char) :
    ∃ sign ∈ (takeComparison cs).1.signs, cs = sign ++ (takeComparison cs).2 := by
  unfold takeComparison
  split
  · exact ⟨['>', '='], by simp [Comparison.signs], rfl⟩
  · exact ⟨['<', '='], by simp [Comparison.signs], rfl⟩
  · exact ⟨['=', '='], by simp [Comparison.signs], rfl⟩
  · exact ⟨['!', '='], by simp [Comparison.signs], rfl⟩
  · exact ⟨['>'], by simp [Comparison.signs], rfl⟩
  · exact ⟨['<'], by simp [Comparison.signs], rfl⟩
  · exact ⟨['='], by simp [Comparison.signs], rfl⟩
  · exact ⟨[], by simp [Comparison.signs], rfl⟩

theorem exists_written (read : Clause.ofText? text = some clause) :
    ∃ w : Written, w.chars = text ∧ clause = ⟨w.comparison, w.required.chars⟩ := by
  obtain ⟨front, back, whole, blankFront, blankBack⟩ := exists_trimBy isBlank text
  obtain ⟨sign, signed, behind⟩ := exists_sign (trim text)
  have split := List.takeWhile_append_dropWhile (p := isBlank) (l := (takeComparison (trim text)).2)
  simp only [Clause.ofText?] at read
  split at read
  case isFalse => cases read
  case isTrue number =>
    simp only [Bool.and_eq_true, beq_iff_eq, Option.any_eq_true] at number
    obtain ⟨⟨x, first, digit⟩, taken⟩ := number
    obtain ⟨rest, required⟩ := List.head?_eq_some_iff.mp first
    obtain ⟨d, chars⟩ := Dotted.exists_chars_eq digit rest
    rw [required] at taken
    rw [taken, ← required] at chars
    refine ⟨⟨_, sign, d, front, (takeComparison (trim text)).2.takeWhile isBlank, back, signed,
      blankFront, fun c => List.mem_takeWhile_imp, blankBack⟩, ?_, ?_⟩
    · simp only [Written.chars, chars, List.append_assoc]
      rw [← List.append_assoc _ _ back, split, ← List.append_assoc sign, ← behind,
        ← List.append_assoc]
      exact whole.symm
    · rw [chars]
      exact (Option.some.inj read).symm

theorem ofText?_eq_none_iff : Clause.ofText? text = none ↔ ∀ w : Written, w.chars ≠ text := by
  constructor
  · rintro unread w rfl
    cases unread.symm.trans w.ofText?_chars
  · intro unwritten
    rw [Option.eq_none_iff_forall_ne_some]
    intro clause read
    obtain ⟨w, chars, -⟩ := exists_written read
    exact unwritten w chars

/-! ### Checking a clause -/

theorem check_of_long (comparison : Comparison) (long : ¬ (v.IsShort ∧ r.IsShort)) :
    Clause.check v.text ⟨comparison, r.chars⟩ = .error (.fault .value) := by
  have unread {d : Dotted} (long : ¬ d.IsShort) : components d.text = .error (.fault .value) := by
    rw [components, Dotted.components?_text_of_long long]
  rw [Clause.check, ← Dotted.text]
  by_cases short : v.IsShort
  · have actual : components v.text = .ok v.values := by
      rw [components, Dotted.components?_text short]
    rw [actual, unread fun shortRequired => long ⟨short, shortRequired⟩]
    rfl
  · rw [unread short]
    rfl

theorem Passes.check (passes : Passes v text) (rest : List (List Char)) :
    checkClauses v.text (text :: rest) = checkClauses v.text rest := by
  obtain ⟨blank | ⟨w, rfl, holds⟩, readable⟩ := passes
  · exact checkClauses_of_blank blank _ _
  · obtain ⟨short, shortRequired⟩ := readable w rfl
    obtain ⟨here, checked, verdict⟩ := check_of_short w.comparison short shortRequired
    rw [checkClauses_written, checked, verdict.mpr holds]
    rfl

theorem Decides.check (decides : Decides v text answer) (rest : List (List Char)) :
    checkClauses v.text (text :: rest) = answer := by
  cases decides with
  | malformed malformed =>
    obtain ⟨some, unwritten⟩ := malformed
    rw [blank_iff_trim] at some
    rw [checkClauses, if_neg (by simpa using some), ofText?_eq_none_iff.mpr unwritten]
  | unsatisfied w short shortRequired fails =>
    obtain ⟨here, checked, verdict⟩ := check_of_short w.comparison short shortRequired
    have no : here = false := Bool.eq_false_iff.mpr fun yes => fails (verdict.mp yes)
    rw [checkClauses_written, checked, no]
    rfl
  | tooLong w long =>
    rw [checkClauses_written, check_of_long w.comparison long]
    rfl

/-- A clause passes, or it decides. -/
theorem passes_or_decides (v : Dotted) (text : List Char) :
    Passes v text ∨ ∃ answer, Decides v text answer := by
  by_cases blank : Blank text
  · exact .inl ⟨.inl blank, fun w same => absurd (same ▸ blank) w.nonblank⟩
  by_cases written : ∃ w : Written, w.chars = text
  · obtain ⟨w, rfl⟩ := written
    by_cases short : v.IsShort ∧ w.required.IsShort
    · by_cases holds : w.Holds v
      · refine .inl ⟨.inr ⟨w, rfl, holds⟩, fun other same => ⟨short.1, ?_⟩⟩
        rw [(Written.eq_of_chars same).2]
        exact short.2
      · exact .inr ⟨_, .unsatisfied w short.1 short.2 holds⟩
    · exact .inr ⟨_, .tooLong w short⟩
  · exact .inr ⟨_, .malformed ⟨blank, fun w same => written ⟨w, same⟩⟩⟩

/-! ### Checking a row -/

theorem Settled.cons (passes : Passes v text) (settled : Settled v pieces answer) :
    Settled v (text :: pieces) answer := by
  cases settled with
  | passed all => exact .passed (List.forall_mem_cons.mpr ⟨passes, all⟩)
  | decided passed decides =>
    rw [← List.cons_append]
    exact .decided (List.forall_mem_cons.mpr ⟨passes, passed⟩) decides

theorem checkClauses_settled (v : Dotted) (pieces : List (List Char)) :
    Settled v pieces (checkClauses v.text pieces) := by
  induction pieces with
  | nil => exact .passed (by simp)
  | cons text pieces ih =>
    rcases passes_or_decides v text with passes | ⟨answer, decides⟩
    · rw [passes.check]
      exact ih.cons passes
    · rw [decides.check]
      have first : Settled v ([] ++ text :: pieces) answer := .decided (by simp) decides
      exact first

theorem checkClauses_append (passed : ∀ text ∈ before, Passes v text) (rest : List (List Char)) :
    checkClauses v.text (before ++ rest) = checkClauses v.text rest := by
  induction before with
  | nil => rfl
  | cons text before ih =>
    rw [List.forall_mem_cons] at passed
    rw [List.cons_append, passed.1.check, ih passed.2]

/-- The answer of a row is known from its clauses. -/
theorem checkClauses_eq_iff : checkClauses v.text pieces = answer ↔ Settled v pieces answer := by
  constructor
  · rintro rfl
    exact checkClauses_settled v pieces
  · intro settled
    cases settled with
    | passed all =>
      have whole := checkClauses_append all []
      rw [List.append_nil] at whole
      rw [whole, checkClauses]
    | decided passed decides => rw [checkClauses_append passed, decides.check]

theorem satisfies_eq_iff :
    satisfies v.text constraint = answer ↔ Settled v (clauses constraint) answer :=
  checkClauses_eq_iff

/-- When a malformed clause is reported. -/
structure Reported (v : Dotted) (constraint : String) : Prop where
  /-- There is a problem exactly where a malformed clause is the first that does not pass, and the
  problem quotes this clause. -/
  reported_iff : ∀ problem, satisfies v.text constraint = .error (.config problem) ↔
    ∃ before text after, clauses constraint = before ++ text :: after ∧
      (∀ text ∈ before, Passes v text) ∧ Malformed text ∧
      problem = .badClause (String.ofList (trim text))
  /-- With a malformed clause anywhere, no version is accepted. -/
  refused : (∃ text ∈ clauses constraint, Malformed text) →
    satisfies v.text constraint ≠ .ok true

theorem Malformed.not_satisfied (malformed : Malformed text) : ¬ Satisfied v text := by
  obtain ⟨some, unwritten⟩ := malformed
  rintro (blank | ⟨w, chars, -⟩)
  · exact some blank
  · exact unwritten w chars

/-- A malformed clause is reported where every clause in front of it passes. -/
theorem malformed_reported (v : Dotted) (constraint : String) : Reported v constraint where
  reported_iff := by
    intro problem
    rw [satisfies_eq_iff]
    constructor
    · generalize rows : clauses constraint = pieces
      generalize failed : Except.error (Failure.config problem) = answer
      rintro (all | ⟨passed, decides⟩)
      · cases failed
      · cases decides with
        | malformed malformed =>
          cases failed
          exact ⟨_, _, _, rfl, passed, malformed, rfl⟩
        | unsatisfied => cases failed
        | tooLong => cases failed
    · rintro ⟨before, text, after, rows, passed, malformed, rfl⟩
      rw [rows]
      exact .decided passed (.malformed malformed)
  refused := by
    rintro ⟨text, member, malformed⟩ accepted
    rw [satisfies_eq_iff] at accepted
    generalize rows : clauses constraint = pieces at accepted member
    generalize yes : Except.ok true = answer at accepted
    rcases accepted with all | ⟨-, decides⟩
    · exact malformed.not_satisfied (all text member).1
    · cases decides <;> cases yes

/-- Behind a clause that is not satisfied, a malformed one is not reported. -/
theorem malformed_reported_fails :
    ¬ ∀ (v : Dotted) (constraint : String),
      (∃ problem, satisfies v.text constraint = .error (.config problem)) ↔
        ∃ text ∈ clauses constraint, Malformed text := by
  intro always
  let two : Component := ⟨['2'], List.cons_ne_nil _ _, List.forall_mem_singleton.mpr rfl⟩
  let four : Component := ⟨['4'], List.cons_ne_nil _ _, List.forall_mem_singleton.mpr rfl⟩
  let v : Dotted := ⟨[two, four], List.cons_ne_nil _ _⟩
  have ran : satisfies v.text "< 2, ~> 2.4" = .ok false := by decide
  have rows : clauses "< 2, ~> 2.4" = ["< 2".toList, " ~> 2.4".toList] := by decide
  have some : ¬ Blank " ~> 2.4".toList := by
    rw [blank_iff_trim]
    decide
  have malformed : Malformed " ~> 2.4".toList := ⟨some, ofText?_eq_none_iff.mp (by decide)⟩
  obtain ⟨problem, failed⟩ :=
    (always v "< 2, ~> 2.4").mpr ⟨_, by simp [rows], malformed⟩
  cases ran.symm.trans failed

end MachinePlan.Version
