import MachinePlan.Backend.Scripted
import MachinePlan.Backend.Version
import MachinePlan.Proofs.Version.Deciding
import MachinePlan.Proofs.Version.Search

/-!
# Accepting a backend

A backend is accepted, refused for its version, or not judged because of a malformed constraint. As
long as no run of digits is too long to be read, it comes to one of these three, and the first
clause that is not satisfied tells which (`checkVersion_gated`).
-/

namespace MachinePlan

open Text

namespace Version

/-- A text whose runs of digits are short enough to be read. -/
def ShortRuns (cs : List Char) : Prop :=
  ∀ run, run <:+: cs → (∀ c ∈ run, isDigit c = true) → run.length ≤ maxDigits

variable {cs : List Char} {d v : Dotted} {output constraint : String}

theorem ShortRuns.isShort (short : ShortRuns cs) (inside : d.chars <:+: cs) : d.IsShort := by
  intro c member
  have part : c.digits <:+: d.chars := infix_intercalate ['.'] (List.mem_map_of_mem member)
  exact short c.digits (part.trans inside) c.decimal

theorem ShortRuns.isShort_of_found (short : ShortRuns output.toList)
    (found : ofOutput? output = some d.text) : d.IsShort := by
  obtain ⟨before, e, after, here, same⟩ := ofOutput?_eq_some_iff.mp found
  obtain rfl := Dotted.text_injective same
  refine short.isShort ⟨before, after, ?_⟩
  rw [here.whole, List.append_assoc]

theorem ShortRuns.readable (short : ShortRuns constraint.toList) (shortVersion : v.IsShort) :
    ∀ text ∈ clauses constraint, Readable v text := by
  rintro text member w rfl
  have inside : w.required.chars <:+: w.chars := ⟨_, w.after, rfl⟩
  exact ⟨shortVersion, short.isShort (inside.trans (infix_of_mem_splitAt member))⟩

end Version

namespace Backend

open Version

/-- How a backend is judged by what it says about its version. -/
structure Gate (name output constraint : String) (outcome : Except Failure String) : Prop where
  returned_iff : ∀ version, outcome = .ok version ↔
    ∃ v : Dotted, version = v.text ∧ ofOutput? output = some v.text ∧
      ∀ text ∈ clauses constraint, ¬ Blank text → ∃ w : Written, w.chars = text ∧ w.Holds v
  /-- No version is found, or an unsatisfied clause comes before any malformed one. -/
  refused_iff : ∀ problem, outcome = .error (.problem (.version problem)) ↔
    (ofOutput? output = none ∧ problem = .unknown name (quotedOutput output) constraint) ∨
      ∃ v : Dotted, ofOutput? output = some v.text ∧ problem = .unsupported name v.text constraint ∧
        ∃ before, ∃ w : Written, ∃ after, clauses constraint = before ++ w.chars :: after ∧
          ¬ w.Holds v ∧ ∀ text ∈ before, ¬ Malformed text
  /-- Otherwise there is a malformed clause, with none before it that is not satisfied. -/
  malformed_iff : ∀ problem, outcome = .error (.config problem) ↔
    ∃ v : Dotted, ofOutput? output = some v.text ∧
      ∃ before text after, clauses constraint = before ++ text :: after ∧ Malformed text ∧
        (∀ other ∈ before, Satisfied v other) ∧ problem = .badClause (String.ofList (trim text))
  ended : (∃ version, outcome = .ok version) ∨
    (∃ problem, outcome = .error (.problem (.version problem))) ∨
      ∃ problem, outcome = .error (.config problem)

variable {name output constraint version : String} {v : Dotted} {text : List Char}

theorem acceptVersion_of_found (found : ofOutput? output = some version) :
    acceptVersion name output constraint = satisfies version constraint >>= fun yes =>
      if yes then .ok version
      else .error (.problem (.version (.unsupported name version constraint))) := by
  rw [acceptVersion, found]
  rfl

/-- The four ways in which a version is judged. -/
inductive Judged (name output constraint : String) : Except Failure String → Prop
  | unknown (found : ofOutput? output = none) : Judged name output constraint
      (.error (.problem (.version (.unknown name (quotedOutput output) constraint))))
  | accepted (v : Dotted) (found : ofOutput? output = some v.text)
      (all : ∀ text ∈ clauses constraint, Satisfied v text) : Judged name output constraint
      (.ok v.text)
  | unsupported (v : Dotted) (found : ofOutput? output = some v.text)
      {before after : List (List Char)} (w : Written)
      (rows : clauses constraint = before ++ w.chars :: after)
      (passed : ∀ text ∈ before, Satisfied v text) (fails : ¬ w.Holds v) :
      Judged name output constraint
        (.error (.problem (.version (.unsupported name v.text constraint))))
  | malformed (v : Dotted) (found : ofOutput? output = some v.text)
      {before after : List (List Char)} {text : List Char}
      (rows : clauses constraint = before ++ text :: after)
      (passed : ∀ text ∈ before, Satisfied v text) (malformed : Malformed text) :
      Judged name output constraint
        (.error (.config (.badClause (String.ofList (trim text)))))

section
variable (shortOutput : ShortRuns output.toList) (shortConstraint : ShortRuns constraint.toList)
include shortOutput shortConstraint

theorem judged_acceptVersion (name : String) :
    Judged name output constraint (acceptVersion name output constraint) := by
  cases found : ofOutput? output with
  | none =>
    rw [acceptVersion, found]
    exact .unknown found
  | some version =>
    obtain ⟨_, v, _, -, rfl⟩ := ofOutput?_eq_some_iff.mp found
    have readable := shortConstraint.readable (shortOutput.isShort_of_found found)
    have settled : Settled v (clauses constraint) (satisfies v.text constraint) :=
      checkClauses_settled v (clauses constraint)
    rw [acceptVersion_of_found found]
    generalize rows : clauses constraint = pieces at settled readable
    generalize satisfies v.text constraint = answer at settled
    cases settled with
    | passed all =>
      rw [← rows] at all
      exact .accepted v found fun text member => (all text member).1
    | decided passed decides =>
      have passed := fun text member => (passed text member).1
      cases decides with
      | malformed malformed => exact .malformed v found rows passed malformed
      | unsatisfied w _ _ fails => exact .unsupported v found w rows passed fails
      | tooLong w long => exact absurd (readable w.chars (by simp) w rfl) long

theorem acceptVersion_of_judged {outcome : Except Failure String}
    (judged : Judged name output constraint outcome) :
    acceptVersion name output constraint = outcome := by
  have readable {v : Dotted} (found : ofOutput? output = some v.text) :=
    shortConstraint.readable (shortOutput.isShort_of_found found)
  cases judged with
  | unknown found => rw [acceptVersion, found]
  | accepted v found all =>
    have settled : Settled v (clauses constraint) (.ok true) :=
      .passed fun text member => ⟨all text member, readable found text member⟩
    rw [acceptVersion_of_found found, satisfies_eq_iff.mpr settled]
    rfl
  | unsupported v found w rows passed fails =>
    have readable := readable found
    rw [rows] at readable
    have short := readable w.chars (by simp) w rfl
    have settled : Settled v (clauses constraint) (.ok false) := by
      rw [rows]
      refine .decided (fun text member => ⟨passed text member, ?_⟩)
        (.unsatisfied w short.1 short.2 fails)
      exact readable text (by simp [member])
    rw [acceptVersion_of_found found, satisfies_eq_iff.mpr settled]
    rfl
  | @malformed v found before after text rows passed malformed =>
    have readable := readable found
    rw [rows] at readable
    have settled : Settled v (clauses constraint)
        (.error (.config (.badClause (String.ofList (trim text))))) := by
      rw [rows]
      refine .decided (fun text member => ⟨passed text member, ?_⟩) (.malformed malformed)
      exact readable text (by simp [member])
    rw [acceptVersion_of_found found, satisfies_eq_iff.mpr settled]
    rfl

theorem acceptVersion_eq_iff {outcome : Except Failure String} :
    acceptVersion name output constraint = outcome ↔ Judged name output constraint outcome := by
  constructor
  · rintro rfl
    exact judged_acceptVersion shortOutput shortConstraint name
  · exact acceptVersion_of_judged shortOutput shortConstraint

end

/-- Where an unsatisfied clause has no malformed one before it, the first clause that is not
satisfied is well formed. -/
theorem exists_first_unsatisfied {before : List (List Char)} (w : Written)
    (after : List (List Char)) (fails : ¬ w.Holds v)
    (wellFormed : ∀ text ∈ before, ¬ Malformed text) :
    ∃ passed, ∃ first : Written, ∃ rest,
      before ++ w.chars :: after = passed ++ first.chars :: rest ∧
        (∀ text ∈ passed, Satisfied v text) ∧ ¬ first.Holds v := by
  induction before with
  | nil => exact ⟨[], w, after, rfl, by simp, fails⟩
  | cons text before ih =>
    rw [List.forall_mem_cons] at wellFormed
    by_cases satisfied : Satisfied v text
    · obtain ⟨passed, first, rest, rows, all, unsatisfied⟩ := ih wellFormed.2
      refine ⟨text :: passed, first, rest, ?_, ?_, unsatisfied⟩
      · rw [List.cons_append, rows, List.cons_append]
      · exact List.forall_mem_cons.mpr ⟨satisfied, all⟩
    · rw [Satisfied, not_or] at satisfied
      have written : ∃ w : Written, w.chars = text := by
        by_contra unwritten
        exact wellFormed.1 ⟨satisfied.1, fun w same => unwritten ⟨w, same⟩⟩
      obtain ⟨first, rfl⟩ := written
      exact ⟨[], first, _, rfl, by simp, fun holds => satisfied.2 ⟨first, rfl, holds⟩⟩

/-- A backend comes to one of three ends, which its output and the constraint tell. -/
theorem checkVersion_gated {σ : Type} (b : Backend σ) (s : σ) (constraint : String)
    (shortOutput : ShortRuns (b.version s).1.toList)
    (shortConstraint : ShortRuns constraint.toList) :
    Gate b.name (b.version s).1 constraint ((b.checkVersion constraint).run s).1 := by
  have asked : ((b.checkVersion constraint).run s).1 =
      acceptVersion b.name (b.version s).1 constraint := by
    simp only [checkVersion, Step.run_bind, Step.run_action, Step.run_outcome]
  have judged (outcome : Except Failure String) :
      acceptVersion b.name (b.version s).1 constraint = outcome ↔
        Judged b.name (b.version s).1 constraint outcome :=
    acceptVersion_eq_iff shortOutput shortConstraint
  rw [asked]
  constructor
  case returned_iff =>
    intro version
    rw [judged]
    constructor
    · rintro (_ | ⟨v, found, all⟩)
      exact ⟨v, rfl, found, fun text member some => (all text member).resolve_left some⟩
    · rintro ⟨v, rfl, found, all⟩
      refine .accepted v found fun text member => ?_
      by_cases blank : Blank text
      · exact .inl blank
      · exact .inr (all text member blank)
  case refused_iff =>
    intro problem
    rw [judged]
    constructor
    · generalize failed : Except.error (Failure.problem (.version problem)) = outcome
      rintro (found | _ | ⟨v, found, w, rows, passed, fails⟩ | _)
      · cases failed
        exact .inl ⟨found, rfl⟩
      · cases failed
      · cases failed
        refine .inr ⟨v, found, rfl, _, w, _, rows, fails, fun text member malformed => ?_⟩
        exact malformed.not_satisfied (passed text member)
      · cases failed
    · rintro (⟨found, rfl⟩ | ⟨v, found, rfl, before, w, after, rows, fails, wellFormed⟩)
      · exact .unknown found
      · obtain ⟨passed, first, rest, same, all, unsatisfied⟩ :=
          exists_first_unsatisfied w after fails wellFormed
        exact .unsupported v found first (rows.trans same) all unsatisfied
  case malformed_iff =>
    intro problem
    rw [judged]
    constructor
    · generalize failed : Except.error (Failure.config problem) = outcome
      rintro (_ | _ | _ | ⟨v, found, rows, passed, malformed⟩)
      · cases failed
      · cases failed
      · cases failed
      · cases failed
        exact ⟨v, found, _, _, _, rows, malformed, passed, rfl⟩
    · rintro ⟨v, found, before, text, after, rows, malformed, passed, rfl⟩
      exact .malformed v found rows passed malformed
  case ended =>
    have ends := (judged _).mp rfl
    generalize acceptVersion b.name (b.version s).1 constraint = outcome at ends
    cases ends with
    | unknown => exact .inr (.inl ⟨_, rfl⟩)
    | accepted v => exact .inl ⟨v.text, rfl⟩
    | unsupported => exact .inr (.inl ⟨_, rfl⟩)
    | malformed => exact .inr (.inr ⟨_, rfl⟩)

theorem shortRuns_of_length {cs : List Char} (short : cs.length ≤ maxDigits) : ShortRuns cs :=
  fun _ inside _ => inside.length_le.trans short

/-- A tool that answers with a version in the range. -/
theorem checkVersion_gated_inRange :
    let b := BackendScript.backend ⟨"vagrant", "Vagrant 2.4.1\n", [], []⟩
    ShortRuns (b.version []).1.toList ∧ ShortRuns ">= 2.2.0, < 3.0".toList ∧
      Gate b.name (b.version []).1 ">= 2.2.0, < 3.0"
        ((b.checkVersion ">= 2.2.0, < 3.0").run []).1 := by
  intro b
  have shortOutput : ShortRuns (b.version []).1.toList := shortRuns_of_length (by decide)
  have shortConstraint : ShortRuns ">= 2.2.0, < 3.0".toList := shortRuns_of_length (by decide)
  exact ⟨shortOutput, shortConstraint, checkVersion_gated b [] _ shortOutput shortConstraint⟩

end Backend

end MachinePlan
