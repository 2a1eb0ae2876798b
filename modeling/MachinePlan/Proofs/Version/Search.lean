import MachinePlan.Proofs.Version.Dotted
import Mathlib.Data.Nat.Find

/-!
# Finding a version

The version in the output of a tool is the first dotted number of at least two components: it begins
at the earliest run of digits that a point and a digit stand behind, and it goes as far as digits
and points in front of digits go (`ofOutput?_found`).
-/

namespace MachinePlan.Version

open Text

/-- Behind `left` stands a run of digits, and behind that a point and a digit. -/
structure PointBehind (cs left run : List Char) : Prop where
  nonempty : run ≠ []
  digits : ∀ c ∈ run, isDigit c = true
  followed : ∃ x right, isDigit x = true ∧ cs = left ++ (run ++ '.' :: x :: right)

/-- The first dotted number of at least two components, with what stands around it. -/
structure Leftmost (cs before : List Char) (d : Dotted) (after : List Char) : Prop where
  whole : cs = before ++ (d.chars ++ after)
  several : 2 ≤ d.components.length
  /-- No run of digits with a point and a digit behind it begins earlier. -/
  first : ∀ left run, PointBehind cs left run → before.length ≤ left.length
  apart : ∀ c ∈ before.getLast?, isDigit c = false
  ended : ¬ GoesOn after

/-- What is found in a text. -/
structure Found (text : String) : Prop where
  none_iff : ofOutput? text = none ↔ ¬ ∃ left c, PointBehind text.toList left [c]
  some_iff : ∀ version, ofOutput? text = some version ↔
    ∃ before d after, Leftmost text.toList before d after ∧ version = d.text
  again : ∀ version, ofOutput? text = some version → ofOutput? version = some version
  embedded : ∀ (front : String) (d : Dotted) (back : String), text = front ++ d.text ++ back →
    2 ≤ d.components.length → (∀ c ∈ front.toList, isDigit c = false) → ¬ GoesOn back.toList →
      ofOutput? text = some d.text

variable {c : Char} {cs left run before after : List Char} {d : Dotted} {text : String}

/-! ### Points behind digits -/

namespace PointBehind

theorem cons_iff : PointBehind (c :: cs) (c :: left) run ↔ PointBehind cs left run := by
  constructor
  · rintro ⟨some, digits, x, right, digit, whole⟩
    exact ⟨some, digits, x, right, digit, (List.cons.inj whole).2⟩
  · rintro ⟨some, digits, x, right, digit, rfl⟩
    exact ⟨some, digits, x, right, digit, rfl⟩

theorem last (point : PointBehind cs left run) : ∃ left c, PointBehind cs left [c] := by
  obtain ⟨some, digits, x, right, digit, rfl⟩ := point
  obtain ⟨init, c, rfl⟩ := (List.eq_nil_or_concat' run).resolve_left some
  exact ⟨left ++ init, c, List.cons_ne_nil _ _, by simpa using digits c (by simp),
    x, right, digit, by simp⟩

/-- A dotted number of several components begins with digits that a point stands behind. -/
theorem of_several (several : 2 ≤ d.components.length) (whole : cs = before ++ (d.chars ++ after)) :
    ∃ run, PointBehind cs before run := by
  obtain ⟨c, e, rfl⟩ := Dotted.exists_eq_cons several
  obtain ⟨x, rest, same, digit⟩ := e.exists_cons_chars
  refine ⟨c.digits, c.nonempty, c.decimal, x, rest ++ after, digit, ?_⟩
  rw [whole, Dotted.chars_cons, same]
  simp

/-- Where digits with a point behind them stand in front, a dotted number of several components is
taken. -/
theorem taken (point : PointBehind cs [] run) :
    ∃ d : Dotted, d.chars = takeDotted cs ∧ 2 ≤ d.components.length := by
  obtain ⟨some, digits, x, right, digit, rfl⟩ := point
  obtain ⟨d, same⟩ : ∃ d : Dotted, d.chars = run ++ takeDotted ('.' :: x :: right) :=
    Dotted.exists_chars_eq_append digits (.inl some)
  have whole : takeDotted ([] ++ (run ++ '.' :: x :: right)) = d.chars := by
    rw [same, List.nil_append, takeDotted_digits_append digits]
  refine ⟨d, whole.symm, Dotted.several_of_point ?_⟩
  rw [same, takeDotted_point digit]
  simp

end PointBehind

/-! ### The search -/

theorem findIn_of_pointBehind (point : PointBehind cs [] run) :
    findIn cs = some (takeDotted cs) := by
  obtain ⟨d, same, several⟩ := point.taken
  obtain ⟨some, digits, x, right, digit, rfl⟩ := point
  obtain ⟨c, rest, rfl⟩ := List.exists_cons_of_ne_nil some
  have first := digits c List.mem_cons_self
  have point : '.' ∈ takeDotted (c :: (rest ++ '.' :: x :: right)) := by
    have taken := takeDotted_digits_append digits ('.' :: x :: right)
    rw [List.cons_append] at taken
    rw [taken, takeDotted_point digit]
    simp
  rw [List.nil_append, List.cons_append, findIn, if_pos (by simp [first, point])]

theorem findIn_cons_of_not_pointBehind (nowhere : ∀ run, ¬ PointBehind (c :: cs) [] run) :
    findIn (c :: cs) = findIn cs := by
  refine if_neg fun here => ?_
  simp only [Bool.and_eq_true, List.contains_iff_mem] at here
  obtain ⟨d, same⟩ := Dotted.exists_chars_eq here.1 cs
  obtain ⟨after, whole, -⟩ := exists_takeDotted (c :: cs)
  rw [← same] at here whole
  rw [← List.nil_append (d.chars ++ after)] at whole
  obtain ⟨run, point⟩ := PointBehind.of_several (Dotted.several_of_point here.2) whole
  exact nowhere run point

theorem findIn_eq_none (nowhere : ∀ left run, ¬ PointBehind cs left run) : findIn cs = none := by
  induction cs with
  | nil => rfl
  | cons c cs ih =>
    rw [findIn_cons_of_not_pointBehind (nowhere [])]
    exact ih fun left run point => nowhere (c :: left) run (PointBehind.cons_iff.mpr point)

/-- The search comes to the dotted number that begins first, and takes all of it. -/
theorem findIn_of_first (whole : cs = before ++ (d.chars ++ after))
    (several : 2 ≤ d.components.length)
    (first : ∀ left run, PointBehind cs left run → before.length ≤ left.length)
    (ended : ¬ GoesOn after) : findIn cs = some d.chars := by
  induction before generalizing cs with
  | nil =>
    obtain ⟨run, point⟩ := PointBehind.of_several several whole
    rw [findIn_of_pointBehind point, whole, List.nil_append, d.takeDotted_append ended]
  | cons c before ih =>
    subst whole
    have later : ∀ run, ¬ PointBehind (c :: (before ++ (d.chars ++ after))) [] run :=
      fun run point => absurd (first [] run point) (by simp)
    rw [List.cons_append, findIn_cons_of_not_pointBehind later]
    refine ih rfl fun left run point => ?_
    simpa using first (c :: left) run (PointBehind.cons_iff.mpr point)

theorem findIn_of_leftmost (here : Leftmost cs before d after) : findIn cs = some d.chars :=
  findIn_of_first here.whole here.several here.first here.ended

theorem apart_of_first (whole : cs = before ++ (d.chars ++ after))
    (several : 2 ≤ d.components.length)
    (first : ∀ left run, PointBehind cs left run → before.length ≤ left.length) :
    ∀ c ∈ before.getLast?, isDigit c = false := by
  intro c last
  obtain ⟨init, rfl⟩ := List.getLast?_eq_some_iff.mp last
  by_contra digit
  -- a digit in front of the number would be the beginning of an earlier run
  obtain ⟨run, some, digits, x, right, next, same⟩ := PointBehind.of_several several whole
  have earlier : PointBehind cs init (c :: run) := by
    refine ⟨List.cons_ne_nil _ _, ?_, x, right, next, by simp [same]⟩
    exact List.forall_mem_cons.mpr ⟨by simpa using digit, digits⟩
  have length := first init _ earlier
  rw [List.length_append] at length
  exact absurd length (Nat.not_succ_le_self init.length)

/-- Where a point stands behind digits anywhere, there is a first dotted number. -/
theorem exists_leftmost (point : PointBehind cs left run) :
    ∃ before d after, Leftmost cs before d after := by
  classical
  have some : ∃ n, ∃ left run, left.length = n ∧ PointBehind cs left run :=
    ⟨_, left, run, rfl, point⟩
  obtain ⟨before, run, length, point⟩ := Nat.find_spec some
  have first : ∀ left run, PointBehind cs left run → before.length ≤ left.length := by
    intro left run other
    rw [length]
    exact Nat.find_min' some ⟨left, run, rfl, other⟩
  obtain ⟨nonempty, digits, x, right, digit, rfl⟩ := point
  have front : PointBehind (run ++ '.' :: x :: right) [] run :=
    ⟨nonempty, digits, x, right, digit, rfl⟩
  obtain ⟨d, same, several⟩ := front.taken
  obtain ⟨after, rest, ended⟩ := exists_takeDotted (run ++ '.' :: x :: right)
  rw [← same] at rest
  have whole : before ++ (run ++ '.' :: x :: right) = before ++ (d.chars ++ after) := by rw [← rest]
  exact ⟨before, d, after, whole, several, first, apart_of_first whole several first, ended⟩

theorem leftmost_of_findIn {found : List Char} (search : findIn cs = some found) :
    ∃ before d after, Leftmost cs before d after ∧ found = d.chars := by
  by_cases point : ∃ left run, PointBehind cs left run
  · obtain ⟨left, run, point⟩ := point
    obtain ⟨before, d, after, here⟩ := exists_leftmost point
    exact ⟨before, d, after, here, Option.some.inj (search.symm.trans (findIn_of_leftmost here))⟩
  · have nothing := findIn_eq_none fun left run here => point ⟨left, run, here⟩
    cases search.symm.trans nothing

/-! ### Around a dotted number -/

/-- Digits with a point behind them do not begin in a text without digits. -/
theorem length_le_of_pointBehind (plain : ∀ c ∈ before, isDigit c = false)
    (point : PointBehind (before ++ after) left run) : before.length ≤ left.length := by
  obtain ⟨some, digits, x, right, -, whole⟩ := point
  rcases List.append_eq_append_iff.mp whole with ⟨more, rfl, -⟩ | ⟨more, rfl, same⟩
  · simp
  · cases more with
    | nil => simp
    | cons c more =>
      obtain ⟨first, rest, rfl⟩ := List.exists_cons_of_ne_nil some
      obtain ⟨rfl, -⟩ := List.cons.inj same
      have digit := digits first List.mem_cons_self
      rw [plain first (by simp)] at digit
      cases digit

theorem findIn_around (several : 2 ≤ d.components.length) (plain : ∀ c ∈ before, isDigit c = false)
    (ended : ¬ GoesOn after) : findIn (before ++ (d.chars ++ after)) = some d.chars :=
  findIn_of_first rfl several (fun _ _ => length_le_of_pointBehind plain) ended

theorem ofOutput?_eq_some_iff {version : String} : ofOutput? text = some version ↔
    ∃ before d after, Leftmost text.toList before d after ∧ version = d.text := by
  rw [ofOutput?, Option.map_eq_some_iff]
  constructor
  · rintro ⟨found, search, rfl⟩
    obtain ⟨before, d, after, here, rfl⟩ := leftmost_of_findIn search
    exact ⟨before, d, after, here, rfl⟩
  · rintro ⟨before, d, after, here, rfl⟩
    exact ⟨d.chars, findIn_of_leftmost here, rfl⟩

theorem ofOutput?_around (front : String) (d : Dotted) (back : String)
    (several : 2 ≤ d.components.length) (plain : ∀ c ∈ front.toList, isDigit c = false)
    (ended : ¬ GoesOn back.toList) : ofOutput? (front ++ d.text ++ back) = some d.text := by
  have found := findIn_around several plain ended
  rw [ofOutput?, String.toList_append, String.toList_append, Dotted.text, String.toList_ofList,
    List.append_assoc, found]
  rfl

/-- A version is found where it stands first, as far as it goes, and nothing else is. -/
theorem ofOutput?_found (text : String) : Found text where
  none_iff := by
    rw [ofOutput?, Option.map_eq_none_iff]
    constructor
    · rintro nothing ⟨left, c, point⟩
      obtain ⟨before, d, after, here⟩ := exists_leftmost point
      cases nothing.symm.trans (findIn_of_leftmost here)
    · intro nowhere
      exact findIn_eq_none fun left run point => nowhere point.last
  some_iff := fun _ => ofOutput?_eq_some_iff
  again := by
    intro version found
    obtain ⟨before, d, after, here, rfl⟩ := ofOutput?_eq_some_iff.mp found
    have alone := ofOutput?_around "" d "" here.several (by simp) nofun
    rwa [String.empty_append, String.append_empty] at alone
  embedded := by
    rintro front d back rfl several plain ended
    exact ofOutput?_around front d back several plain ended

example : ofOutput? "12.x3.4..5.6" = some "3.4" := by decide

end MachinePlan.Version
