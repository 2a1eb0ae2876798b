import MachinePlan.Proofs.Text.Pieces

/-!
# Lines of a text

A text that is laid out line by line, with a line feed behind each line, is read as these lines
(`lines_append_newline`). No line that is read has a break in it (`unbroken_of_mem_lines`), and the
last one ends as the text does unless that ends with a break (`exists_lines_concat`). Around a core
that is not blank at its ends trimming takes off blanks in front, and nothing of the core
(`exists_trimBy_core`).
-/

namespace MachinePlan.Text

variable {c : Char} {p : Char → Bool} {front core line rest text : List Char}
  {rows : List (List Char)}

/-- A line without a break in it. -/
def Unbroken (line : List Char) : Prop := ∀ c ∈ line, isBreak c = false

instance (line : List Char) : Decidable (Unbroken line) :=
  List.decidableBAll (fun c => isBreak c = false) line

/-- Lines laid out as a text. The line feed behind the last one may be missing. -/
inductive LaidOut : List (List Char) → List Char → Prop
  | nil : LaidOut [] []
  | last (line : List Char) : LaidOut [line] line
  | cons (line : List Char) {rows : List (List Char)} {text : List Char} (rest : LaidOut rows text) :
      LaidOut (line :: rows) (line ++ '\n' :: text)

theorem isBlank_of_isBreak (ends : isBreak c = true) : isBlank c = true := by
  simp only [isBreak, Bool.or_eq_true, Bool.and_eq_true, decide_eq_true_eq, beq_iff_eq] at ends
  simp only [isBlank, Bool.or_eq_true, Bool.and_eq_true, decide_eq_true_eq, beq_iff_eq]
  omega

theorem isBreak_of_not_isBlank (plain : isBlank c = false) : isBreak c = false := by
  rw [← Bool.not_eq_true]
  intro ends
  cases (isBlank_of_isBreak ends).symm.trans plain

theorem lines_cons_of_not_break (plain : isBreak c = false) (rest : List Char) :
    lines (c :: rest) = match lines rest with
      | [] => [[c]]
      | line :: more => (c :: line) :: more := by
  have noReturn : c ≠ '\r' := by
    rintro rfl
    cases plain
  rw [lines]
  · exact if_neg (Bool.eq_false_iff.mp plain)
  · intro _ same
    exact absurd same noReturn

theorem lines_append_newline (unbroken : Unbroken line) (rest : List Char) :
    lines (line ++ '\n' :: rest) = line :: lines rest := by
  induction line with
  | nil => rfl
  | cons c line ih =>
    have first := unbroken c List.mem_cons_self
    have others := ih fun d member => unbroken d (List.mem_cons_of_mem c member)
    rw [List.cons_append, lines_cons_of_not_break first, others]

theorem lines_of_unbroken (unbroken : Unbroken line) (some : line ≠ []) : lines line = [line] := by
  induction line with
  | nil => exact absurd rfl some
  | cons c line ih =>
    have first := unbroken c List.mem_cons_self
    rw [lines_cons_of_not_break first]
    by_cases single : line = []
    · rw [single]
      rfl
    · rw [ih (fun d member => unbroken d (List.mem_cons_of_mem c member)) single]

theorem unbroken_of_mem_lines (member : line ∈ lines text) : Unbroken line := by
  fun_induction lines text generalizing line with
  | case1 => cases member
  | case2 rest ih | case3 c rest _ _ ih =>
    rcases List.mem_cons.mp member with rfl | member
    · exact List.forall_mem_nil _
    · exact ih member
  | case4 c rest _ plain _ _ =>
    obtain rfl := List.mem_singleton.mp member
    exact List.forall_mem_singleton.mpr (Bool.eq_false_iff.mpr plain)
  | case5 c rest _ plain first more split ih =>
    rw [split] at ih
    rcases List.mem_cons.mp member with rfl | member
    · exact List.forall_mem_cons.mpr ⟨Bool.eq_false_iff.mpr plain, ih List.mem_cons_self⟩
    · exact ih (List.mem_cons_of_mem first member)

/-- A character at the end that breaks no line ends the last line. -/
theorem exists_lines_concat (plain : isBreak c = false) (text : List Char) :
    ∃ above line, lines (text ++ [c]) = above ++ [line ++ [c]] := by
  fun_induction lines text with
  | case1 => exact ⟨[], [], by rw [List.nil_append, lines_cons_of_not_break plain]; rfl⟩
  | case2 rest ih =>
    obtain ⟨above, line, ends⟩ := ih
    exact ⟨[] :: above, line, congrArg ([] :: ·) ends⟩
  | case3 d rest single breaks ih =>
    obtain ⟨above, line, ends⟩ := ih
    refine ⟨[] :: above, line, ?_⟩
    rw [List.cons_append, lines, if_pos breaks, ends]
    · rfl
    · -- no line feed follows, neither from the text nor as the last character
      rintro others rfl follows
      cases rest with
      | nil =>
        cases follows
        cases plain
      | cons e rest =>
        obtain ⟨rfl, -⟩ := List.cons.inj follows
        exact single rest rfl rfl
  | case4 d rest _ other _ ih | case5 d rest _ other _ _ _ ih =>
    obtain ⟨above, line, ends⟩ := ih
    rw [List.cons_append, lines_cons_of_not_break (Bool.eq_false_iff.mpr other), ends]
    cases above with
    | nil => exact ⟨[], d :: line, rfl⟩
    | cons first above => exact ⟨(d :: first) :: above, line, rfl⟩

/-- What is read off each line is read off the text, if there is nothing in an empty line. -/
theorem filterMap_lines {α : Type} {read : List Char → Option α} (laid : LaidOut rows text)
    (unbroken : ∀ line ∈ rows, Unbroken line) (empty : read [] = none) :
    (lines text).filterMap read = rows.filterMap read := by
  induction laid with
  | nil => rfl
  | last line =>
    by_cases none : line = []
    · rw [none]
      simp [lines, empty]
    · rw [lines_of_unbroken (unbroken line List.mem_cons_self) none]
  | cons line _ ih =>
    rw [List.forall_mem_cons] at unbroken
    rw [lines_append_newline unbroken.1, List.filterMap_cons, List.filterMap_cons, ih unbroken.2]

/-! ### Trimming -/

theorem exists_trimBy_core (blank : ∀ c ∈ front, p c = true) (some : core ≠ [])
    (first : ∀ c ∈ core.head?, p c = false) (last : ∀ c ∈ core.getLast?, p c = false)
    (rest : List Char) : ∃ tail, trimBy p (front ++ core ++ rest) = core ++ tail := by
  have left : (front ++ core ++ rest).dropWhile p = core ++ rest := by
    rw [List.append_assoc]
    refine dropWhile_append_of_head blank ?_
    obtain ⟨c, more, rfl⟩ := List.exists_cons_of_ne_nil some
    exact first
  have right : ([] ++ core.reverse).dropWhile p = core.reverse := by
    refine dropWhile_append_of_head (by simp) ?_
    rwa [List.head?_reverse]
  rw [List.nil_append] at right
  refine ⟨(rest.reverse.dropWhile p).reverse, ?_⟩
  rw [trimBy, left, List.reverse_append, List.dropWhile_append]
  split
  · rename_i none
    rw [right, List.reverse_reverse, List.isEmpty_iff.mp none]
    simp
  · simp

/-- Nothing is left, or it ends with a character that is no blank. -/
theorem exists_trim_concat (nonempty : trim text ≠ []) :
    ∃ front c, trim text = front ++ [c] ∧ isBlank c = false := by
  rw [trim, trimBy] at nonempty ⊢
  generalize (text.dropWhile isBlank).reverse = back at nonempty ⊢
  cases left : back.dropWhile isBlank with
  | nil => simp [left] at nonempty
  | cons c rest =>
    have some : back.dropWhile isBlank ≠ [] := by simp [left]
    have plain := List.head_dropWhile_not isBlank some
    simp only [left, List.head_cons] at plain
    exact ⟨rest.reverse, c, List.reverse_cons, plain⟩

end MachinePlan.Text
