import MachinePlan.Text.Blank
import MachinePlan.Text.Line
import Mathlib.Data.List.TakeWhile

/-!
# Trimming and splitting

What is left when characters are taken off both ends of a text (`trimBy_between`), and the pieces
of a text between the occurrences of a character: splitting undoes joining (`splitAt_intercalate`),
and joining undoes splitting (`intercalate_splitString`).
-/

namespace MachinePlan.Text

variable {sep c : Char} {p : Char → Bool} {before cs after piece : List Char}
  {pieces : List (List Char)}

/-! ### Trimming -/

theorem dropWhile_append_of_head (front : ∀ c ∈ before, p c = true)
    (first : ∀ c ∈ cs.head?, p c = false) : (before ++ cs).dropWhile p = cs := by
  rw [List.dropWhile_append_of_pos front]
  cases cs with
  | nil => rfl
  | cons c cs => exact List.dropWhile_cons_of_neg (by simpa using first c rfl)

theorem trimBy_between (front : ∀ c ∈ before, p c = true) (back : ∀ c ∈ after, p c = true)
    (nonempty : cs ≠ []) (first : ∀ c ∈ cs.head?, p c = false)
    (last : ∀ c ∈ cs.getLast?, p c = false) : trimBy p (before ++ cs ++ after) = cs := by
  have left : (before ++ cs ++ after).dropWhile p = cs ++ after := by
    rw [List.append_assoc]
    refine dropWhile_append_of_head front ?_
    obtain ⟨c, rest, rfl⟩ := List.exists_cons_of_ne_nil nonempty
    exact first
  have right : (cs ++ after).reverse.dropWhile p = cs.reverse := by
    rw [List.reverse_append]
    refine dropWhile_append_of_head (by simpa using back) ?_
    rwa [List.head?_reverse]
  rw [trimBy, left, right, List.reverse_reverse]

theorem exists_trimBy (p : Char → Bool) (cs : List Char) : ∃ before after,
    cs = before ++ trimBy p cs ++ after ∧ (∀ c ∈ before, p c = true) ∧ ∀ c ∈ after, p c = true := by
  refine ⟨cs.takeWhile p, ((cs.dropWhile p).reverse.takeWhile p).reverse, ?_, ?_, ?_⟩
  · rw [trimBy, List.append_assoc, ← List.reverse_append, List.takeWhile_append_dropWhile,
      List.reverse_reverse, List.takeWhile_append_dropWhile]
  · exact fun c => List.mem_takeWhile_imp
  · exact fun c member => List.mem_takeWhile_imp (List.mem_reverse.mp member)

theorem trim_of_blank (blank : ∀ c ∈ cs, isBlank c = true) : trim cs = [] := by
  rw [trim, trimBy, List.dropWhile_eq_nil_iff.mpr blank]
  rfl

/-! ### Splitting -/

theorem splitAt_eq_splitOn (sep : Char) (cs : List Char) : splitAt sep cs = cs.splitOn sep := by
  induction cs with
  | nil => rfl
  | cons c cs ih =>
    rw [splitAt, List.splitOn_cons_eq_if_modifyHead, ih]
    have nonempty := List.splitOn_ne_nil sep cs
    by_cases same : c = sep
    · simp [same]
    · cases split : cs.splitOn sep with
      | nil => exact absurd split nonempty
      | cons piece more => simp [same]

theorem splitAt_intercalate (free : ∀ piece ∈ pieces, sep ∉ piece) (nonempty : pieces ≠ []) :
    splitAt sep ([sep].intercalate pieces) = pieces := by
  rw [splitAt_eq_splitOn]
  exact List.splitOn_intercalate sep free nonempty

theorem splitAt_of_notMem (free : sep ∉ cs) : splitAt sep cs = [cs] := by
  have alone : splitAt sep ([sep].intercalate [cs]) = [cs] :=
    splitAt_intercalate (by simpa using free) (List.cons_ne_nil _ _)
  rwa [List.intercalate_singleton] at alone

theorem notMem_of_mem_splitAt (member : piece ∈ splitAt sep cs) : sep ∉ piece := by
  induction cs generalizing piece with
  | nil =>
    obtain rfl := List.mem_singleton.mp member
    exact List.not_mem_nil
  | cons c cs ih =>
    rw [splitAt] at member
    split at member
    · rcases List.mem_cons.mp member with rfl | member
      · exact List.not_mem_nil
      · exact ih member
    · rename_i other
      obtain ⟨first, more, split⟩ := List.exists_cons_of_ne_nil (splitAt_ne_nil sep cs)
      rw [split] at member ih
      rcases List.mem_cons.mp member with rfl | member
      · exact List.not_mem_cons_of_ne_of_not_mem (Ne.symm other) (ih List.mem_cons_self)
      · exact ih (List.mem_cons_of_mem _ member)

theorem infix_intercalate (glue : List Char) (member : piece ∈ pieces) :
    piece <:+: glue.intercalate pieces := by
  induction pieces with
  | nil => cases member
  | cons first others ih =>
    cases others with
    | nil =>
      obtain rfl := List.mem_singleton.mp member
      exact ⟨[], [], by rw [List.intercalate_singleton, List.nil_append, List.append_nil]⟩
    | cons second others =>
      rw [List.intercalate_cons_cons]
      rcases List.mem_cons.mp member with rfl | member
      · rw [List.append_assoc]
        exact (List.prefix_append _ _).isInfix
      · exact (ih member).trans (List.suffix_append _ _).isInfix

theorem infix_of_mem_splitAt (member : piece ∈ splitAt sep cs) :
    piece <:+: cs := by
  rw [splitAt_eq_splitOn] at member
  have inside := infix_intercalate [sep] member
  rwa [List.intercalate_splitOn] at inside

theorem suffix_intercalate (glue : List Char) (pieces : List (List Char)) (last : List Char) :
    last <:+ glue.intercalate (pieces ++ [last]) := by
  induction pieces with
  | nil => simp
  | cons piece pieces ih =>
    rw [List.cons_append, List.intercalate_cons_of_ne_nil (by simp)]
    exact List.suffix_append_of_suffix ih

/-! ### Strings -/

variable {glue : String}

theorem intercalate_splitString (single : glue.toList = [sep]) (s : String) :
    glue.intercalate (splitString sep s) = s := by
  rw [← String.toList_inj, String.toList_intercalate, splitString, List.map_map, single]
  simp only [Function.comp_def, String.toList_ofList, List.map_id']
  rw [splitAt_eq_splitOn]
  exact List.intercalate_splitOn sep

theorem splitString_intercalate {parts : List String} (single : glue.toList = [sep])
    (free : ∀ part ∈ parts, sep ∉ part.toList) (nonempty : parts ≠ []) :
    splitString sep (glue.intercalate parts) = parts := by
  have split : splitAt sep ([sep].intercalate (parts.map String.toList)) =
      parts.map String.toList :=
    splitAt_intercalate (List.forall_mem_map.mpr free) (by simpa using nonempty)
  rw [splitString, String.toList_intercalate, single]
  refine (congrArg (List.map String.ofList) split).trans ?_
  simp [Function.comp_def]

theorem notMem_of_mem_splitString {part s : String} (member : part ∈ splitString sep s) :
    sep ∉ part.toList := by
  obtain ⟨piece, inside, rfl⟩ := List.mem_map.mp member
  rw [String.toList_ofList]
  exact notMem_of_mem_splitAt inside

theorem splitString_ne_nil (sep : Char) (s : String) : splitString sep s ≠ [] := by
  simp [splitString, splitAt_ne_nil]

end MachinePlan.Text
