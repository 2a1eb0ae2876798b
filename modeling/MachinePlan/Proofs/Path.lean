import MachinePlan.Path
import MachinePlan.Proofs.Text.Pieces

/-!
# Paths and their texts

What a text says as a path: the number of its leading slashes makes the marker, and the pieces
between slashes make the parts, without those that are empty or a single dot (`Denotes`). A path
without such parts is the one that its own text denotes (`ofString_text`).
-/

namespace MachinePlan.Path

open Text

/-- The marker that a number of leading slashes makes. -/
def markerOf : Nat → PathRoot
  | 0 => .none
  | 2 => .double
  | _ => .single

/-- A text says what path is meant. -/
structure Denotes (text : String) (p : Path) : Prop where
  marker : ∃ n rest, text.toList = List.replicate n '/' ++ rest ∧ rest.head? ≠ some '/' ∧
    p.root = markerOf n
  parts : ∃ pieces : List String, text = "/".intercalate pieces ∧ pieces ≠ [] ∧
    (∀ piece ∈ pieces, '/' ∉ piece.toList) ∧
    p.parts = pieces.filter fun piece => piece ≠ "" ∧ piece ≠ "."

/-- Every part of the path stands for itself. -/
def Normal (p : Path) : Prop := ∀ part ∈ p.parts, part ≠ "" ∧ part ≠ "." ∧ '/' ∉ part.toList

variable {p q directory : Path} {s part : String} {parts : List String} {n : Nat} {rest : List Char}

theorem isPart_iff : isPart part = true ↔ part ≠ "" ∧ part ≠ "." := by
  simp [isPart]

theorem filter_isPart (pieces : List String) :
    pieces.filter isPart = pieces.filter fun piece => piece ≠ "" ∧ piece ≠ "." := by
  refine List.filter_congr fun piece _ => ?_
  rw [Bool.eq_iff_iff, isPart_iff, decide_eq_true_eq]

/-! ### Reading -/

theorem rootOf_append (n : Nat) (other : rest.head? ≠ some '/') :
    rootOf (List.replicate n '/' ++ rest) = markerOf n := by
  cases rest with
  | nil =>
    match n with
    | 0 | 1 | 2 | n + 3 => rfl
  | cons c rest =>
    have plain : c ≠ '/' := fun same => other (congrArg some same)
    match n with
    | 0 => simp [rootOf, plain, markerOf]
    | 1 => simp [rootOf, plain, markerOf]
    | 2 => simp [List.replicate, rootOf, plain, markerOf]
    | n + 3 => rfl

theorem exists_slashes (cs : List Char) :
    ∃ n rest, cs = List.replicate n '/' ++ rest ∧ rest.head? ≠ some '/' := by
  induction cs with
  | nil => exact ⟨0, [], rfl, by simp⟩
  | cons c cs ih =>
    by_cases slash : c = '/'
    · obtain ⟨n, rest, rfl, other⟩ := ih
      exact ⟨n + 1, rest, by rw [slash, List.replicate_succ, List.cons_append], other⟩
    · exact ⟨0, c :: cs, rfl, by simpa using slash⟩

theorem denotes_ofString (s : String) : Denotes s (ofString s) := by
  constructor
  case marker =>
    obtain ⟨n, rest, split, other⟩ := exists_slashes s.toList
    refine ⟨n, rest, split, other, ?_⟩
    rw [ofString, split, rootOf_append n other]
  case parts =>
    exact ⟨splitString '/' s, (intercalate_splitString rfl s).symm, splitString_ne_nil '/' s,
      fun piece => notMem_of_mem_splitString, filter_isPart _⟩

theorem normal_ofString (s : String) : (ofString s).Normal := by
  intro part member
  obtain ⟨piece, proper⟩ := List.mem_filter.mp member
  exact ⟨(isPart_iff.mp proper).1, (isPart_iff.mp proper).2, notMem_of_mem_splitString piece⟩

theorem Normal.join (upper : directory.Normal) (lower : p.Normal) : (directory.join p).Normal := by
  unfold Path.join
  split
  · exact lower
  · intro part member
    exact (List.mem_append.mp member).elim (upper part) (lower part)

/-! ### Writing -/

theorem parts_slash (s : String) : (ofString ("/" ++ s)).parts = (ofString s).parts := by
  simp [ofString, splitString, splitAt, isPart]

theorem parts_intercalate (normal : p.Normal) :
    (ofString ("/".intercalate p.parts)).parts = p.parts := by
  unfold ofString
  by_cases none : p.parts = []
  · rw [none]
    rfl
  · rw [splitString_intercalate rfl (fun part member => (normal part member).2.2) none]
    refine List.filter_eq_self.mpr fun part member => ?_
    exact isPart_iff.mpr ⟨(normal part member).1, (normal part member).2.1⟩

theorem head_intercalate (normal : p.Normal) :
    ("/".intercalate p.parts).toList.head? ≠ some '/' := by
  rw [String.toList_intercalate]
  cases split : p.parts with
  | nil => simp
  | cons part others =>
    have proper := normal part (by rw [split]; exact List.mem_cons_self)
    obtain ⟨c, cs, chars⟩ := List.exists_cons_of_ne_nil
      (show part.toList ≠ [] by simpa using proper.1)
    have plain : c ≠ '/' := by
      rintro rfl
      exact proper.2.2 (by rw [chars]; exact List.mem_cons_self)
    cases others with
    | nil => simpa [chars] using plain
    | cons next others => simpa [List.intercalate_cons_cons, chars] using plain

theorem text_eq (some : p ≠ ⟨.none, []⟩) :
    p.text = PathRoot.text p.root ++ "/".intercalate p.parts := by
  unfold text
  split
  · rename_i root parts
    exact absurd (show p = ⟨p.root, p.parts⟩ from rfl) (by rw [root, parts]; exact some)
  · rfl

theorem rootOf_text (root : PathRoot) (front : s.toList.head? ≠ some '/') :
    rootOf (PathRoot.text root ++ s).toList = root := by
  rw [String.toList_append]
  cases root with
  | none => exact rootOf_append 0 front
  | single => exact rootOf_append 1 front
  | double => exact rootOf_append 2 front

theorem parts_text (root : PathRoot) (s : String) :
    (ofString (PathRoot.text root ++ s)).parts = (ofString s).parts := by
  cases root with
  | none => rw [PathRoot.text, String.empty_append]
  | single => exact parts_slash s
  | double =>
    have slashes : PathRoot.text .double ++ s = "/" ++ ("/" ++ s) := by
      rw [← String.append_assoc]
      rfl
    rw [slashes, parts_slash, parts_slash]

/-- A normal path is read back from its text. -/
theorem ofString_text (normal : p.Normal) : ofString p.text = p := by
  by_cases here : p = ⟨.none, []⟩
  · rw [here]
    rfl
  · have root := rootOf_text p.root (head_intercalate normal)
    have parts := (parts_text p.root ("/".intercalate p.parts)).trans (parts_intercalate normal)
    rw [text_eq here]
    calc ofString (PathRoot.text p.root ++ "/".intercalate p.parts)
        = ⟨_, (ofString (PathRoot.text p.root ++ "/".intercalate p.parts)).parts⟩ := rfl
      _ = ⟨p.root, p.parts⟩ := by rw [root, parts]

theorem text_ne_empty (normal : p.Normal) : p.text ≠ "" := by
  intro empty
  have read := ofString_text normal
  rw [empty] at read
  rw [← read] at empty
  exact absurd empty (by decide)

end MachinePlan.Path
