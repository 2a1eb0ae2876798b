import MachinePlan.Proofs.Json.Writing
import MachinePlan.Proofs.Text.Breaks
import MachinePlan.Text.Charset

/-!
# Texts on an output

A text is cut into the spellings of its code points (`flatten_pieces`), and between two texts of
which the second begins in ASCII it can be cut as well (`pieces_append`). So an output takes a row of
names exactly when it takes each of them (`takes_intercalate`). On an output that escapes, a text
that can be encoded stays as it is (`escaped_of_takes`), and of the line breaks of any text those stay
that can be encoded (`breaks_escaped`).
-/

namespace MachinePlan

namespace Text

variable {c d : Char} {cs ds piece : List Char} {s : String}

/-! ### Spellings -/

theorem flatten_pieces (cs : List Char) : (pieces cs).flatten = cs := by
  fun_induction pieces cs with
  | case1 | case2 => rfl
  | case3 c d rest whole ih => rw [List.flatten_cons, ih]; rfl
  | case4 c d rest single ih => rw [List.flatten_cons, ih]; rfl

/-- A spelling is one character, or a mark with the character that completes it. -/
theorem of_mem_pieces (member : piece ∈ pieces cs) :
    (∃ c, piece = [c]) ∨ ∃ d, completesMark d = true ∧ piece = [halfMark, d] := by
  fun_induction pieces cs with
  | case1 => cases member
  | case2 c => exact .inl ⟨c, List.mem_singleton.mp member⟩
  | case3 c d rest whole ih =>
    rw [Bool.and_eq_true, decide_eq_true_eq] at whole
    obtain ⟨rfl, completes⟩ := whole
    rcases List.mem_cons.mp member with rfl | member
    · exact .inr ⟨d, completes, rfl⟩
    · exact ih member
  | case4 c d rest single ih =>
    rcases List.mem_cons.mp member with rfl | member
    · exact .inl ⟨c, rfl⟩
    · exact ih member

theorem pieces_cons (plain : c ≠ halfMark) (cs : List Char) : pieces (c :: cs) = [c] :: pieces cs := by
  cases cs with
  | nil => rfl
  | cons d rest =>
    rw [pieces, if_neg (by simp [plain])]

/-- Before a character that completes no mark a text can be cut. -/
theorem pieces_append_cons (plain : completesMark d = false) (cs ds : List Char) :
    pieces (cs ++ d :: ds) = pieces cs ++ pieces (d :: ds) := by
  fun_induction pieces cs with
  | case1 => rfl
  | case2 c =>
    rw [List.singleton_append, pieces, if_neg (by simp [plain])]
    rfl
  | case3 c e rest whole ih => rw [List.cons_append, List.cons_append, pieces, if_pos whole, ih]; rfl
  | case4 c e rest single ih =>
    rw [List.cons_append, List.cons_append, pieces, if_neg single, ← List.cons_append, ih]
    rfl

/-! ### ASCII -/

theorem ne_halfMark_of_ascii (ascii : c.toNat < 128) : c ≠ halfMark := by
  rintro rfl
  exact absurd ascii (by decide)

theorem completesMark_of_ascii (ascii : c.toNat < 128) : completesMark c = false := by
  have none : c.toNat - halfShift = 0 := Nat.sub_eq_zero_of_le (by rw [halfShift]; omega)
  rw [completesMark, none, decide_eq_false (ne_halfMark_of_ascii ascii)]
  rfl

theorem pieces_append (ascii : Json.Ascii ds) (cs : List Char) :
    pieces (cs ++ ds) = pieces cs ++ pieces ds := by
  cases ds with
  | nil => rw [List.append_nil, pieces, List.append_nil]
  | cons d ds => exact pieces_append_cons (completesMark_of_ascii (Json.ascii_cons.mp ascii).1) cs ds

theorem pieces_ascii_append (ascii : Json.Ascii cs) (ds : List Char) :
    pieces (cs ++ ds) = pieces cs ++ pieces ds := by
  induction cs with
  | nil => rfl
  | cons c cs ih =>
    obtain ⟨here, later⟩ := Json.ascii_cons.mp ascii
    have plain := ne_halfMark_of_ascii here
    rw [List.cons_append, pieces_cons plain, pieces_cons plain, ih later, List.cons_append]

theorem codes_of_ascii (ascii : Json.Ascii cs) : codes cs = cs.map Char.toNat := by
  induction cs with
  | nil => rfl
  | cons c cs ih =>
    obtain ⟨here, later⟩ := Json.ascii_cons.mp ascii
    rw [codes, pieces_cons (ne_halfMark_of_ascii here), List.map_cons, List.map_cons, ← ih later]
    rfl

/-! ### Line breaks -/

theorem toNat_of_isBreak (ends : isBreak c = true) : c.toNat < 0x202a := by
  simp only [isBreak, Bool.or_eq_true, Bool.and_eq_true, decide_eq_true_eq, beq_iff_eq] at ends
  omega

theorem isBreak_halfMark : isBreak halfMark = false := by decide

theorem isBreak_of_completesMark (completes : completesMark d = true) : isBreak d = false := by
  rw [← Bool.not_eq_true]
  intro ends
  have small := toNat_of_isBreak ends
  rw [completesMark, Bool.or_eq_true, decide_eq_true_eq] at completes
  rcases completes with rfl | half
  · cases ends
  · rw [isHalf, Bool.and_eq_true, decide_eq_true_eq, decide_eq_true_eq] at half
    omega

end Text

namespace Charset

open Text

variable {charset : Charset} {s t : String}

/-! ### Texts that are taken -/

theorem takes_of_ascii (ascii : Json.Ascii s.toList) : charset.takes s = true := by
  rw [takes, codes_of_ascii ascii, List.all_eq_true]
  exact List.forall_mem_map.mpr fun c member => charset.ascii c.toNat (ascii c member)

theorem takes_full (s : String) : full.takes s = true :=
  List.all_eq_true.mpr fun _ _ => rfl

theorem takes_append (ascii : Json.Ascii t.toList) (s : String) :
    charset.takes (s ++ t) = charset.takes s := by
  have rest : charset.takes t = true := takes_of_ascii ascii
  rw [takes, codes] at rest
  rw [takes, takes, codes, codes, String.toList_append, pieces_append ascii, List.map_append,
    List.all_append, rest, Bool.and_true]

theorem takes_ascii_append (ascii : Json.Ascii s.toList) (t : String) :
    charset.takes (s ++ t) = charset.takes t := by
  have front : charset.takes s = true := takes_of_ascii ascii
  rw [takes, codes] at front
  rw [takes, takes, codes, codes, String.toList_append, pieces_ascii_append ascii, List.map_append,
    List.all_append, front, Bool.true_and]

/-- A text around another one in ASCII: its two parts are taken one by one. -/
theorem takes_append_append {glue : String} (ascii : Json.Ascii glue.toList) (nonempty : glue ≠ "")
    (s t : String) :
    charset.takes (s ++ (glue ++ t)) = (charset.takes s && charset.takes t) := by
  obtain ⟨c, rest, split⟩ := List.exists_cons_of_ne_nil (mt String.toList_eq_nil_iff.mp nonempty)
  have plain : completesMark c = false :=
    completesMark_of_ascii (ascii c (split ▸ List.mem_cons_self))
  have cut : pieces (s ++ (glue ++ t)).toList = pieces s.toList ++ pieces (glue ++ t).toList := by
    rw [String.toList_append, String.toList_append, split]
    exact pieces_append_cons plain s.toList (rest ++ t.toList)
  rw [← takes_ascii_append ascii t, takes, takes, takes, codes, codes, codes, cut, List.map_append,
    List.all_append]

theorem takes_intercalate {glue : String} (ascii : Json.Ascii glue.toList) (nonempty : glue ≠ "")
    (names : List String) :
    charset.takes (glue.intercalate names) = names.all charset.takes := by
  induction names with
  | nil => exact takes_of_ascii Json.ascii_nil
  | cons name names ih =>
    cases names with
    | nil => rw [String.intercalate_singleton, List.all_cons, List.all_nil, Bool.and_true]
    | cons other names =>
      rw [String.intercalate_cons_cons, String.append_assoc, takes_append_append ascii nonempty, ih,
        ← List.all_cons]

/-! ### Texts that are escaped -/

theorem escaped_of_takes (taken : charset.takes s = true) : charset.escaped s = s := by
  have own : ∀ piece ∈ pieces s.toList,
      (if charset.encodes (pieceCode piece) then piece else numbered (pieceCode piece)) = piece :=
    fun piece member => if_pos (List.all_eq_true.mp taken _ (List.mem_map_of_mem member))
  have whole : (pieces s.toList).flatMap _ = s.toList :=
    (congrArg List.flatten (List.map_congr_left own)).trans (by rw [List.map_id', flatten_pieces])
  exact (congrArg String.ofList whole).trans String.ofList_toList

theorem escaped_full (s : String) : full.escaped s = s := escaped_of_takes (takes_full s)

theorem escaped_append (ascii : Json.Ascii t.toList) (s : String) :
    charset.escaped (s ++ t) = charset.escaped s ++ t := by
  have rest : charset.escaped t = t := escaped_of_takes (takes_of_ascii ascii)
  rw [escaped, String.toList_append, pieces_append ascii, List.flatMap_append, String.ofList_append]
  exact congrArg (charset.escaped s ++ ·) rest

theorem escaped_ascii_append (ascii : Json.Ascii s.toList) (t : String) :
    charset.escaped (s ++ t) = s ++ charset.escaped t := by
  have front : charset.escaped s = s := escaped_of_takes (takes_of_ascii ascii)
  rw [escaped, String.toList_append, pieces_ascii_append ascii, List.flatMap_append,
    String.ofList_append]
  exact congrArg (· ++ charset.escaped t) front

/-! ### Line breaks that are escaped -/

theorem unbroken_numbered (n : Nat) : Unbroken (numbered n) := by
  have number (mark : Char) (plain : isBreak mark = false) (width : Nat) :
      Unbroken ('\\' :: mark :: hexDigits width n) :=
    unbroken_cons (by decide) (unbroken_cons plain (unbroken_hexDigits width n))
  rw [numbered]
  split
  · exact number 'x' (by decide) 2
  · split
    · exact number 'u' (by decide) 4
    · exact number 'U' (by decide) 8

/-- Of the line breaks of a text those stay that the output can encode. -/
theorem breaks_escaped (charset : Charset) (s : String) :
    breaks (charset.escaped s) = (breaks s).filter fun c => charset.encodes c.toNat := by
  have each : ∀ piece ∈ pieces s.toList,
      (if charset.encodes (pieceCode piece) then piece else numbered (pieceCode piece)).filter
          isBreak =
        (piece.filter isBreak).filter fun c => charset.encodes c.toNat := by
    intro piece member
    have none : (numbered (pieceCode piece)).filter isBreak = [] :=
      List.filter_eq_nil_iff.mpr fun c inside => by
        simp [unbroken_numbered (pieceCode piece) c inside]
    rw [apply_ite (List.filter isBreak), none]
    rcases of_mem_pieces member with ⟨c, rfl⟩ | ⟨d, completes, rfl⟩
    · -- a spelling of one character is that character
      change (if charset.encodes c.toNat then [c].filter isBreak else []) = _
      cases ends : isBreak c <;> simp [ends, List.filter_cons]
    · have plain : [halfMark, d].filter isBreak = [] := by
        simp [isBreak_halfMark, isBreak_of_completesMark completes]
      rw [plain]
      split <;> rfl
  have whole : (breaks s).filter (fun c => charset.encodes c.toNat) =
      ((pieces s.toList).map fun piece =>
        (piece.filter isBreak).filter fun c => charset.encodes c.toNat).flatten := by
    rw [breaks, ← flatten_pieces s.toList, List.filter_flatten, List.filter_flatten, List.map_map,
      flatten_pieces]
    rfl
  rw [whole, breaks, escaped, String.toList_ofList, List.filter_flatMap]
  exact congrArg List.flatten (List.map_congr_left each)

/-- A text whose line breaks the output cannot encode. -/
def Unbroken (charset : Charset) (s : String) : Prop :=
  ∀ c ∈ s.toList, isBreak c = true → charset.encodes c.toNat = false

theorem unbroken_escaped_iff (charset : Charset) (s : String) :
    Text.Unbroken (charset.escaped s).toList ↔ charset.Unbroken s := by
  rw [← breaks_eq_nil_iff, breaks_escaped, breaks, List.filter_eq_nil_iff]
  simp [Unbroken, List.mem_filter]

theorem unbroken_iff_breaks (charset : Charset) (s : String) :
    charset.Unbroken s ↔ ∀ c ∈ breaks s, charset.encodes c.toNat = false := by
  simp only [Unbroken, breaks, List.mem_filter, and_imp]

theorem unbroken_of_unbroken (plain : Text.Unbroken s.toList) : charset.Unbroken s := by
  intro c member ends
  cases ends.symm.trans (plain c member)

end Charset

end MachinePlan
