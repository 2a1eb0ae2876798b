import MachinePlan.Proofs.Json.Writing
import MachinePlan.Proofs.Outcome
import MachinePlan.Proofs.Value.Shown

/-!
# Writing stays in ASCII

Whatever value is written as JSON text, also one that loses something there, the text holds nothing
but ASCII characters (`ascii_document`), so every output can encode it.
-/

namespace MachinePlan

namespace Json

variable {c : Char} {cs ds : List Char} {spacing : Spacing}

theorem ascii_iff_notMem : Ascii cs ↔ ∀ c, 128 ≤ c.toNat → c ∉ cs := by
  constructor
  · intro ascii c large member
    exact absurd (ascii c member) (Nat.not_lt.mpr large)
  · intro absent c member
    by_contra large
    exact absent c (Nat.le_of_not_lt large) member

/-! ### Numbers -/

theorem notMem_decimalDigits (large : 128 ≤ c.toNat) (width n : Nat) :
    c ∉ Text.decimalDigits width n := by
  refine ascii_iff_notMem.mp (ascii_append.mpr ⟨?_, ascii_of_numeral (numeral_toDigits n)⟩) c large
  intro zero member
  rw [List.eq_of_mem_replicate member]
  decide

theorem ascii_number (x : Binary64) : Ascii (x.text numberLayout).toList := by
  cases x with
  | nan origin =>
    change Ascii numberLayout.nan.toList
    decide
  | infinite negative => cases negative <;> decide
  | finite negative s e =>
    have digits : Ascii (if s = 0 then ['0', '.', '0']
        else Binary64.layDigits numberLayout (Binary64.shortest s e)) := by
      split
      · decide
      · refine ascii_iff_notMem.mpr fun c large => ?_
        refine Binary64.notMem_layDigits (notMem_decimalDigits large) (fun mark => ?_) _ _
        have marks : Ascii ['0', '.', 'e', '-', '+'] := by decide
        exact absurd (marks c mark) (Nat.not_lt.mpr large)
    rw [Binary64.text, String.toList_ofList]
    cases negative
    · exact digits
    · exact ascii_cons.mpr ⟨by decide, digits⟩

/-! ### Texts -/

theorem ascii_escapeCode (n : Nat) : Ascii (escapeCode n) := by
  rw [escapeCode]
  split
  case isTrue half =>
    rw [Text.isHalf, Bool.and_eq_true, decide_eq_true_eq, decide_eq_true_eq] at half
    have digits := ascii_of_quad (quad_hexDigits (n := n) (by omega))
    exact ascii_cons.mpr ⟨by decide, ascii_cons.mpr ⟨by decide, digits⟩⟩
  case isFalse => exact (spelling_escapeChar (Char.ofNat n)).2

theorem ascii_string (s : String) : Ascii (string s) := by
  have quote : Ascii ['"'] := by decide
  refine ascii_append.mpr ⟨ascii_cons.mpr ⟨by decide, fun c member => ?_⟩, quote⟩
  obtain ⟨n, -, inside⟩ := List.mem_flatMap.mp member
  exact ascii_escapeCode n c inside

/-! ### Values -/

theorem ascii_row (blank : spacing.Blank) (level : Nat) (first : Ascii cs) (later : Ascii ds) :
    Ascii (cs ++ ',' :: spacing.between level ++ ds) := by
  have gap := ascii_of_isSpace (blank.between level)
  simpa [ascii_append, ascii_cons] using ⟨first, gap, later⟩

theorem ascii_member (name : String) (body : Ascii cs) : Ascii (string name ++ ':' :: ' ' :: cs) := by
  simpa [ascii_append, ascii_cons] using ⟨ascii_string name, body⟩

theorem ascii_container {first last : Char} (blank : spacing.Blank) (level : Nat)
    (front : first.toNat < 128) (body : Ascii cs) (back : last.toNat < 128) :
    Ascii (first :: spacing.inside level ++ cs ++ spacing.closing level ++ [last]) := by
  have inside := ascii_of_isSpace (blank.inside level)
  have closing := ascii_of_isSpace (blank.closing level)
  simpa [ascii_append, ascii_cons, ascii_nil] using ⟨front, inside, body, closing, back⟩

mutual

theorem ascii_write (blank : spacing.Blank) (level : Nat) (v : Value) :
    ∀ {cs}, write spacing level v = .ok cs → Ascii cs := by
  intro cs wrote
  cases v with
  | null =>
    cases wrote
    decide
  | bool b => cases b <;> cases wrote <;> decide
  | int i =>
    obtain ⟨s, named, rfl⟩ := map_eq_ok.mp wrote
    rw [Value.numeral] at named
    split at named
    · rw [← Except.ok.inj named]
      exact (denotes_int i).2
    · cases named
  | float x =>
    cases wrote
    exact ascii_number x
  | str s =>
    cases wrote
    exact ascii_string s
  | list items | tuple items =>
    cases items with
    | nil =>
      cases wrote
      decide
    | cons v rest =>
      obtain ⟨body, ran, ended⟩ := bind_eq_ok.mp wrote
      cases ended
      exact ascii_container blank level (by decide) (ascii_writeItems blank level (v :: rest) ran)
        (by decide)
  | map es =>
    cases es with
    | nil =>
      cases wrote
      decide
    | cons entry rest =>
      obtain ⟨body, ran, ended⟩ := bind_eq_ok.mp wrote
      cases ended
      exact ascii_container blank level (by decide)
        (ascii_writeEntries blank level (entry :: rest) ran) (by decide)
  | ring _ v => exact ascii_write blank level v wrote
  | _ => cases wrote
termination_by structural v

theorem ascii_writeItems (blank : spacing.Blank) (level : Nat) (items : List Value) :
    ∀ {cs}, writeItems spacing level items = .ok cs → Ascii cs := by
  intro cs wrote
  cases items with
  | nil =>
    cases wrote
    exact ascii_nil
  | cons v rest =>
    cases rest with
    | nil => exact ascii_write blank (level + 1) v wrote
    | cons w rest =>
      obtain ⟨head, first, wrote⟩ := bind_eq_ok.mp wrote
      obtain ⟨tail, later, ended⟩ := bind_eq_ok.mp wrote
      cases ended
      exact ascii_row blank level (ascii_write blank (level + 1) v first)
        (ascii_writeItems blank level (w :: rest) later)
termination_by structural items

theorem ascii_writeEntries (blank : spacing.Blank) (level : Nat) (es : Value.Entries) :
    ∀ {cs}, writeEntries spacing level es = .ok cs → Ascii cs := by
  intro cs wrote
  cases es with
  | nil =>
    cases wrote
    exact ascii_nil
  | cons entry rest =>
    obtain ⟨key, v⟩ := entry
    cases rest with
    | nil =>
      obtain ⟨name, -, wrote⟩ := bind_eq_ok.mp wrote
      obtain ⟨body, ran, ended⟩ := bind_eq_ok.mp wrote
      cases ended
      exact ascii_member name (ascii_write blank (level + 1) v ran)
    | cons other rest =>
      obtain ⟨name, -, wrote⟩ := bind_eq_ok.mp wrote
      obtain ⟨body, ran, wrote⟩ := bind_eq_ok.mp wrote
      obtain ⟨tail, later, ended⟩ := bind_eq_ok.mp wrote
      cases ended
      exact ascii_row blank level (ascii_member name (ascii_write blank (level + 1) v ran))
        (ascii_writeEntries blank level (other :: rest) later)
termination_by structural es

end

/-- The indented text of any value that has one is ASCII. -/
theorem ascii_document {v : Value} {text : String} (wrote : document v = .ok text) :
    Ascii text.toList := by
  obtain ⟨cs, ran, rfl⟩ := map_eq_ok.mp wrote
  rw [String.toList_ofList]
  exact ascii_write indented_blank 0 v ran

end Json

end MachinePlan
