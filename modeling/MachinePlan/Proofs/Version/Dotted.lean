import MachinePlan.Proofs.Text.Digits
import MachinePlan.Version.Basic
import Mathlib.Data.Int.ConditionallyCompleteOrder
import Mathlib.Data.List.Basic
import Mathlib.Order.Compare
import Mathlib.Order.CompleteLattice.PiLex

/-!
# Dotted numbers

A dotted number is a row of components, each a run of digits. It denotes the sequence of the values
of its components, continued with zeros, and two versions are compared as such sequences are in
lexicographic order (`compare_compares`). What is taken off a text that begins with a digit is a
dotted number (`exists_chars_eq`), and all of it is taken (`takeDotted_append`).
-/

namespace MachinePlan.Version

/-! ### The order -/

/-- A row of whole numbers continued with zeros, in lexicographic order. -/
def continued (as : List Int) : Lex (ℕ → ℤ) := toLex fun i => as.getD i 0

variable {a b : ℤ} {as bs : List Int}

def behind (a : ℤ) (t : Lex (ℕ → ℤ)) : Lex (ℕ → ℤ) := toLex fun
  | 0 => a
  | i + 1 => ofLex t i

theorem behind_strictMono (a : ℤ) : StrictMono (behind a) := by
  rintro t u ⟨i, before, here⟩
  refine ⟨i + 1, fun j below => ?_, here⟩
  cases j with
  | zero => rfl
  | succ j => exact before j (Nat.succ_lt_succ_iff.mp below)

theorem compares_behind {o : Ordering} {t u : Lex (ℕ → ℤ)} (rest : o.Compares t u) :
    ((Ord.compare a b).then o).Compares (behind a t) (behind b u) := by
  have first : (Ord.compare a b).Compares a b := by
    rw [← cmp_eq_compare]
    exact cmp_compares a b
  -- the rest decides only where the first numbers are equal
  cases order : Ord.compare a b with
  | lt =>
    rw [order] at first
    exact ⟨0, by simp, first⟩
  | eq =>
    rw [order] at first
    obtain rfl : a = b := first
    exact (behind_strictMono a).compares.mpr rest
  | gt =>
    rw [order] at first
    exact ⟨0, by simp, first⟩

theorem continued_nil : continued [] = behind 0 (continued []) := by
  refine congrArg toLex (funext fun i => ?_)
  cases i <;> rfl

theorem continued_cons (a : ℤ) (as : List Int) : continued (a :: as) = behind a (continued as) := by
  refine congrArg toLex (funext fun i => ?_)
  cases i <;> rfl

theorem compareZero_compares (as : List Int) :
    (compareZero as).Compares (continued as) (continued []) := by
  induction as with
  | nil => exact rfl
  | cons a as ih =>
    rw [compareZero, continued_cons, continued_nil]
    exact compares_behind ih

/-- Versions are compared as sequences continued with zeros. -/
theorem compare_compares (as bs : List Int) :
    (compare as bs).Compares (continued as) (continued bs) := by
  induction as generalizing bs with
  | nil => exact Ordering.compares_swap.mpr (compareZero_compares bs)
  | cons a as ih =>
    cases bs with
    | nil =>
      rw [compare, continued_cons, continued_nil]
      exact compares_behind (compareZero_compares as)
    | cons b bs =>
      rw [compare, continued_cons, continued_cons]
      exact compares_behind (ih bs)

theorem continued_append_zero (as : List Int) : continued (as ++ [0]) = continued as := by
  induction as with
  | nil => rw [List.nil_append, continued_cons, ← continued_nil]
  | cons a as ih => rw [List.cons_append, continued_cons, ih, continued_cons]

/-! ### Digits and points -/

/-- A text that goes on with a digit, or with a point and a digit. -/
inductive GoesOn : List Char → Prop
  | digit {c : Char} (rest : List Char) (digit : Text.isDigit c = true) : GoesOn (c :: rest)
  | point {c : Char} (rest : List Char) (digit : Text.isDigit c = true) : GoesOn ('.' :: c :: rest)

section
variable {c : Char} {cs ds : List Char}

theorem takeDotted_digit (digit : Text.isDigit c = true) (rest : List Char) :
    takeDotted (c :: rest) = c :: takeDotted rest := by
  rw [takeDotted, if_pos digit]

theorem takeDotted_point (digit : Text.isDigit c = true) (rest : List Char) :
    takeDotted ('.' :: c :: rest) = '.' :: takeDotted (c :: rest) := by
  rw [takeDotted, if_neg (by decide), if_pos (by simpa using digit)]

theorem takeDotted_of_ended (ended : ¬ GoesOn cs) : takeDotted cs = [] := by
  cases cs with
  | nil => rfl
  | cons c rest =>
    have noDigit : ¬ Text.isDigit c = true := fun digit => ended (.digit rest digit)
    have noPoint : ¬ (c = '.' && rest.head?.any Text.isDigit) = true := by
      intro point
      simp only [Bool.and_eq_true, decide_eq_true_eq, Option.any_eq_true] at point
      obtain ⟨rfl, x, first, digit⟩ := point
      obtain ⟨rest, rfl⟩ := List.head?_eq_some_iff.mp first
      exact ended (.point rest digit)
    rw [takeDotted, if_neg noDigit, if_neg noPoint]

/-- What is taken off the front ends where the text does not go on. -/
theorem exists_takeDotted (cs : List Char) :
    ∃ after, cs = takeDotted cs ++ after ∧ ¬ GoesOn after := by
  induction cs with
  | nil => exact ⟨[], rfl, nofun⟩
  | cons c rest ih =>
    obtain ⟨after, whole, ended⟩ := ih
    by_cases goes : GoesOn (c :: rest)
    · refine ⟨after, ?_, ended⟩
      cases goes with
      | digit _ digit => rw [takeDotted_digit digit, List.cons_append, ← whole]
      | point _ digit => rw [takeDotted_point digit, List.cons_append, ← whole]
    · exact ⟨c :: rest, by rw [takeDotted_of_ended goes, List.nil_append], goes⟩

theorem takeDotted_digits_append (digits : ∀ c ∈ ds, Text.isDigit c = true) (rest : List Char) :
    takeDotted (ds ++ rest) = ds ++ takeDotted rest := by
  induction ds with
  | nil => rfl
  | cons c ds ih =>
    rw [List.cons_append, takeDotted_digit (digits c List.mem_cons_self),
      ih fun d member => digits d (List.mem_cons_of_mem c member), List.cons_append]

theorem mem_takeDotted (member : c ∈ takeDotted cs) : Text.isDigit c = true ∨ c = '.' := by
  induction cs with
  | nil => cases member
  | cons d cs ih =>
    rw [takeDotted] at member
    split at member
    case isTrue digit => exact (List.mem_cons.mp member).elim (fun same => .inl (same ▸ digit)) ih
    case isFalse =>
      split at member
      case isTrue point =>
        simp only [Bool.and_eq_true, decide_eq_true_eq] at point
        exact (List.mem_cons.mp member).elim (fun same => .inr (same.trans point.1)) ih
      case isFalse => cases member

end

/-! ### Writing -/

/-- A component of a dotted number: a run of digits. -/
@[ext]
structure Component where
  digits : List Char
  nonempty : digits ≠ []
  decimal : ∀ c ∈ digits, Text.isDigit c = true

def Component.value (c : Component) : ℕ := Text.numberOf c.digits

def Component.IsShort (c : Component) : Prop := c.digits.length ≤ Text.maxDigits

/-- A dotted number: components with points between them. -/
@[ext]
structure Dotted where
  components : List Component
  nonempty : components ≠ []

namespace Dotted

variable {d e : Dotted}

def chars (d : Dotted) : List Char := ['.'].intercalate (d.components.map Component.digits)

def text (d : Dotted) : String := String.ofList d.chars

def values (d : Dotted) : List ℤ := d.components.map fun c => (c.value : ℤ)

/-- The sequence that a dotted number denotes. -/
def number (d : Dotted) : Lex (ℕ → ℤ) := continued d.values

def IsShort (d : Dotted) : Prop := ∀ c ∈ d.components, c.IsShort

theorem splitAt_chars (d : Dotted) :
    Text.splitAt '.' d.chars = d.components.map Component.digits := by
  refine Text.splitAt_intercalate ?_ (by simpa using d.nonempty)
  intro piece member point
  obtain ⟨c, -, rfl⟩ := List.mem_map.mp member
  exact Text.ne_of_isDigit (c.decimal '.' point) (by decide) rfl

theorem chars_injective : Function.Injective chars := by
  intro d e same
  have digits : d.components.map Component.digits = e.components.map Component.digits := by
    rw [← splitAt_chars, ← splitAt_chars, same]
  have injective : Function.Injective Component.digits := fun _ _ => Component.ext
  exact Dotted.ext (injective.list_map digits)

theorem text_injective : Function.Injective text :=
  fun _ _ same => chars_injective (String.ofList_injective same)

theorem mapM_readInt? {cs : List Component} (short : ∀ c ∈ cs, c.IsShort) :
    (cs.map Component.digits).mapM (Text.readInt? 10) = some (cs.map fun c => (c.value : ℤ)) := by
  induction cs with
  | nil => rfl
  | cons c cs ih =>
    have first := Text.readInt?_of_digits c.decimal c.nonempty (short c List.mem_cons_self)
    have others := ih fun d member => short d (List.mem_cons_of_mem c member)
    rw [List.map_cons, List.mapM_cons, first, others]
    rfl

theorem mapM_readInt?_of_long {cs : List Component} (long : ∃ c ∈ cs, ¬ c.IsShort) :
    (cs.map Component.digits).mapM (Text.readInt? 10) = none := by
  obtain ⟨c, member, long⟩ := long
  have unread := Text.readInt?_of_long c.decimal c.nonempty (Nat.lt_of_not_le long)
  induction cs with
  | nil => cases member
  | cons d cs ih =>
    rw [List.map_cons, List.mapM_cons]
    rcases List.mem_cons.mp member with rfl | member
    · rw [unread]
      rfl
    · rw [ih member]
      cases Text.readInt? 10 d.digits <;> rfl

theorem components?_text (short : d.IsShort) :
    components? d.text = some d.values := by
  rw [components?, text, String.toList_ofList, splitAt_chars, mapM_readInt? short, values]

theorem components?_text_of_long (long : ¬ d.IsShort) : components? d.text = none := by
  have found : ∃ c ∈ d.components, ¬ c.IsShort := by simpa [IsShort] using long
  rw [components?, text, String.toList_ofList, splitAt_chars, mapM_readInt?_of_long found]

/-! ### Components in front -/

def single (c : Component) : Dotted := ⟨[c], List.cons_ne_nil _ _⟩

def cons (c : Component) (d : Dotted) : Dotted := ⟨c :: d.components, List.cons_ne_nil _ _⟩

theorem chars_single (c : Component) : (single c).chars = c.digits := by
  rw [chars, single, List.map_singleton, List.intercalate_singleton]

theorem chars_cons (c : Component) (d : Dotted) :
    (cons c d).chars = c.digits ++ '.' :: d.chars := by
  obtain ⟨e, es, same⟩ := List.exists_cons_of_ne_nil d.nonempty
  simp [chars, cons, same, List.intercalate_cons_cons]

theorem several_cons (c : Component) (d : Dotted) : 2 ≤ (cons c d).components.length := by
  have nonempty := List.length_pos_iff.mpr d.nonempty
  rw [cons, List.length_cons]
  omega

/-- A dotted number is a component alone, or a component in front of another dotted number. -/
@[elab_as_elim, induction_eliminator]
theorem induction {motive : Dotted → Prop} (single : ∀ c, motive (single c))
    (cons : ∀ c d, motive d → motive (cons c d)) (d : Dotted) : motive d := by
  obtain ⟨cs, nonempty⟩ := d
  induction cs with
  | nil => exact absurd rfl nonempty
  | cons c cs ih =>
    cases cs with
    | nil => exact single c
    | cons e es => exact cons c _ (ih (List.cons_ne_nil e es))

theorem exists_eq_cons (several : 2 ≤ d.components.length) : ∃ c e, d = cons c e := by
  induction d with
  | single c => exact absurd several (by simp [single])
  | cons c e => exact ⟨c, e, rfl⟩

theorem several_of_point (point : '.' ∈ d.chars) : 2 ≤ d.components.length := by
  induction d with
  | single c =>
    rw [chars_single] at point
    exact absurd (c.decimal '.' point) (by decide)
  | cons c e => exact several_cons c e

/-! ### Taking a dotted number -/

theorem exists_cons_chars (d : Dotted) : ∃ x rest, d.chars = x :: rest ∧ Text.isDigit x = true := by
  have first (c : Component) : ∃ x rest, c.digits = x :: rest ∧ Text.isDigit x = true := by
    obtain ⟨x, rest, same⟩ := List.exists_cons_of_ne_nil c.nonempty
    exact ⟨x, rest, same, c.decimal x (by simp [same])⟩
  induction d with
  | single c =>
    rw [chars_single]
    exact first c
  | cons c d =>
    obtain ⟨x, rest, same, digit⟩ := first c
    exact ⟨x, rest ++ '.' :: d.chars, by rw [chars_cons, same, List.cons_append], digit⟩

theorem head_chars (d : Dotted) : d.chars.head?.any Text.isDigit = true := by
  obtain ⟨x, rest, same, digit⟩ := d.exists_cons_chars
  simpa [same] using digit

theorem isDigit_of_mem_getLast? (d : Dotted) : ∀ c ∈ d.chars.getLast?, Text.isDigit c = true := by
  induction d with
  | single c =>
    rw [chars_single]
    exact fun x last => c.decimal x (List.mem_of_mem_getLast? last)
  | cons c d ih =>
    obtain ⟨x, rest, same, -⟩ := d.exists_cons_chars
    rw [same] at ih
    rw [chars_cons, same, List.getLast?_append_of_ne_nil _ (List.cons_ne_nil _ _),
      List.getLast?_cons_cons]
    exact ih

/-- In front of a text that does not go on, exactly the dotted number is taken. -/
theorem takeDotted_append (d : Dotted) {after : List Char} (ended : ¬ GoesOn after) :
    takeDotted (d.chars ++ after) = d.chars := by
  induction d with
  | single c =>
    rw [chars_single, takeDotted_digits_append c.decimal, takeDotted_of_ended ended,
      List.append_nil]
  | cons c d ih =>
    -- a point is taken only in front of a digit, and the next component begins with one
    obtain ⟨x, rest, same, digit⟩ := d.exists_cons_chars
    rw [same, List.cons_append] at ih
    rw [chars_cons, same, List.append_assoc, takeDotted_digits_append c.decimal, List.cons_append,
      List.cons_append, takeDotted_point digit, ih]

theorem takeDotted_chars (d : Dotted) : takeDotted d.chars = d.chars := by
  have alone : takeDotted (d.chars ++ []) = d.chars := d.takeDotted_append nofun
  rwa [List.append_nil] at alone

theorem comma_notMem_chars (d : Dotted) : ',' ∉ d.chars := by
  rw [← takeDotted_chars]
  intro member
  rcases mem_takeDotted member with digit | point
  · exact absurd digit (by decide)
  · cases point

/-- What is taken off a text that begins with a digit is a dotted number. The digits in front are
those that were taken already. -/
theorem exists_chars_eq_append {ds cs : List Char} (digits : ∀ c ∈ ds, Text.isDigit c = true)
    (begun : ds ≠ [] ∨ ∃ x rest, cs = x :: rest ∧ Text.isDigit x = true) :
    ∃ d : Dotted, d.chars = ds ++ takeDotted cs := by
  induction cs generalizing ds with
  | nil =>
    rcases begun with some | ⟨x, rest, same, -⟩
    · exact ⟨single ⟨ds, some, digits⟩, by rw [chars_single, takeDotted, List.append_nil]⟩
    · cases same
  | cons c cs ih =>
    by_cases goes : GoesOn (c :: cs)
    · cases goes with
      | digit _ digit =>
        have longer : ∀ x ∈ ds ++ [c], Text.isDigit x = true := by
          intro x member
          rcases List.mem_append.mp member with member | member
          · exact digits x member
          · rwa [List.mem_singleton.mp member]
        obtain ⟨d, same⟩ := ih longer (.inl (by simp))
        exact ⟨d, by rw [same, takeDotted_digit digit, ← List.append_cons]⟩
      | @point x rest digit =>
        -- a point ends the component in front of it, and a new one begins behind
        have some : ds ≠ [] := by
          rcases begun with some | ⟨y, others, same, decimal⟩
          · exact some
          · obtain ⟨rfl, -⟩ := List.cons.inj same
            exact absurd decimal (by decide)
        obtain ⟨d, same⟩ : ∃ d : Dotted, d.chars = [] ++ takeDotted (x :: rest) :=
          ih (by simp) (.inr ⟨x, rest, rfl, digit⟩)
        refine ⟨cons ⟨ds, some, digits⟩ d, ?_⟩
        rw [chars_cons, same, takeDotted_point digit, List.nil_append]
    · have some : ds ≠ [] := by
        rcases begun with some | ⟨x, rest, same, digit⟩
        · exact some
        · exact absurd (same ▸ GoesOn.digit rest digit) goes
      refine ⟨single ⟨ds, some, digits⟩, ?_⟩
      rw [chars_single, takeDotted_of_ended goes, List.append_nil]

theorem exists_chars_eq {c : Char} (digit : Text.isDigit c = true) (rest : List Char) :
    ∃ d : Dotted, d.chars = takeDotted (c :: rest) := by
  have whole : ∃ d : Dotted, d.chars = [] ++ takeDotted (c :: rest) :=
    exists_chars_eq_append (by simp) (.inr ⟨c, rest, rfl, digit⟩)
  rwa [List.nil_append] at whole

/-! ### Other spellings -/

def zero : Component := ⟨['0'], List.cons_ne_nil _ _, List.forall_mem_singleton.mpr rfl⟩

def extended (d : Dotted) : Dotted := ⟨d.components ++ [zero], by simp⟩

theorem chars_extended (d : Dotted) : d.extended.chars = d.chars ++ ['.', '0'] := by
  induction d with
  | single c =>
    have same : (single c).extended = cons c (single zero) := rfl
    rw [same, chars_cons, chars_single, chars_single]
    rfl
  | cons c d ih =>
    have same : (cons c d).extended = cons c d.extended := rfl
    rw [same, chars_cons, ih, chars_cons, List.append_assoc, List.cons_append]

theorem text_extended (d : Dotted) : d.extended.text = d.text ++ ".0" := by
  rw [text, chars_extended, String.ofList_append, text]

theorem isShort_extended (short : d.IsShort) : d.extended.IsShort := by
  intro c member
  rcases List.mem_append.mp member with member | member
  · exact short c member
  · obtain rfl := List.mem_singleton.mp member
    exact Nat.succ_le_of_lt (by decide)

def Padded (c e : Component) : Prop :=
  ∃ zeros, (∀ z ∈ zeros, Text.digitValue? z = some 0) ∧ e.digits = zeros ++ c.digits

/-- Another spelling of a dotted number: with a zero component more, or with zeros in front of its
components. -/
inductive Respelled (d : Dotted) : Dotted → Prop
  | extended : Respelled d d.extended
  | padded {e : Dotted} (zeros : List.Forall₂ Padded d.components e.components) : Respelled d e

theorem value_of_padded {c e : Component} (padded : Padded c e) : e.value = c.value := by
  obtain ⟨zeros, zero, same⟩ := padded
  rw [Component.value, same, Text.numberOf_zeros_append, Component.value]
  intro z member
  rw [Text.digitValue, zero z member, Option.getD_some]

theorem values_of_padded {cs es : List Component} (zeros : List.Forall₂ Padded cs es) :
    es.map (fun c => (c.value : ℤ)) = cs.map fun c => (c.value : ℤ) := by
  induction zeros with
  | nil => rfl
  | cons padded _ ih => rw [List.map_cons, List.map_cons, value_of_padded padded, ih]

theorem Respelled.number (respelled : Respelled d e) : e.number = d.number := by
  cases respelled with
  | extended =>
    have last : (zero.value : ℤ) = 0 := by decide
    rw [Dotted.number, values, Dotted.extended, List.map_append, List.map_singleton, last,
      continued_append_zero, ← values, ← Dotted.number]
  | padded zeros => rw [Dotted.number, values, values_of_padded zeros, ← values, ← Dotted.number]

end Dotted

end MachinePlan.Version
