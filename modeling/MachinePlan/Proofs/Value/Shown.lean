import MachinePlan.Proofs.Outcome
import MachinePlan.Proofs.Text.Breaks
import MachinePlan.Value.Text

/-!
# Values in writing

Every value can be shown unless it holds a whole number that is too long to be written
(`isOk_display`), also one that holds itself. What is shown stands on one line (`oneLine_display`).
-/

namespace MachinePlan

/-! ### One line -/

def OneLine (s : String) : Prop := '\n' ∉ s.toList

namespace OneLine

variable {s t : String} {rows : List String} {cs : List Char}

instance : Decidable (OneLine s) := inferInstanceAs (Decidable ('\n' ∉ s.toList))

theorem ofList (absent : '\n' ∉ cs) : OneLine (String.ofList cs) := by
  rwa [OneLine, String.toList_ofList]

theorem append (first : OneLine s) (second : OneLine t) : OneLine (s ++ t) := by
  rw [OneLine, String.toList_append, List.mem_append, not_or]
  exact ⟨first, second⟩

theorem intercalate (gap : OneLine t) (all : ∀ s ∈ rows, OneLine s) :
    OneLine (t.intercalate rows) := by
  rw [OneLine, String.toList_intercalate]
  induction rows with
  | nil => exact List.not_mem_nil
  | cons s rows ih =>
    have first := all s List.mem_cons_self
    have others := ih fun s member => all s (List.mem_cons_of_mem _ member)
    cases rows with
    | nil => rwa [List.map_cons, List.map_nil, List.intercalate_singleton]
    | cons second rows =>
      rw [List.map_cons, List.map_cons, List.intercalate_cons_cons, ← List.map_cons,
        List.mem_append, List.mem_append, not_or, not_or]
      exact ⟨⟨first, gap⟩, others⟩

end OneLine

/-! ### Numbers -/

theorem oneLine_nat (n : Nat) : OneLine (toString n) := Text.newline_notMem (Text.unbroken_nat n)

theorem oneLine_int (i : Int) : OneLine (toString i) := by
  rw [Int.toString_eq_repr]
  cases i with
  | ofNat n => exact oneLine_nat n
  | negSucc n => exact .append (by decide) (oneLine_nat (n + 1))

namespace Binary64

/-- The text of digits holds digits, a point, an exponent and its sign. -/
theorem notMem_layDigits {c : Char} (digits : ∀ width n, c ∉ Text.decimalDigits width n)
    (other : c ∉ ['0', '.', 'e', '-', '+']) (layout : Layout) (d : Digits) :
    c ∉ layDigits layout d := by
  have exponent := digits layout.exponentWidth
  replace digits := digits 1 d.significand
  simp only [List.mem_cons, List.not_mem_nil, or_false, not_or] at other
  obtain ⟨zero, point, mark, minus, plus⟩ := other
  simp only [layDigits]
  generalize Text.decimalDigits 1 d.significand = ds at digits
  split
  case isTrue =>
    split
    case isTrue => simp [digits, zero, point]
    case isFalse =>
      generalize (_ : Int).toNat = whole
      have padded : c ∉ ds ++ List.replicate (whole - ds.length) '0' := by simp [digits, zero]
      have front := fun member => padded (List.mem_of_mem_take (i := whole) member)
      have back := fun member => padded (List.mem_of_mem_drop (i := whole) member)
      rw [List.mem_append, List.mem_cons, not_or, not_or]
      refine ⟨front, point, ?_⟩
      split
      · simpa using zero
      · exact back
  case isFalse =>
    rw [List.mem_append, List.mem_cons, List.mem_cons, not_or, not_or, not_or]
    refine ⟨?mantissa, mark, ?sign, exponent _⟩
    case mantissa =>
      split
      · exact List.not_mem_nil
      · exact digits
      · simp_all
    case sign =>
      split
      · exact minus
      · exact plus

theorem oneLine_text (x : Binary64) : OneLine (x.text Value.numberLayout) := by
  cases x with
  | nan =>
    change OneLine Value.numberLayout.nan
    decide
  | infinite negative => cases negative <;> decide
  | finite negative s e =>
    have digits : '\n' ∉ (if s = 0 then ['0', '.', '0']
        else layDigits Value.numberLayout (shortest s e)) := by
      split
      · decide
      · refine notMem_layDigits (fun width n => ?_) (by decide) _ _
        exact Text.newline_notMem (Text.unbroken_decimalDigits width n)
    refine .ofList ?_
    cases negative
    · exact digits
    · exact List.not_mem_cons_of_ne_of_not_mem (by decide) digits

end Binary64

/-! ### Quoted text -/

namespace Text

theorem oneLine_quoted (cs : List Char) : OneLine (String.ofList (quoted cs)) :=
  .ofList (newline_notMem (unbroken_quoted cs))

theorem oneLine_quotedBytes (bs : List UInt8) : OneLine (String.ofList (quotedBytes bs)) :=
  .ofList (newline_notMem (unbroken_quotedBytes bs))

end Text

/-! ### Names of kinds -/

theorem Value.unbroken_kindName (v : Value) : Text.Unbroken v.kindName.toList := by
  induction v using Value.kindName.induct with
  | case13 _ v ih => exact ih
  | case14 _ form =>
    rw [kindName]
    cases form <;> decide +kernel
  | _ =>
    rw [kindName]
    decide +kernel

/-! ### Dates -/

theorem Date.oneLine_display (d : Date) : OneLine d.display := by
  have start : OneLine "datetime.date(" := by decide +kernel
  have gap : OneLine ", " := by decide +kernel
  have ends : OneLine ")" := by decide +kernel
  exact (((((start.append (oneLine_nat _)).append gap).append (oneLine_nat _)).append gap).append
    (oneLine_nat _)).append ends

theorem DateTime.oneLine_displayOffset (o : Int) : OneLine (displayOffset o) := by
  have before : OneLine "datetime.timezone(datetime.timedelta(days=-1, seconds=" := by
    decide +kernel
  have behind : OneLine "datetime.timezone(datetime.timedelta(seconds=" := by decide +kernel
  have ends : OneLine "))" := by decide +kernel
  rw [displayOffset]
  split
  case isTrue => decide +kernel
  case isFalse =>
    split
    · exact (before.append (oneLine_int _)).append ends
    · exact (behind.append (oneLine_int _)).append ends

theorem DateTime.oneLine_display (t : DateTime) : OneLine t.display := by
  have start : OneLine "datetime.datetime(" := by decide +kernel
  have gap : OneLine ", " := by decide +kernel
  have ends : OneLine ")" := by decide +kernel
  have nothing : OneLine "" := by decide
  have day := ((((start.append (oneLine_nat t.date.year)).append gap).append
    (oneLine_nat t.date.month)).append gap).append (oneLine_nat t.date.day)
  have minutes := (((day.append gap).append (oneLine_nat t.hour)).append gap).append
    (oneLine_nat t.minute)
  dsimp only [DateTime.display]
  refine .append (.append (.append minutes ?_) ?_) ends
  · split
    · exact ((gap.append (oneLine_nat t.second)).append gap).append (oneLine_nat t.microsecond)
    · split
      · exact gap.append (oneLine_nat t.second)
      · exact nothing
  · cases t.offset with
    | none => exact nothing
    | some o => exact .append (by decide +kernel) (oneLine_displayOffset o)

namespace Value

/-! ### Values that can be shown -/

variable {v : Value} {items : List Value} {es : Entries} {s : String} {parts : List String}

mutual

/-- Whether a value holds a whole number that is too long to be written. -/
def holdsLong : Value → Bool
  | .int i => numeralBound ≤ i.natAbs
  | .list items => anyHoldsLong items
  | .tuple items => anyHoldsLong items
  | .set items => anyHoldsLong items
  | .map entries => anyEntryHoldsLong entries
  | .ring _ v => holdsLong v
  | _ => false

def anyHoldsLong : List Value → Bool
  | [] => false
  | v :: rest => holdsLong v || anyHoldsLong rest

def anyEntryHoldsLong : Entries → Bool
  | [] => false
  | (k, v) :: rest => holdsLong k || holdsLong v || anyEntryHoldsLong rest

end

section
variable {α β γ : Type} (first : Except Failure α) (second : Except Failure β)

theorem isOk_pure_bind (f : α → γ) : (do return f (← first)).isOk = first.isOk := by
  cases first <;> rfl

theorem isOk_bind_bind (f : α → β → γ) :
    (do let a ← first; return f a (← second)).isOk = (first.isOk && second.isOk) := by
  cases first <;> cases second <;> rfl

end

theorem holdsLong_numeralBound : holdsLong (.int numeralBound) = true := by
  simp only [holdsLong, Int.natAbs_natCast, Nat.le_refl, decide_true]

theorem isOk_numeral (i : Int) : (numeral i).isOk = !decide (numeralBound ≤ i.natAbs) := by
  rw [numeral]
  split
  case isTrue short => simp [Except.isOk, Except.toBool, Nat.not_le.mpr short]
  case isFalse long => simp [Except.isOk, Except.toBool, Nat.le_of_not_lt long]

mutual

/-- A value can be shown exactly when all its numbers can be written. -/
theorem isOk_display (v : Value) : v.display.isOk = !v.holdsLong := by
  cases v with
  | int i => rw [display, holdsLong, isOk_numeral]
  | list items => rw [display, holdsLong, isOk_pure_bind, isOk_displayItems items]
  | map es => rw [display, holdsLong, isOk_pure_bind, isOk_displayEntries es]
  | tuple items =>
    cases items with
    | nil => rfl
    | cons v rest =>
      cases rest with
      | nil =>
        rw [display, holdsLong, isOk_pure_bind, isOk_display v, anyHoldsLong, anyHoldsLong,
          Bool.or_false]
      | cons w rest =>
        rw [display, holdsLong, isOk_pure_bind, isOk_displayItems (v :: w :: rest)]
        exact fun _ h => by cases h
  | set items =>
    cases items with
    | nil => rfl
    | cons v rest =>
      rw [display, holdsLong, isOk_pure_bind, isOk_displayItems (v :: rest)]
      exact fun h => by cases h
  | ring _ v => rw [display, holdsLong, isOk_display v]
  | _ => rfl
termination_by structural v

theorem isOk_displayItems (items : List Value) :
    (displayItems items).isOk = !anyHoldsLong items := by
  cases items with
  | nil => rfl
  | cons v rest =>
    rw [displayItems, anyHoldsLong, isOk_bind_bind, isOk_display v, isOk_displayItems rest,
      Bool.not_or]
termination_by structural items

theorem isOk_displayEntries (es : Entries) :
    (displayEntries es).isOk = !anyEntryHoldsLong es := by
  cases es with
  | nil => rfl
  | cons entry rest =>
    obtain ⟨k, v⟩ := entry
    rw [displayEntries, anyEntryHoldsLong, Bool.not_or, Bool.not_or, ← isOk_display k,
      ← isOk_display v, ← isOk_displayEntries rest]
    cases k.display <;> cases v.display <;> cases displayEntries rest <;> rfl
termination_by structural es

end

/-- So can its plain text be made. -/
theorem isOk_text (v : Value) : v.text.isOk = !v.holdsLong := by
  cases v with
  | str | date | datetime => rfl
  | _ => exact isOk_display _

/-! ### Values that cannot be shown -/

section
variable {failure : Failure}

theorem failure_return {α β : Type} {first : Except Failure α} {f : α → β}
    (failed : (do return f (← first)) = Except.error failure) : first = .error failure := by
  obtain failed | ⟨_, _, ended⟩ := bind_eq_error.mp failed
  · exact failed
  · cases ended

theorem failure_numeral {i : Int} (failed : numeral i = .error failure) :
    failure = .fault .value := by
  rw [numeral] at failed
  split at failed
  · cases failed
  · exact (Except.error.inj failed).symm

mutual

/-- There is one reason why a value cannot be shown. -/
theorem failure_display (v : Value) : ∀ {failure}, v.display = .error failure →
    failure = .fault .value := by
  intro failure failed
  cases v with
  | int i => exact failure_numeral failed
  | list items => exact failure_displayItems items (failure_return failed)
  | map es => exact failure_displayEntries es (failure_return failed)
  | tuple items =>
    cases items with
    | nil => cases failed
    | cons v rest =>
      cases rest with
      | nil => exact failure_display v (failure_return failed)
      | cons w rest => exact failure_displayItems (v :: w :: rest) (failure_return failed)
  | set items =>
    cases items with
    | nil => cases failed
    | cons v rest => exact failure_displayItems (v :: rest) (failure_return failed)
  | ring _ v => exact failure_display v failed
  | _ => cases failed
termination_by structural v

theorem failure_displayItems (items : List Value) : ∀ {failure},
    displayItems items = .error failure → failure = .fault .value := by
  intro failure failed
  cases items with
  | nil => cases failed
  | cons v rest =>
    obtain failed | ⟨_, _, failed⟩ := bind_eq_error.mp failed
    · exact failure_display v failed
    · exact failure_displayItems rest (failure_return failed)
termination_by structural items

theorem failure_displayEntries (es : Entries) : ∀ {failure},
    displayEntries es = .error failure → failure = .fault .value := by
  intro failure failed
  cases es with
  | nil => cases failed
  | cons entry rest =>
    obtain ⟨k, v⟩ := entry
    obtain failed | ⟨_, _, failed⟩ := bind_eq_error.mp failed
    · exact failure_display k failed
    obtain failed | ⟨_, _, failed⟩ := bind_eq_error.mp failed
    · exact failure_display v failed
    · exact failure_displayEntries rest (failure_return failed)
termination_by structural es

end

theorem failure_text (failed : v.text = .error failure) : failure = .fault .value := by
  cases v with
  | str | date | datetime => cases failed
  | _ => exact failure_display _ failed

theorem text_eq_error :
    v.text = .error failure ↔ v.holdsLong = true ∧ failure = .fault .value := by
  have made := isOk_text v
  constructor
  · intro failed
    rw [failed, eq_comm, Bool.not_eq_eq_eq_not] at made
    exact ⟨made, failure_text failed⟩
  · rintro ⟨long, rfl⟩
    rw [long] at made
    cases ended : v.text with
    | ok s =>
      rw [ended] at made
      cases made
    | error other => rw [failure_text ended]

end

/-! ### Shown values -/

theorem oneLine_bracketed {form : Form} (inside : OneLine s) : OneLine (bracketed form s) := by
  cases form <;> exact .append (.append (by decide +kernel) inside) (by decide +kernel)

theorem oneLine_numeral {i : Int} (shown : numeral i = .ok s) : OneLine s := by
  rw [numeral] at shown
  split at shown
  · rw [← Except.ok.inj shown]
    exact oneLine_int i
  · cases shown

/-- Parts between brackets stand on one line if each of them does. -/
theorem oneLine_of_parts {form : Form} (all : ∀ part ∈ parts, OneLine part) :
    OneLine (bracketed form (", ".intercalate parts)) :=
  oneLine_bracketed (.intercalate (by decide +kernel) all)

mutual

/-- Whatever is shown stands on one line. -/
theorem oneLine_display (v : Value) : ∀ {s}, v.display = .ok s → OneLine s := by
  intro s shown
  cases v with
  | int i => exact oneLine_numeral shown
  | list items =>
    obtain ⟨parts, all, rest⟩ := bind_eq_ok.mp shown
    rw [← Except.ok.inj rest]
    exact oneLine_of_parts (oneLine_displayItems items all)
  | map es =>
    obtain ⟨parts, all, rest⟩ := bind_eq_ok.mp shown
    rw [← Except.ok.inj rest]
    exact oneLine_of_parts (oneLine_displayEntries es all)
  | tuple items =>
    -- a tuple of one item is shown with a comma behind it
    match items with
    | [] =>
      rw [← Except.ok.inj shown]
      decide +kernel
    | [v] =>
      obtain ⟨part, here, rest⟩ := bind_eq_ok.mp shown
      rw [← Except.ok.inj rest]
      exact oneLine_bracketed (.append (oneLine_display v here) (by decide +kernel))
    | v :: w :: items =>
      obtain ⟨parts, all, rest⟩ := bind_eq_ok.mp shown
      rw [← Except.ok.inj rest]
      exact oneLine_of_parts (oneLine_displayItems (v :: w :: items) all)
  | set items =>
    match items with
    | [] =>
      rw [← Except.ok.inj shown]
      decide +kernel
    | v :: items =>
      obtain ⟨parts, all, rest⟩ := bind_eq_ok.mp shown
      rw [← Except.ok.inj rest]
      exact oneLine_of_parts (oneLine_displayItems (v :: items) all)
  | ring _ v => exact oneLine_display v shown
  | null =>
    rw [← Except.ok.inj shown]
    decide +kernel
  | again =>
    rw [← Except.ok.inj shown]
    exact oneLine_bracketed (by decide +kernel)
  | bool b =>
    rw [← Except.ok.inj shown]
    cases b <;> decide +kernel
  | float x =>
    rw [← Except.ok.inj shown]
    exact x.oneLine_text
  | str s =>
    rw [← Except.ok.inj shown]
    exact Text.oneLine_quoted s.toList
  | date d =>
    rw [← Except.ok.inj shown]
    exact d.oneLine_display
  | datetime t =>
    rw [← Except.ok.inj shown]
    exact t.oneLine_display
  | bytes bs =>
    rw [← Except.ok.inj shown]
    exact Text.oneLine_quotedBytes bs
termination_by structural v

theorem oneLine_displayItems (items : List Value) :
    ∀ {parts}, displayItems items = .ok parts → ∀ part ∈ parts, OneLine part := by
  intro parts shown
  cases items with
  | nil =>
    rw [← Except.ok.inj shown]
    exact List.forall_mem_nil _
  | cons v rest =>
    obtain ⟨first, here, shown⟩ := bind_eq_ok.mp shown
    obtain ⟨others, behind, shown⟩ := bind_eq_ok.mp shown
    rw [← Except.ok.inj shown]
    exact List.forall_mem_cons.mpr ⟨oneLine_display v here, oneLine_displayItems rest behind⟩
termination_by structural items

theorem oneLine_displayEntries (es : Entries) :
    ∀ {parts}, displayEntries es = .ok parts → ∀ part ∈ parts, OneLine part := by
  intro parts shown
  cases es with
  | nil =>
    rw [← Except.ok.inj shown]
    exact List.forall_mem_nil _
  | cons entry rest =>
    obtain ⟨k, v⟩ := entry
    obtain ⟨key, here, shown⟩ := bind_eq_ok.mp shown
    obtain ⟨value, there, shown⟩ := bind_eq_ok.mp shown
    obtain ⟨others, behind, shown⟩ := bind_eq_ok.mp shown
    rw [← Except.ok.inj shown]
    have key := (oneLine_display k here).append (show OneLine ": " by decide +kernel)
    have pair := key.append (oneLine_display v there)
    exact List.forall_mem_cons.mpr ⟨pair, oneLine_displayEntries rest behind⟩
termination_by structural es

end

end Value

end MachinePlan
