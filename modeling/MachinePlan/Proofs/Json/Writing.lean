import MachinePlan.Json.Basic
import MachinePlan.Proofs.Json.Grammar
import MachinePlan.Proofs.Text.Half

/-!
# Writing stays in the grammar

Plain values are those that JSON has a form of its own for. Each of them is written, with any white
space between the tokens, as an ASCII text that denotes it (`Plain.write`); how characters are
escaped and numbers are laid out is settled by `spelling_escapeChar` and `numeral_toDigits`.
-/

namespace MachinePlan.Json

variable {n width : Nat} {c : Char} {cs s w w' : List Char} {v : Value} {vs : List Value}
  {es : Value.Entries} {spacing : Spacing}

/-- Values without loss in JSON: whole numbers that can be written, texts of characters, rows, and
mappings under distinct texts. -/
inductive Plain : Value → Prop
  | null : Plain .null
  | bool (b : Bool) : Plain (.bool b)
  | int {i : Int} (short : i.natAbs < Value.numeralBound) : Plain (.int i)
  | text (s : List Char) : Plain (textValue s)
  | list {vs : List Value} (all : ∀ v ∈ vs, Plain v) : Plain (.list vs)
  | map {es : Value.Entries} (names : ∀ e ∈ es, ∃ s, e.1 = textValue s)
    (distinct : (es.map Prod.fst).Nodup) (values : ∀ e ∈ es, Plain e.2) : Plain (.map es)

def Ascii (cs : List Char) : Prop := ∀ c ∈ cs, c.toNat < 128

instance : Decidable (Ascii cs) := List.decidableBAll (fun c : Char => c.toNat < 128) cs

theorem ascii_append : Ascii (cs ++ w) ↔ Ascii cs ∧ Ascii w := List.forall_mem_append

theorem ascii_cons : Ascii (c :: cs) ↔ c.toNat < 128 ∧ Ascii cs := List.forall_mem_cons

theorem ascii_nil : Ascii [] := List.forall_mem_nil _

theorem ascii_of_isSpace (space : IsSpace w) : Ascii w := by
  intro c member
  rcases space c member with rfl | rfl | rfl | rfl <;> decide

/-! ### Digits -/

theorem numeral_toDigits (n : Nat) : Numeral n (Nat.toDigits 10 n) := by
  induction n using Nat.strongRecOn with
  | ind n ih =>
    rcases Nat.lt_or_ge n 10 with small | large
    · rw [Nat.toDigits_of_lt_base small]
      exact .digit small
    · have front := ih (n / 10) (by omega)
      have whole := Numeral.next front (by omega) (Nat.mod_lt n (by omega))
      rw [Nat.div_add_mod'] at whole
      rwa [Nat.toDigits_of_base_le (by omega) large]

theorem ascii_of_numeral (numeral : Numeral n cs) : Ascii cs := by
  intro c member
  have digit := numeral.digits c member
  rw [Text.isAsciiDigit, Bool.and_eq_true, decide_eq_true_eq, decide_eq_true_eq, char_le_iff,
    char_le_iff] at digit
  exact Nat.lt_of_le_of_lt digit.2 (by decide)

theorem denotes_int (i : Int) :
    Denotes (.value (.int i)) (toString i).toList ∧ Ascii (toString i).toList := by
  rw [Int.toString_eq_repr]
  cases i with
  | ofNat n =>
    have digits := numeral_toDigits n
    rw [Int.repr, Nat.toList_repr]
    exact ⟨.whole digits, ascii_of_numeral digits⟩
  | negSucc n =>
    have digits := numeral_toDigits (n + 1)
    rw [Int.repr, String.toList_append, Nat.toList_repr]
    exact ⟨.negative digits, ascii_cons.mpr ⟨by decide, ascii_of_numeral digits⟩⟩

/-- The last digit behind the others. -/
theorem hexDigits_succ (positive : 0 < width) (n : Nat) :
    Text.hexDigits (width + 1) n = Text.hexDigits width (n / 16) ++ [(n % 16).digitChar] := by
  rw [Text.hexDigits, Text.hexDigits]
  rcases Nat.lt_or_ge n 16 with small | large
  · obtain ⟨width, rfl⟩ : ∃ k, width = k + 1 := ⟨width - 1, by omega⟩
    have zero : n / 16 = 0 := by omega
    rw [Nat.toDigits_of_lt_base small, Nat.mod_eq_of_lt small, zero,
      Nat.toDigits_of_lt_base (by omega)]
    simp only [List.length_singleton, Nat.add_sub_cancel, List.replicate_succ']
    rfl
  · rw [Nat.toDigits_of_base_le (by omega) large, List.length_append, List.length_singleton,
      Nat.add_sub_add_right, List.append_assoc]

theorem hexValue_digitChar {d : Nat} (small : d < 16) : hexValue? d.digitChar = some d := by
  have all : ∀ d : Fin 16, hexValue? (Nat.digitChar d) = some d.val := by decide
  exact all ⟨d, small⟩

theorem quad_hexDigits (small : n < 0x10000) : Quad n (Text.hexDigits 4 n) := by
  have one : Text.hexDigits 1 (n / 16 / 16 / 16) = [(n / 16 / 16 / 16).digitChar] := by
    rw [Text.hexDigits, Nat.toDigits_of_lt_base (by omega)]
    rfl
  have whole : n = ((n / 16 / 16 / 16 * 16 + n / 16 / 16 % 16) * 16 + n / 16 % 16) * 16 + n % 16 := by
    omega
  rw [hexDigits_succ (by omega), hexDigits_succ (by omega), hexDigits_succ (by omega), one]
  have quad := Quad.of (hexValue_digitChar (d := n / 16 / 16 / 16) (by omega))
    (hexValue_digitChar (d := n / 16 / 16 % 16) (by omega))
    (hexValue_digitChar (d := n / 16 % 16) (by omega)) (hexValue_digitChar (d := n % 16) (by omega))
  rw [← whole] at quad
  exact quad

theorem ascii_of_quad (quad : Quad n cs) : Ascii cs := by
  have digit : ∀ {c i}, hexValue? c = some i → c.toNat < 128 := by
    intro c i value
    rw [hexValue?] at value
    simp only [char_le_iff, Char.reduceToNat] at value
    split at value
    · omega
    · split at value
      · omega
      · split at value
        · omega
        · cases value
  cases quad with
  | of first second third last =>
    simp [ascii_cons, ascii_nil, digit first, digit second, digit third, digit last]

/-! ### Strings -/

/-- A character is escaped to one of its spellings. -/
theorem spelling_escapeChar (c : Char) : Spelling c (escapeChar c) ∧ Ascii (escapeChar c) := by
  have named : ∀ name, (name, c) ∈ letters → Spelling c ['\\', name] ∧ Ascii ['\\', name] := by
    intro name known
    have all : ∀ pair ∈ letters, Ascii ['\\', pair.1] := by
      simp [letters, ascii_cons, ascii_nil]
    exact ⟨.letter known, all _ known⟩
  have unit : ∀ {n}, n < 0x10000 → Ascii (escapeUnit n) := fun small =>
    ascii_cons.mpr ⟨by decide, ascii_cons.mpr ⟨by decide, ascii_of_quad (quad_hexDigits small)⟩⟩
  -- One case for each branch of `escapeChar`, in its order.
  rw [escapeChar]
  split
  case isTrue same => exact named '"' (by simp [same, letters])
  case isFalse quote =>
  split
  case isTrue same => exact named '\\' (by simp [same, letters])
  case isFalse slash =>
  split
  case isTrue same => exact named 'n' (by simp [same, letters])
  case isFalse =>
  split
  case isTrue same => exact named 'r' (by simp [same, letters])
  case isFalse =>
  split
  case isTrue same => exact named 't' (by simp [same, letters])
  case isFalse =>
  split
  case isTrue same =>
    obtain rfl : c = '\x08' := Char.toNat_inj.mp same
    exact named 'b' (by simp [letters])
  case isFalse =>
  split
  case isTrue same =>
    obtain rfl : c = '\x0c' := Char.toNat_inj.mp same
    exact named 'f' (by simp [letters])
  case isFalse =>
  split
  case isTrue visible =>
    rw [Bool.and_eq_true, decide_eq_true_eq, decide_eq_true_eq] at visible
    exact ⟨.plain visible.1 quote slash, ascii_cons.mpr ⟨by omega, ascii_nil⟩⟩
  case isFalse =>
  split
  case isTrue basic => exact ⟨.unit (quad_hexDigits basic), unit basic⟩
  case isFalse beyond =>
    have valid : c.toNat < 0xd800 ∨ 0xdfff < c.toNat ∧ c.toNat < 0x110000 := c.valid
    have high : 0xd800 + (c.toNat - 0x10000) / 0x400 < 0x10000 := by omega
    have low : 0xdc00 + (c.toNat - 0x10000) % 0x400 < 0x10000 := by omega
    exact ⟨.pair (quad_hexDigits high) (quad_hexDigits low) (by omega) (by omega) (by omega),
      ascii_append.mpr ⟨unit high, unit low⟩⟩

theorem spells_escaped (s : List Char) :
    Spells s ((Text.codes (Text.spellAll s)).flatMap escapeCode) ∧
      Ascii ((Text.codes (Text.spellAll s)).flatMap escapeCode) := by
  rw [Text.codes_spellAll]
  induction s with
  | nil => exact ⟨.nil, ascii_nil⟩
  | cons c s ih =>
    have here : escapeCode c.toNat = escapeChar c := by
      rw [escapeCode, Text.isHalf_toNat, if_neg Bool.false_ne_true, Char.ofNat_toNat]
    obtain ⟨spelling, ascii⟩ := spelling_escapeChar c
    rw [List.map_cons, List.flatMap_cons, here]
    exact ⟨.cons spelling ih.1, ascii_append.mpr ⟨ascii, ih.2⟩⟩

/-! ### Containers -/

structure Spacing.Blank (spacing : Spacing) : Prop where
  inside : ∀ level, IsSpace (spacing.inside level)
  between : ∀ level, IsSpace (spacing.between level)
  closing : ∀ level, IsSpace (spacing.closing level)

theorem isSpace_newline (level : Nat) : IsSpace (newline level) := by
  refine List.forall_mem_cons.mpr ⟨.inr (.inl rfl), fun c member => .inl ?_⟩
  exact List.eq_of_mem_replicate member

theorem indented_blank : indented.Blank where
  inside level := isSpace_newline (level + 1)
  between level := isSpace_newline (level + 1)
  closing := isSpace_newline

theorem isSpace_nil : IsSpace [] := List.forall_mem_nil _

/-- A value is written at every level, in ASCII, and what is written denotes it. -/
def Faithful (spacing : Spacing) (v : Value) : Prop :=
  ∀ level, ∃ cs, write spacing level v = .ok cs ∧ Denotes (.value v) cs ∧ Ascii cs

theorem writeItems_faithful (level : Nat) (blank : spacing.Blank) (nonempty : vs ≠ [])
    (all : ∀ v ∈ vs, Faithful spacing v) (before : IsSpace w) (behind : IsSpace w') :
    ∃ body, writeItems spacing level vs = .ok body ∧ Denotes (.items vs) (w ++ body ++ w') ∧
      Ascii body := by
  induction vs generalizing w with
  | nil => exact absurd rfl nonempty
  | cons v vs ih =>
    obtain ⟨head, wrote, denotes, ascii⟩ := all v List.mem_cons_self (level + 1)
    cases vs with
    | nil => exact ⟨head, wrote, .lastItem (.item before denotes behind), ascii⟩
    | cons u vs =>
      have others := fun x member => all x (List.mem_cons_of_mem v member)
      obtain ⟨tail, wrote', denotes', ascii'⟩ :=
        ih (List.cons_ne_nil u vs) others (blank.between level)
      have item : Denotes (.item v) (w ++ head ++ []) := .item before denotes isSpace_nil
      have row := item.nextItem denotes'
      refine ⟨head ++ ',' :: spacing.between level ++ tail, ?_, by simpa using row, ?_⟩
      · rw [writeItems, wrote, wrote']
        · rfl
        · exact List.cons_ne_nil u vs
      · have gap := ascii_of_isSpace (blank.between level)
        simpa [ascii_append, ascii_cons] using ⟨ascii, gap, ascii'⟩

theorem string_textValue (s : List Char) : string (String.ofList (Text.spellAll s)) =
    '"' :: (Text.codes (Text.spellAll s)).flatMap escapeCode ++ ['"'] := by
  rw [string, String.toList_ofList]

theorem writeEntries_faithful (level : Nat) (blank : spacing.Blank) (nonempty : es ≠ [])
    (names : ∀ e ∈ es, ∃ s, e.1 = textValue s) (all : ∀ e ∈ es, Faithful spacing e.2)
    (before : IsSpace w) (behind : IsSpace w') :
    ∃ body, writeEntries spacing level es = .ok body ∧
      Denotes (.members es) (w ++ body ++ w') ∧ Ascii body := by
  induction es generalizing w with
  | nil => exact absurd rfl nonempty
  | cons entry es ih =>
    obtain ⟨name, v⟩ := entry
    obtain ⟨s, rfl⟩ := names _ List.mem_cons_self
    obtain ⟨head, wrote, denotes, ascii⟩ := all _ List.mem_cons_self (level + 1)
    obtain ⟨spells, plain⟩ := spells_escaped s
    have gap : IsSpace [' '] := List.forall_mem_singleton.mpr (.inl rfl)
    have member : ∀ {w'}, IsSpace w' → Denotes (.member (textValue s, v)) (w ++ '"' ::
        (Text.codes (Text.spellAll s)).flatMap escapeCode ++ '"' :: [] ++ ':' ::
          ([' '] ++ head ++ w')) := fun behind =>
      .member before spells isSpace_nil (.item gap denotes behind)
    cases es with
    | nil =>
      have row := (member behind).lastMember
      refine ⟨string (String.ofList (Text.spellAll s)) ++ ':' :: ' ' :: head, ?_,
        by simpa [string_textValue] using row, ?_⟩
      · simp only [writeEntries, textValue, keyText, wrote]
        rfl
      · simpa [string_textValue, ascii_append, ascii_cons, ascii_nil] using ⟨plain, ascii⟩
    | cons e es =>
      have others := fun x member => all x (List.mem_cons_of_mem _ member)
      have known := fun x member => names x (List.mem_cons_of_mem _ member)
      obtain ⟨tail, wrote', denotes', ascii'⟩ :=
        ih (List.cons_ne_nil e es) known others (blank.between level)
      have row := (member isSpace_nil).nextMember denotes'
      refine ⟨string (String.ofList (Text.spellAll s)) ++ ':' :: ' ' :: head ++
        ',' :: spacing.between level ++ tail, ?_, by simpa [string_textValue] using row, ?_⟩
      · rw [writeEntries, wrote', wrote]
        · rfl
        · exact List.cons_ne_nil e es
      · have gap := ascii_of_isSpace (blank.between level)
        simpa [string_textValue, ascii_append, ascii_cons, ascii_nil] using
          ⟨plain, ascii, gap, ascii'⟩

/-! ### Values -/

/-- A plain value is written as a text that denotes it. -/
theorem Plain.write (plain : Plain v) (blank : spacing.Blank) : Faithful spacing v := by
  -- `Faithful` speaks of every level, since the parts of a container are written one level deeper.
  induction plain with
  | null => exact fun _ => ⟨_, rfl, .null, by decide⟩
  | bool b =>
    cases b with
    | false => exact fun _ => ⟨_, rfl, .false, by decide⟩
    | true => exact fun _ => ⟨_, rfl, .true, by decide⟩
  | @int i short =>
    refine fun _ => ⟨(toString i).toList, ?_, denotes_int i⟩
    rw [Json.write, Value.numeral, if_pos short]
    rfl
  | text s =>
    obtain ⟨spells, ascii⟩ := spells_escaped s
    refine fun _ => ⟨_, rfl, ?_, ?_⟩ <;> rw [string_textValue]
    · exact .string spells
    · simpa [ascii_append, ascii_cons, ascii_nil] using ascii
  | @list vs _ ih =>
    intro level
    cases vs with
    | nil => exact ⟨_, rfl, .emptyArray isSpace_nil, by decide⟩
    | cons v vs =>
      obtain ⟨body, wrote, denotes, ascii⟩ := writeItems_faithful level blank
        (List.cons_ne_nil v vs) ih (blank.inside level) (blank.closing level)
      refine ⟨'[' :: spacing.inside level ++ body ++ spacing.closing level ++ [']'], ?_,
        .array denotes, ?_⟩
      · rw [Json.write, wrote]
        · rfl
        · exact List.cons_ne_nil v vs
      · have inside := ascii_of_isSpace (blank.inside level)
        have closing := ascii_of_isSpace (blank.closing level)
        simpa [ascii_append, ascii_cons, ascii_nil] using ⟨inside, ascii, closing⟩
  | @map es names distinct _ ih =>
    intro level
    cases es with
    | nil => exact ⟨_, rfl, .emptyObject isSpace_nil, by decide⟩
    | cons e es =>
      obtain ⟨body, wrote, denotes, ascii⟩ := writeEntries_faithful level blank
        (List.cons_ne_nil e es) names ih (blank.inside level) (blank.closing level)
      refine ⟨'\x7b' :: spacing.inside level ++ body ++ spacing.closing level ++ ['\x7d'], ?_,
        .object denotes distinct, ?_⟩
      · rw [Json.write, wrote]
        · rfl
        · exact List.cons_ne_nil e es
      · have inside := ascii_of_isSpace (blank.inside level)
        have closing := ascii_of_isSpace (blank.closing level)
        simpa [ascii_append, ascii_cons, ascii_nil] using ⟨inside, ascii, closing⟩

/-- The indented text of a plain value is a JSON text of it, also with a line break behind it. -/
theorem Plain.document (plain : Plain v) :
    ∃ text, document v = .ok text ∧ IsText v (text ++ "\n") ∧ Ascii text.toList := by
  obtain ⟨cs, wrote, denotes, ascii⟩ := plain.write indented_blank 0
  refine ⟨String.ofList cs, ?_, ?_, ?_⟩
  · rw [Json.document, wrote]
    rfl
  · have line : IsSpace ['\n'] := List.forall_mem_singleton.mpr (.inr (.inl rfl))
    have whole := Denotes.item isSpace_nil denotes line
    rw [IsText, String.toList_append, String.toList_ofList]
    exact whole
  · rwa [String.toList_ofList]

end MachinePlan.Json
