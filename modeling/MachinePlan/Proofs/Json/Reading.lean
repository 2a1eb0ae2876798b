import MachinePlan.Json.Reader
import MachinePlan.Proofs.Entries
import MachinePlan.Proofs.Json.Grammar
import MachinePlan.Proofs.Text.Digits
import MachinePlan.Proofs.Text.Half

/-!
# Reading follows the grammar

Every JSON text is read as the value that it denotes (`read_of_isText`). So no text denotes two
values (`IsText.unique`).
-/

namespace MachinePlan.Json

variable {c d : Char} {n i : Nat} {cs ts s w rest tail : List Char} {v : Value} {vs : List Value}
  {es : Value.Entries} {fuel : Nat}

/-! ### White space -/

theorem skipSpace_of_isSpace (space : IsSpace w) (cs : List Char) :
    skipSpace (w ++ cs) = skipSpace cs := by
  induction w with
  | nil => rfl
  | cons c w ih =>
    have here := space c List.mem_cons_self
    rw [List.cons_append, skipSpace, if_pos (by simpa [or_assoc] using here)]
    exact ih fun d member => space d (List.mem_cons_of_mem c member)

theorem skipSpace_idem (cs : List Char) : skipSpace (skipSpace cs) = skipSpace cs := by
  induction cs with
  | nil => rfl
  | cons c cs ih =>
    rw [skipSpace]
    split
    case isTrue => exact ih
    case isFalse bare => rw [skipSpace, if_neg bare]

theorem readValue_skipSpace (fuel : Nat) (cs : List Char) :
    readValue fuel (skipSpace cs) = readValue fuel cs := by
  cases fuel with
  | zero => rfl
  | succ fuel => rw [readValue, readValue, skipSpace_idem]

theorem readItems_skipSpace (fuel : Nat) (cs : List Char) :
    readItems fuel (skipSpace cs) = readItems fuel cs := by
  cases fuel with
  | zero => rfl
  | succ fuel => rw [readItems, readItems, readValue_skipSpace]

theorem readMembers_skipSpace (fuel : Nat) (cs : List Char) :
    readMembers fuel (skipSpace cs) = readMembers fuel cs := by
  cases fuel with
  | zero => rfl
  | succ fuel => rw [readMembers, readMembers, skipSpace_idem]

/-! ### Digits -/

theorem baseDigit_of_lt {d : Nat} (small : d < 10) : Text.baseDigit? d.digitChar = some d := by
  have all : ∀ d : Fin 10, Text.baseDigit? (Nat.digitChar d) = some d.val := by decide
  exact all ⟨d, small⟩

theorem baseDigit_of_hexValue (hex : hexValue? c = some i) :
    Text.baseDigit? c = some i ∧ i < 16 ∧ c ≠ '_' := by
  have bar : '_'.toNat = 95 := rfl
  have different : c.toNat ≠ 95 → c ≠ '_' := fun other same => other (same ▸ bar)
  rw [hexValue?] at hex
  simp only [char_le_iff, Char.reduceToNat] at hex
  rw [Text.baseDigit?]
  simp only [char_le_iff, Char.reduceToNat, Bool.and_eq_true, decide_eq_true_eq]
  split at hex
  case isTrue digit =>
    cases hex
    rw [if_neg (by omega), if_neg (by omega), Text.digitValue?, Text.digitZeros,
      List.find?_cons_of_pos (by simpa using ⟨digit.1, by omega⟩)]
    exact ⟨rfl, by omega, different (by omega)⟩
  case isFalse =>
    split at hex
    case isTrue lower =>
      cases hex
      rw [if_pos (by omega)]
      exact ⟨rfl, by omega, different (by omega)⟩
    case isFalse =>
      split at hex
      case isTrue upper =>
        cases hex
        rw [if_neg (by omega), if_pos (by omega)]
        exact ⟨rfl, by omega, different (by omega)⟩
      case isFalse => cases hex

theorem unit_of_quad (quad : Quad n cs) : ∃ a b c d, cs = [a, b, c, d] ∧ unit? a b c d = some n := by
  cases quad with
  | @of a b c d _ _ _ _ first second third last =>
    obtain ⟨va, sa, ba⟩ := baseDigit_of_hexValue first
    obtain ⟨vb, sb, bb⟩ := baseDigit_of_hexValue second
    obtain ⟨vc, sc, bc⟩ := baseDigit_of_hexValue third
    obtain ⟨vd, sd, bd⟩ := baseDigit_of_hexValue last
    refine ⟨a, b, c, d, rfl, ?_⟩
    rw [unit?, Text.digitsValue?, Text.digitsValue_go_cons va sa ba,
      Text.digitsValue_go_cons vb sb bb, Text.digitsValue_go_cons vc sc bc,
      Text.digitsValue_go_cons vd sd bd]
    simp [Text.digitsValue?.go]

/-! ### Strings -/

theorem unescape_of_mem (known : (c, d) ∈ letters) :
    c ≠ 'u' ∧ unescape? c = some d ∧ Text.spell d.toNat = [d] := by
  simp only [letters, List.mem_cons, Prod.mk.injEq, List.not_mem_nil, or_false] at known
  rcases known with ⟨rfl, rfl⟩ | ⟨rfl, rfl⟩ | ⟨rfl, rfl⟩ | ⟨rfl, rfl⟩ | ⟨rfl, rfl⟩ | ⟨rfl, rfl⟩ |
    ⟨rfl, rfl⟩ | ⟨rfl, rfl⟩ <;> exact ⟨by decide, rfl, rfl⟩

/-- A character in any spelling is read as that character. -/
theorem readString_spelling (spelling : Spelling c cs) (rest : List Char) :
    readString none (cs ++ rest) = (readString none rest).map fun (s, tail) =>
      (Text.spell c.toNat ++ s, tail) := by
  cases spelling with
  | plain visible inside bare =>
    rw [List.singleton_append, readString]
    · rw [if_neg inside, if_neg (by omega)]
      cases readString none rest <;> rfl
    · exact fun _ _ _ _ _ same => absurd same bare
    · exact fun _ _ same => absurd same bare
  | @letter name c known =>
    -- The reader looks for `u` first, so that no letter may be one.
    obtain ⟨short, named, plain⟩ := unescape_of_mem known
    change readString none ('\\' :: name :: rest) = _
    rw [readString]
    · simp only [named, plain, spellWaiting]
      cases readString none rest <;> rfl
    · exact fun _ _ _ _ _ same => absurd same short
  | unit quad =>
    obtain ⟨a, b, c', d, rfl, value⟩ := unit_of_quad quad
    have whole := Text.isHalf_toNat c
    rw [Text.isHalf, Bool.and_eq_false_iff, decide_eq_false_iff_not, decide_eq_false_iff_not]
      at whole
    change readString none ('\\' :: 'u' :: a :: b :: c' :: d :: rest) = _
    rw [readString]
    simp only [value, bind, Option.bind]
    rw [if_neg (by simp; omega)]
    cases readString none rest <;> rfl
  | pair first second isHigh isLow code =>
    -- The first unit is kept waiting until the second one completes it.
    obtain ⟨a, b, c', d, rfl, value⟩ := unit_of_quad first
    obtain ⟨e, f, g, h, rfl, value'⟩ := unit_of_quad second
    change readString none ('\\' :: 'u' :: a :: b :: c' :: d ::
      '\\' :: 'u' :: e :: f :: g :: h :: rest) = _
    rw [readString]
    simp only [value, bind, Option.bind]
    rw [if_pos (by simpa using isHigh), readString]
    simp only [value', bind, Option.bind]
    rw [if_pos (by simpa using isLow), ← code]
    cases readString none rest <;> rfl

/-- A string is read up to its closing quote. -/
theorem readString_spells (spells : Spells s cs) (tail : List Char) :
    readString none (cs ++ '"' :: tail) = some (Text.spellAll s, tail) := by
  induction spells with
  | nil => rfl
  | cons here _ ih =>
    rw [List.append_assoc, readString_spelling here, ih]
    rfl

/-! ### Numbers -/

/-- What follows a number does not go on with it. -/
def Quiet (rest : List Char) : Prop := ∀ c ∈ rest.head?, isNumberChar c = false

theorem quiet_append_of_isSpace (space : IsSpace w) (quiet : Quiet rest) : Quiet (w ++ rest) := by
  cases w with
  | nil => exact quiet
  | cons c w =>
    rintro _ ⟨⟩
    rcases space c List.mem_cons_self with rfl | rfl | rfl | rfl <;> rfl

theorem numeral_go (numeral : Numeral n cs) (rest : List Char) :
    ∀ acc after, Text.digitsValue?.go 10 acc after (cs ++ rest) =
      Text.digitsValue?.go 10 (acc * 10 ^ cs.length + n) true rest := by
  have digit : ∀ {d : Nat}, d < 10 → ∀ acc after rest,
      Text.digitsValue?.go 10 acc after (d.digitChar :: rest) =
        Text.digitsValue?.go 10 (acc * 10 + d) true rest := by
    intro d small acc after rest
    have bar := ne_of_isAsciiDigit (d := '_') (isAsciiDigit_digitChar small) rfl
    exact Text.digitsValue_go_cons (baseDigit_of_lt small) small bar rest
  induction numeral generalizing rest with
  | digit small =>
    intro acc after
    rw [List.singleton_append, digit small, List.length_singleton, Nat.pow_one]
  | @next n d cs _ _ small ih =>
    intro acc after
    rw [List.append_assoc, ih, List.singleton_append, digit small, List.length_append,
      List.length_singleton, Nat.pow_succ, Nat.add_mul, Nat.mul_assoc, Nat.add_assoc]

theorem numeral_ne_nil (numeral : Numeral n cs) : cs ≠ [] := by
  cases numeral with
  | digit => exact List.cons_ne_nil _ _
  | next => exact List.append_ne_nil_of_right_ne_nil _ (List.cons_ne_nil _ _)

theorem isNumberChar_of_isAsciiDigit (digit : Text.isAsciiDigit c = true) :
    isNumberChar c = true := by
  simp [isNumberChar, digit]

theorem readNumber_of_numeral (numeral : Numeral n cs) :
    readNumber? cs = some (.int n) ∧ readNumber? ('-' :: cs) = some (.int (-n)) := by
  have digits : cs.all Text.isAsciiDigit = true := List.all_eq_true.mpr numeral.digits
  have value : Text.digitsValue? 10 cs = some n := by
    have whole := numeral_go numeral [] 0 false
    rw [List.append_nil, Nat.zero_mul, Nat.zero_add] at whole
    exact whole
  constructor
  · cases cs with
    | nil => exact absurd rfl (numeral_ne_nil numeral)
    | cons c cs =>
      have unsigned := ne_of_isAsciiDigit (d := '-') (numeral.digits c List.mem_cons_self) rfl
      rw [readNumber?]
      · simp only [digits, value, if_true]
        rfl
      · intro rest same
        exact unsigned (List.cons.inj same).1
  · rw [readNumber?]
    simp only [digits, value, if_true]
    rfl

theorem readValue_number (numbers : ∀ c ∈ cs, isNumberChar c = true) (nonempty : cs ≠ [])
    (quiet : Quiet rest) (fuel : Nat) :
    readValue (fuel + 1) (cs ++ rest) = (readNumber? cs).map fun v => (v, rest) := by
  have stops : rest.takeWhile isNumberChar = [] ∧ rest.dropWhile isNumberChar = rest := by
    cases rest with
    | nil => exact ⟨rfl, rfl⟩
    | cons c rest =>
      have ends := quiet c rfl
      exact ⟨List.takeWhile_cons_of_neg (by simp [ends]), List.dropWhile_cons_of_neg (by simp [ends])⟩
  have taken : (cs ++ rest).takeWhile isNumberChar = cs := by
    rw [List.takeWhile_append_of_pos numbers, stops.1, List.append_nil]
  have left : (cs ++ rest).dropWhile isNumberChar = rest := by
    rw [List.dropWhile_append_of_pos numbers, stops.2]
  cases cs with
  | nil => exact absurd rfl nonempty
  | cons c cs =>
    have number := numbers c List.mem_cons_self
    have other : ∀ d, isNumberChar d = false → c ≠ d := by
      rintro d odd rfl
      cases odd.symm.trans number
    have bare : skipSpace (c :: (cs ++ rest)) = c :: (cs ++ rest) := by
      rw [skipSpace, if_neg]
      simp [other ' ' rfl, other '\n' rfl, other '\t' rfl, other '\r' rfl]
    have differs : ∀ d tail, isNumberChar d = false → c :: (cs ++ rest) ≠ d :: tail :=
      fun d tail odd same => other d odd (List.cons.inj same).1
    rw [List.cons_append] at taken left ⊢
    rw [readValue, bare]
    split
    case h_1 same => exact absurd same (differs _ _ rfl)
    case h_2 same => exact absurd same (differs _ _ rfl)
    case h_3 same => exact absurd same (differs _ _ rfl)
    case h_4 same => exact absurd same (differs _ _ rfl)
    case h_5 same => exact absurd same (differs _ _ rfl)
    case h_6 same => exact absurd same (differs _ _ rfl)
    case h_7 =>
      rw [taken, left]
      cases readNumber? (c :: cs) <;> rfl

/-! ### What texts open with -/

theorem skipSpace_of_bare (bare : ¬ (c = ' ' || c = '\n' || c = '\t' || c = '\r'))
    (cs : List Char) : skipSpace (c :: cs) = c :: cs := by
  rw [skipSpace, if_neg bare]

/-- What stands at the front of a part, behind white space: a quote before a name, and no closing
bracket before a value. -/
def Opens : Phrase → List Char → Prop
  | .member _, cs | .members _, cs => ∀ rest, ∃ tail, skipSpace (cs ++ rest) = '"' :: tail
  | _, cs => ∀ rest, ∃ c tail, skipSpace (cs ++ rest) = c :: tail ∧ c ≠ ']'

theorem Denotes.opens {p : Phrase} (denotes : Denotes p cs) : Opens p cs := by
  induction denotes with
  | @whole n cs numeral =>
    intro rest
    cases cs with
    | nil => exact absurd rfl (numeral_ne_nil numeral)
    | cons c cs =>
      have other := fun d => ne_of_isAsciiDigit (d := d) (numeral.digits c List.mem_cons_self)
      have bare : ¬ (c = ' ' || c = '\n' || c = '\t' || c = '\r') := by
        simp [other ' ' rfl, other '\n' rfl, other '\t' rfl, other '\r' rfl]
      exact ⟨c, _, skipSpace_of_bare bare _, other ']' rfl⟩
  | item space value space' ih =>
    intro rest
    rw [List.append_assoc, List.append_assoc, skipSpace_of_isSpace space]
    exact ih _
  | lastItem _ ih => exact ih
  | nextItem _ _ ih =>
    intro rest
    rw [List.append_assoc]
    exact ih _
  | member space =>
    intro rest
    simp only [List.append_assoc, List.cons_append]
    rw [skipSpace_of_isSpace space]
    exact ⟨_, rfl⟩
  | lastMember _ ih => exact ih
  | nextMember _ _ ih =>
    intro rest
    rw [List.append_assoc]
    exact ih _
  | _ => exact fun rest => ⟨_, _, rfl, by decide⟩

/-! ### Values -/

/-- What reading the items of an array goes on with behind an item. -/
def afterItem (fuel : Nat) (v : Value) : List Char → Option (List Value × List Char)
  | ']' :: tail => some ([v], tail)
  | ',' :: more => (readItems fuel more).map fun (vs, tail) => (v :: vs, tail)
  | _ => none

/-- What reading the members of an object goes on with behind a member. -/
def afterMember (fuel : Nat) (e : Value × Value) : List Char → Option (Value.Entries × List Char)
  | '\x7d' :: tail => some ([e], tail)
  | ',' :: more => (readMembers fuel more).map fun (es, tail) => (e :: es, tail)
  | _ => none

/-- How a part is read with enough fuel: every step into a container and past a comma uses up a
character, and the reader takes two steps at the most for it. -/
def Reads : Phrase → List Char → Prop
  | .value v, cs => ∀ fuel rest, Quiet rest → 2 * cs.length ≤ fuel →
    readValue fuel (cs ++ rest) = some (v, rest)
  | .item v, cs => ∀ fuel rest, Quiet rest → 2 * cs.length ≤ fuel →
    ∃ tail, readValue fuel (cs ++ rest) = some (v, tail) ∧ skipSpace tail = skipSpace rest
  | .items vs, cs => ∀ fuel rest, 2 * cs.length + 1 ≤ fuel →
    readItems fuel (cs ++ ']' :: rest) = some (vs, rest)
  | .member e, cs => ∀ fuel rest, Quiet rest → 2 * cs.length ≤ fuel →
    readMembers (fuel + 1) (cs ++ rest) = afterMember fuel e (skipSpace rest)
  | .members es, cs => ∀ fuel rest, 2 * cs.length + 1 ≤ fuel →
    readMembers fuel (cs ++ '\x7d' :: rest) = some (es, rest)

theorem readItems_item (reads : Reads (.item v) cs) (quiet : Quiet rest)
    (enough : 2 * cs.length ≤ fuel) :
    readItems (fuel + 1) (cs ++ rest) = afterItem fuel v (skipSpace rest) := by
  obtain ⟨tail, read, same⟩ := reads fuel rest quiet enough
  rw [readItems, read]
  simp only [bind, Option.bind, same]
  generalize skipSpace rest = left
  split
  case h_1 => rfl
  case h_2 more =>
    rw [afterItem]
    cases readItems fuel more <;> rfl
  case h_3 last next => rw [afterItem.eq_3 _ _ _ last next]

theorem quiet_cons (odd : isNumberChar c = false) (cs : List Char) : Quiet (c :: cs) := by
  rintro _ ⟨⟩
  exact odd

theorem reads_whole (numeral : Numeral n cs) : Reads (.value (.int n)) cs := by
  intro fuel rest quiet enough
  cases fuel with
  | zero => exact absurd (List.length_eq_zero_iff.mp (by omega)) (numeral_ne_nil numeral)
  | succ fuel =>
    have digits : ∀ c ∈ cs, isNumberChar c = true := fun c member =>
      isNumberChar_of_isAsciiDigit (numeral.digits c member)
    rw [readValue_number digits (numeral_ne_nil numeral) quiet, (readNumber_of_numeral numeral).1]
    rfl

theorem reads_negative (numeral : Numeral n cs) : Reads (.value (.int (-n))) ('-' :: cs) := by
  intro fuel rest quiet enough
  cases fuel with
  | zero => cases enough
  | succ fuel =>
    have digits : ∀ c ∈ '-' :: cs, isNumberChar c = true :=
      List.forall_mem_cons.mpr ⟨rfl, fun c member =>
        isNumberChar_of_isAsciiDigit (numeral.digits c member)⟩
    rw [readValue_number digits (List.cons_ne_nil _ _) quiet, (readNumber_of_numeral numeral).2]
    rfl

theorem reads_string (spells : Spells s cs) : Reads (.value (textValue s)) ('"' :: cs ++ ['"']) := by
  intro fuel rest _ enough
  cases fuel with
  | zero => cases enough
  | succ fuel =>
    have opened : skipSpace ('"' :: (cs ++ '"' :: rest)) = '"' :: (cs ++ '"' :: rest) := rfl
    rw [List.append_assoc, List.cons_append, List.singleton_append, readValue, opened]
    simp only [readString_spells spells, bind, Option.bind]
    rfl

/-- Brackets around nothing but white space. -/
theorem reads_emptyArray (space : IsSpace w) : Reads (.value (.list [])) ('[' :: w ++ [']']) := by
  intro fuel rest _ enough
  cases fuel with
  | zero => cases enough
  | succ fuel =>
    have opened : skipSpace ('[' :: (w ++ ']' :: rest)) = '[' :: (w ++ ']' :: rest) := rfl
    rw [List.append_assoc, List.cons_append, List.singleton_append, readValue, opened]
    simp only [skipSpace_of_isSpace space]
    rfl

theorem reads_array (reads : Reads (.items vs) cs) (opens : Opens (.items vs) cs) :
    Reads (.value (.list vs)) ('[' :: cs ++ [']']) := by
  intro fuel rest _ enough
  simp only [List.length_append, List.length_cons, List.length_nil] at enough
  cases fuel with
  | zero => omega
  | succ fuel =>
    have opened : skipSpace ('[' :: (cs ++ ']' :: rest)) = '[' :: (cs ++ ']' :: rest) := rfl
    obtain ⟨c, tail, same, other⟩ := opens (']' :: rest)
    have read := reads fuel rest (by omega)
    rw [← readItems_skipSpace, same] at read
    rw [List.append_assoc, List.cons_append, List.singleton_append, readValue, opened]
    simp only [same, bind, Option.bind]
    split
    case h_1 here => exact absurd (List.cons.inj here).1 other
    case h_2 =>
      rw [read]
      rfl

theorem readMembers_member {name : List Char} {w' : List Char} (space : IsSpace w)
    (spells : Spells s name) (space' : IsSpace w') (reads : Reads (.item v) cs) :
    Reads (.member (textValue s, v)) (w ++ '"' :: name ++ '"' :: w' ++ ':' :: cs) := by
  intro fuel rest quiet enough
  simp only [List.length_append, List.length_cons] at enough
  obtain ⟨tail, read, same⟩ := reads fuel rest quiet (by omega)
  have opened : skipSpace ('"' :: (name ++ '"' :: (w' ++ ':' :: (cs ++ rest)))) =
    '"' :: (name ++ '"' :: (w' ++ ':' :: (cs ++ rest))) := rfl
  have colon : skip? [':'] (skipSpace (':' :: (cs ++ rest))) = some (cs ++ rest) := rfl
  simp only [List.append_assoc, List.cons_append]
  rw [readMembers, skipSpace_of_isSpace space, opened]
  simp only [readString_spells spells, skipSpace_of_isSpace space', colon, read, same, bind,
    Option.bind]
  generalize skipSpace rest = left
  split
  case h_1 => rfl
  case h_2 more =>
    rw [afterMember]
    cases readMembers fuel more <;> rfl
  case h_3 last next => rw [afterMember.eq_3 _ _ _ last next]

theorem reads_emptyObject (space : IsSpace w) :
    Reads (.value (.map [])) ('\x7b' :: w ++ ['\x7d']) := by
  intro fuel rest _ enough
  cases fuel with
  | zero => cases enough
  | succ fuel =>
    have opened : skipSpace ('\x7b' :: (w ++ '\x7d' :: rest)) = '\x7b' :: (w ++ '\x7d' :: rest) := rfl
    rw [List.append_assoc, List.cons_append, List.singleton_append, readValue, opened]
    simp only [skipSpace_of_isSpace space]
    rfl

theorem reads_object (reads : Reads (.members es) cs) (opens : Opens (.members es) cs) :
    Reads (.value (.map (Value.ofPairs es))) ('\x7b' :: cs ++ ['\x7d']) := by
  intro fuel rest _ enough
  simp only [List.length_append, List.length_cons, List.length_nil] at enough
  cases fuel with
  | zero => omega
  | succ fuel =>
    have opened : skipSpace ('\x7b' :: (cs ++ '\x7d' :: rest)) = '\x7b' :: (cs ++ '\x7d' :: rest) := rfl
    obtain ⟨tail, same⟩ := opens ('\x7d' :: rest)
    have read := reads fuel rest (by omega)
    rw [← readMembers_skipSpace, same] at read
    rw [List.append_assoc, List.cons_append, List.singleton_append, readValue, opened]
    simp only [same, bind, Option.bind]
    split
    case h_1 here => exact absurd (List.cons.inj here).1 (by decide)
    case h_2 =>
      rw [read]
      rfl

/-- The names of members are texts. -/
def Named : Phrase → Prop
  | .member e => ∃ name, e.1 = .str name
  | .members es => ∀ e ∈ es, ∃ name, e.1 = .str name
  | _ => True

theorem Denotes.named {p : Phrase} (denotes : Denotes p cs) : Named p := by
  induction denotes with
  | member => exact ⟨_, rfl⟩
  | lastMember _ ih => exact List.forall_mem_singleton.mpr ih
  | nextMember _ _ ih rest => exact List.forall_mem_cons.mpr ⟨ih, rest⟩
  | _ => exact trivial

/-- Every part of a text is read as what it denotes. -/
theorem Denotes.reads {p : Phrase} (denotes : Denotes p cs) : Reads p cs := by
  -- What follows is universally quantified in `Reads`, so each part can be read before the next.
  induction denotes with
  | null | true | false =>
    intro fuel rest _ enough
    cases fuel with
    | zero => cases enough
    | succ fuel => rfl
  | whole numeral => exact reads_whole numeral
  | negative numeral => exact reads_negative numeral
  | string spells => exact reads_string spells
  | emptyArray space => exact reads_emptyArray space
  | array items reads => exact reads_array reads items.opens
  | emptyObject space => exact reads_emptyObject space
  | @object es cs members distinct reads =>
    -- Distinct names make inserting one member after the other keep all of them in place.
    have names : ∀ k ∈ Value.keys es, ∃ name, k = .str name := by
      intro k member
      obtain ⟨e, inside, rfl⟩ := List.mem_map.mp member
      exact members.named e inside
    have pairs := reads_object reads members.opens
    rwa [Value.ofPairs_of_sound (Value.keysSound_of_nodup names distinct)] at pairs
  | @item v w cs w' space value space' reads =>
    intro fuel rest quiet enough
    simp only [List.length_append] at enough
    have read := reads fuel (w' ++ rest) (quiet_append_of_isSpace space' quiet) (by omega)
    refine ⟨w' ++ rest, ?_, skipSpace_of_isSpace space' rest⟩
    rw [List.append_assoc, List.append_assoc, ← readValue_skipSpace, skipSpace_of_isSpace space,
      readValue_skipSpace, read]
  | lastItem item reads =>
    intro fuel rest enough
    cases fuel with
    | zero => omega
    | succ fuel => exact readItems_item reads (quiet_cons (c := ']') rfl rest) (by omega)
  | @nextItem v vs cs rest item items reads reads' =>
    intro fuel tail enough
    simp only [List.length_append, List.length_cons] at enough
    cases fuel with
    | zero => omega
    | succ fuel =>
      have read := readItems_item reads (quiet_cons (c := ',') rfl (rest ++ ']' :: tail))
        (show 2 * cs.length ≤ fuel by omega)
      rw [List.append_assoc, List.cons_append, read]
      change (readItems fuel _).map _ = _
      rw [reads' fuel tail (by omega)]
      rfl
  | member space spells space' item reads => exact readMembers_member space spells space' reads
  | lastMember member reads =>
    intro fuel rest enough
    cases fuel with
    | zero => omega
    | succ fuel => exact reads fuel _ (quiet_cons (c := '\x7d') rfl rest) (by omega)
  | @nextMember e es cs rest member members reads reads' =>
    intro fuel tail enough
    simp only [List.length_append, List.length_cons] at enough
    cases fuel with
    | zero => omega
    | succ fuel =>
      have read := reads fuel _ (quiet_cons (c := ',') rfl (rest ++ '\x7d' :: tail)) (by omega)
      rw [List.append_assoc, List.cons_append, read]
      change (readMembers fuel _).map _ = _
      rw [reads' fuel tail (by omega)]
      rfl

/-! ### Texts -/

variable {text : String} {u : Value}

/-- A JSON text is read as the value that it denotes. -/
theorem read_of_isText (denotes : IsText v text) : read? text = some v := by
  obtain ⟨tail, read, same⟩ :=
    denotes.reads (2 * text.toList.length + 1) [] (fun c none => nomatch none) (by omega)
  rw [List.append_nil] at read
  simp only [read?, read, same]
  rfl

/-- A text denotes one value. -/
theorem IsText.unique (first : IsText v text) (second : IsText u text) : v = u :=
  Option.some.inj ((read_of_isText first).symm.trans (read_of_isText second))

end MachinePlan.Json
