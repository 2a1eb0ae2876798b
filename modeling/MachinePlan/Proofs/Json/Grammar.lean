import MachinePlan.Text.Digit
import MachinePlan.Text.Half
import MachinePlan.Value.Basic

/-!
# The grammar of JSON texts

Which texts denote which values, independently of how a text is written or read. White space may
stand around every token, characters of a string may be spelled in several ways, and the names of an
object are distinct. Numbers are whole; texts with other numbers are left out.
-/

namespace MachinePlan.Json

/-- White space between tokens. -/
def IsSpace (cs : List Char) : Prop := ∀ c ∈ cs, c = ' ' ∨ c = '\n' ∨ c = '\t' ∨ c = '\r'

def hexValue? (c : Char) : Option Nat :=
  if '0' ≤ c ∧ c ≤ '9' then some (c.toNat - 48)
  else if 'a' ≤ c ∧ c ≤ 'f' then some (c.toNat - 97 + 10)
  else if 'A' ≤ c ∧ c ≤ 'F' then some (c.toNat - 65 + 10)
  else none

theorem char_le_iff {c d : Char} : c ≤ d ↔ c.toNat ≤ d.toNat := UInt32.le_iff_toNat_le

/-- Four hexadecimal digits that denote a number. -/
inductive Quad : Nat → List Char → Prop
  | of {a b c d : Char} {i j k l : Nat} (first : hexValue? a = some i)
    (second : hexValue? b = some j) (third : hexValue? c = some k) (last : hexValue? d = some l) :
    Quad (((i * 16 + j) * 16 + k) * 16 + l) [a, b, c, d]

/-- The characters that are spelled by a letter behind a backslash. -/
def letters : List (Char × Char) :=
  [('"', '"'), ('\\', '\\'), ('/', '/'), ('b', '\x08'), ('f', '\x0c'), ('n', '\n'), ('r', '\r'),
    ('t', '\t')]

/-- The spellings of a character inside a string. -/
inductive Spelling : Char → List Char → Prop
  | plain {c : Char} (visible : 32 ≤ c.toNat) (inside : c ≠ '"') (bare : c ≠ '\\') : Spelling c [c]
  | letter {name c : Char} (known : (name, c) ∈ letters) : Spelling c ['\\', name]
  | unit {c : Char} {cs : List Char} (quad : Quad c.toNat cs) : Spelling c ('\\' :: 'u' :: cs)
  /-- Characters outside the basic plane are two units. -/
  | pair {c : Char} {high low : Nat} {hs ls : List Char} (first : Quad high hs)
    (second : Quad low ls) (isHigh : 0xd800 ≤ high ∧ high < 0xdc00)
    (isLow : 0xdc00 ≤ low ∧ low < 0xe000)
    (code : c.toNat = 0x10000 + (high - 0xd800) * 0x400 + (low - 0xdc00)) :
    Spelling c ('\\' :: 'u' :: hs ++ '\\' :: 'u' :: ls)

inductive Spells : List Char → List Char → Prop
  | nil : Spells [] []
  | cons {c : Char} {cs s ts : List Char} (here : Spelling c cs) (rest : Spells s ts) :
    Spells (c :: s) (cs ++ ts)

/-- The decimal numerals, without zeros in front. -/
inductive Numeral : Nat → List Char → Prop
  | digit {d : Nat} (small : d < 10) : Numeral d [d.digitChar]
  | next {n d : Nat} {cs : List Char} (front : Numeral n cs) (positive : 0 < n) (small : d < 10) :
    Numeral (n * 10 + d) (cs ++ [d.digitChar])

theorem isAsciiDigit_digitChar {d : Nat} (small : d < 10) :
    Text.isAsciiDigit d.digitChar = true := by
  have all : ∀ d : Fin 10, Text.isAsciiDigit (Nat.digitChar d) = true := by decide
  exact all ⟨d, small⟩

theorem ne_of_isAsciiDigit {c d : Char} (digit : Text.isAsciiDigit c = true)
    (other : Text.isAsciiDigit d = false) : c ≠ d := by
  rintro rfl
  cases other.symm.trans digit

theorem Numeral.digits {n : Nat} {cs : List Char} (numeral : Numeral n cs) :
    ∀ c ∈ cs, Text.isAsciiDigit c = true := by
  induction numeral with
  | digit small => exact List.forall_mem_singleton.mpr (isAsciiDigit_digitChar small)
  | next _ _ small ih =>
    exact List.forall_mem_append.mpr
      ⟨ih, List.forall_mem_singleton.mpr (isAsciiDigit_digitChar small)⟩

/-- What a part of a JSON text can denote. -/
inductive Phrase where
  | value (v : Value)
  /-- A value with white space around it. -/
  | item (v : Value)
  | items (vs : List Value)
  /-- A name with its value. -/
  | member (e : Value × Value)
  | members (es : Value.Entries)

def textValue (s : List Char) : Value := .str (String.ofList (Text.spellAll s))

/-- What the parts of a JSON text denote. -/
inductive Denotes : Phrase → List Char → Prop
  | null : Denotes (.value .null) ['n', 'u', 'l', 'l']
  | true : Denotes (.value (.bool true)) ['t', 'r', 'u', 'e']
  | false : Denotes (.value (.bool false)) ['f', 'a', 'l', 's', 'e']
  | whole {n : Nat} {cs : List Char} (numeral : Numeral n cs) : Denotes (.value (.int n)) cs
  | negative {n : Nat} {cs : List Char} (numeral : Numeral n cs) :
    Denotes (.value (.int (-n))) ('-' :: cs)
  | string {s cs : List Char} (spells : Spells s cs) :
    Denotes (.value (textValue s)) ('"' :: cs ++ ['"'])
  | emptyArray {w : List Char} (space : IsSpace w) : Denotes (.value (.list [])) ('[' :: w ++ [']'])
  | array {vs : List Value} {cs : List Char} (items : Denotes (.items vs) cs) :
    Denotes (.value (.list vs)) ('[' :: cs ++ [']'])
  | emptyObject {w : List Char} (space : IsSpace w) :
    Denotes (.value (.map [])) ('\x7b' :: w ++ ['\x7d'])
  | object {es : Value.Entries} {cs : List Char} (members : Denotes (.members es) cs)
    (distinct : (es.map Prod.fst).Nodup) : Denotes (.value (.map es)) ('\x7b' :: cs ++ ['\x7d'])
  | item {v : Value} {w cs w' : List Char} (space : IsSpace w) (value : Denotes (.value v) cs)
    (space' : IsSpace w') : Denotes (.item v) (w ++ cs ++ w')
  | lastItem {v : Value} {cs : List Char} (item : Denotes (.item v) cs) : Denotes (.items [v]) cs
  | nextItem {v : Value} {vs : List Value} {cs rest : List Char} (item : Denotes (.item v) cs)
    (items : Denotes (.items vs) rest) : Denotes (.items (v :: vs)) (cs ++ ',' :: rest)
  | member {s name w w' cs : List Char} {v : Value} (space : IsSpace w) (spells : Spells s name)
    (space' : IsSpace w') (item : Denotes (.item v) cs) :
    Denotes (.member (textValue s, v)) (w ++ '"' :: name ++ '"' :: w' ++ ':' :: cs)
  | lastMember {e : Value × Value} {cs : List Char} (member : Denotes (.member e) cs) :
    Denotes (.members [e]) cs
  | nextMember {e : Value × Value} {es : Value.Entries} {cs rest : List Char}
    (member : Denotes (.member e) cs) (members : Denotes (.members es) rest) :
    Denotes (.members (e :: es)) (cs ++ ',' :: rest)

/-- A text is a JSON text of a value. -/
def IsText (v : Value) (text : String) : Prop := Denotes (.item v) text.toList

end MachinePlan.Json
