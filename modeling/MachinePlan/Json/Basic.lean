import MachinePlan.Failure
import MachinePlan.Text.Half
import MachinePlan.Value.Text

/-!
# JSON text

Values as JSON text in ASCII. A `Spacing` says what stands between the tokens, so the indented and
the one-line form are one function. Dates, bytes and sets have no JSON form, and a key is a text, a
number, a truth value or null. A container that holds itself has no JSON form either, nor has a
whole number without a numeral.
-/

namespace MachinePlan.Json

/-- JSON numbers are laid out as in `Value.numberLayout`, with JSON's words for what is none. -/
def numberLayout : Layout := { Value.numberLayout with nan := "NaN", infinity := "Infinity" }

def escapeUnit (n : Nat) : List Char :=
  '\\' :: 'u' :: Text.hexDigits 4 n

/-- One character of a JSON string: the quote and the backslash behind a backslash, five controls
by letter, printable ASCII as it is, everything else by the numbers of its code units. -/
def escapeChar (c : Char) : List Char :=
  let n := c.toNat
  if c = '"' then ['\\', '"']
  else if c = '\\' then ['\\', '\\']
  else if c = '\n' then ['\\', 'n']
  else if c = '\r' then ['\\', 'r']
  else if c = '\t' then ['\\', 't']
  else if n = 8 then ['\\', 'b']
  else if n = 12 then ['\\', 'f']
  else if 32 ≤ n && n < 127 then [c]
  else if n < 0x10000 then escapeUnit n
  else
    escapeUnit (0xd800 + (n - 0x10000) / 0x400) ++ escapeUnit (0xdc00 + (n - 0x10000) % 0x400)

/-- One code point of a JSON string; half a character is the code unit that it is. -/
def escapeCode (n : Nat) : List Char :=
  if Text.isHalf n then escapeUnit n else escapeChar (Char.ofNat n)

def string (s : String) : List Char :=
  '"' :: (Text.codes s.toList).flatMap escapeCode ++ ['"']

/-- The text of a key, between no quotes. -/
def keyText : Value → Except Failure String
  | .str s => .ok s
  | .float x => .ok (x.text numberLayout)
  | .bool b => .ok (if b then "true" else "false")
  | .null => .ok "null"
  | .int i => Value.numeral i
  | _ => .error (.fault .type)

/-- What stands between the tokens of a container at a nesting level. -/
structure Spacing where
  /-- Behind an opening bracket. -/
  inside : Nat → List Char
  /-- Behind a comma. -/
  between : Nat → List Char
  /-- Before a closing bracket. -/
  closing : Nat → List Char

/-- A line break and two spaces for each level. -/
def newline (level : Nat) : List Char :=
  '\n' :: List.replicate (2 * level) ' '

/-- Every item on a line of its own. -/
def indented : Spacing :=
  ⟨fun level => newline (level + 1), fun level => newline (level + 1), newline⟩

/-- Everything on one line, a space behind each comma. -/
def oneLine : Spacing :=
  ⟨fun _ => [], fun _ => [' '], fun _ => []⟩

mutual

/-- The JSON text of a value at a nesting level. -/
def write (spacing : Spacing) (level : Nat) : Value → Except Failure (List Char)
  | .null => .ok "null".toList
  | .bool b => .ok (if b then "true".toList else "false".toList)
  | .int i => (Value.numeral i).map String.toList
  | .float x => .ok (x.text numberLayout).toList
  | .str s => .ok (string s)
  | .list [] => .ok ['[', ']']
  | .list items => do
    let body ← writeItems spacing level items
    return '[' :: spacing.inside level ++ body ++ spacing.closing level ++ [']']
  | .tuple [] => .ok ['[', ']']
  | .tuple items => do
    let body ← writeItems spacing level items
    return '[' :: spacing.inside level ++ body ++ spacing.closing level ++ [']']
  | .map [] => .ok ['\x7b', '\x7d']
  | .map entries => do
    let body ← writeEntries spacing level entries
    return '\x7b' :: spacing.inside level ++ body ++ spacing.closing level ++ ['\x7d']
  | .date _ => .error (.fault .type)
  | .datetime _ => .error (.fault .type)
  | .bytes _ => .error (.fault .type)
  | .set _ => .error (.fault .type)
  | .ring _ v => write spacing level v
  | .again _ _ => .error (.fault .value)

/-- The items of an array at a nesting level, with commas between them. -/
def writeItems (spacing : Spacing) (level : Nat) : List Value → Except Failure (List Char)
  | [] => .ok []
  | [item] => write spacing (level + 1) item
  | item :: rest => do
    let head ← write spacing (level + 1) item
    let tail ← writeItems spacing level rest
    return head ++ ',' :: spacing.between level ++ tail

/-- The members of an object at a nesting level, with commas between them. -/
def writeEntries (spacing : Spacing) (level : Nat) : Value.Entries → Except Failure (List Char)
  | [] => .ok []
  | [(key, value)] => do
    let name ← keyText key
    let body ← write spacing (level + 1) value
    return string name ++ ':' :: ' ' :: body
  | (key, value) :: rest => do
    let name ← keyText key
    let body ← write spacing (level + 1) value
    let tail ← writeEntries spacing level rest
    return string name ++ ':' :: ' ' :: body ++ ',' :: spacing.between level ++ tail

end

def line (v : Value) : Except Failure String :=
  (write oneLine 0 v).map String.ofList

def document (v : Value) : Except Failure String :=
  (write indented 0 v).map String.ofList

end MachinePlan.Json
