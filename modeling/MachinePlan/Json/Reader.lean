import MachinePlan.Number.Decimal
import MachinePlan.Text.Half
import MachinePlan.Text.Numeral
import MachinePlan.Value.Mapping

/-!
# Reading JSON

The value that a JSON text denotes. Members of an object keep their order; of two members with one
name the first gives the position and the last the value.
-/

namespace MachinePlan.Json

/-- The text behind the white space of JSON. -/
def skipSpace : List Char → List Char
  | [] => []
  | c :: rest => if c = ' ' || c = '\n' || c = '\t' || c = '\r' then skipSpace rest else c :: rest

/-- The number that four hexadecimal digits denote. -/
def unit? (a b c d : Char) : Option Nat :=
  Text.digitsValue? 16 [a, b, c, d]

/-- The character that a letter behind a backslash denotes. -/
def unescape? (c : Char) : Option Char :=
  if c = '"' || c = '\\' || c = '/' then some c
  else if c = 'n' then some '\n'
  else if c = 'r' then some '\r'
  else if c = 't' then some '\t'
  else if c = 'b' then some (Char.ofNat 8)
  else if c = 'f' then some (Char.ofNat 12)
  else none

/-- The spelling of a first half that no second half follows. -/
def spellWaiting (high : Option Nat) : List Char :=
  (high.map Text.spell).getD []

/-- The characters up to the closing quote, and the text behind it. `high` is the first half of a
pair of code units that waits for the second. -/
def readString (high : Option Nat) : List Char → Option (List Char × List Char)
  | [] => none
  | '\\' :: 'u' :: a :: b :: c :: d :: rest => do
    let n ← unit? a b c d
    match high with
    | some h =>
      if 0xdc00 ≤ n && n < 0xe000 then
        let (cs, tail) ← readString none rest
        return (Text.spell (0x10000 + (h - 0xd800) * 0x400 + (n - 0xdc00)) ++ cs, tail)
      else if 0xd800 ≤ n && n < 0xdc00 then
        let (cs, tail) ← readString (some n) rest
        return (Text.spell h ++ cs, tail)
      else
        let (cs, tail) ← readString none rest
        return (Text.spell h ++ Text.spell n ++ cs, tail)
    | none =>
      if 0xd800 ≤ n && n < 0xdc00 then readString (some n) rest
      else
        let (cs, tail) ← readString none rest
        return (Text.spell n ++ cs, tail)
  | '\\' :: c :: rest => do
    let x ← unescape? c
    let (cs, tail) ← readString none rest
    return (spellWaiting high ++ x :: cs, tail)
  | c :: rest =>
    if c = '"' then some (spellWaiting high, rest)
    else if c.toNat < 32 then none
    else do
      let (cs, tail) ← readString none rest
      return (spellWaiting high ++ Text.spell c.toNat ++ cs, tail)

def isNumberChar (c : Char) : Bool :=
  Text.isAsciiDigit c || c = '-' || c = '+' || c = '.' || c = 'e' || c = 'E'

/-- The number that a run of number characters denotes: a whole number if it is written with digits
alone. -/
def readNumber? (cs : List Char) : Option Value :=
  let (negative, body) :=
    match cs with
    | '-' :: rest => (true, rest)
    | _ => (false, cs)
  if body.all Text.isAsciiDigit then
    (Text.digitsValue? 10 body).map fun n => .int (if negative then -(n : Int) else n)
  else (Binary64.read? cs).map Value.float

def skip? : List Char → List Char → Option (List Char)
  | [], cs => some cs
  | x :: xs, c :: cs => if x = c then skip? xs cs else none
  | _ :: _, [] => none

mutual

/-- The value at the front of a text, and the text behind it. The first argument bounds the number
of steps. -/
def readValue : Nat → List Char → Option (Value × List Char)
  | 0, _ => none
  | fuel + 1, cs =>
    match skipSpace cs with
    | '"' :: rest => do
      let (s, tail) ← readString none rest
      return (.str (String.ofList s), tail)
    | '[' :: rest =>
      match skipSpace rest with
      | ']' :: tail => some (.list [], tail)
      | body => do
        let (items, tail) ← readItems fuel body
        return (.list items, tail)
    | '\x7b' :: rest =>
      match skipSpace rest with
      | '\x7d' :: tail => some (.map [], tail)
      | body => do
        let (pairs, tail) ← readMembers fuel body
        return (.map (Value.ofPairs pairs), tail)
    | 'n' :: rest => do return (.null, ← skip? "ull".toList rest)
    | 't' :: rest => do return (.bool true, ← skip? "rue".toList rest)
    | 'f' :: rest => do return (.bool false, ← skip? "alse".toList rest)
    | body => do
      let v ← readNumber? (body.takeWhile isNumberChar)
      return (v, body.dropWhile isNumberChar)

def readItems : Nat → List Char → Option (List Value × List Char)
  | 0, _ => none
  | fuel + 1, cs => do
    let (item, rest) ← readValue fuel cs
    match skipSpace rest with
    | ']' :: tail => return ([item], tail)
    | ',' :: more => do
      let (items, tail) ← readItems fuel more
      return (item :: items, tail)
    | _ => none

def readMembers : Nat → List Char → Option (Value.Entries × List Char)
  | 0, _ => none
  | fuel + 1, cs =>
    match skipSpace cs with
    | '"' :: rest => do
      let (name, rest) ← readString none rest
      let rest ← skip? [':'] (skipSpace rest)
      let (value, rest) ← readValue fuel rest
      match skipSpace rest with
      | '\x7d' :: tail => return ([(.str (String.ofList name), value)], tail)
      | ',' :: more => do
        let (members, tail) ← readMembers fuel more
        return ((.str (String.ofList name), value) :: members, tail)
      | _ => none
    | _ => none

end

def read? (s : String) : Option Value :=
  let cs := s.toList
  match readValue (2 * cs.length + 1) cs with
  | some (v, rest) => if (skipSpace rest).isEmpty then some v else none
  | none => none

end MachinePlan.Json
