import MachinePlan.Number.Decimal
import MachinePlan.Text.Line
import MachinePlan.Text.Numeral
import MachinePlan.Value.Basic
import MachinePlan.Yaml.Cursor
import MachinePlan.Yaml.Tag

/-!
# Values of scalars

The value that the text of a scalar denotes under a tag. A text may have any form here, because a
tag can be given to any scalar.
-/

namespace MachinePlan.Yaml

/-- The text without its underscores. -/
def dropGaps (cs : List Char) : List Char := cs.filter (· != '_')

/-- The text without its sign, and whether that was a minus; an empty text has no first character to
look at. -/
def signed? (cs : List Char) : Except Refusal (Bool × List Char) :=
  match cs with
  | [] => .error (.fault .missingIndex)
  | '-' :: rest => .ok (true, rest)
  | '+' :: rest => .ok (false, rest)
  | _ => .ok (false, cs)

def wholeIn (base : Nat) (cs : List Char) : Except Refusal Int :=
  match Text.readInt? base cs with
  | some n => .ok n
  | none => .error (.fault .value)

/-- The number whose places in base sixty are separated by colons. -/
def wholeOfSixties (cs : List Char) : Except Refusal Int := do
  let places ← (Text.splitAt ':' cs).mapM (wholeIn 10)
  return places.foldl (fun n place => n * 60 + place) 0

/-- A whole number: the prefixes `0b` and `0x` name a base, any other zero in front is base eight.
-/
def wholeOf (text : List Char) : Except Refusal Int := do
  let (negative, body) ← signed? (dropGaps text)
  let n ←
    match body with
    | [] => throw (.fault .missingIndex)
    | ['0'] => pure 0
    | '0' :: 'b' :: rest => wholeIn 2 rest
    | '0' :: 'x' :: rest => wholeIn 16 rest
    | '0' :: _ => wholeIn 8 body
    | _ => if body.contains ':' then wholeOfSixties body else wholeIn 10 body
  return if negative then -n else n

def floatIn (cs : List Char) : Except Refusal Binary64 :=
  match Binary64.read? cs with
  | some x => .ok x
  | none => .error (.fault .value)

/-- The sum of places, the least first, each times its power of sixty; a power beyond the largest
number is out of range. -/
def sumOfSixties : Int → Binary64 → List Binary64 → Except Refusal Binary64
  | _, total, [] => .ok total
  | base, total, place :: rest =>
    match Binary64.ofInt base with
    | .infinite _ => .error (.fault .outOfRange)
    | factor => sumOfSixties (base * 60) (total.add (place.mul factor)) rest

/-- A number with a decimal point, perhaps in base sixty, or the one thing that all documents call
no number. -/
def floatOf (text : List Char) : Except Refusal Binary64 := do
  let (negative, body) ← signed? ((dropGaps text).map Char.toLower)
  if body = ".inf".toList then return .infinite negative
  if body = ".nan".toList then return .nan (some .shared)
  let x ←
    if body.contains ':' then do
      let places ← (Text.splitAt ':' body).mapM floatIn
      sumOfSixties 1 (Binary64.zero false) places.reverse
    else floatIn body
  return if negative then x.neg else x

def boolOf (text : List Char) : Except Refusal Bool :=
  let word := String.ofList (text.map Char.toLower)
  if ["yes", "true", "on"].contains word then .ok true
  else if ["no", "false", "off"].contains word then .ok false
  else .error (.fault .missingKey)

def stampOf (text : List Char) : Except Refusal Value := do
  let some stamp := stamp? (dropFinalFeed text) | throw (.fault .missingPart)
  let some date := Date.ofYmd? stamp.year stamp.month stamp.day | throw (.fault .value)
  match stamp.clock with
  | none => return .date date
  | some clock =>
    let digits := clock.fraction.take 6
    let microsecond := digitsNat (digits ++ List.replicate (6 - digits.length) '0')
    match DateTime.ofParts? date clock.hour clock.minute clock.second microsecond clock.offset with
    | some t => return .datetime t
    | none => throw (.fault .value)

/-! ### Bytes in base sixty-four -/

def digit64? (c : Char) : Option Nat :=
  if 'A' ≤ c && c ≤ 'Z' then some (c.toNat - 'A'.toNat)
  else if 'a' ≤ c && c ≤ 'z' then some (c.toNat - 'a'.toNat + 26)
  else if '0' ≤ c && c ≤ '9' then some (c.toNat - '0'.toNat + 52)
  else if c = '+' then some 62
  else if c = '/' then some 63
  else none

/-- The bytes that digits in base sixty-four denote. `place` counts the digits of the present group
of four, `left` holds the bits that make up no byte yet, and `pads` counts the equals signs since
the last digit. Other characters mean nothing; the equals sign that completes a group ends the text,
and a group that is not completed is refused. -/
def bytesFrom (place left pads : Nat) : List Char → Option (List UInt8)
  | [] => if place = 0 then some [] else none
  | c :: rest =>
    if c = '=' then
      if 2 ≤ place then
        if 4 ≤ place + pads + 1 then some [] else bytesFrom place left (pads + 1) rest
      else bytesFrom place left pads rest
    else
      match digit64? c with
      | none => bytesFrom place left pads rest
      | some d =>
        match place with
        | 0 => bytesFrom 1 d 0 rest
        | 1 => (bytesFrom 2 (d % 16) 0 rest).map ((left * 4 + d / 16).toUInt8 :: ·)
        | 2 => (bytesFrom 3 (d % 4) 0 rest).map ((left * 16 + d / 4).toUInt8 :: ·)
        | _ => (bytesFrom 0 0 0 rest).map ((left * 64 + d).toUInt8 :: ·)

/-- The bytes that an ASCII text denotes. -/
def bytesOf (text : List Char) : Except Refusal (List UInt8) :=
  if text.all fun c => c.toNat < 128 then
    match bytesFrom 0 0 0 text with
    | some bytes => .ok bytes
    | none => .error .malformed
  else .error .malformed

/-- The value of a scalar under a tag; the tags of containers and special keys denote none. -/
def scalarValue (tag : Tag) (text : String) : Except Refusal Value :=
  let cs := text.toList
  match tag with
  | .null => .ok .null
  | .bool => (boolOf cs).map .bool
  | .int => (wholeOf cs).map .int
  | .float => (floatOf cs).map .float
  | .binary => (bytesOf cs).map .bytes
  | .timestamp => stampOf cs
  | .str => .ok (.str text)
  | _ => .error .malformed

end MachinePlan.Yaml
