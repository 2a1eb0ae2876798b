import MachinePlan.Text.Blank
import MachinePlan.Text.Digit

/-!
# Numerals

Reading whole numbers in a given base. A numeral may stand between blanks, carry a sign, name its
base in front (`0x`, `0o`, `0b`) and hold single underscores between its digits.
-/

namespace MachinePlan.Text

/-- The longest decimal numeral that is read or written, in digits. -/
def maxDigits : Nat := 4300

/-- The value of a run of digits in a base, with single underscores between them; none when a
character is no digit of the base, when the run is empty, or when it opens or ends with an
underscore. -/
def digitsValue? (base : Nat) (cs : List Char) : Option Nat :=
  go 0 false cs
where
  /-- The value so far, and whether the last character was a digit. -/
  go (acc : Nat) (after : Bool) : List Char → Option Nat
    | [] => if after then some acc else none
    | '_' :: rest => if after then go acc false rest else none
    | c :: rest =>
      match baseDigit? c with
      | some d => if d < base then go (acc * base + d) true rest else none
      | none => none

/-- The letter that names a base after a zero. -/
def baseLetter (base : Nat) : Option Char :=
  if base = 16 then some 'x' else if base = 8 then some 'o' else if base = 2 then some 'b' else none

/-- The characters without the name of the base in front, and without one underscore after it. -/
def dropBaseName (base : Nat) : List Char → List Char
  | '0' :: c :: rest =>
    if baseLetter base = some c.toLower then
      match rest with
      | '_' :: digits => digits
      | _ => rest
    else '0' :: c :: rest
  | cs => cs

/-- The sign of a signed text and what follows it. -/
def splitSign : List Char → Bool × List Char
  | '-' :: rest => (true, rest)
  | '+' :: rest => (false, rest)
  | cs => (false, cs)

/-- The whole number that a numeral denotes. Decimal numerals longer than `maxDigits` are refused.
-/
def readInt? (base : Nat) (cs : List Char) : Option Int :=
  let (negative, body) := splitSign (trimBy isNumeralBlank cs)
  let digits := dropBaseName base body
  if base = 10 && maxDigits < (digits.filter (· != '_')).length then none
  else (digitsValue? base digits).map fun n => if negative then -(n : Int) else n

end MachinePlan.Text
