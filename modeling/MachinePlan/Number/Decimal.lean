import MachinePlan.Number.Binary64
import MachinePlan.Text.Blank
import MachinePlan.Text.Digit

/-!
# Decimal text of double-precision numbers

Writing takes the fewest decimal digits that read back as the same number, and of those the
nearest to it; a `Layout` says where the point goes. Reading rounds the exact decimal value once.
-/

namespace MachinePlan

/-- How a row of significant digits is laid out as text. -/
structure Layout where
  /-- The least power of ten of the leading digit that is written without an exponent. -/
  leastPositional : Int
  /-- The greatest power of ten of the leading digit that is written without an exponent. -/
  greatestPositional : Int
  /-- The least number of digits of an exponent. -/
  exponentWidth : Nat
  /-- The text of a number that is none. -/
  nan : String
  /-- The text of a number beyond all bounds. -/
  infinity : String

namespace Binary64

/-- A decimal significand and the power of ten of its last digit. -/
structure Digits where
  significand : Nat
  exponent : Int
  deriving Repr, DecidableEq

def tenTo (n : Nat) : Nat := Nat.pow 10 n

/-- `num / den` in units of `10 ^ e`, as a fraction. -/
def inTens (num den : Nat) (e : Int) : Nat × Nat :=
  if 0 ≤ e then (num, den * tenTo e.toNat) else (num * tenTo (-e).toNat, den)

/-- The power of ten of the leading digit of `num / den`, found upwards from a guess that is not
above it. -/
def leadingPower (num den : Nat) : Int :=
  let guess : Int := (((Nat.log2 num : Int) - Nat.log2 den - 1) * 30103) / 100000 - 1
  go guess 4
where
  /-- One more while the next power still fits. -/
  go (p : Int) : Nat → Int
    | 0 => p
    | fuel + 1 =>
      let (n, d) := inTens num den (p + 1)
      if d ≤ n then go (p + 1) fuel else p

/-- Drop the zeros at the end of a significand. -/
def dropZeros (d : Digits) : Digits :=
  go d 20
where
  /-- One zero at a time. -/
  go (d : Digits) : Nat → Digits
    | 0 => d
    | fuel + 1 =>
      if d.significand ≠ 0 && d.significand % 10 = 0 then
        go ⟨d.significand / 10, d.exponent + 1⟩ fuel
      else d

/-- The decimal with `count` digits in the interval of the numbers that round to the finite number
`s * 2 ^ e`, if there is one; of two, the nearer to it, and on a tie the even one. -/
def candidate? (s : Nat) (e : Int) (power : Int) (count : Nat) : Option Digits :=
  -- the number and the ends of its interval, in quarters of its last place
  let below := if s = twoTo 52 && minExponent < e then 1 else 2
  let (value, den) := inUnits (4 * s) 1 (2 - e)
  let scale := if 2 - e ≤ 0 then twoTo (e - 2).toNat else 1
  let low := value - below * scale
  let high := value + 2 * scale
  let unit := power + 1 - count
  let (n, d) := inTens value den unit
  let floor := n / d
  let inside (k : Nat) : Bool :=
    let (left, right) := inTens (k * den) 1 (-unit)
    if s % 2 = 0 then low * right ≤ left && left ≤ high * right
    else low * right < left && left < high * right
  let rest := n % d
  match inside floor, inside (floor + 1) with
  | true, true =>
    if 2 * rest < d || (2 * rest = d && floor % 2 = 0) then some ⟨floor, unit⟩
    else some ⟨floor + 1, unit⟩
  | true, false => some ⟨floor, unit⟩
  | false, true => some ⟨floor + 1, unit⟩
  | false, false => none

/-- The fewest digits that read back as `s * 2 ^ e`, nearest to it; seventeen always suffice. -/
def shortest (s : Nat) (e : Int) : Digits :=
  let (num, den) := inUnits s 1 (-e)
  let power := leadingPower num den
  match (List.range 17).findSome? fun k => candidate? s e power (k + 1) with
  | some d => dropZeros d
  | none => ⟨s, 0⟩

def layDigits (layout : Layout) (d : Digits) : List Char :=
  let ds := Text.decimalDigits 1 d.significand
  let power := d.exponent + ds.length - 1
  if layout.leastPositional ≤ power && power ≤ layout.greatestPositional then
    if power < 0 then '0' :: '.' :: List.replicate (-power - 1).toNat '0' ++ ds
    else
      let whole := (power + 1).toNat
      let padded := ds ++ List.replicate (whole - ds.length) '0'
      let fraction := padded.drop whole
      padded.take whole ++ '.' :: (if fraction.isEmpty then ['0'] else fraction)
  else
    let mantissa :=
      match ds with
      | [] => []
      | [c] => [c]
      | c :: rest => c :: '.' :: rest
    let sign := if power < 0 then '-' else '+'
    mantissa ++ 'e' :: sign :: Text.decimalDigits layout.exponentWidth power.natAbs

def text (layout : Layout) : Binary64 → String
  | .nan _ => layout.nan
  | .infinite negative => (if negative then "-" else "") ++ layout.infinity
  | .finite negative s e =>
    let digits := if s = 0 then ['0', '.', '0'] else layDigits layout (shortest s e)
    String.ofList (if negative then '-' :: digits else digits)

def ofDecimal (negative : Bool) (significand : Nat) (exponent : Int) : Binary64 :=
  let power := (Nat.toDigits 10 significand).length + exponent
  if significand = 0 || power < -330 then zero negative
  else if 320 < power then .infinite negative
  else
    let (num, den) := inTens significand 1 (-exponent)
    ofRatio negative num den

/-- The digits at the front of a text, with single underscores between them, and the rest; `after`
says that a digit stands before the text. -/
def spanDigits (after : Bool) : List Char → List Nat × List Char
  | [] => ([], [])
  | c :: rest =>
    match Text.digitValue? c with
    | some d =>
      let (ds, tail) := spanDigits true rest
      (d :: ds, tail)
    | none =>
      if after && c = '_' && rest.head?.any Text.isDigit then spanDigits false rest
      else ([], c :: rest)

def digitsNat (ds : List Nat) : Nat :=
  ds.foldl (fun n d => n * 10 + d) 0

/-- The power of ten at the end of a numeral, zero when none is written. -/
def readExponent? : List Char → Option Int
  | [] => some 0
  | c :: rest =>
    if c = 'e' || c = 'E' then
      let (negative, body) :=
        match rest with
        | '-' :: body => (true, body)
        | '+' :: body => (false, body)
        | body => (false, body)
      match spanDigits false body with
      | (d :: ds, []) =>
        let n := digitsNat (d :: ds)
        some (if negative then -(n : Int) else n)
      | _ => none
    else none

/-- The number that an unsigned numeral denotes: digits with at most one point and at least one
digit, then perhaps a power of ten. -/
def readUnsigned? (negative : Bool) (cs : List Char) : Option Binary64 :=
  let lower := cs.map Char.toLower
  if lower = "inf".toList || lower = "infinity".toList then some (.infinite negative)
  else if lower = "nan".toList then some (.nan none)
  else
    let (whole, rest) := spanDigits false cs
    let (fraction, rest) :=
      match rest with
      | '.' :: tail => spanDigits false tail
      | _ => ([], rest)
    if whole.isEmpty && fraction.isEmpty then none
    else
      (readExponent? rest).map fun exponent =>
        ofDecimal negative (digitsNat (whole ++ fraction)) (exponent - fraction.length)

/-- The number that a numeral between blanks denotes. -/
def read? (cs : List Char) : Option Binary64 :=
  match Text.trimBy Text.isNumeralBlank cs with
  | '-' :: body => readUnsigned? true body
  | '+' :: body => readUnsigned? false body
  | body => readUnsigned? false body

end Binary64

end MachinePlan
