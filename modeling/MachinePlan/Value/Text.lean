import MachinePlan.Failure
import MachinePlan.Number.Decimal
import MachinePlan.Text.Numeral
import MachinePlan.Text.Quoted
import MachinePlan.Value.Basic

/-!
# Values as text

Two written forms. `display` shows every part of a value; `text` is the same except that a string
stands for itself and a date-time is written the ISO way. A whole number is written only if its
numeral could be read again, so that a value with a longer one has no written form. A container that
comes back inside itself is shown by dots there.
-/

namespace MachinePlan.Value

/-- Numbers are written positionally from one ten-thousandth up to sixteen digits, and an exponent
has at least two digits. -/
def numberLayout : Layout := ⟨-4, 15, 2, "nan", "inf"⟩

/-- The first whole number that is too long to be written. -/
def numeralBound : Nat := Nat.pow 10 Text.maxDigits

/-- The numeral of a whole number, unless it is too long. -/
def numeral (i : Int) : Except Failure String :=
  if i.natAbs < numeralBound then .ok (toString i) else .error (.fault .value)

/-- Parts between brackets. -/
def bracketed (form : Form) (parts : String) : String :=
  match form with
  | .list => "[" ++ parts ++ "]"
  | .map => "\x7b" ++ parts ++ "\x7d"
  | .tuple => "(" ++ parts ++ ")"

mutual

/-- The written form of a value with all its parts. -/
def display : Value → Except Failure String
  | .null => .ok "None"
  | .bool b => .ok (if b then "True" else "False")
  | .int i => numeral i
  | .float x => .ok (x.text numberLayout)
  | .str s => .ok (String.ofList (Text.quoted s.toList))
  | .list items => do return bracketed .list (", ".intercalate (← displayItems items))
  | .map entries => do return bracketed .map (", ".intercalate (← displayEntries entries))
  | .tuple [item] => do return bracketed .tuple ((← display item) ++ ",")
  | .tuple items => do return bracketed .tuple (", ".intercalate (← displayItems items))
  | .date d => .ok d.display
  | .datetime t => .ok t.display
  | .bytes bs => .ok (String.ofList (Text.quotedBytes bs))
  | .set [] => .ok "set()"
  | .set items => do return bracketed .map (", ".intercalate (← displayItems items))
  | .ring _ v => display v
  | .again _ form => .ok (bracketed form "...")

def displayItems : List Value → Except Failure (List String)
  | [] => .ok []
  | x :: xs => do
    let first ← display x
    return first :: (← displayItems xs)

def displayEntries : Entries → Except Failure (List String)
  | [] => .ok []
  | (k, v) :: rest => do
    let key ← display k
    let value ← display v
    return (key ++ ": " ++ value) :: (← displayEntries rest)

end

/-- The plain text of a value. -/
def text : Value → Except Failure String
  | .str s => .ok s
  | .date d => .ok d.iso
  | .datetime t => .ok (t.iso ' ')
  | v => display v

def texts : List Value → Except Failure (List String)
  | [] => .ok []
  | v :: rest => do
    let first ← v.text
    return first :: (← texts rest)

end MachinePlan.Value
