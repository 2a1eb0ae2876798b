import MachinePlan.Text.Digit

/-!
# Halves of characters

Text in which halves of surrogate pairs may stand alone. A half is no character, so it is spelled: a
mark, which is the last code point, and a character that tells which half it is. The mark itself is
spelled twice, so that `codes` gives back the code points that were spelled.
-/

namespace MachinePlan.Text

/-- The last code point, which stands in front of a spelled half. -/
def halfMark : Char := Char.ofNat 0x10ffff

/-- The number of half a character. -/
def isHalf (n : Nat) : Bool := 0xd800 ≤ n && n < 0xe000

/-- The distance from a half to the character that tells which half is meant. -/
def halfShift : Nat := 0x800

def spell (n : Nat) : List Char :=
  if isHalf n then [halfMark, Char.ofNat (n + halfShift)]
  else if n = halfMark.toNat then [halfMark, halfMark]
  else [Char.ofNat n]

def spellAll (cs : List Char) : List Char :=
  cs.flatMap fun c => spell c.toNat

def spelledString (s : String) : String :=
  String.ofList (spellAll s.toList)

/-- Whether a character completes what a mark begins. -/
def completesMark (c : Char) : Bool :=
  c = halfMark || isHalf (c.toNat - halfShift)

/-- The spellings of the code points of a text, one by one. -/
def pieces : List Char → List (List Char)
  | [] => []
  | [c] => [[c]]
  | c :: d :: rest =>
    if c = halfMark && completesMark d then [c, d] :: pieces rest else [c] :: pieces (d :: rest)

def pieceCode : List Char → Nat
  | [c] => c.toNat
  | _ :: d :: _ => if d = halfMark then halfMark.toNat else d.toNat - halfShift
  | [] => 0

def codes (cs : List Char) : List Nat :=
  (pieces cs).map pieceCode

/-- The order of texts by their code points. Rows of characters with the same code points, of which
at most one is a spelling, are told apart by their characters. -/
def precedes (s t : String) : Bool :=
  codes s.toList < codes t.toList || codes s.toList = codes t.toList && s < t

/-- The characters of a text, with the replacement character for each half. -/
def plainChars (cs : List Char) : List Char :=
  (codes cs).map fun n => if isHalf n then '\ufffd' else Char.ofNat n

def plainString (s : String) : String :=
  String.ofList (plainChars s.toList)

end MachinePlan.Text
