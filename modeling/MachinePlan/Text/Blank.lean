/-!
# Blanks

The characters that separate words, and text without them at its ends.
`trim` keeps what lies between the first and the last character that is no blank.
-/

namespace MachinePlan.Text

/-- White space: the ASCII controls from tab to carriage return, the four information separators,
the space, and the spaces and separators of Unicode. -/
def isBlank (c : Char) : Bool :=
  let n := c.toNat
  (9 ≤ n && n ≤ 13) || (28 ≤ n && n ≤ 32) || n == 0x85 || n == 0xa0 || n == 0x1680 ||
    (0x2000 ≤ n && n ≤ 0x200a) || n == 0x2028 || n == 0x2029 || n == 0x202f || n == 0x205f ||
    n == 0x3000

/-- The blanks that may stand around a numeral: all but the four information separators. -/
def isNumeralBlank (c : Char) : Bool :=
  isBlank c && !(28 ≤ c.toNat && c.toNat ≤ 31)

/-- The characters without those at both ends that satisfy `p`. -/
def trimBy (p : Char → Bool) (cs : List Char) : List Char :=
  ((cs.dropWhile p).reverse.dropWhile p).reverse

def trim (cs : List Char) : List Char :=
  trimBy isBlank cs

def strip (s : String) : String :=
  String.ofList (trim s.toList)

theorem isBlank_space : isBlank ' ' = true := by decide

end MachinePlan.Text
