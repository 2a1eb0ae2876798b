import MachinePlan.Text.Half
import MachinePlan.Text.Printable

/-!
# Quoted text

Text and bytes between quotes, on one line and in printable characters. The quote is an apostrophe
unless the text holds apostrophes and no double quote.
-/

namespace MachinePlan.Text

/-- The quote that surrounds a text. -/
def quoteFor (cs : List Char) : Char :=
  if cs.contains '\'' && !cs.contains '"' then '"' else '\''

/-- One character inside `quote`: the quote and the backslash behind a backslash, the three common
controls by letter, other characters that are not printable by number. -/
def escapeChar (quote c : Char) : List Char :=
  let n := c.toNat
  if c = quote || c = '\\' then ['\\', c]
  else if c = '\t' then ['\\', 't']
  else if c = '\n' then ['\\', 'n']
  else if c = '\r' then ['\\', 'r']
  else if isPrintable c then [c]
  else if n < 0x100 then '\\' :: 'x' :: hexDigits 2 n
  else if n < 0x10000 then '\\' :: 'u' :: hexDigits 4 n
  else '\\' :: 'U' :: hexDigits 8 n

/-- One code point inside `quote`; half a character is written by number. -/
def escapeCode (quote : Char) (n : Nat) : List Char :=
  if isHalf n then '\\' :: 'u' :: hexDigits 4 n else escapeChar quote (Char.ofNat n)

def quoted (cs : List Char) : List Char :=
  let quote := quoteFor cs
  quote :: (codes cs).flatMap (escapeCode quote) ++ [quote]

/-- One byte inside `quote`: as `escapeChar`, with every byte outside ASCII by number. -/
def escapeByte (quote : Char) (b : UInt8) : List Char :=
  if b < 0x80 then escapeChar quote (Char.ofNat b.toNat) else '\\' :: 'x' :: hexDigits 2 b.toNat

/-- Bytes between quotes, behind the letter `b`. -/
def quotedBytes (bs : List UInt8) : List Char :=
  let quote := quoteFor (bs.map fun b => Char.ofNat b.toNat)
  'b' :: quote :: bs.flatMap (escapeByte quote) ++ [quote]

end MachinePlan.Text
