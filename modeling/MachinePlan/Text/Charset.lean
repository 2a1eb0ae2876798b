import MachinePlan.Text.Half

/-!
# Encodings of outputs

Which code points an output can encode. A text that it cannot encode as a whole is not taken; on an
output that escapes, the code points that cannot be encoded are written by number.
-/

namespace MachinePlan

/-- The code points that an output can encode; those of ASCII are among them. -/
structure Charset where
  encodes : Nat → Bool
  ascii : ∀ n < 128, encodes n = true

namespace Charset

/-- The encoding that leaves nothing out. -/
def full : Charset := ⟨fun _ => true, fun _ _ => rfl⟩

/-- The encoding of every character; half a character cannot be encoded. -/
def unicode : Charset where
  encodes n := !Text.isHalf n
  ascii n small := by simp [Text.isHalf]; omega

def takes (charset : Charset) (s : String) : Bool :=
  (Text.codes s.toList).all charset.encodes

/-- A code point by number. -/
def numbered (n : Nat) : List Char :=
  if n < 0x100 then '\\' :: 'x' :: Text.hexDigits 2 n
  else if n < 0x10000 then '\\' :: 'u' :: Text.hexDigits 4 n
  else '\\' :: 'U' :: Text.hexDigits 8 n

/-- The text with every code point by number that cannot be encoded. -/
def escaped (charset : Charset) (s : String) : String :=
  String.ofList ((Text.pieces s.toList).flatMap fun piece =>
    let n := Text.pieceCode piece
    if charset.encodes n then piece else numbered n)

end Charset

end MachinePlan
