import MachinePlan.Failure
import MachinePlan.Text.Line

/-!
# Excerpts

What can be read of the bytes of a document. A document is read portion by portion: nothing of a
portion counts if one of its characters may not stand in a document or if its bytes are no text, but
all portions before it do. So a mistake in the text is found there although a later portion cannot
be read.
-/

namespace MachinePlan.Yaml

/-- Why a document text denotes no value. -/
inductive Refusal where
  /-- The text breaks a rule of the format. -/
  | malformed
  /-- A part of the text denotes an impossible value. -/
  | fault (fault : Fault)
  deriving Repr, DecidableEq

/-- The characters that may stand in a document. -/
def isAllowed (c : Char) : Bool :=
  let n := c.toNat
  n == 9 || n == 10 || n == 13 || (0x20 ≤ n && n ≤ 0x7e) || n == 0x85 || (0xa0 ≤ n && n ≤ 0xd7ff) ||
    (0xe000 ≤ n && n ≤ 0xfffd) || 0x10000 ≤ n

/-- What can be read of a document text. -/
structure Excerpt where
  chars : List Char
  /-- Why the text cannot be read further; nothing at its end. -/
  barrier : Option Refusal
  deriving Inhabited, Repr

namespace Excerpt

/-! ### Portions of characters -/

/-- The number of characters in a portion; the first one is twice as long. -/
def portion : Nat := 4096

/-- The number of characters in the portions before the one that holds a position. -/
def portionStart (position : Nat) : Nat :=
  if position < 2 * portion then 0 else position / portion * portion

def ofChars (chars : List Char) (reason : Option Refusal) : Excerpt :=
  match chars.findIdx? fun c => !isAllowed c with
  | some position => ⟨chars.take (portionStart position), some .malformed⟩
  | none => ⟨chars, reason⟩

/-! ### Blocks of bytes -/

/-- The characters that bytes stand for, if they are a text. -/
def decode? (bytes : List UInt8) : Option (List Char) :=
  (String.fromUTF8? ⟨bytes.toArray⟩).map (·.toList)

/-- Bytes that complete a character. Whatever begins a character is completed by one of these. -/
def completions : List (List UInt8) :=
  [[0x80], [0xbf], [0x80, 0x80], [0xbf, 0x80], [0x80, 0x80, 0x80], [0xbf, 0x80, 0x80]]

/-- Whether bytes begin a character and do not complete it. -/
def beginsChar (bytes : List UInt8) : Bool :=
  bytes.isEmpty || completions.any fun more => (decode? (bytes ++ more)).isSome

/-- The characters of a block, and the bytes at its end that only begin a character. -/
def decodeBlock? (bytes : List UInt8) : Option (List Char × List UInt8) :=
  [0, 1, 2, 3].findSome? fun n =>
    let left := bytes.drop (bytes.length - n)
    if beginsChar left then (decode? (bytes.take (bytes.length - n))).map (·, left) else none

/-- The characters with line feeds as line ends. A carriage return at the end is left out: what
comes next tells whether it is a line end of its own. -/
def settledNewlines (chars : List Char) : List Char :=
  Text.plainNewlines (if chars.getLast? = some '\r' then chars.dropLast else chars)

/-- The number of bytes in a block. It is that of the missing characters, each as long as those of
the last block were on average, but never less than a least number. -/
def blockSize (bytes chars missing : Nat) : Nat :=
  max 8192 (max missing (bytes * missing / chars))

/-- The characters of the blocks before the one that is no text. `before` are those of earlier
blocks, `left` the bytes of a character that is not complete, and the two numbers count the bytes
and the characters of the last block. -/
def intactChars : Nat → List Char → List UInt8 → Nat → Nat → List UInt8 → List Char
  | 0, before, _, _, _, _ => settledNewlines before
  | fuel + 1, before, left, byteCount, charCount, bytes =>
    let count := (settledNewlines before).length
    let size := blockSize byteCount charCount (portion - count % portion)
    let block := bytes.take size
    match block, decodeBlock? (left ++ block) with
    | _ :: _, some (chars, left) =>
      let all := before ++ chars
      let fresh := (settledNewlines all).length - count
      intactChars fuel all left block.length fresh (bytes.drop size)
    | _, _ => settledNewlines before

/-- The excerpt of the bytes of a file. -/
def ofBytes (bytes : List UInt8) : Excerpt :=
  match decode? bytes with
  | some chars => ofChars (Text.plainNewlines chars) none
  | none =>
    let chars := intactChars (bytes.length + 1) [] [] 0 0 bytes
    ofChars (chars.take (portionStart chars.length)) (some (.fault .undecodable))

end Excerpt

end MachinePlan.Yaml
