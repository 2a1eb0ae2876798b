import MachinePlan.Yaml.Cursor

/-!
# Tokens

The tokens of a document, and the two kinds of them that are words: directives and tags.
-/

namespace MachinePlan.Yaml

inductive Token where
  | streamEnd
  /-- The version of the format that the document asks for. -/
  | versionDirective (major : Int)
  /-- A short form for the beginnings of tags. -/
  | tagDirective (handle stem : String)
  | otherDirective
  | documentStart
  | documentEnd
  | blockSequenceStart
  | blockMappingStart
  | blockEnd
  | flowSequenceStart
  | flowMappingStart
  | flowSequenceEnd
  | flowMappingEnd
  | blockEntry
  | flowEntry
  | key
  | value
  | alias (name : String)
  | anchor (name : String)
  | tag (handle : Option String) (suffix : String)
  | scalar (text : String) (plain : Bool)
  deriving Inhabited, Repr, DecidableEq

/-- A character of names: an ASCII letter or digit, a hyphen or an underscore. -/
def isNameChar (c : Char) : Bool :=
  ('0' ≤ c && c ≤ '9') || ('A' ≤ c && c ≤ 'Z') || ('a' ≤ c && c ≤ 'z') || c = '-' || c = '_'

def isTagChar (c : Char) : Bool :=
  isNameChar c || ";/?:@&=+$,.!~*'()[]%".toList.contains c

/-- The value of a hexadecimal ASCII digit. -/
def hexValue? (c : Char) : Option Nat :=
  if '0' ≤ c && c ≤ '9' then some (c.toNat - '0'.toNat)
  else if 'a' ≤ c && c ≤ 'f' then some (c.toNat - 'a'.toNat + 10)
  else if 'A' ≤ c && c ≤ 'F' then some (c.toNat - 'A'.toNat + 10)
  else none

def hexNumber? (cs : List Char) : Option Nat :=
  cs.foldlM (fun n c => (hexValue? c).map fun d => n * 16 + d) 0

/-- The bytes that a run of percent escapes denotes, and what follows the run. -/
def takeEscapedBytes : List Char → Except Refusal (List UInt8 × List Char)
  | '%' :: a :: b :: rest =>
    match hexNumber? [a, b] with
    | none => .error .malformed
    | some n => do
      let (bytes, tail) ← takeEscapedBytes rest
      return (n.toUInt8 :: bytes, tail)
  | '%' :: _ => .error .malformed
  | cs => .ok ([], cs)

/-- The text of a tag, with percent escapes decoded. The first argument bounds the number of runs of
escapes. -/
def decodeTag : Nat → List Char → Except Refusal (List Char)
  | 0, cs => .ok cs
  | fuel + 1, cs =>
    let plain := cs.takeWhile (· != '%')
    match cs.dropWhile (· != '%') with
    | [] => .ok plain
    | escaped => do
      let (bytes, tail) ← takeEscapedBytes escaped
      match String.fromUTF8? (ByteArray.mk bytes.toArray) with
      | none => .error .malformed
      | some s => return plain ++ s.toList ++ (← decodeTag fuel tail)

/-- The text of a tag at the position, which must not be empty. -/
def takeTagText (c : Cursor) : Except Refusal (String × Cursor) := do
  let (cs, next) := c.takeWhile isTagChar
  next.unblocked
  if cs.isEmpty then throw .malformed
  let decoded ← decodeTag cs.length cs
  return (String.ofList decoded, next)

/-- The handle at the position: an exclamation mark, alone or before a name and another one. -/
def takeHandle (c : Cursor) : Except Refusal (String × Cursor) := do
  if c.peek ≠ some '!' then c.refuse
  if c.peekAt 1 = some ' ' then return ("!", c.advance)
  let (name, next) := c.advance.takeWhile isNameChar
  if next.peek ≠ some '!' then next.refuse
  return (String.ofList ('!' :: name ++ ['!']), next.advance)

/-- Whether the tag at the position has a second exclamation mark. -/
def namesHandle (c : Cursor) : Except Refusal Bool := do
  let next := c.advance.skipWhile fun x => x ≠ '!' && !endsWord (some x)
  next.unblocked
  return next.peek = some '!'

def takeTag (c : Cursor) : Except Refusal (Token × Cursor) := do
  let (token, next) ←
    if c.peekAt 1 = some '<' then do
      let (suffix, next) ← takeTagText (c.advanceBy 2)
      if next.peek ≠ some '>' then next.refuse
      pure (Token.tag none suffix, next.advance)
    else if endsToken (c.peekAt 1) then pure (Token.tag none "!", c.advance)
    else do
      let (handle, next) ← if ← namesHandle c then takeHandle c else pure ("!", c.advance)
      let (suffix, next) ← takeTagText next
      pure (Token.tag (some handle) suffix, next)
  next.unblocked
  if endsWord next.peek then return (token, next) else throw .malformed

/-- A character that may follow a name directly. -/
def closesName (c : Char) : Bool :=
  ['?', ':', ',', ']', '\x7d', '%', '@', '\x60'].contains c

/-- The name of an anchor or alias at the position, behind its indicator. -/
def takeAnchor (c : Cursor) : Except Refusal (String × Cursor) := do
  let (name, next) := c.advance.takeWhile isNameChar
  next.unblocked
  if name.isEmpty then throw .malformed
  if endsToken next.peek || next.peek.any closesName then return (String.ofList name, next)
  else throw .malformed

end MachinePlan.Yaml
