import MachinePlan.Yaml.Excerpt

/-!
# Reading positions

A position in a document text: what is left to read, and how far and in which line and column it
is. Carriage returns have been turned into line feeds before.
-/

namespace MachinePlan.Yaml

/-- A character that ends a line of a document. -/
def isLineBreak (c : Char) : Bool :=
  c = '\n' || c = '\u0085' || c = '\u2028' || c = '\u2029'

/-- The byte order mark, which takes no column. -/
def byteOrderMark : Char := '\ufeff'

/-- A position in a document text. -/
structure Cursor where
  rest : List Char
  /-- Why the text cannot be read beyond the rest; nothing at its end. -/
  barrier : Option Refusal
  index : Nat
  line : Nat
  column : Nat
  deriving Inhabited, Repr

namespace Cursor

def start (text : Excerpt) : Cursor := ⟨text.chars, text.barrier, 0, 0, 0⟩

/-- Why nothing can be read at the position, if that is so. -/
def blocked? (c : Cursor) : Option Refusal :=
  if c.rest.isEmpty then c.barrier else none

/-- Why the text is refused at the position: it cannot be read there, or it breaks a rule. -/
def refusal (c : Cursor) : Refusal := c.blocked?.getD .malformed

def refuse {α : Type} (c : Cursor) : Except Refusal α := .error c.refusal

/-- Look at the next `n` characters: all of them have to be readable, up to the end of the text. -/
def reach (c : Cursor) (n : Nat) : Except Refusal Unit :=
  match c.barrier with
  | some refusal => if (c.rest.take n).length < n then .error refusal else .ok ()
  | none => .ok ()

/-- Go on at the position, if it can be read. -/
def unblocked (c : Cursor) : Except Refusal Unit := c.reach 1

def peek (c : Cursor) : Option Char := c.rest.head?

def peekAt (c : Cursor) (n : Nat) : Option Char := c.rest[n]?

def advance (c : Cursor) : Cursor :=
  match c.rest with
  | [] => c
  | x :: rest =>
    if isLineBreak x then ⟨rest, c.barrier, c.index + 1, c.line + 1, 0⟩
    else if x = byteOrderMark then ⟨rest, c.barrier, c.index + 1, c.line, c.column⟩
    else ⟨rest, c.barrier, c.index + 1, c.line, c.column + 1⟩

def advanceBy (c : Cursor) : Nat → Cursor
  | 0 => c
  | n + 1 => c.advance.advanceBy n

/-- The position behind the characters at the front that satisfy `p`. -/
def skipWhile (p : Char → Bool) (c : Cursor) : Cursor :=
  c.advanceBy (c.rest.takeWhile p).length

def takeWhile (p : Char → Bool) (c : Cursor) : List Char × Cursor :=
  let cs := c.rest.takeWhile p
  (cs, c.advanceBy cs.length)

end Cursor

/-- The end of the text or of a line. -/
def endsLine : Option Char → Bool
  | none => true
  | some c => isLineBreak c

/-- The end of the text or of a line, or a space. -/
def endsWord : Option Char → Bool
  | none => true
  | some c => c = ' ' || isLineBreak c

/-- The end of the text or of a line, a space or a tab. -/
def endsToken : Option Char → Bool
  | none => true
  | some c => c = ' ' || c = '\t' || isLineBreak c

def isSpace (c : Char) : Bool := c = ' '

namespace Cursor

def skipSpaces (c : Cursor) : Cursor := c.skipWhile isSpace

/-- The position behind a comment, if one begins here. -/
def skipComment (c : Cursor) : Cursor :=
  if c.peek = some '#' then c.skipWhile fun x => !isLineBreak x else c

/-- The line break at the position, in the form that a scalar keeps, and the position behind it. -/
def takeBreak (c : Cursor) : List Char × Cursor :=
  match c.peek with
  | some x =>
    if x = '\n' || x = '\u0085' then (['\n'], c.advance)
    else if isLineBreak x then ([x], c.advance)
    else ([], c)
  | none => ([], c)

/-- Whether a line with a document marker begins here. -/
def atMarker (c : Cursor) : Except Refusal Bool := do
  c.reach 3
  if c.rest.take 3 = ['-', '-', '-'] || c.rest.take 3 = ['.', '.', '.'] then
    c.reach 4
    return endsToken (c.peekAt 3)
  else return false

/-- The position at the end of a line on which only a comment may be left. -/
def finishLine (c : Cursor) : Except Refusal Cursor := do
  let c := c.skipSpaces.skipComment
  c.unblocked
  if endsLine c.peek then .ok c.takeBreak.2 else .error .malformed

end Cursor

end MachinePlan.Yaml
