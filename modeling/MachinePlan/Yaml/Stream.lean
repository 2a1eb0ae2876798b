import MachinePlan.Text.Numeral
import MachinePlan.Yaml.Scalar

/-!
# Token streams

A document text as a row of tokens. Block structure is told from indentation: opening and closing
tokens are put in where the column of a line rises and falls. A key is recognised only by the colon
behind it, so a token that may begin a key is remembered until its line ends or the colon comes;
the tokens from such a token on are not settled until then.
-/

namespace MachinePlan.Yaml

/-- A token that may turn out to begin a key. -/
structure PendingKey where
  /-- The place of the token in the row. -/
  place : Nat
  /-- Whether the token begins a key or nothing. -/
  required : Bool
  index : Nat
  line : Nat
  column : Nat
  deriving Repr

/-- The state between two tokens. -/
structure Lexer where
  cursor : Cursor
  /-- The tokens so far, the last one first. -/
  done : List Token
  /-- The number of tokens so far. -/
  count : Nat
  /-- The number of brackets that are open. -/
  flowLevel : Nat
  /-- The column of the innermost block, -1 outside all blocks. -/
  indent : Int
  /-- The columns of the blocks around it. -/
  outer : List Int
  /-- Whether the next token may begin a key. -/
  mayBeginKey : Bool
  /-- The tokens that may begin a key, at most one for each number of open brackets. -/
  pending : List (Nat × PendingKey)

namespace Lexer

def start (text : Excerpt) : Lexer :=
  ⟨Cursor.start text, [], 0, 0, -1, [], true, []⟩

def inFlow (l : Lexer) : Bool := l.flowLevel != 0

def push (l : Lexer) (token : Token) : Lexer :=
  { l with done := token :: l.done, count := l.count + 1 }

/-- The state with a token put in at an earlier place. -/
def pushAt (l : Lexer) (place : Nat) (token : Token) : Lexer :=
  let later := l.count - place
  { l with done := l.done.take later ++ token :: l.done.drop later, count := l.count + 1 }

def moveTo (l : Lexer) (c : Cursor) : Lexer := { l with cursor := c }

/-- A pending key that can no longer get its colon: its line is over, or more than 1024 characters
have passed. -/
def isStale (c : Cursor) (key : PendingKey) : Bool :=
  key.line != c.line || 1024 < c.index - key.index

/-- Forget the pending keys that can no longer get their colon; a required one may not be
forgotten. -/
def dropStale (l : Lexer) : Except Refusal Lexer :=
  if l.pending.any fun (_, key) => isStale l.cursor key && key.required then .error .malformed
  else .ok { l with pending := l.pending.filter fun (_, key) => !isStale l.cursor key }

/-- Forget the pending key at the present number of open brackets. -/
def dropPending (l : Lexer) : Except Refusal Lexer :=
  if (l.pending.lookup l.flowLevel).any fun key => key.required then .error .malformed
  else .ok { l with pending := l.pending.filter fun (level, _) => level != l.flowLevel }

/-- Remember that the next token may begin a key. -/
def notePending (l : Lexer) : Except Refusal Lexer :=
  if l.mayBeginKey then do
    let required := !l.inFlow && l.indent == (l.cursor.column : Int)
    let l ← l.dropPending
    let c := l.cursor
    return { l with
      pending := (l.flowLevel, ⟨l.count, required, c.index, c.line, c.column⟩) :: l.pending }
  else .ok l

/-- Close the blocks that are indented deeper than a column. -/
def unwind (column : Int) : List Int → Lexer → Lexer
  | [], l => l
  | outer :: rest, l =>
    if column < l.indent then
      unwind column rest { l.push .blockEnd with indent := outer, outer := rest }
    else l

/-- Close the blocks that end at a column; between brackets no block ends. -/
def unwindTo (l : Lexer) (column : Int) : Lexer :=
  if l.inFlow then l else unwind column l.outer l

/-- Whether a block begins at a column. -/
def opensBlock (l : Lexer) (column : Nat) : Bool := l.indent < (column : Int)

/-- The state inside a block that begins at a column. -/
def indentTo (l : Lexer) (column : Nat) : Lexer :=
  { l with indent := column, outer := l.indent :: l.outer }

/-- The position of the next token: spaces, comments and line breaks are passed over, and behind a
line break outside brackets a key may begin. -/
def skipToToken : Nat → Lexer → Lexer
  | 0, l => l
  | fuel + 1, l =>
    let c := l.cursor.skipSpaces.skipComment
    if c.peek.any isLineBreak then
      skipToToken fuel { l with cursor := c.takeBreak.2, mayBeginKey := l.mayBeginKey || !l.inFlow }
    else l.moveTo c

/-- The position behind a byte order mark at the very beginning. -/
def skipMark (l : Lexer) : Lexer :=
  if l.cursor.index = 0 && l.cursor.peek = some byteOrderMark then l.moveTo l.cursor.advance else l

/-! ### Tokens of each kind -/

def endStream (l : Lexer) : Except Refusal Lexer := do
  let l ← (l.unwindTo (-1)).dropPending
  return { l.push .streamEnd with mayBeginKey := false, pending := [] }

/-- The major number of a version directive, and the position behind both numbers. -/
def takeVersion (c : Cursor) : Except Refusal (Int × Cursor) := do
  let (major, c) := c.skipSpaces.takeWhile Text.isAsciiDigit
  c.unblocked
  if major.isEmpty then throw .malformed
  match Text.readInt? 10 major with
  | none => throw (.fault .value)
  | some n =>
    if c.peek ≠ some '.' then throw .malformed
    let (minor, c) := c.advance.takeWhile Text.isAsciiDigit
    c.unblocked
    if minor.isEmpty then throw .malformed
    if (Text.readInt? 10 minor).isNone then throw (.fault .value)
    if endsWord c.peek then return (n, c) else throw .malformed

def takeDirective (c : Cursor) : Except Refusal (Token × Cursor) := do
  let (name, c) := c.advance.takeWhile isNameChar
  c.unblocked
  if name.isEmpty || !endsWord c.peek then throw .malformed
  let (token, c) ←
    if name = "YAML".toList then do
      let (major, c) ← takeVersion c
      pure (Token.versionDirective major, c)
    else if name = "TAG".toList then do
      let (handle, c) ← takeHandle c.skipSpaces
      if c.peek ≠ some ' ' then c.refuse
      let (stem, c) ← takeTagText c.skipSpaces
      if !endsWord c.peek then throw .malformed
      pure (Token.tagDirective handle stem, c)
    else pure (Token.otherDirective, c.skipWhile fun x => !isLineBreak x)
  return (token, ← c.finishLine)

def directive (l : Lexer) : Except Refusal Lexer := do
  let l ← (l.unwindTo (-1)).dropPending
  let (token, c) ← takeDirective l.cursor
  return ({ l with mayBeginKey := false }.push token).moveTo c

def marker (l : Lexer) (token : Token) : Except Refusal Lexer := do
  let l ← (l.unwindTo (-1)).dropPending
  return ({ l with mayBeginKey := false }.push token).moveTo (l.cursor.advanceBy 3)

def openFlow (l : Lexer) (token : Token) : Except Refusal Lexer := do
  let l ← l.notePending
  return ({ l with mayBeginKey := true, flowLevel := l.flowLevel + 1 }.push token).moveTo
    l.cursor.advance

def closeFlow (l : Lexer) (token : Token) : Except Refusal Lexer := do
  let l ← l.dropPending
  return ({ l with mayBeginKey := false, flowLevel := l.flowLevel - 1 }.push token).moveTo
    l.cursor.advance

/-- A comma between brackets. -/
def flowEntry (l : Lexer) : Except Refusal Lexer := do
  let l ← l.dropPending
  return ({ l with mayBeginKey := true }.push .flowEntry).moveTo l.cursor.advance

/-- The opening token of a block, where a block begins at the position. -/
def openBlock (l : Lexer) (token : Token) : Except Refusal Lexer :=
  if l.inFlow then .ok l
  else if !l.mayBeginKey then .error .malformed
  else if l.opensBlock l.cursor.column then .ok ((l.indentTo l.cursor.column).push token)
  else .ok l

/-- A hyphen that begins an entry of a block sequence. -/
def blockEntry (l : Lexer) : Except Refusal Lexer := do
  let l ← l.openBlock .blockSequenceStart
  let l ← l.dropPending
  return ({ l with mayBeginKey := true }.push .blockEntry).moveTo l.cursor.advance

/-- A question mark that begins a key. -/
def explicitKey (l : Lexer) : Except Refusal Lexer := do
  let l ← l.openBlock .blockMappingStart
  let l ← { l with mayBeginKey := !l.inFlow }.dropPending
  return (l.push .key).moveTo l.cursor.advance

/-- A colon: it settles the pending key, if there is one. -/
def colon (l : Lexer) : Except Refusal Lexer := do
  let l ←
    match l.pending.lookup l.flowLevel with
    | some key =>
      let l := { l with pending := l.pending.filter fun (level, _) => level != l.flowLevel }
      let l := l.pushAt key.place .key
      let l :=
        if !l.inFlow && l.opensBlock key.column then
          (l.indentTo key.column).pushAt key.place .blockMappingStart
        else l
      pure { l with mayBeginKey := false }
    | none => do
      let l ← l.openBlock .blockMappingStart
      { l with mayBeginKey := !l.inFlow }.dropPending
  return (l.push .value).moveTo l.cursor.advance

def keyable (l : Lexer) (take : Cursor → Except Refusal (Token × Cursor)) :
    Except Refusal Lexer := do
  let l ← l.notePending
  let (token, c) ← take l.cursor
  return ({ l with mayBeginKey := false }.push token).moveTo c

def plain (l : Lexer) : Except Refusal Lexer := do
  let l ← l.notePending
  let (token, broken, c) ← takePlain l.inFlow l.indent l.cursor
  return ({ l with mayBeginKey := broken }.push token).moveTo c

def blockScalar (l : Lexer) (folded : Bool) : Except Refusal Lexer := do
  let l ← { l with mayBeginKey := true }.dropPending
  let (token, c) ← takeBlockScalar folded l.indent l.cursor
  return (l.push token).moveTo c

/-- A character that begins no plain scalar. -/
def isIndicator (c : Char) : Bool :=
  ['-', '?', ':', ',', '[', ']', '\x7b', '\x7d', '#', '&', '*', '!', '|', '>', '\'', '"', '%', '@',
    '\x60'].contains c

/-- A character that needs a look at the next one to tell whether a plain scalar begins with it. -/
def isDoubtful (c : Char) : Bool := isIndicator c || endsToken (some c)

/-- Whether a plain scalar begins with the character, before the given one. -/
def beginsPlain (inFlow : Bool) (c : Char) (next : Option Char) : Bool :=
  !isDoubtful c || (!endsToken next && (c = '-' || (!inFlow && (c = '?' || c = ':'))))

/-- The token at a document marker, if one stands at the position. -/
def marker? (c : Cursor) : Except Refusal (Option Token) := do
  if c.column ≠ 0 then return none
  match c.peek with
  | some '-' => return if ← c.atMarker then some .documentStart else none
  | some '.' => return if ← c.atMarker then some .documentEnd else none
  | _ => return none

/-- The state behind a token that begins with a character of its own. -/
def nextAt (l : Lexer) (x : Char) : Except Refusal Lexer := do
  let c := l.cursor
  if x = '[' then l.openFlow .flowSequenceStart
  else if x = '\x7b' then l.openFlow .flowMappingStart
  else if x = ']' then l.closeFlow .flowSequenceEnd
  else if x = '\x7d' then l.closeFlow .flowMappingEnd
  else if x = ',' then l.flowEntry
  else if x = '*' then l.keyable fun c => do
    let (name, c) ← takeAnchor c
    return (.alias name, c)
  else if x = '&' then l.keyable fun c => do
    let (name, c) ← takeAnchor c
    return (.anchor name, c)
  else if x = '!' then l.keyable takeTag
  else if x = '|' && !l.inFlow then l.blockScalar false
  else if x = '>' && !l.inFlow then l.blockScalar true
  else if x = '\'' then l.keyable (takeQuoted false)
  else if x = '"' then l.keyable (takeQuoted true)
  else if x = '?' && l.inFlow then l.explicitKey
  else if x = ':' && l.inFlow then l.colon
  else
    if isDoubtful x then c.reach 2
    let follower := c.peekAt 1
    if x = '-' && endsToken follower then l.blockEntry
    else if x = '?' && endsToken follower then l.explicitKey
    else if x = ':' && endsToken follower then l.colon
    else if beginsPlain l.inFlow x follower then l.plain
    else throw .malformed

def next (l : Lexer) : Except Refusal Lexer := do
  let l := l.skipMark
  let l := skipToToken (l.cursor.rest.length + 1) l
  l.cursor.unblocked
  let l ← l.dropStale
  let l := l.unwindTo l.cursor.column
  match l.cursor.peek with
  | none => l.endStream
  | some x =>
    if x = '%' && l.cursor.column = 0 then l.directive
    else
      match ← marker? l.cursor with
      | some token => l.marker token
      | none => l.nextAt x

/-- The state behind the next token, up to which the text can be read. -/
def step (l : Lexer) : Except Refusal Lexer := do
  let l ← l.next
  l.cursor.unblocked
  return l

end Lexer

/-- A row of tokens. It ends with the end of the stream, or is cut off for a reason. -/
structure TokenRow where
  tokens : List Token
  reason : Refusal

/-- The tokens that are settled when the reading stops with a refusal: those before the first token
that may still begin a key. -/
def settled (l : Lexer) (refusal : Refusal) : TokenRow :=
  match l.dropStale with
  | .error r => ⟨l.done.reverse, r⟩
  | .ok l =>
    let limit := l.pending.foldl (fun n (_, key) => min n key.place) l.count
    ⟨l.done.reverse.take limit, refusal⟩

/-- The tokens from a state on; the first argument bounds their number. -/
def tokensFrom : Nat → Lexer → TokenRow
  | 0, l => ⟨l.done.reverse, .malformed⟩
  | fuel + 1, l =>
    match l.step with
    | .error refusal => settled l refusal
    | .ok l =>
      match l.done with
      | .streamEnd :: _ => ⟨l.done.reverse, .malformed⟩
      | _ => tokensFrom fuel l

/-- The tokens of a text. Every token but the last takes a character. -/
def tokensOf (text : Excerpt) : TokenRow :=
  tokensFrom (text.chars.length + 1) (Lexer.start text)

end MachinePlan.Yaml
