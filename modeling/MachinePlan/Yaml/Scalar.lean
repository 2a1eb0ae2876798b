import MachinePlan.Text.Half
import MachinePlan.Yaml.Token

/-!
# Scalars

The texts of a document: plain, quoted and block scalars. Line breaks inside a plain or quoted
scalar are folded, a single one to a space; a block scalar keeps them unless its style folds.
-/

namespace MachinePlan.Yaml

/-! ### Block scalars -/

/-- What a block scalar does with the line breaks at its end. -/
inductive Chomping where
  | strip
  | clip
  | keep
  deriving Repr, DecidableEq

/-- The chomping that an indicator asks for. -/
def chomping? (c : Option Char) : Option Chomping :=
  match c with
  | some '+' => some .keep
  | some '-' => some .strip
  | _ => none

/-- The indentation that an indicator asks for; zero is none. -/
def increment? (c : Option Char) : Except Refusal (Option Nat) :=
  match c with
  | some x =>
    if x = '0' then .error .malformed
    else if '1' ≤ x && x ≤ '9' then .ok (some (x.toNat - '0'.toNat))
    else .ok none
  | none => .ok none

/-- The indicators of a block scalar, in either order, and the position behind them. -/
def takeBlockHeader (c : Cursor) : Except Refusal (Chomping × Option Nat × Cursor) := do
  let (chomping, increment, c) ←
    match chomping? c.peek with
    | some chomping => do
      let c := c.advance
      match ← increment? c.peek with
      | some n => pure (chomping, some n, c.advance)
      | none => pure (chomping, none, c)
    | none => do
      match ← increment? c.peek with
      | some n =>
        let c := c.advance
        match chomping? c.peek with
        | some chomping => pure (chomping, some n, c.advance)
        | none => pure (Chomping.clip, some n, c)
      | none => pure (Chomping.clip, none, c)
  c.unblocked
  if endsWord c.peek then return (chomping, increment, c) else throw .malformed

/-- The blank lines at the position, the deepest column that their spaces reach, and the position
behind them. -/
def takeLeadingBreaks : Nat → Cursor → List Char × Nat × Cursor
  | 0, c => ([], 0, c)
  | fuel + 1, c =>
    match c.peek with
    | some x =>
      if x = ' ' then
        let c := c.advance
        let (breaks, deepest, next) := takeLeadingBreaks fuel c
        (breaks, max c.column deepest, next)
      else if isLineBreak x then
        let (lineBreak, c) := c.takeBreak
        let (breaks, deepest, next) := takeLeadingBreaks fuel c
        (lineBreak ++ breaks, deepest, next)
      else ([], 0, c)
    | none => ([], 0, c)

/-- The position behind the spaces at the front, up to a column. -/
def skipIndent (indent : Nat) : Nat → Cursor → Cursor
  | 0, c => c
  | fuel + 1, c =>
    if c.column < indent && c.peek = some ' ' then skipIndent indent fuel c.advance else c

/-- The blank lines at the position, with indentation skipped up to a column, and the position
behind them. -/
def takeBlockBreaks (indent : Nat) : Nat → Cursor → List Char × Cursor
  | 0, c => ([], c)
  | fuel + 1, c =>
    let c := skipIndent indent c.rest.length c
    if c.peek.any isLineBreak then
      let (lineBreak, c) := c.takeBreak
      let (breaks, next) := takeBlockBreaks indent fuel c
      (lineBreak ++ breaks, next)
    else ([], c)

/-- A space or a tab. -/
def isPadding (c : Char) : Bool := c = ' ' || c = '\t'

/-- The lines of a block scalar from the position on, with the breaks before them; the last line
break and the breaks behind it stand apart. -/
def takeBlockLines (folded : Bool) (indent : Nat) :
    Nat → List Char → Cursor → List Char × List Char × List Char × Cursor
  | 0, breaks, c => ([], [], breaks, c)
  | fuel + 1, breaks, c =>
    let startsPadded := c.peek.any isPadding
    let (line, c) := c.takeWhile fun x => !isLineBreak x
    let (lineBreak, c) := c.takeBreak
    let (later, c) := takeBlockBreaks indent (c.rest.length + 1) c
    if c.column = indent && c.peek.isSome then
      let joint :=
        if folded && lineBreak = ['\n'] && !startsPadded && !c.peek.any isPadding then
          if later.isEmpty then [' '] else []
        else lineBreak
      let (text, lastBreak, lastBreaks, next) := takeBlockLines folded indent fuel later c
      (breaks ++ line ++ joint ++ text, lastBreak, lastBreaks, next)
    else (breaks ++ line, lineBreak, later, c)

/-- The block scalar at the position, inside a block of the given indentation. -/
def takeBlockScalar (folded : Bool) (blockIndent : Int) (c : Cursor) :
    Except Refusal (Token × Cursor) := do
  let (chomping, increment, c) ← takeBlockHeader c.advance
  let c ← c.finishLine
  let least := (max (blockIndent + 1) 1).toNat
  let (indent, breaks, c) :=
    match increment with
    | none =>
      let (breaks, deepest, c) := takeLeadingBreaks (c.rest.length + 1) c
      (max least deepest, breaks, c)
    | some n =>
      let indent := least + n - 1
      let (breaks, c) := takeBlockBreaks indent (c.rest.length + 1) c
      (indent, breaks, c)
  let (text, lastBreak, lastBreaks, c) :=
    if c.column = indent && c.peek.isSome then
      takeBlockLines folded indent (c.rest.length + 1) breaks c
    else ([], [], breaks, c)
  let ending :=
    match chomping with
    | .strip => []
    | .clip => lastBreak
    | .keep => lastBreak ++ lastBreaks
  return (.scalar (String.ofList (Text.spellAll (text ++ ending))) false, c)

/-! ### Quoted scalars -/

/-- The character that a letter behind a backslash denotes. -/
def unescape? (c : Char) : Option Char :=
  (([('0', '\x00'), ('a', '\x07'), ('b', '\x08'), ('t', '\x09'), ('\t', '\x09'), ('n', '\x0a'),
    ('v', '\x0b'), ('f', '\x0c'), ('r', '\x0d'), ('e', '\x1b'), (' ', ' '), ('"', '"'),
    ('\\', '\\'), ('/', '/'), ('N', '\u0085'), ('_', '\u00a0'), ('L', '\u2028'),
    ('P', '\u2029')] : List (Char × Char)).lookup c)

/-- The number of hexadecimal digits that follow a letter behind a backslash. -/
def escapeLength? (c : Char) : Option Nat :=
  if c = 'x' then some 2 else if c = 'u' then some 4 else if c = 'U' then some 8 else none

/-- The spelling of the code point with a number; there are none beyond the last one. -/
def spelledCode (n : Nat) : Except Refusal (List Char) :=
  if n < 0x110000 then .ok (Text.spell n)
  else .error (.fault (if n < 0x80000000 then .value else .outOfRange))

/-- The line breaks at the position, with the padding before each of them skipped. A document marker
may not stand there. -/
def takeFlowBreaks : Nat → Cursor → Except Refusal (List Char × Cursor)
  | 0, c => .ok ([], c)
  | fuel + 1, c => do
    if ← c.atMarker then throw .malformed
    let c := c.skipWhile isPadding
    if c.peek.any isLineBreak then
      let (lineBreak, c) := c.takeBreak
      let (breaks, next) ← takeFlowBreaks fuel c
      return (lineBreak ++ breaks, next)
    else return ([], c)

/-- What an escape with the given number of hexadecimal digits denotes, from its letter on, and the
position behind it. -/
def takeCoded (length : Nat) (c : Cursor) : Except Refusal (List Char × Cursor) := do
  let next := c.advanceBy (length + 1)
  match hexNumber? ((c.rest.drop 1).take length) with
  | none => throw .malformed
  | some n =>
    if c.rest.length < length + 1 then next.refuse
    return (← spelledCode n, next)

/-- The character or the line breaks that the escape at the position denotes, and the position
behind it. -/
def takeEscape (c : Cursor) : Except Refusal (List Char × Cursor) := do
  match c.peek with
  | none => c.refuse
  | some x =>
    match unescape? x, escapeLength? x with
    | some y, _ => return ([y], c.advance)
    | none, some length => takeCoded length c
    | none, none =>
      if isLineBreak x then
        let c := c.takeBreak.2
        takeFlowBreaks (c.rest.length + 1) c
      else throw .malformed

/-- A character that a quoted scalar does not simply hold. -/
def isFlowSpecial (c : Char) : Bool :=
  c = '\'' || c = '"' || c = '\\' || c = ' ' || c = '\t' || isLineBreak c

/-- The text of a quoted scalar at the position up to the next padding or line break, or up to its
closing quote. -/
def takeQuotedWord (double : Bool) : Nat → Cursor → Except Refusal (List Char × Cursor)
  | 0, c => .ok ([], c)
  | fuel + 1, c => do
    let (plain, c) := c.takeWhile fun x => !isFlowSpecial x
    let plain := Text.spellAll plain
    let more (part : List Char) (next : Cursor) : Except Refusal (List Char × Cursor) := do
      let (text, next) ← takeQuotedWord double fuel next
      return (plain ++ part ++ text, next)
    match c.peek with
    | some '\'' =>
      if double then more ['\''] c.advance
      else if c.peekAt 1 = some '\'' then more ['\''] (c.advanceBy 2)
      else return (plain, c)
    | some '"' => if double then return (plain, c) else more ['"'] c.advance
    | some '\\' =>
      if double then
        let (part, next) ← takeEscape c.advance
        more part next
      else more ['\\'] c.advance
    | _ => return (plain, c)

/-- The padding or the folded line breaks of a quoted scalar at the position. -/
def takeQuotedGap (c : Cursor) : Except Refusal (List Char × Cursor) := do
  let (padding, c) := c.takeWhile isPadding
  match c.peek with
  | none => c.refuse
  | some x =>
    if isLineBreak x then
      let (lineBreak, c) := c.takeBreak
      let (breaks, c) ← takeFlowBreaks (c.rest.length + 1) c
      if lineBreak ≠ ['\n'] then return (lineBreak ++ breaks, c)
      else if breaks.isEmpty then return ([' '], c)
      else return (breaks, c)
    else return (padding, c)

/-- The rest of a quoted scalar up to its closing quote: words and gaps in turn. -/
def takeQuotedRest (double : Bool) : Nat → Cursor → Except Refusal (List Char × Cursor)
  | 0, _ => .error .malformed
  | fuel + 1, c => do
    if c.peek = some (if double then '"' else '\'') then return ([], c.advance)
    let (gap, c) ← takeQuotedGap c
    let (word, c) ← takeQuotedWord double (c.rest.length + 1) c
    let (text, next) ← takeQuotedRest double fuel c
    return (gap ++ word ++ text, next)

def takeQuoted (double : Bool) (c : Cursor) : Except Refusal (Token × Cursor) := do
  let (word, c) ← takeQuotedWord double (c.rest.length + 1) c.advance
  let (text, next) ← takeQuotedRest double (c.rest.length + 1) c
  return (.scalar (String.ofList (word ++ text)) false, next)

/-! ### Plain scalars -/

/-- The brackets and the comma, which end a plain scalar between brackets. -/
def isFlowIndicator (c : Char) : Bool :=
  c = ',' || c = '[' || c = ']' || c = '\x7b' || c = '\x7d'

/-- Whether a plain scalar ends before the first of the given characters. -/
def endsPlain (inFlow : Bool) : List Char → Bool
  | [] => true
  | c :: rest =>
    endsToken (some c) ||
      (c = ':' && (endsToken rest.head? || (inFlow && rest.head?.any isFlowIndicator))) ||
      (inFlow && (c = '?' || isFlowIndicator c))

/-- The number of characters up to the end of a plain word. -/
def plainLength (inFlow : Bool) : List Char → Nat
  | [] => 0
  | c :: rest => if endsPlain inFlow (c :: rest) then 0 else plainLength inFlow rest + 1

/-- The blank lines behind a line break of a plain scalar; none when a document marker follows. -/
def takePlainBreaks : Nat → Cursor → Except Refusal (Option (List Char) × Cursor)
  | 0, c => .ok (some [], c)
  | fuel + 1, c => do
    match c.peek with
    | some x =>
      if x = ' ' then takePlainBreaks fuel c.advance
      else if isLineBreak x then
        let (lineBreak, c) := c.takeBreak
        if ← c.atMarker then return (none, c)
        let (breaks, next) ← takePlainBreaks fuel c
        return (breaks.map (lineBreak ++ ·), next)
      else return (some [], c)
    | none => return (some [], c)

/-- The gap behind a word of a plain scalar: its text, whether it holds a line break, and the
position behind it. An empty text ends the scalar. -/
def takePlainGap (c : Cursor) : Except Refusal (List Char × Bool × Cursor) := do
  let (spaces, c) := c.takeWhile isSpace
  if c.peek.any isLineBreak then
    let (lineBreak, c) := c.takeBreak
    if ← c.atMarker then return ([], true, c)
    match ← takePlainBreaks (c.rest.length + 1) c with
    | (none, c) => return ([], true, c)
    | (some breaks, c) =>
      if lineBreak ≠ ['\n'] then return (lineBreak ++ breaks, true, c)
      else if breaks.isEmpty then return ([' '], true, c)
      else return (breaks, true, c)
  else return (spaces, false, c)

/-- The words of a plain scalar from the position on, each with the gap before it; whether the last
gap holds a line break; the position behind them. A colon ends a word only before certain
characters. -/
def takePlainWords (inFlow : Bool) (indent : Int) :
    Nat → List Char → Bool → Cursor → Except Refusal (List Char × Bool × Cursor)
  | 0, _, broken, c => .ok ([], broken, c)
  | fuel + 1, gap, broken, c => do
    if c.peek = some '#' then return ([], broken, c)
    let n := plainLength inFlow c.rest
    let stop := c.advanceBy n
    if stop.peek = some ':' then stop.reach 2
    if n = 0 then return ([], broken, c)
    let word := c.rest.take n
    let (later, broken, c) ← takePlainGap stop
    if later.isEmpty || c.peek = some '#' || (!inFlow && (c.column : Int) < indent) then
      return (gap ++ word, broken, c)
    let (text, broken, next) ← takePlainWords inFlow indent fuel later broken c
    return (gap ++ word ++ text, broken, next)

/-- The plain scalar at the position, whether it ends behind a line break, and the position behind
it. -/
def takePlain (inFlow : Bool) (blockIndent : Int) (c : Cursor) :
    Except Refusal (Token × Bool × Cursor) := do
  let (text, broken, next) ←
    takePlainWords inFlow (blockIndent + 1) (c.rest.length + 1) [] false c
  return (.scalar (String.ofList (Text.spellAll text)) true, broken, next)

end MachinePlan.Yaml
