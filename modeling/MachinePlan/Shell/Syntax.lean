import MachinePlan.Text.Digit

/-!
# Shell scripts

The syntax of shell scripts: words with quotes and variables, redirections, pipelines, conditional
and unconditional sequences, and groups.
-/

namespace MachinePlan.Shell

inductive Piece where
  /-- A character as it is. -/
  | char (c : Char)
  /-- The value of a variable; outside quotes its blanks separate words. -/
  | parameter (name : String) (quoted : Bool)
  deriving Repr, DecidableEq

/-- A word; one with quotes counts even when it is empty. -/
structure Word where
  pieces : List Piece
  quoted : Bool
  deriving Repr, DecidableEq

/-- Where an input or output of a command is led. -/
inductive Redirection where
  | input (source : Word)
  | output (stream : Nat) (append : Bool) (target : Word)
  /-- Lead a stream where another one leads. -/
  | duplicate (stream other : Nat)
  deriving Repr, DecidableEq

inductive Token where
  | word (word : Word)
  /-- A redirection sign with the number of its stream. -/
  | redirection (stream : Nat) (sign : String)
  | operator (text : String)
  deriving Repr, DecidableEq

/-- Why a script cannot be read. -/
inductive SyntaxProblem where
  | openQuote
  | unexpected (text : String)
  deriving Repr, DecidableEq

def SyntaxProblem.message : SyntaxProblem → String
  | .openQuote => "Syntax error: Unterminated quoted string"
  | .unexpected text => "Syntax error: " ++ text ++ " unexpected"

/-! ### Words -/

def isNameStart (c : Char) : Bool :=
  ('a' ≤ c && c ≤ 'z') || ('A' ≤ c && c ≤ 'Z') || c = '_'

def isNameChar (c : Char) : Bool := isNameStart c || Text.isAsciiDigit c

/-- A character that is the whole name of a special variable. -/
def isSpecialName (c : Char) : Bool :=
  Text.isAsciiDigit c || "?$#@*!-".toList.contains c

/-- The name of the variable behind a dollar sign, and the rest; no name where there is none. -/
def takeVariable : List Char → Option (String × List Char)
  | '\x7b' :: rest =>
    match rest.span (· != '\x7d') with
    | (name, _ :: rest) =>
      if !name.isEmpty && name.all isNameChar || name.length = 1 && name.all isSpecialName then
        some (String.ofList name, rest)
      else none
    | (_, []) => none
  | c :: rest =>
    if isNameStart c then
      some (String.ofList (c :: rest.takeWhile isNameChar), rest.dropWhile isNameChar)
    else if isSpecialName c then some (String.singleton c, rest)
    else none
  | [] => none

def endsWord (c : Char) : Bool := " \t\n;&|()<>".toList.contains c

def verbatim (cs : List Char) : List Piece := cs.map Piece.char

/-- The quotes that a position is between. -/
inductive Quoting where
  | none
  | double
  deriving DecidableEq

/-- The rest of a word: its parts, whether there are quotes in it, and what follows it. The number
bounds the length. -/
def takeWord : Nat → Quoting → List Char → Except SyntaxProblem (List Piece × Bool × List Char)
  | 0, _, cs => .ok ([], false, cs)
  | _ + 1, .none, [] => .ok ([], false, [])
  | _ + 1, .double, [] => .error .openQuote
  | fuel + 1, quoting, c :: rest => do
    let add (pieces : List Piece) (quoted : Bool) (next : Quoting) (rest : List Char) :
        Except SyntaxProblem (List Piece × Bool × List Char) := do
      let (later, more, rest) ← takeWord fuel next rest
      return (pieces ++ later, quoted || more, rest)
    if c = '$' then
      match takeVariable rest with
      | some (name, rest) => add [.parameter name (quoting = .double)] false quoting rest
      | none => add [.char '$'] false quoting rest
    else if c = '"' then
      match quoting with
      | .none => add [] true .double rest
      | .double => add [] true .none rest
    else if c = '\\' then
      match rest with
      | '\n' :: rest => add [] false quoting rest
      | d :: rest =>
        if quoting = .double && !"$\x60\"\\".toList.contains d then
          add [.char '\\', .char d] false quoting rest
        else add [.char d] true quoting rest
      | [] => add [.char '\\'] false quoting []
    else if quoting = .double then add [.char c] false quoting rest
    else if c = '\'' then
      match rest.span (· != '\'') with
      | (text, _ :: rest) => add (verbatim text) true quoting rest
      | (_, []) => throw .openQuote
    else if endsWord c then return ([], false, c :: rest)
    else add [.char c] false quoting rest

/-! ### Tokens -/

/-- The sign of a redirection at the front, and the rest. -/
def takeSign? : List Char → Option (String × List Char)
  | '>' :: '>' :: rest => some (">>", rest)
  | '>' :: '&' :: rest => some (">&", rest)
  | '>' :: rest => some (">", rest)
  | '<' :: rest => some ("<", rest)
  | _ => none

/-- The operator at the front, and the rest. -/
def takeOperator? : List Char → Option (String × List Char)
  | '&' :: '&' :: rest => some ("&&", rest)
  | '|' :: '|' :: rest => some ("||", rest)
  | c :: rest => if "\n;&|()".toList.contains c then some (String.singleton c, rest) else none
  | [] => none

/-- The tokens of a script. The number bounds their count. -/
def tokens : Nat → List Char → Except SyntaxProblem (List Token)
  | 0, _ => .ok []
  | fuel + 1, cs => do
    let cs := cs.dropWhile fun c => c = ' ' || c = '\t'
    match cs with
    | [] => return []
    | c :: rest =>
      if c = '#' then tokens fuel (rest.dropWhile (· != '\n'))
      else
        let (digits, behind) := cs.span Text.isAsciiDigit
        match takeSign? behind with
        | some (sign, rest) =>
          let usual := if sign = "<" then 0 else 1
          let stream := if digits.isEmpty then usual else (String.ofList digits).toNat?.getD usual
          return .redirection stream sign :: (← tokens fuel rest)
        | none =>
          match takeOperator? cs with
          | some (text, rest) => return .operator text :: (← tokens fuel rest)
          | none =>
            let (pieces, quoted, rest) ← takeWord (cs.length + 1) .none cs
            return .word ⟨pieces, quoted⟩ :: (← tokens fuel rest)

/-! ### Scripts -/

inductive Script where
  | empty
  | simple (words : List Word) (redirections : List Redirection)
  /-- A script that runs in a shell of its own. -/
  | group (body : Script) (redirections : List Redirection)
  | inverted (script : Script)
  | pipe (left right : Script)
  /-- The second part runs when the first succeeds. -/
  | both (left right : Script)
  /-- The second part runs when the first fails. -/
  | either (left right : Script)
  | sequence (left right : Script)
  deriving Inhabited, Repr

/-- A token as it is named in messages. -/
def describe : List Token → String
  | [] => "end of file"
  | .word _ :: _ => "word"
  | .redirection _ _ :: _ => "redirection"
  | .operator "\n" :: _ => "newline"
  | .operator text :: _ => "\"" ++ text ++ "\""

def Word.isText (text : String) (word : Word) : Bool :=
  word.pieces == verbatim text.toList && !word.quoted

def Word.number? (word : Word) : Option Nat :=
  (String.ofList (word.pieces.filterMap fun piece =>
    match piece with
    | .char c => some c
    | .parameter _ _ => none)).toNat?

/-- The redirection that a sign and the word behind it denote. -/
def redirectionOf? (stream : Nat) (sign : String) (word : Word) : Option Redirection :=
  if sign = "<" then some (.input word)
  else if sign = ">" then some (.output stream false word)
  else if sign = ">>" then some (.output stream true word)
  else word.number?.map (.duplicate stream)

/-- The words and redirections at the front, and the rest. -/
def takeSimple : List Token → Except SyntaxProblem (List Word × List Redirection × List Token)
  | .word word :: rest => do
    let (words, redirections, rest) ← takeSimple rest
    return (word :: words, redirections, rest)
  | .redirection stream sign :: .word word :: rest => do
    let (words, redirections, rest) ← takeSimple rest
    match redirectionOf? stream sign word with
    | some redirection => return (words, redirection :: redirections, rest)
    | none => throw (.unexpected "word")
  | .redirection _ _ :: rest => .error (.unexpected (describe rest))
  | rest => .ok ([], [], rest)

def skipLines (ts : List Token) : List Token := ts.dropWhile (· == .operator "\n")

/-- Whether a group ends at the tokens. -/
def endsGroup : List Token → Bool
  | [] => true
  | .operator ")" :: _ => true
  | .word word :: _ => word.isText "\x7d"
  | _ => false

mutual

/-- A command. The numbers bound the depth of nesting. -/
def takeCommand : Nat → List Token → Except SyntaxProblem (Script × List Token)
  | 0, ts => .error (.unexpected (describe ts))
  | fuel + 1, ts => do
    let grouped (close : List Token → Bool) (rest : List Token) :
        Except SyntaxProblem (Script × List Token) := do
      let (body, rest) ← takeList fuel rest
      if !close rest then throw (.unexpected (describe rest))
      let (words, redirections, rest) ← takeSimple (rest.drop 1)
      if !words.isEmpty then throw (.unexpected "word")
      return (.group body redirections, rest)
    match ts with
    | .operator "(" :: rest => grouped (fun ts => ts.head? == some (.operator ")")) rest
    | .word word :: rest =>
      if word.isText "\x7b" then
        grouped (fun ts => !ts.isEmpty && ts.head? != some (.operator ")") && endsGroup ts) rest
      else if word.isText "!" then
        let (script, rest) ← takePipeline fuel rest
        return (.inverted script, rest)
      else
        let (words, redirections, rest) ← takeSimple ts
        return (.simple words redirections, rest)
    | .redirection _ _ :: _ =>
      let (words, redirections, rest) ← takeSimple ts
      return (.simple words redirections, rest)
    | _ => throw (.unexpected (describe ts))

/-- Commands that are joined by pipes. -/
def takePipeline : Nat → List Token → Except SyntaxProblem (Script × List Token)
  | 0, ts => .error (.unexpected (describe ts))
  | fuel + 1, ts => do
    let (left, rest) ← takeCommand fuel ts
    match rest with
    | .operator "|" :: rest =>
      let (right, rest) ← takePipeline fuel (skipLines rest)
      return (.pipe left right, rest)
    | _ => return (left, rest)

/-- What follows a pipeline on the condition of how it ends. -/
def takeConditions : Nat → Script → List Token → Except SyntaxProblem (Script × List Token)
  | 0, _, ts => .error (.unexpected (describe ts))
  | fuel + 1, left, ts => do
    match ts with
    | .operator "&&" :: rest =>
      let (right, rest) ← takePipeline fuel (skipLines rest)
      takeConditions fuel (.both left right) rest
    | .operator "||" :: rest =>
      let (right, rest) ← takePipeline fuel (skipLines rest)
      takeConditions fuel (.either left right) rest
    | _ => return (left, ts)

/-- Commands in a row up to the end of their group. -/
def takeList : Nat → List Token → Except SyntaxProblem (Script × List Token)
  | 0, ts => .error (.unexpected (describe ts))
  | fuel + 1, ts => do
    let ts := skipLines ts
    if endsGroup ts then return (.empty, ts)
    let (first, rest) ← takePipeline fuel ts
    let (first, rest) ← takeConditions fuel first rest
    match rest with
    | .operator ";" :: rest | .operator "\n" :: rest | .operator "&" :: rest =>
      let (later, rest) ← takeList fuel rest
      return (.sequence first later, rest)
    | _ => return (first, rest)

end

def Script.ofText (text : String) : Except SyntaxProblem Script := do
  let cs := text.toList
  let ts ← tokens (cs.length + 1) cs
  let (script, rest) ← takeList (4 * ts.length + 4) ts
  if rest.isEmpty then return script else throw (.unexpected (describe rest))

end MachinePlan.Shell
