import MachinePlan.Text.Digit
import MachinePlan.Text.Line
import MachinePlan.Text.Quoted

/-!
# Options

The grammar of command lines. A word that begins with a hyphen is an option: one of the known names,
a long name cut short as long as only one name begins that way, or a row of one-letter options in
one word. A value follows its option as the next word, behind an equals sign, or directly behind a
letter. All words behind two hyphens are plain.
-/

namespace MachinePlan.CommandLine

/-- An option: what it stands for, its names, and what its value is called, if it takes one. -/
structure OptionRule (α : Type) where
  key : α
  names : List String
  valueName : Option String := none
  deriving Repr, DecidableEq

/-- Which rule the words of a command line break. -/
structure Complaint where
  message : String
  deriving Repr, DecidableEq

/-- An option as it stands in a word: the name it is given under, and the text behind the name. -/
structure GivenOption (α : Type) where
  rule : OptionRule α
  name : String
  value : Option String := none
  deriving Repr, DecidableEq

inductive Word (α : Type) where
  | plain
  /-- The two hyphens behind which all words are plain. -/
  | separator
  | option (given : GivenOption α)
  | unknownOption
  deriving Repr, DecidableEq

variable {α : Type}

/-- Whether options end before a word: at a plain word, and at a separator with words behind it. -/
def Word.beginsRest (followed : Bool) : Word α → Bool
  | .plain => true
  | .separator => followed
  | .option _ | .unknownOption => false

def OptionRule.takesValue (rule : OptionRule α) : Bool := rule.valueName.isSome

/-- The names of an option as they are shown in messages. -/
def OptionRule.title (rule : OptionRule α) : String := "/".intercalate rule.names

def OptionRule.complain (rule : OptionRule α) (message : String) : Complaint :=
  ⟨s!"argument {rule.title}: {message}"⟩

def namesOf (rules : List (OptionRule α)) : List (String × OptionRule α) :=
  rules.flatMap fun rule => rule.names.map (·, rule)

/-- The parts of a text before and behind its first equals sign, if it has one. -/
def splitEquals (text : String) : Option (String × String) :=
  match text.toList.span (· != '=') with
  | (before, _ :: behind) => some (String.ofList before, String.ofList behind)
  | (_, []) => none

def isNegativeNumber (text : String) : Bool :=
  match text.toList with
  | '-' :: body =>
    let body := if body.getLast? = some '\n' then body.dropLast else body
    match body.span Text.isDigit with
    | (ds, []) => !ds.isEmpty
    | (_, '.' :: fraction) => !fraction.isEmpty && fraction.all Text.isDigit
    | _ => false
  | _ => false

/-- The options that a word may be a short form of. -/
def shortForms (rules : List (OptionRule α)) (text : String) : List (GivenOption α) :=
  let names := namesOf rules
  if text.startsWith "--" then
    let (stem, value) :=
      match splitEquals text with
      | some (stem, value) => (stem, some value)
      | none => (text, none)
    names.filterMap fun (name, rule) =>
      if name.startsWith stem then some { rule, name, value } else none
  else
    let letter := String.ofList (text.toList.take 2)
    let value := String.ofList (text.toList.drop 2)
    names.filterMap fun (name, rule) =>
      if name = letter then some { rule, name, value := some value }
      else if name.startsWith text then some { rule, name }
      else none

/-- The option that a word names exactly, perhaps with a value behind an equals sign. -/
def exactForm? (rules : List (OptionRule α)) (text : String) : Option (GivenOption α) :=
  let names := namesOf rules
  match names.lookup text, splitEquals text with
  | some rule, _ => some { rule, name := text }
  | none, some (name, value) =>
    (names.lookup name).map fun rule => { rule, name, value := some value }
  | none, none => none

def Word.ofText (rules : List (OptionRule α)) (text : String) : Except Complaint (Word α) :=
  if !text.startsWith "-" || text = "-" then .ok .plain
  else
    match exactForm? rules text with
    | some given => .ok (.option given)
    | none =>
      match shortForms rules text with
      | [given] => .ok (.option given)
      | [] =>
        if isNegativeNumber text || text.toList.contains ' ' then .ok .plain
        else .ok .unknownOption
      | forms =>
        let matching := ", ".intercalate (forms.map GivenOption.name)
        .error ⟨s!"ambiguous option: {text} could match {matching}"⟩

/-- The kinds of the words of a command line. -/
def wordsOf (rules : List (OptionRule α)) : List String → Except Complaint (List (String × Word α))
  | [] => .ok []
  | text :: rest =>
    if text = "--" then .ok ((text, .separator) :: rest.map (·, .plain))
    else do
      let word ← Word.ofText rules text
      return (text, word) :: (← wordsOf rules rest)

/-- Options in one word: those that are complete, and the last one if its value is the next word. -/
structure Cluster (α : Type) where
  complete : List (α × String)
  waiting : Option (OptionRule α) := none
  deriving Repr, DecidableEq

def ignored (rule : OptionRule α) (value : List Char) : Complaint :=
  rule.complain ("ignored explicit argument " ++ String.ofList (Text.quoted value))

/-- The value that a text behind a name stands for; two hyphens are no value. -/
def givenValue (text : List Char) : String :=
  if text = ['-', '-'] then "" else String.ofList text

/-- The options of a word whose first option has a text behind its name. The characters behind a
`short` option that takes no value are the letters of further options. -/
def clusterFrom (rules : List (OptionRule α)) (short : Bool) (rule : OptionRule α) :
    List Char → Except Complaint (Cluster α)
  | [] =>
    if rule.takesValue then .ok { complete := [(rule.key, "")] } else .error (ignored rule [])
  | letter :: rest =>
    if rule.takesValue then .ok { complete := [(rule.key, givenValue (letter :: rest))] }
    else if !short then .error (ignored rule (letter :: rest))
    else
      match (namesOf rules).lookup (String.ofList ['-', letter]), rest with
      | none, _ => .error (ignored rule (letter :: rest))
      | some next, [] =>
        if next.takesValue then .ok { complete := [(rule.key, "")], waiting := some next }
        else .ok { complete := [(rule.key, ""), (next.key, "")] }
      | some next, rest => do
        let later ← clusterFrom rules short next rest
        return { later with complete := (rule.key, "") :: later.complete }

def cluster (rules : List (OptionRule α)) (given : GivenOption α) :
    Except Complaint (Cluster α) :=
  match given.value with
  | some value => clusterFrom rules (!given.name.startsWith "--") given.rule value.toList
  | none =>
    .ok (if given.rule.takesValue then { complete := [], waiting := some given.rule }
      else { complete := [(given.rule.key, "")] })

/-- What the words of a command line say: the options with their values, in order, and the words
that are left. The reading ends early at an option that `halts`, and then `halt` is that option. -/
structure Reading (α : Type) where
  options : List (α × String)
  left : List String
  halt : Option α
  deriving Repr, DecidableEq

namespace Reading

def empty : Reading α := ⟨[], [], none⟩

/-- A reading with options before it; one of them may end it. -/
def withOptions (halts : α → Bool) (options : List (α × String)) (later : Reading α) : Reading α :=
  match options.find? fun (key, _) => halts key with
  | some (key, _) => ⟨options, [], some key⟩
  | none => { later with options := options ++ later.options }

/-- Whether one of the options ends a reading. -/
def ends (halts : α → Bool) (options : List (α × String)) : Bool :=
  options.any fun (key, _) => halts key

end Reading

/-- A reading with options and words that are left before it. An option that halts ends the reading
there. -/
def continueWith (halts : α → Bool) (options : List (α × String)) (left : List String)
    (later : Except Complaint (Reading α × List String)) :
    Except Complaint (Reading α × List String) :=
  if Reading.ends halts options then .ok (Reading.empty.withOptions halts options, [])
  else do
    let (later, unread) ← later
    return ({ later with left := left ++ later.left }.withOptions halts options, unread)

/-- Read options up to the first plain word if `stops`, and through all words otherwise. The plain
words and the unknown options on the way are left; the words that are not read come second. An
option in `waiting` takes its value from the next word; the options beside it come with it. -/
def readWords (rules : List (OptionRule α)) (halts : α → Bool) (stops : Bool)
    (waiting : Option (List (α × String) × OptionRule α)) :
    List (String × Word α) → Except Complaint (Reading α × List String)
  | [] =>
    match waiting with
    | some (_, rule) => .error (rule.complain "expected one argument")
    | none => .ok (.empty, [])
  | (text, word) :: rest =>
    match waiting, word with
    | some (before, rule), .plain =>
      continueWith halts (before ++ [(rule.key, text)]) [] (readWords rules halts stops none rest)
    | some (_, rule), _ => .error (rule.complain "expected one argument")
    | none, .option given => do
      let found ← cluster rules given
      match found.waiting with
      | some rule => readWords rules halts stops (some (found.complete, rule)) rest
      | none =>
        continueWith halts found.complete [] (readWords rules halts stops none rest)
    | none, word =>
      if stops && word.beginsRest (!rest.isEmpty) then .ok (.empty, text :: rest.map Prod.fst)
      else continueWith halts [] [text] (readWords rules halts stops none rest)

/-! ### Usage -/

/-- An option as it is shown in a usage text: its first name and its value. -/
def OptionRule.usage (rule : OptionRule α) : String :=
  let value := (rule.valueName.map (" " ++ ·)).getD ""
  "[" ++ rule.names.headD "" ++ value ++ "]"

/-- Parts laid out in lines of at most 78 characters. The first line has `used` characters already;
a part that does not fit begins a new line. -/
def fillLines (indent : String) : Nat → List String → String
  | _, [] => "\n"
  | used, part :: rest =>
    if 78 < used + 1 + part.length then
      "\n" ++ indent ++ part ++ fillLines indent (indent.length + part.length) rest
    else " " ++ part ++ fillLines indent (used + 1 + part.length) rest

def usageText (program : String) (parts : List String) : String :=
  let start := "usage: " ++ program
  start ++ fillLines (String.ofList (List.replicate (start.length + 1) ' ')) start.length parts

end MachinePlan.CommandLine
