import MachinePlan.Text.Digit

/-!
# Tags

The kinds of nodes. A node names its tag or leaves it open; the tag of a plain scalar that leaves
it open is told from the form of its text.
-/

namespace MachinePlan.Yaml

inductive Tag where
  | null
  | bool
  | int
  | float
  | binary
  | timestamp
  | str
  | seq
  | map
  | set
  /-- A sequence of pairs, each written as a mapping with one entry. -/
  | pairs
  /-- The key of the mappings whose entries are taken over. -/
  | merge
  /-- The key of the scalar that stands for its mapping. -/
  | value
  | unknown
  deriving Inhabited, Repr, DecidableEq

namespace Tag

/-- What the tags of the standard begin with. -/
def standardStem : String := "tag:yaml.org,2002:"

/-- The tags of the standard that denote something, and the two special keys. -/
def standard : List (String × Tag) :=
  [("null", .null), ("bool", .bool), ("int", .int), ("float", .float), ("binary", .binary),
    ("timestamp", .timestamp), ("str", .str), ("seq", .seq), ("map", .map), ("set", .set),
    ("omap", .pairs), ("pairs", .pairs), ("merge", .merge), ("value", .value)]

def ofName (name : String) : Tag :=
  match standard.find? fun (word, _) => standardStem ++ word == name with
  | some (_, tag) => tag
  | none => .unknown

/-- The tags of the nodes that have contents of their own. -/
def isContainer : Tag → Bool
  | .seq | .map | .set | .pairs => true
  | _ => false

end Tag

/-! ### Forms of plain scalars

Each function takes a part of a text off its front and yields the rest, if the part is there. -/

/-- Digits and underscores. -/
def isDigitOrGap (c : Char) : Bool := Text.isAsciiDigit c || c = '_'

def skipSign : List Char → List Char
  | '-' :: rest => rest
  | '+' :: rest => rest
  | cs => cs

/-- The text behind a digit that `p` admits and the digits and gaps after it. -/
def skipNumber? (p : Char → Bool) : List Char → Option (List Char)
  | c :: rest => if p c then some (rest.dropWhile isDigitOrGap) else none
  | [] => none

/-- The text behind groups of one or two digits below sixty, each behind a colon; `some` says that
there was one. -/
def skipSixties (found : Bool) : List Char → Option (List Char)
  | ':' :: a :: b :: rest =>
    if Text.isAsciiDigit a then
      if Text.isAsciiDigit b then if a ≤ '5' then skipSixties true rest else none
      else skipSixties true (b :: rest)
    else none
  | [':', a] => if Text.isAsciiDigit a then some [] else none
  | cs => if found then some cs else none

def isExponent : List Char → Bool
  | [] => true
  | e :: sign :: d :: rest =>
    (e = 'e' || e = 'E') && (sign = '-' || sign = '+') && (d :: rest).all Text.isAsciiDigit
  | _ => false

def isFloatForm (cs : List Char) : Bool :=
  let body := skipSign cs
  let decimal :=
    match skipNumber? Text.isAsciiDigit body with
    | some ('.' :: rest) => isExponent (rest.dropWhile isDigitOrGap)
    | some rest =>
      match skipSixties false rest with
      | some ('.' :: rest) => rest.all isDigitOrGap
      | _ => false
    | none => false
  let bare :=
    match cs with
    | '.' :: rest => (skipNumber? Text.isAsciiDigit rest).any isExponent
    | _ => false
  decimal || bare || [".inf", ".Inf", ".INF"].contains (String.ofList body) ||
    [".nan", ".NaN", ".NAN"].contains (String.ofList cs)

def isHexDigit (c : Char) : Bool :=
  Text.isAsciiDigit c || ('a' ≤ c && c ≤ 'f') || ('A' ≤ c && c ≤ 'F')

/-- A whole number in one of the bases. -/
def isIntForm (cs : List Char) : Bool :=
  match skipSign cs with
  | ['0'] => true
  | '0' :: 'b' :: rest => !rest.isEmpty && rest.all fun c => c = '0' || c = '1' || c = '_'
  | '0' :: 'x' :: rest => !rest.isEmpty && rest.all fun c => isHexDigit c || c = '_'
  | '0' :: rest => rest.all fun c => ('0' ≤ c && c ≤ '7') || c = '_'
  | body =>
    match skipNumber? (fun c => '1' ≤ c && c ≤ '9') body with
    | some [] => true
    | some rest => skipSixties false rest == some []
    | none => false

def boolWords : List String :=
  ["yes", "Yes", "YES", "no", "No", "NO", "true", "True", "TRUE", "false", "False", "FALSE", "on",
    "On", "ON", "off", "Off", "OFF"]

def nullWords : List String := ["~", "null", "Null", "NULL"]

/-! ### Dates and times -/

/-- The parts of a time of day: hour, minute, second, the digits of the fraction. -/
structure ClockText where
  hour : Nat
  minute : Nat
  second : Nat
  fraction : List Char
  /-- The distance from universal time in minutes. -/
  offset : Option Int

/-- The parts of a date, with or without a time of day. -/
structure StampText where
  year : Nat
  month : Nat
  day : Nat
  /-- Whether month and day have two digits. -/
  isPadded : Bool
  clock : Option ClockText

def digitsNat (ds : List Char) : Nat :=
  ds.foldl (fun n c => n * 10 + (c.toNat - '0'.toNat)) 0

/-- A number of `least` to `most` digits, how many digits it has, and the rest. -/
def takeDigits? (least most : Nat) (cs : List Char) : Option (Nat × Nat × List Char) :=
  let ds := (cs.take most).takeWhile Text.isAsciiDigit
  if least ≤ ds.length then some (digitsNat ds, ds.length, cs.drop ds.length) else none

def skip? (c : Char) : List Char → Option (List Char)
  | [] => none
  | x :: rest => if x = c then some rest else none

/-- The offset at the end of a time of day; none is written as nothing. -/
def offset? (cs : List Char) : Option (Option Int) :=
  match cs with
  | [] => some none
  | _ =>
    match cs.dropWhile fun c => c = ' ' || c = '\t' with
    | ['Z'] => some (some 0)
    | sign :: rest => do
      if sign ≠ '-' && sign ≠ '+' then none
      let (hours, _, rest) ← takeDigits? 1 2 rest
      let minutes ←
        match rest with
        | [] => some 0
        | _ => do
          let (minutes, _, rest) ← takeDigits? 2 2 (← skip? ':' rest)
          if rest.isEmpty then some minutes else none
      let distance : Int := (hours * 60 + minutes : Nat)
      return some (if sign = '-' then -distance else distance)
    | [] => none

/-- The time of day in the whole of a text. -/
def clock? (cs : List Char) : Option ClockText := do
  let (hour, _, cs) ← takeDigits? 1 2 cs
  let (minute, _, cs) ← takeDigits? 2 2 (← skip? ':' cs)
  let (second, _, cs) ← takeDigits? 2 2 (← skip? ':' cs)
  let (fraction, cs) :=
    match cs with
    | '.' :: rest => (rest.takeWhile Text.isAsciiDigit, rest.dropWhile Text.isAsciiDigit)
    | _ => ([], cs)
  return ⟨hour, minute, second, fraction, ← offset? cs⟩

/-- The text behind what separates a date from its time of day. -/
def skipDateEnd? : List Char → Option (List Char)
  | c :: rest =>
    if c = 'T' || c = 't' then some rest
    else if c = ' ' || c = '\t' then some (rest.dropWhile fun c => c = ' ' || c = '\t')
    else none
  | [] => none

/-- The date, with or without a time of day, in the whole of a text. -/
def stamp? (cs : List Char) : Option StampText := do
  let (year, _, cs) ← takeDigits? 4 4 cs
  let (month, monthWidth, cs) ← takeDigits? 1 2 (← skip? '-' cs)
  let (day, dayWidth, cs) ← takeDigits? 1 2 (← skip? '-' cs)
  let isPadded := monthWidth = 2 && dayWidth = 2
  if cs.isEmpty then return ⟨year, month, day, isPadded, none⟩
  return ⟨year, month, day, isPadded, some (← clock? (← skipDateEnd? cs))⟩

/-- A date with two digits for month and day, or a date with a time of day. -/
def isStampForm (cs : List Char) : Bool :=
  (stamp? cs).any fun stamp => stamp.clock.isSome || stamp.isPadded

/-! ### The tag of a form -/

/-- The text without a line feed at its end, unless it is nothing but that. -/
def dropFinalFeed (cs : List Char) : List Char :=
  match cs.reverse with
  | '\n' :: rest => if rest.isEmpty then cs else rest.reverse
  | _ => cs

/-- The tag of a plain scalar. -/
def Tag.ofPlain (text : String) : Tag :=
  let cs := dropFinalFeed text.toList
  let word := String.ofList cs
  if text.isEmpty || nullWords.contains word then .null
  else if boolWords.contains word then .bool
  else if isFloatForm cs then .float
  else if isIntForm cs then .int
  else if isStampForm cs then .timestamp
  else if word = "<<" then .merge
  else if word = "=" then .value
  else if ["!", "&", "*"].contains word then .unknown
  else .str

end MachinePlan.Yaml
