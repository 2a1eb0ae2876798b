import MachinePlan.Files.Basic

/-!
# Small programs

The programs that a shell finds everywhere, as functions of their arguments, their input and the
file tree. What a program writes is a row of bytes.
-/

namespace MachinePlan.Shell

/-- What a program leaves: its status, what it has written, and the microseconds it has slept. -/
structure Effect where
  status : Nat := 0
  output : List UInt8 := []
  errors : List UInt8 := []
  slept : Nat := 0
  deriving Inhabited, Repr

def bytesOf (s : String) : List UInt8 := s.toUTF8.toList

/-- A program that writes a line to its errors and fails. -/
def complaint (status : Nat) (message : String) : Effect :=
  { status, errors := bytesOf (message ++ "\n") }

/-! ### Escapes -/

def control? (c : Char) : Option Nat :=
  (([('a', 7), ('b', 8), ('f', 12), ('n', 10), ('r', 13), ('t', 9), ('v', 11), ('\\', 92)] :
    List (Char × Nat)).lookup c)

def isOctal (c : Char) : Bool := '0' ≤ c && c ≤ '7'

/-- The byte that octal digits denote. -/
def octalByte (ds : List Char) : UInt8 :=
  (ds.foldl (fun n c => n * 8 + (c.toNat - '0'.toNat)) 0).toUInt8

def charBytes (c : Char) : List UInt8 := bytesOf (String.singleton c)

/-- The bytes of a text with escapes, and whether the escape that ends all output was met. Octal
digits stand behind a zero if `zeroed`. The number bounds the length. -/
def escapedBytes (zeroed : Bool) : Nat → List Char → List UInt8 × Bool
  | 0, _ => ([], false)
  | _ + 1, [] => ([], false)
  | fuel + 1, c :: rest =>
    let add (bytes : List UInt8) (rest : List Char) : List UInt8 × Bool :=
      let (later, ends) := escapedBytes zeroed fuel rest
      (bytes ++ later, ends)
    match c, rest with
    | '\\', d :: rest =>
      match control? d with
      | some n => add [n.toUInt8] rest
      | none =>
        if d = 'c' && zeroed then ([], true)
        else if d = '0' && zeroed then
          let digits := (rest.take 3).takeWhile isOctal
          add [octalByte digits] (rest.drop digits.length)
        else if isOctal d && !zeroed then
          let digits := d :: (rest.take 2).takeWhile isOctal
          add [octalByte digits] (rest.drop (digits.length - 1))
        else add (charBytes '\\' ++ charBytes d) rest
    | _, _ => add (charBytes c) rest

def escaped (zeroed : Bool) (cs : List Char) : List UInt8 × Bool :=
  escapedBytes zeroed (cs.length + 1) cs

/-! ### Programs -/

def spaced (words : List String) : String := " ".intercalate words

/-- The letters of the options of `echo`. -/
def isEchoOption (word : String) : Bool :=
  match word.toList with
  | '-' :: letters => !letters.isEmpty && letters.all fun c => c = 'n' || c = 'e' || c = 'E'
  | _ => false

/-- The program `echo`: options may keep the line end away and switch escapes on. -/
def echo (arguments : List String) : Effect :=
  let options := (arguments.takeWhile isEchoOption).flatMap fun word => word.toList.drop 1
  let text := spaced (arguments.dropWhile isEchoOption)
  let ending := if options.contains 'n' then [] else bytesOf "\n"
  if (options.filter (· != 'n')).getLast? = some 'e' then
    let (bytes, ends) := escaped true text.toList
    { output := if ends then bytes else bytes ++ ending }
  else { output := bytesOf text ++ ending }

/-- The command `echo` of the shell: escapes are always on, and one option is known. -/
def builtinEcho (arguments : List String) : Effect :=
  let (quiet, words) :=
    match arguments with
    | "-n" :: rest => (true, rest)
    | _ => (false, arguments)
  let (bytes, ends) := escaped true (spaced words).toList
  { output := if ends || quiet then bytes else bytes ++ bytesOf "\n" }

/-- The text of a format up to its next directive, the letter of the directive, and the rest. -/
def splitFormat (cs : List Char) : List Char × Option (Char × List Char) :=
  match cs with
  | [] => ([], none)
  | '\\' :: c :: rest =>
    let (text, directive) := splitFormat rest
    ('\\' :: c :: text, directive)
  | '%' :: '%' :: rest =>
    let (text, directive) := splitFormat rest
    ('%' :: text, directive)
  | '%' :: c :: rest => ([], some (c, rest))
  | c :: rest =>
    let (text, directive) := splitFormat rest
    (c :: text, directive)

def formatted (directive : Char) (argument : String) : List UInt8 :=
  if directive = 'b' then (escaped true argument.toList).1
  else if directive = 'c' then bytesOf (String.ofList (argument.toList.take 1))
  else if directive = 'd' || directive = 'i' then bytesOf (toString (argument.toInt?.getD 0))
  else bytesOf argument

/-- One pass over a format: the bytes, and the arguments that are left. The number bounds the count
of directives. -/
def formatOnce : Nat → List Char → List String → List UInt8 × List String
  | 0, _, arguments => ([], arguments)
  | fuel + 1, cs, arguments =>
    let (text, directive) := splitFormat cs
    let bytes := (escaped false text).1
    match directive with
    | none => (bytes, arguments)
    | some (letter, rest) =>
      let (later, left) := formatOnce fuel rest (arguments.drop 1)
      (bytes ++ formatted letter (arguments.headD "") ++ later, left)

/-- A format over all arguments. The number bounds the count of passes. -/
def formatAll (format : List Char) : Nat → List String → List UInt8
  | 0, _ => []
  | fuel + 1, arguments =>
    let (bytes, left) := formatOnce (format.length + 1) format arguments
    if left.isEmpty || left.length = arguments.length then bytes
    else bytes ++ formatAll format fuel left

/-- The command `printf`; two hyphens before the format mean nothing. -/
def printf (arguments : List String) : Effect :=
  match if arguments.head? = some "--" then arguments.drop 1 else arguments with
  | format :: rest => { output := formatAll format.toList (rest.length + 1) rest }
  | [] => complaint 2 "sh: 1: printf: usage: printf format [arg ...]"

def Effect.andThen (first second : Effect) : Effect where
  status := max first.status second.status
  output := first.output ++ second.output
  errors := first.errors ++ second.errors
  slept := first.slept + second.slept

def catFile (fs : Files) (input : List UInt8) (name : String) : Effect :=
  if name = "-" then { output := input }
  else
    match fs.find? (Path.ofString name) with
    | some (.file bytes) => { output := bytes }
    | some .directory => complaint 1 ("cat: " ++ name ++ ": Is a directory")
    | _ =>
      match fs.locate (Path.ofString name) with
      | .error .notDirectory => complaint 1 ("cat: " ++ name ++ ": Not a directory")
      | _ => complaint 1 ("cat: " ++ name ++ ": No such file or directory")

def cat (fs : Files) (input : List UInt8) (arguments : List String) : Effect :=
  if arguments.isEmpty then { output := input }
  else (arguments.map (catFile fs input)).foldl Effect.andThen {}

/-- The microseconds that a length of time denotes: a decimal number of seconds, minutes, hours or
days. -/
def microseconds? (word : String) : Option Nat :=
  let (number, unit) := word.toList.span fun c => Text.isAsciiDigit c || c = '.'
  let (whole, rest) := number.span Text.isAsciiDigit
  let fraction := rest.drop 1
  let factor :=
    if unit = [] || unit = ['s'] then some 1
    else if unit = ['m'] then some 60
    else if unit = ['h'] then some 3600
    else if unit = ['d'] then some 86400
    else none
  if (whole.isEmpty && fraction.isEmpty) || fraction.contains '.' then none
  else
    let digits := whole ++ (fraction ++ List.replicate 6 '0').take 6
    match (String.ofList digits).toNat?, factor with
    | some n, some factor => some (n * factor)
    | _, _ => none

def sleep (arguments : List String) : Effect :=
  if arguments.isEmpty then
    complaint 1 "sleep: missing operand\nTry 'sleep --help' for more information."
  else
    match arguments.find? fun word => (microseconds? word).isNone with
    | some word =>
      complaint 1 (s!"sleep: invalid time interval '{word}'\n" ++
        "Try 'sleep --help' for more information.")
    | none => { slept := (arguments.filterMap microseconds?).foldl (· + ·) 0 }

def program? (fs : Files) (input : List UInt8) (name : String) (arguments : List String) :
    Option Effect :=
  if name = "echo" then some (echo arguments)
  else if name = "true" then some {}
  else if name = "false" then some { status := 1 }
  else if name = "cat" then some (cat fs input arguments)
  else if name = "sleep" then some (sleep arguments)
  else none

end MachinePlan.Shell
