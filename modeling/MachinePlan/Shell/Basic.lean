import MachinePlan.Files.Change
import MachinePlan.Shell.Program
import MachinePlan.Shell.Syntax

/-!
# The shell

Running scripts over a file tree. Writing to a stream appends to an output of the shell, to its
error output or to a file; a script ends early by leaving the shell or by a signal.
-/

namespace MachinePlan.Shell

/-- How a shell ends. -/
inductive Ending where
  | exit (status : Nat)
  | signal (number : Nat)
  deriving Repr, DecidableEq

/-- Where a stream leads. -/
inductive Sink where
  | output
  | errors
  | nowhere
  | file (location : Location)
  deriving Repr, DecidableEq

structure Streams where
  input : List UInt8 := []
  output : Sink := .output
  errors : Sink := .errors

structure State where
  files : Files
  values : List (String × String)
  arguments : List String
  status : Nat := 0
  output : List UInt8 := []
  errors : List UInt8 := []
  slept : Nat := 0
  ending : Option Ending := none

namespace State

def emit (s : State) (sink : Sink) (bytes : List UInt8) : State :=
  match sink with
  | .output => { s with output := s.output ++ bytes }
  | .errors => { s with errors := s.errors ++ bytes }
  | .nowhere => s
  | .file location =>
    let old :=
      match s.files.entry? location with
      | some (.file old) => old
      | _ => []
    { s with files := s.files.put location (.file (old ++ bytes)) }

/-- Fail with a message of the shell. -/
def complain (s : State) (streams : Streams) (status : Nat) (message : String) : State :=
  { s.emit streams.errors (bytesOf ("sh: 1: " ++ message ++ "\n")) with status }

/-- The number under which a shell knows itself. -/
def ownNumber : String := "4242"

/-- The value of a variable; one that is not set is empty. -/
def value (s : State) (name : String) : String :=
  if name = "?" then toString s.status
  else if name = "$" then ownNumber
  else if name = "#" then toString (s.arguments.length - 1)
  else if name = "@" || name = "*" then " ".intercalate (s.arguments.drop 1)
  else if name = "PWD" then s.files.herePath.text
  else
    match name.toNat? with
    | some n => s.arguments.getD n ""
    | none => (s.values.lookup name).getD ""

def assign (s : State) (name text : String) : State :=
  { s with values := (name, text) :: s.values.filter fun (other, _) => other != name }

end State

/-! ### Words -/

/-- The characters of a word, each with whether it may separate words. -/
def expand (s : State) (word : Word) : List (Char × Bool) :=
  word.pieces.flatMap fun piece =>
    match piece with
    | .char c => [(c, false)]
    | .parameter name quoted => (s.value name).toList.map (·, !quoted)

/-- A blank that separates words. -/
def separates (c : Char × Bool) : Bool :=
  c.2 && (c.1 = ' ' || c.1 = '\t' || c.1 = '\n')

/-- The words between separating blanks, with empty ones between neighbouring blanks. -/
def splitFields : List (Char × Bool) → List (List Char)
  | [] => [[]]
  | c :: rest =>
    if separates c then [] :: splitFields rest
    else
      match splitFields rest with
      | [] => [[c.1]]
      | field :: more => (c.1 :: field) :: more

/-- The arguments that a word expands to. -/
def fields (s : State) (word : Word) : List String :=
  let cs := expand s word
  if cs.isEmpty then (if word.quoted then [""] else [])
  else ((splitFields cs).filter fun field => !field.isEmpty).map String.ofList

def expandText (s : State) (word : Word) : String := String.ofList ((expand s word).map Prod.fst)

/-- The name at the front of a word that is an assignment, and the rest of the word. -/
def assignment? (word : Word) : Option (String × Word) :=
  let name := word.pieces.takeWhile fun piece =>
    match piece with
    | .char c => isNameChar c
    | .parameter _ _ => false
  let name := name.filterMap fun piece =>
    match piece with
    | .char c => some c
    | .parameter _ _ => none
  match word.pieces.drop name.length with
  | .char '=' :: rest =>
    if name.head?.any isNameStart then some (String.ofList name, { word with pieces := rest })
    else none
  | _ => none

/-! ### Redirections -/

/-- Where a stream of the given number leads. -/
def sinkOf (streams : Streams) (stream : Nat) : Sink :=
  if stream = 2 then streams.errors else streams.output

/-- The streams with one of them led elsewhere. -/
def lead (streams : Streams) (stream : Nat) (sink : Sink) : Streams :=
  if stream = 2 then { streams with errors := sink }
  else if stream = 1 then { streams with output := sink }
  else streams

/-- The devices that swallow output or stand for the outputs of the shell. -/
def device? (name : String) : Option Sink :=
  if name = "/dev/null" then some .nowhere
  else if name = "/dev/stdout" then some .output
  else if name = "/dev/stderr" then some .errors
  else none

/-- A file made ready for writing; an existing one is emptied unless it is to be continued. -/
def openFile (fs : Files) (append : Bool) (name : String) : Except String (Files × Location) :=
  let refusal (reason : String) := s!"cannot create {name}: {reason}"
  match fs.locate (Path.ofString name) with
  | .error _ => .error (refusal "Directory nonexistent")
  | .ok location =>
    match fs.entry? location, fs.entry? location.dropLast with
    | some .directory, _ => .error (refusal "Is a directory")
    | some entry, _ => .ok (if append then fs.put location entry else fs.put location (.file []), location)
    | none, some .directory => .ok (fs.put location (.file []), location)
    | none, _ => .error (refusal "Directory nonexistent")

/-- Lead the streams of a command as its redirections say. -/
def redirect (streams : Streams) : List Redirection → State → Except State (Streams × State)
  | [], s => .ok (streams, s)
  | .duplicate stream other :: rest, s =>
    redirect (lead streams stream (sinkOf streams other)) rest s
  | .output stream append target :: rest, s =>
    let name := expandText s target
    match device? name with
    | some sink => redirect (lead streams stream sink) rest s
    | none =>
      match openFile s.files append name with
      | .ok (files, location) =>
        redirect (lead streams stream (.file location)) rest { s with files }
      | .error message => .error (s.complain streams 2 message)
  | .input source :: rest, s =>
    let name := expandText s source
    if name = "/dev/null" then redirect { streams with input := [] } rest s
    else
      match s.files.find? (Path.ofString name) with
      | some (.file bytes) => redirect { streams with input := bytes } rest s
      | some .directory => redirect { streams with input := [] } rest s
      | _ => .error (s.complain streams 2 s!"cannot open {name}: No such file")

/-! ### Commands -/

/-- The numbers of signals by name. -/
def signalNumber? (name : String) : Option Nat :=
  match name.toNat? with
  | some n => some n
  | none =>
    ([("HUP", 1), ("INT", 2), ("QUIT", 3), ("ABRT", 6), ("KILL", 9), ("USR1", 10), ("SEGV", 11),
      ("USR2", 12), ("PIPE", 13), ("ALRM", 14), ("TERM", 15)] : List (String × Nat)).lookup name

/-- Send a signal to the shell itself. -/
def kill (s : State) (streams : Streams) (arguments : List String) : State :=
  let (signal, target) :=
    match arguments with
    | ["-s", name, target] => (signalNumber? name, target)
    | [option, target] => (signalNumber? (String.ofList (option.toList.drop 1)), target)
    | [target] => (some 15, target)
    | _ => (none, "")
  match signal with
  | some 0 => { s with status := 0 }
  | some number =>
    if target = State.ownNumber then { s with ending := some (.signal number) }
    else s.complain streams 1 "kill: No such process"
  | none => s.complain streams 2 "kill: Illegal option"

def exit (s : State) (streams : Streams) (arguments : List String) : State :=
  match arguments with
  | [] => { s with ending := some (.exit s.status) }
  | text :: _ =>
    match text.toNat? with
    | some n => { s with ending := some (.exit (n % 256)) }
    | none =>
      { s.complain streams 2 ("exit: Illegal number: " ++ text) with ending := some (.exit 2) }

def changeDirectory (s : State) (streams : Streams) (arguments : List String) : State :=
  let name := arguments.headD ""
  match s.files.locate (Path.ofString name) with
  | .ok location =>
    match s.files.entry? location with
    | some .directory => { s with files := { s.files with here := location }, status := 0 }
    | _ => s.complain streams 2 ("cd: can't cd to " ++ name)
  | .error _ => s.complain streams 2 ("cd: can't cd to " ++ name)

def condition (fs : Files) : List String → Bool
  | ["!", word] => word.isEmpty
  | ["!", test, word] => !condition fs [test, word]
  | ["!", left, test, right] => !condition fs [left, test, right]
  | ["-z", word] => word.isEmpty
  | ["-n", word] => !word.isEmpty
  | ["-e", name] => fs.exists? (Path.ofString name)
  | ["-d", name] => fs.isDirectory (Path.ofString name)
  | ["-f", name] => fs.exists? (Path.ofString name) && !fs.isDirectory (Path.ofString name)
  | [left, "=", right] => left == right
  | [left, "!=", right] => left != right
  | [left, "-eq", right] => left.toInt? == right.toInt?
  | [left, "-ne", right] => left.toInt? != right.toInt?
  | [word] => !word.isEmpty
  | _ => false

/-- A state after a program. -/
def State.after (s : State) (streams : Streams) (effect : Effect) : State :=
  let s := (s.emit streams.output effect.output).emit streams.errors effect.errors
  { s with status := effect.status, slept := s.slept + effect.slept }

def statusOf (b : Bool) : Nat := if b then 0 else 1

/-- The commands that the shell carries out itself. -/
def builtin? (s : State) (streams : Streams) (name : String) (arguments : List String) :
    Option State :=
  match name with
  | "echo" => some (s.after streams (builtinEcho arguments))
  | "printf" => some (s.after streams (printf arguments))
  | ":" | "true" => some { s with status := 0 }
  | "false" => some { s with status := 1 }
  | "exit" => some (exit s streams arguments)
  | "kill" => some (kill s streams arguments)
  | "cd" => some (changeDirectory s streams arguments)
  | "pwd" => some (s.after streams { output := bytesOf (s.files.herePath.text ++ "\n") })
  | "test" => some { s with status := statusOf (condition s.files arguments) }
  | "[" => some { s with status := statusOf (condition s.files arguments.dropLast) }
  | "export" =>
    let s := arguments.foldl (fun s word =>
      match Text.splitAt '=' word.toList with
      | name :: value :: more =>
        s.assign (String.ofList name) (String.ofList (['='].intercalate (value :: more)))
      | _ => s) s
    some { s with status := 0 }
  | _ => none

/-! ### Finding programs -/

def programDirectories : List String := ["/bin", "/usr/bin"]

/-- Why a program cannot be run. -/
inductive NoProgram where
  | missing
  | notDirectory
  | notAllowed
  deriving Repr, DecidableEq

def programNames : List String := ["sh", "echo", "true", "false", "cat", "sleep"]

/-- Whether programs are found without a directory; the search path may leave them out. -/
def searches (path : Option String) : Bool :=
  match path with
  | none => true
  | some path =>
    (Text.splitString ':' path).any fun entry =>
      programDirectories.contains (Path.ofString entry).text

/-- The name of the program that a word calls. One or two dots lead to a directory, wherever they
are searched. -/
def findProgram (fs : Files) (path : Option String) (word : String) : Except NoProgram String :=
  let p := Path.ofString word
  if word.isEmpty then .error .notAllowed
  else if !word.toList.contains '/' then
    if !searches path then .error .missing
    else if word = "." || word = ".." then .error .notAllowed
    else if programNames.contains word then .ok word
    else .error .missing
  else if programDirectories.contains p.parent.text && programNames.contains p.name then .ok p.name
  else
    match fs.locate p with
    | .error .notDirectory => .error .notDirectory
    | .error .missing => .error .missing
    | .ok location => if (fs.entry? location).isSome then .error .notAllowed else .error .missing

/-! ### Running scripts -/

/-- The status that a shell leaves to another one. -/
def State.leaveStatus (s : State) : Nat :=
  match s.ending with
  | none => s.status
  | some (.exit status) => status
  | some (.signal number) => 128 + number

/-- A shell goes on behind another one that worked for it. -/
def State.resume (s other : State) : State :=
  { s with
    files := { other.files with here := s.files.here }
    status := other.leaveStatus
    output := other.output
    errors := other.errors
    slept := other.slept }

mutual

/-- Run a script. The number bounds the depth of scripts within scripts. -/
def run : Nat → Script → Streams → State → State
  | 0, _, _, s => s
  | fuel + 1, script, streams, s =>
    if s.ending.isSome then s
    else
      match script with
      | .empty => s
      | .simple words redirections =>
        let assignments := (words.map assignment?).takeWhile Option.isSome |>.filterMap id
        let words := words.drop assignments.length
        match redirect streams redirections s with
        | .error s => s
        | .ok (streams, s) =>
          let assigned := assignments.foldl (fun s (name, word) => s.assign name (expandText s word)) s
          match words.flatMap (fields s) with
          | [] => { assigned with status := 0 }
          | name :: arguments =>
            let after := call fuel name arguments streams assigned
            { after with values := if name = "export" then after.values else s.values }
      | .group body redirections =>
        match redirect streams redirections s with
        | .error s => s
        | .ok (streams, s) => s.resume (run fuel body streams s)
      | .inverted script =>
        let s := run fuel script streams s
        { s with status := if s.status = 0 then 1 else 0 }
      | .pipe left right =>
        let first := run fuel left { streams with output := .output } { s with output := [] }
        let between := s.resume { first with output := s.output }
        between.resume (run fuel right { streams with input := first.output } between)
      | .both left right =>
        let s := run fuel left streams s
        if s.status = 0 then run fuel right streams s else s
      | .either left right =>
        let s := run fuel left streams s
        if s.status = 0 then s else run fuel right streams s
      | .sequence left right => run fuel right streams (run fuel left streams s)

/-- Run the command of a name. The command `exec` puts a program in the place of the shell. -/
def call : Nat → String → List String → Streams → State → State
  | 0, _, _, _, s => s
  | fuel + 1, name, arguments, streams, s =>
    match name, arguments with
    | "exec", [] => { s with status := 0 }
    | "exec", name :: arguments =>
      let after := launch fuel "exec: " name arguments streams s
      { after with ending := some (.exit after.leaveStatus) }
    | _, _ =>
      match builtin? s streams name arguments with
      | some s => s
      | none => launch fuel "" name arguments streams s

/-- Run the program of a name; complaints begin with the given words. -/
def launch : Nat → String → String → List String → Streams → State → State
  | 0, _, _, _, _, s => s
  | fuel + 1, lead, name, arguments, streams, s =>
    match findProgram s.files (s.values.lookup "PATH") name with
    | .error .missing => s.complain streams 127 (lead ++ name ++ ": not found")
    | .error .notDirectory => s.complain streams 127 (lead ++ name ++ ": not found")
    | .error .notAllowed => s.complain streams 126 (lead ++ name ++ ": Permission denied")
    | .ok "sh" => s.resume (start fuel arguments streams s)
    | .ok program =>
      match program? s.files streams.input program arguments with
      | some effect => s.after streams effect
      | none => s

/-- Start a shell with the given arguments. -/
def start : Nat → List String → Streams → State → State
  | 0, _, _, s => s
  | fuel + 1, arguments, streams, s =>
    let script (text : String) (arguments : List String) : State :=
      let s := { s with arguments, status := 0 }
      match Script.ofText text with
      | .ok script => run fuel script streams s
      | .error problem => s.complain streams 2 problem.message
    match arguments with
    | [] => { s with status := 0 }
    | ["-c"] =>
      { s.emit streams.errors (bytesOf "sh: 0: -c requires an argument\n") with status := 2 }
    | "-c" :: text :: rest => script text (if rest.isEmpty then ["sh"] else rest)
    | name :: rest =>
      match s.files.readText (Path.ofString name) with
      | .ok text => script (String.ofList text) (name :: rest)
      | .error _ =>
        let message := s!"sh: 0: cannot open {name}: No such file\n"
        { s.emit streams.errors (bytesOf message) with status := 2 }

end

end MachinePlan.Shell
