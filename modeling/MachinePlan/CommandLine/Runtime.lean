import MachinePlan.Hook.Directory
import MachinePlan.Journal
import MachinePlan.Text.Charset

/-!
# Runtimes

What surrounds a run of the program beside files, commands and the web: the encoding of its two
outputs, the clock of the log, and the cache in which the interpreter keeps what it has made of hook
files.
-/

namespace MachinePlan

/-! ### Caches -/

/-- The place where the interpreter keeps what it makes of the files of a directory. -/
def cachePlace (directory : Location) : Location := directory ++ ["__pycache__"]

/-- The second tree is the first one with changes below a place, where the directories stay. -/
structure Files.ChangedBelow (place : Location) (before after : Files) : Prop where
  here_eq : after.here = before.here
  elsewhere : ∀ location, ¬ place <+: location → after.entry? location = before.entry? location
  directories : ∀ location, before.entry? location = some .directory →
    after.entry? location = some .directory

/-- The names of the hook files that loading comes to: all of them, up to the first that cannot be
loaded. -/
def Registry.reached (fs : Files) (directory : Path) : List String → List String
  | [] => []
  | name :: rest =>
    match fileHooks fs (directory.child name) with
    | .ok _ => name :: reached fs directory rest
    | .error _ => [name]

/-! ### Runtimes -/

structure Runtime where
  charset : Charset
  /-- Whether there is a log. -/
  logs : Bool
  /-- The times at which the records of the log are made, one after the other. -/
  stamp : Nat → String
  /-- The seconds that the run takes. -/
  elapsed : String
  /-- What is written to the error output about a record that the output cannot encode. -/
  mishap : LogRecord → String
  /-- The records of the library that makes the requests for a location. -/
  traffic : String → List LogRecord
  /-- The tree after the file with a name in a directory has been run. -/
  cache : Location → String → Files → Files
  cached : ∀ directory name (fs : Files),
    fs.ChangedBelow (cachePlace directory) (cache directory name fs)

namespace Runtime

/-- A runtime with outputs that encode everything, without a log and without a cache. -/
def plain : Runtime where
  charset := .full
  logs := false
  stamp _ := ""
  elapsed := ""
  mishap _ := ""
  traffic _ := []
  cache _ _ fs := fs
  cached _ _ _ := ⟨rfl, fun _ _ => rfl, fun _ there => there⟩

/-- The tree after the hook files of a directory have been run. -/
def afterHooks (rt : Runtime) (directory : Path) (fs : Files) : Files :=
  match fs.locate directory, fs.isDirectory directory with
  | .ok place, true =>
    (Registry.reached fs directory ((fs.names directory).filter Registry.isHookFile)).foldl
      (fun after name => rt.cache place name after) fs
  | _, _ => fs

def line (rt : Runtime) (n : Nat) (r : LogRecord) : String :=
  s!"{rt.stamp n} [{r.level.name}] {r.message}\n"

end Runtime

end MachinePlan
