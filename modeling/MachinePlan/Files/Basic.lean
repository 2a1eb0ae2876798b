import MachinePlan.Hook.Readers
import MachinePlan.Path

/-!
# The file tree

What stands at the places of a file tree, and where paths lead in it. Two dots lead to the place
above, but only out of a directory that is there.
-/

namespace MachinePlan

/-- A place in the tree: the names on the way from the root. -/
abbrev Location := List String

/-- What stands at a place. -/
inductive Entry where
  | directory
  | file (bytes : List UInt8)
  /-- A file of hooks, by its statements. -/
  | hooks (statements : List HookStatement)
  deriving Inhabited

/-- A file tree seen from a current directory, and the readers of its files. -/
structure Files where
  here : Location
  entries : List (Location × Entry)
  readers : Readers := .plain
  deriving Inhabited

/-- Why a path leads nowhere. -/
inductive Unreachable where
  /-- A name on the way is not there. -/
  | missing
  /-- A name on the way is a file. -/
  | notDirectory
  deriving Repr, DecidableEq

namespace Files

/-- What stands at a place; the root is always a directory. -/
def entry? (fs : Files) (location : Location) : Option Entry :=
  if location.isEmpty then some .directory else fs.entries.lookup location

/-- The place that names lead to from a place; nothing need stand there. -/
def walk (fs : Files) (location : Location) : List String → Except Unreachable Location
  | [] => .ok location
  | part :: rest =>
    match fs.entry? location with
    | some .directory =>
      fs.walk (if part = ".." then location.dropLast else location ++ [part]) rest
    | some _ => .error .notDirectory
    | none => .error .missing

/-- The place that a path leads to. -/
def locate (fs : Files) (p : Path) : Except Unreachable Location :=
  fs.walk (if p.isAbsolute then [] else fs.here) p.parts

def find? (fs : Files) (p : Path) : Option Entry :=
  match fs.locate p with
  | .ok location => fs.entry? location
  | .error _ => none

def exists? (fs : Files) (p : Path) : Bool := (fs.find? p).isSome

def isDirectory (fs : Files) (p : Path) : Bool :=
  match fs.find? p with
  | some .directory => true
  | _ => false

def herePath (fs : Files) : Path := ⟨.single, fs.here⟩

/-- The text of a path as it is seen from the root. -/
def absoluteText (fs : Files) (p : Path) : String :=
  if p.isAbsolute then p.text else fs.herePath.text ++ "/" ++ p.text

/-- The names of what stands in a directory, in ascending order. -/
def names (fs : Files) (p : Path) : List String :=
  match fs.locate p with
  | .ok location =>
    let inside := fs.entries.filterMap fun (other, _) =>
      if other.length = location.length + 1 && other.dropLast == location then other.getLast?
      else none
    inside.mergeSort fun a b => a ≤ b
  | .error _ => []

def readBytes (fs : Files) (p : Path) : Except Failure (List UInt8) :=
  match fs.find? p with
  | some (.file bytes) => .ok bytes
  | some .directory => .error (.fault .isDirectory)
  | some (.hooks _) => .error (.fault .undecodable)
  | none => .error (.fault .notFound)

/-- The text of the file that a path leads to, with its line ends as plain line feeds. -/
def readText (fs : Files) (p : Path) : Except Failure (List Char) := do
  match String.fromUTF8? ⟨(← fs.readBytes p).toArray⟩ with
  | some s => return Text.plainNewlines s.toList
  | none => throw (.fault .undecodable)

end Files

end MachinePlan
