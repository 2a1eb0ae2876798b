import MachinePlan.Files.Basic

/-!
# Changes to the file tree

Making directories and writing files. A change that fails leaves the tree as it is, except that the
directories above a directory may have been made already.
-/

namespace MachinePlan.Files

def putEntry (location : Location) (entry : Entry) :
    List (Location × Entry) → List (Location × Entry)
  | [] => [(location, entry)]
  | (other, old) :: rest =>
    if other = location then (location, entry) :: rest
    else (other, old) :: putEntry location entry rest

/-- The tree with one place occupied anew. -/
def put (fs : Files) (location : Location) (entry : Entry) : Files :=
  { fs with entries := putEntry location entry fs.entries }

/-- The tree with directories on the way to a place. -/
def putAbove (fs : Files) (location : Location) : Files :=
  (List.range location.length).foldl (fun fs n =>
    let above := location.take n
    if (fs.entry? above).isSome then fs else fs.put above .directory) fs

/-- The tree in which a path, read from the current directory, leads to an entry. -/
def place (fs : Files) (p : Path) (entry : Entry) : Files :=
  let location := fs.here ++ p.parts
  (fs.putAbove location).put location entry

/-- A tree with an empty current directory. -/
def empty (here : Location) : Files :=
  let fs := putAbove { here, entries := [] } here
  if here.isEmpty then fs else fs.put here .directory

/-- Why a directory cannot be made. -/
inductive Obstacle where
  | unreachable (reason : Unreachable)
  | occupied
  deriving Repr, DecidableEq

def makeDirectory (fs : Files) (p : Path) : Except Obstacle Files :=
  match fs.locate p with
  | .error reason => .error (.unreachable reason)
  | .ok location =>
    match location, location.dropLast with
    | [], _ => .error .occupied
    | _, above =>
      match fs.entry? above with
      | some .directory =>
        if (fs.entry? location).isSome then .error .occupied
        else .ok (fs.put location .directory)
      | some _ => .error (.unreachable .notDirectory)
      | none => .error (.unreachable .missing)

def Obstacle.failure : Obstacle → Failure
  | .unreachable .missing => .fault .notFound
  | .unreachable .notDirectory => .fault .notDirectory
  | .occupied => .fault .fileExists

def ensureDirectory (fs : Files) (p : Path) : Except Failure Files :=
  match fs.makeDirectory p with
  | .ok fs => .ok fs
  | .error obstacle => if fs.isDirectory p then .ok fs else .error obstacle.failure

/-- Make a directory and those above it that are missing. The number bounds how many there are. -/
def ensureDirectories (p : Path) : Nat → Files → Except Failure Files
  | 0, fs => fs.ensureDirectory p
  | depth + 1, fs =>
    match fs.makeDirectory p with
    | .ok fs => .ok fs
    | .error (.unreachable .missing) => do
      let fs ← ensureDirectories p.parent depth fs
      fs.ensureDirectory p
    | .error obstacle => if fs.isDirectory p then .ok fs else .error obstacle.failure

/-- Make a directory and those above it that are missing. -/
def makeDirectories (fs : Files) (p : Path) : Except Failure Files :=
  ensureDirectories p p.parts.length fs

/-- Write a text to the file that a path leads to. -/
def writeText (fs : Files) (p : Path) (text : String) : Except Failure Files :=
  match fs.locate p with
  | .error .missing => .error (.fault .notFound)
  | .error .notDirectory => .error (.fault .notDirectory)
  | .ok location =>
    match fs.entry? location, fs.entry? location.dropLast with
    | some .directory, _ => .error (.fault .isDirectory)
    | some _, _ => .ok (fs.put location (.file text.toUTF8.toList))
    | none, some .directory => .ok (fs.put location (.file text.toUTF8.toList))
    | none, some _ => .error (.fault .notDirectory)
    | none, none => .error (.fault .notFound)

def bytesAt? (fs : Files) (location : Location) : Option (List UInt8) :=
  match fs.entry? location with
  | some (.file bytes) => some bytes
  | _ => none

/-- The files that are new or different from those of an earlier tree. -/
def changesSince (after before : Files) : List (Location × List UInt8) :=
  after.entries.filterMap fun (location, entry) =>
    match entry with
    | .file bytes => if before.bytesAt? location = some bytes then none else some (location, bytes)
    | _ => none

end MachinePlan.Files
