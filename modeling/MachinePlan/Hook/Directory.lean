import MachinePlan.Files.Basic
import MachinePlan.Hook.Registry
import MachinePlan.Hook.Standing

/-!
# Directories of hook files

The hooks of every hook file of a directory, file after file in ascending order of their names. A
file that cannot be run ends the loading, and so does one that fails to list its names; the hooks of
the files before it stay registered.
-/

namespace MachinePlan

/-- What loading leaves: the registry, and why it ended early, if it did. -/
structure LoadedHooks where
  registry : Registry
  failure : Option Failure
  deriving Inhabited

namespace Registry

def fileEnding : String := ".py"

def isHookFile (name : String) : Bool :=
  name.endsWith fileEnding && Bindings.isPublic name

def registerAll (r : Registry) (hooks : List (String × Hook)) : Registry :=
  hooks.foldl (fun r (name, hook) => r.register name hook) r

def directoryReason (fs : Files) (p : Path) : String :=
  "[Errno 21] Is a directory: " ++ String.ofList (Text.quoted (fs.absoluteText p).toList)

/-- What a hook file with a name is called while it is run. Its ending is left out, unless the name
is nothing else. -/
def called (name : String) : String :=
  let stem := if name = fileEnding then name.toList else name.toList.dropLast.dropLast.dropLast
  "boxfile_hooks_" ++ String.ofList stem

/-- What names stand for at the beginning of the file at a path. -/
def standing (fs : Files) (p : Path) : Standing :=
  .ofFile (called p.name) (fs.absoluteText p)

/-- The statements of the file at a path, or the reason why it cannot be read. -/
def fileStatements (fs : Files) (p : Path) : Except String (List HookStatement) :=
  match fs.find? p with
  | some (.hooks statements) => .ok statements
  | some .directory => .error (directoryReason fs p)
  | some (.file bytes) => fs.readers.program (fs.absoluteText p) bytes
  | none => .ok []

/-- The names that the file at a path binds, or the reason why it cannot be run. -/
def fileBindings (fs : Files) (p : Path) : Except String Bindings :=
  fileStatements fs p >>= Bindings.ofStatements (standing fs p)

def fileHooks (fs : Files) (p : Path) : Except Failure (List (String × Hook)) :=
  match fileBindings fs p with
  | .error reason => .error (.problem (.hookFile p.text reason))
  | .ok bindings =>
    match bindings.listed (standing fs p) fs.readers with
    | .error fault => .error (.fault fault)
    | .ok hooks => .ok hooks

def loadFiles (fs : Files) (directory : Path) : List String → Registry → LoadedHooks
  | [], r => ⟨r, none⟩
  | name :: rest, r =>
    match fileHooks fs (directory.child name) with
    | .ok hooks => loadFiles fs directory rest (r.registerAll hooks)
    | .error failure => ⟨r, some failure⟩

/-- Register the hooks of a directory; where no directory is there are none. What the interpreter
keeps of the files that it has run is left out here, see `Runtime.cache`. -/
def loadDirectory (r : Registry) (fs : Files) (directory : Path) : LoadedHooks :=
  if fs.isDirectory directory then
    loadFiles fs directory ((fs.names directory).filter isHookFile) r
  else ⟨r, none⟩

end Registry

def LoadedHooks.result (l : LoadedHooks) : Except Failure Registry :=
  match l.failure with
  | some failure => .error failure
  | none => .ok l.registry

end MachinePlan
