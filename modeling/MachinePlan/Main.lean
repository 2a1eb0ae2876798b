import MachinePlan.CommandLine.Transcript

/-!
# The program

The outermost layer: it reads the files that a command line needs, lets the library answer, prints
what it leaves on both outputs and writes the files that have changed. It runs no commands, reaches no
network and keeps no log, so the library sees a host without any of them.
-/

namespace MachinePlan.Program

/-- The names on the way from the root to a path. -/
def locationOf (here : Location) (p : Path) : Location :=
  p.parts.foldl (fun location part => if part = ".." then location.dropLast else location ++ [part])
    (if p.isAbsolute then [] else here)

def readEntry (fs : Files) (p : Path) : IO Files := do
  let location := locationOf fs.here p
  let place := (← IO.currentDir) / p.text
  if ← place.isDir then return (fs.putAbove location).put location .directory
  else if ← place.pathExists then
    let bytes ← IO.FS.readBinFile place
    return (fs.putAbove location).put location (.file bytes.toList)
  else return fs

def namesIn (p : Path) : IO (List String) := do
  let place := (← IO.currentDir) / p.text
  if ← place.isDir then return (← place.readDir).toList.map fun entry => entry.fileName
  else return []

def readFiles (settings : Settings) (start : Files) : IO Files := do
  let mut fs := start
  for p in [settings.configFile, settings.localConfigFile, settings.planFile] do
    fs ← readEntry fs p
  for name in ← namesIn settings.hooksDirectory do
    fs ← readEntry fs (settings.hooksDirectory.child name)
  return fs

def writeFiles (before after : Files) : IO Unit := do
  for (location, bytes) in after.changesSince before do
    let p : Path := ⟨.single, location⟩
    IO.FS.createDirAll p.parent.text
    IO.FS.writeBinFile p.text ⟨bytes.toArray⟩

def readVariables : IO (List (String × String)) :=
  Settings.variableNames.mapM fun name => return (name, (← IO.getEnv name).getD "")

/-- Outputs that encode every character, without a log and without a cache. -/
def runtime : Runtime := { Runtime.plain with charset := .unicode }

/-- Run a command line; the result is the status of the program. -/
def run (words : List String) : IO UInt32 := do
  let words := words.map Text.spelledString
  let start := Files.empty (Path.ofString (← IO.currentDir).toString).parts
  let values ← readVariables
  let environment : Environment :=
    ⟨fun name => (values.lookup name).getD "", fun _ => .brokenOff true false "no network"⟩
  let files ←
    match Request.ofWords words with
    | .ok (.run i) =>
      readFiles (Settings.resolve i.settings environment.value start.herePath) start
    | _ => pure start
  let left := CommandLine.transcript runtime words environment ⟨files, [], []⟩
  (← IO.getStdout).putStr (Text.plainString left.output)
  (← IO.getStderr).putStr (Text.plainString left.errors)
  writeFiles files left.host.files
  match left.status with
  | .ok status => return status.toUInt32
  | .error _ => return 1

end MachinePlan.Program

def main (words : List String) : IO UInt32 := MachinePlan.Program.run words
