import MachinePlan.Document.Basic
import MachinePlan.Files.Basic
import MachinePlan.Merge
import MachinePlan.Value.Remade
import MachinePlan.Yaml.Value

/-!
# Loading documents

The primary file must hold a mapping. The override file may be missing or hold nothing; otherwise
its mapping is laid over that of the primary file.
-/

namespace MachinePlan

open Value

/-- The value that a file denotes, which is the document with the given number. -/
def Files.readValue (fs : Files) (source : Nat) (p : Path) : Except Failure Value := do
  let bytes ← fs.readBytes p
  match Yaml.read bytes with
  | .ok v => return v.remade source
  | .error .malformed => throw (.config (.invalidMarkup p.text (fs.readers.complaint p.text bytes)))
  | .error (.fault fault) => throw (.fault fault)

namespace Document

/-- The mapping that a file denotes; none when the file holds nothing. -/
def loadFile (fs : Files) (source : Nat) (p : Path) : Except Failure (Option Value) := do
  if !fs.exists? p then throw (.config (.missingFile p.text))
  let v ← fs.readValue source p
  if !v.isTruthy then return none
  if v.entries?.isNone then throw (.config (.fileNotMapping p.text))
  return some v

def loadPrimary (fs : Files) (p : Path) : Except Failure Value := do
  match ← loadFile fs 0 p with
  | some v => return v
  | none => throw (.config (.emptyFile p.text))

def loadOverride (fs : Files) (p : Option Path) : Except Failure (Option (Path × Value)) := do
  match p with
  | none => return none
  | some p => if fs.exists? p then return (← loadFile fs 1 p).map (p, ·) else return none

/-- The override file that is asked for by a text; an empty text asks for none. -/
def overridePath (text : Option String) : Option Path :=
  (text.filter fun s => !s.isEmpty).map Path.ofString

def load (fs : Files) (primary : Path) (override : Option Path) : Except Failure Document := do
  let base ← loadPrimary fs primary
  match ← loadOverride fs override with
  | none => ofValue base [primary]
  | some (p, upper) => ofValue (← merge base upper) [primary, p]

end Document

end MachinePlan
