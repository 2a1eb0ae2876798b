import MachinePlan.Value.Elements
import MachinePlan.Value.Text

/-!
# Keys and arguments

Keys in keyword form, and argument descriptors flattened into one list of arguments.
-/

namespace MachinePlan.Compile

open Value

/-- A key in keyword form: its text with underscores for hyphens. -/
def normalizeKey (key : Value) : Except Failure String := do
  return String.ofList ((← key.text).toList.map fun c => if c = '-' then '_' else c)

def normalizedPairs : Entries → Except Failure Entries
  | [] => .ok []
  | (k, v) :: rest => do
    let name ← normalizeKey k
    return (.str name, v) :: (← normalizedPairs rest)

/-- The entries under their keys in keyword form. Of keys that become equal the first gives the
position and the last the value; the values are not touched. -/
def normalizeKeys (params : Entries) : Except Failure Entries := do
  return ofPairs (← normalizedPairs params)

/-- The arguments of one descriptor: its name, then its value; other elements give none. -/
def descriptorArguments (descriptor : Value) : List Value :=
  match descriptor.entries? with
  | some entries => (get? "name" entries).toList ++ (get? "value" entries).toList
  | none => []

def flattenArguments (descriptors : List Value) : List Value :=
  descriptors.flatMap descriptorArguments

def normalizeArguments (descriptors : Value) : Except Failure (List Value) := do
  return flattenArguments (← descriptors.elementsOrNone)

end MachinePlan.Compile
