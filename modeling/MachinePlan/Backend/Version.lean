import MachinePlan.Backend.Basic
import MachinePlan.Version.Constraint

/-!
# The version of a backend

A backend is accepted when the first dotted number in what it says about its version satisfies the
constraint.
-/

namespace MachinePlan.Backend

variable {σ : Type}

/-- What a backend said, as it is quoted in messages. -/
def quotedOutput (output : String) : String :=
  let words := Text.strip output
  if words.isEmpty then "no output" else words

/-- The version that an output names, if it satisfies the constraint. -/
def acceptVersion (name output constraint : String) : Except Failure String :=
  match Version.ofOutput? output with
  | none => .error (.problem (.version (.unknown name (quotedOutput output) constraint)))
  | some version => do
    if ← Version.satisfies version constraint then return version
    else throw (.problem (.version (.unsupported name version constraint)))

def checkVersion (b : Backend σ) (constraint : String) : Step σ String := do
  let output ← b.version
  acceptVersion b.name output constraint

end MachinePlan.Backend
