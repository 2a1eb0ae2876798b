import MachinePlan.Operation
import MachinePlan.Value.Key

/-!
# Backends

A backend is the system that makes machines out of plans. It is known only through its name and four
actions on a state; an action that fails keeps what it did to the state.
-/

namespace MachinePlan

/-- A step over a state that may fail; the state after a failure is kept. -/
abbrev Step (σ : Type) := ExceptT Failure (StateM σ)

/-- Why a backend did not install a plugin. -/
inductive InstallFailure where
  /-- The backend explains it as a failed installation. -/
  | explained (problem : PluginProblem)
  /-- Something else went wrong, with the given text. -/
  | unexplained (reason : String)
  deriving Repr, DecidableEq

/-- The failure of a run that a failed installation amounts to. -/
def InstallFailure.failure (plugin : String) : InstallFailure → Failure
  | .explained problem => .problem (.plugin problem)
  | .unexplained reason => .problem (.plugin (.failed plugin reason))

/-- A backend over a state. -/
structure Backend (σ : Type) where
  name : String
  /-- What the backend says about its version. -/
  version : StateM σ String
  /-- The plugins that it has. -/
  installedPlugins : StateM σ (List Value)
  /-- Install a plugin. -/
  installPlugin : Value → StateM σ (Except InstallFailure Unit)
  /-- Hand over a compiled plan. -/
  apply : List CompiledNode → Step σ Unit

namespace Backend

def isInstalled (plugin : Value) (installed : List Value) : Bool :=
  installed.any fun other => other.same plugin

end Backend

end MachinePlan
