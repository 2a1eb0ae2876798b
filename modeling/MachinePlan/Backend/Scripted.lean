import MachinePlan.Backend.Basic

/-!
# Scripted backends

A backend whose answers are written down, and whose state is the row of actions asked of it.
-/

namespace MachinePlan

/-- An action that a backend was asked for. -/
inductive BackendEvent where
  | version
  | installedPlugins
  | installPlugin (plugin : Value)
  | apply (nodes : List String)
  deriving Repr

/-- The answers of a scripted backend. Installing a plugin does not change them. -/
structure BackendScript where
  name : String
  version : String
  plugins : List Value
  /-- The plugins whose installation fails, and how. -/
  failures : List (Value × InstallFailure)

namespace BackendScript

/-- The answer to the installation of a plugin. -/
def installResult (script : BackendScript) (plugin : Value) : Except InstallFailure Unit :=
  match script.failures.find? fun (other, _) => other.same plugin with
  | some (_, failure) => .error failure
  | none => .ok ()

def note (event : BackendEvent) : StateM (List BackendEvent) Unit :=
  modify (· ++ [event])

def backend (script : BackendScript) : Backend (List BackendEvent) where
  name := script.name
  version := do
    note .version
    return script.version
  installedPlugins := do
    note .installedPlugins
    return script.plugins
  installPlugin plugin := do
    note (.installPlugin plugin)
    return script.installResult plugin
  apply nodes := note (.apply (nodes.map CompiledNode.name))

end BackendScript

end MachinePlan
