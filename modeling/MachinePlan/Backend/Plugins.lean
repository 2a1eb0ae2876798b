import MachinePlan.Backend.Basic
import MachinePlan.Value.Text

/-!
# Required plugins

The plugins that a document requires are installed in order, each once and only where the backend
does not have it. The first failed installation ends the row.
-/

namespace MachinePlan.Backend

variable {σ : Type}

def install (b : Backend σ) (plugin : Value) : Step σ Unit := do
  let name ← plugin.text
  match ← b.installPlugin plugin with
  | .ok () => return ()
  | .error failure => throw (failure.failure name)

/-- Install the plugins that are not among those installed; the result names them. -/
def installMissing (b : Backend σ) (installed : List Value) : List Value → Step σ (List Value)
  | [] => return []
  | plugin :: rest => do
    if !plugin.isHashable then throw (.fault .type)
    if isInstalled plugin installed then b.installMissing installed rest
    else
      b.install plugin
      return plugin :: (← b.installMissing (installed ++ [plugin]) rest)

/-- Install the required plugins that the backend does not have; the result names them. A backend
is not asked for its plugins where none is required. -/
def ensurePlugins (b : Backend σ) (plugins : List Value) : Step σ (List Value) := do
  if plugins.isEmpty then return []
  let installed ← b.installedPlugins
  if !installed.all Value.isHashable then throw (.fault .type)
  b.installMissing installed plugins

end MachinePlan.Backend
