import MachinePlan.Failure
import MachinePlan.Text.Line

/-!
# Reports

What the checks before a run have found, in four categories, and the report that shows it. A failed
item may have several lines; those behind the first are indented, so that marks stand only where
items begin.
-/

namespace MachinePlan

structure Checks where
  passed : List String := []
  failed : List String := []
  deriving Inhabited, Repr, DecidableEq

structure Report where
  config : Checks := {}
  backend : Checks := {}
  plugins : Checks := {}
  boxes : Checks := {}
  deriving Inhabited, Repr, DecidableEq

namespace Report

/-- The categories in order, each with its key and its title. -/
def titles : List (String × String) :=
  [("config", "Configuration"), ("backend", "Backend"), ("plugins", "Plugins"),
    ("boxes", "Box URLs")]

/-- The categories in order under their keys. -/
def categories (r : Report) : List (String × Checks) :=
  [("config", r.config), ("backend", r.backend), ("plugins", r.plugins), ("boxes", r.boxes)]

def succeeded (r : Report) : Bool :=
  r.categories.all fun (_, checks) => checks.failed.isEmpty

def passedLine (item : String) : String := "✓ " ++ item

def failedLines (item : String) : List String :=
  match Text.splitString '\n' item with
  | [] => []
  | first :: rest => ("✗ " ++ first) :: rest.map ("  " ++ ·)

/-- The lines of a category; a category without findings has none. -/
def categoryLines (title : String) (checks : Checks) : List String :=
  if checks.passed.isEmpty && checks.failed.isEmpty then []
  else
    (title ++ ":") :: checks.passed.map passedLine ++ checks.failed.flatMap failedLines ++ [""]

def heading : String := "\nPreflight checks:\n"

def closing (succeeded : Bool) : String :=
  if succeeded then "All checks passed."
  else "Some checks failed. Fix issues before running apply."

/-- The text of a report whose categories have the given lines. -/
def layout (lines : List String) (succeeded : Bool) : String :=
  "\n".intercalate (heading :: lines ++ [closing succeeded])

def text (r : Report) : String :=
  let lines := titles.flatMap fun (key, title) =>
    categoryLines title ((r.categories.lookup key).getD {})
  layout lines r.succeeded

end Report

/-! ### Findings of any origin -/

/-- Findings of one category that may be incomplete. -/
structure LooseChecks where
  passed : Option (List String)
  failed : Option (List String)
  deriving Inhabited, Repr, DecidableEq

/-- Findings under the keys of categories; other keys count only for whether anything failed. -/
abbrev Findings := List (String × LooseChecks)

namespace Findings

/-- The findings of a category, which have to be complete. -/
def complete (checks : LooseChecks) : Except Failure Checks :=
  match checks.passed, checks.failed with
  | some passed, some failed => .ok { passed, failed }
  | _, _ => .error (.fault .missingKey)

def lines (findings : Findings) : List (String × String) → Except Failure (List String)
  | [] => .ok []
  | (key, title) :: rest =>
    match findings.lookup key with
    | none => lines findings rest
    | some checks => do
      let own := Report.categoryLines title (← complete checks)
      return own ++ (← lines findings rest)

/-- Whether nothing has failed; looking stops at the first failure. -/
def succeeded : Findings → Except Failure Bool
  | [] => .ok true
  | (_, checks) :: rest =>
    match checks.failed with
    | none => .error (.fault .missingKey)
    | some [] => succeeded rest
    | some (_ :: _) => .ok false

def text (findings : Findings) : Except Failure String := do
  let own ← lines findings Report.titles
  return Report.layout own (← succeeded findings)

end Findings

end MachinePlan
