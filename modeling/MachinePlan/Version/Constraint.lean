import MachinePlan.Failure
import MachinePlan.Version.Basic

/-!
# Version constraints

Clauses separated by commas, each a comparison and a version; a version alone asks for equality,
and blank clauses ask for nothing. The clauses are checked from left to right, and the first one
that is malformed or not satisfied decides.
-/

namespace MachinePlan.Version

/-- A comparison with a required version. -/
inductive Comparison where
  | atLeast
  | atMost
  | equal
  | different
  | above
  | below
  deriving Repr, DecidableEq

/-- Whether versions in the given order satisfy a comparison. -/
def Comparison.holds : Comparison → Ordering → Bool
  | .atLeast, o => o != .lt
  | .atMost, o => o != .gt
  | .equal, o => o == .eq
  | .different, o => o != .eq
  | .above, o => o == .gt
  | .below, o => o == .lt

/-- The comparison at the front of a clause, and what follows it. -/
def takeComparison : List Char → Comparison × List Char
  | '>' :: '=' :: rest => (.atLeast, rest)
  | '<' :: '=' :: rest => (.atMost, rest)
  | '=' :: '=' :: rest => (.equal, rest)
  | '!' :: '=' :: rest => (.different, rest)
  | '>' :: rest => (.above, rest)
  | '<' :: rest => (.below, rest)
  | '=' :: rest => (.equal, rest)
  | cs => (.equal, cs)

/-- A comparison and the text of the version it requires. -/
structure Clause where
  comparison : Comparison
  required : List Char
  deriving Repr, DecidableEq

/-- The clause that a text denotes: an optional comparison, then a dotted number, with blanks around
both. -/
def Clause.ofText? (cs : List Char) : Option Clause :=
  let (comparison, rest) := takeComparison (Text.trim cs)
  let required := rest.dropWhile Text.isBlank
  if required.head?.any Text.isDigit && takeDotted required == required then
    some ⟨comparison, required⟩
  else none

/-- The components of a version; a version with a component that is no numeral has none. -/
def components (version : String) : Except Failure (List Int) :=
  match components? version with
  | some cs => .ok cs
  | none => .error (.fault .value)

def Clause.check (version : String) (clause : Clause) : Except Failure Bool := do
  let actual ← components version
  let required ← components (String.ofList clause.required)
  return clause.comparison.holds (compare actual required)

def checkClauses (version : String) : List (List Char) → Except Failure Bool
  | [] => .ok true
  | text :: rest =>
    if (Text.trim text).isEmpty then checkClauses version rest
    else
      match Clause.ofText? text with
      | none => .error (.config (.badClause (String.ofList (Text.trim text))))
      | some clause => do
        if ← clause.check version then checkClauses version rest else return false

def satisfies (version constraint : String) : Except Failure Bool :=
  checkClauses version (Text.splitAt ',' constraint.toList)

end MachinePlan.Version
