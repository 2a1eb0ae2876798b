import MachinePlan.Value.Elements
import MachinePlan.Value.Text

/-!
# Box locations

Every box of the catalog with a location on the web is asked for once, in order. What goes wrong
with one box does not keep the others from being asked for.
-/

namespace MachinePlan

/-- A request for the head of a location; the timeout is passed on as it is given. -/
structure BoxRequest where
  url : String
  timeout : Value
  deriving Repr

/-- What a request is answered with. -/
inductive BoxReply where
  | status (code : Int)
  /-- The request broke off. It may count as a failed connection, as a timeout, or as both. -/
  | brokenOff (connection timeout : Bool) (reason : String)
  deriving Repr, DecidableEq

/-- What the check of a catalog has done and found, and why it ended early, if it did. -/
structure BoxFindings where
  requests : List BoxRequest := []
  errors : List String := []
  failure : Option Failure := none
  deriving Repr

namespace BoxFindings

/-- A location that is asked for; others are files. -/
def isWeb (url : String) : Bool :=
  url.startsWith "http://" || url.startsWith "https://"

/-- What is wrong with a box, if anything. -/
def problem? (box url : String) : BoxReply → Option String
  | .status code =>
    if 400 ≤ code then some s!"Box URL for '{box}' returned {code}\n  URL: {url}" else none
  | .brokenOff true _ _ =>
    some (s!"Cannot connect to box URL for '{box}'\n  URL: {url}\n" ++
      "  Check: host is online and reachable from this machine")
  | .brokenOff false true _ => some s!"Timeout fetching box URL for '{box}': {url}"
  | .brokenOff false false reason => some s!"Error checking box URL for '{box}': {reason}"

/-- Check the boxes of a catalog one after the other. A location or a box without a text ends the
check; for a box that shows only after its location was asked for. -/
def ofEntries (network : String → BoxReply) (timeout : Value) : Value.Entries → BoxFindings
  | [] => {}
  | (box, location) :: rest =>
    match location.text with
    | .error failure => { failure := some failure }
    | .ok url =>
      let requests := if isWeb url then [⟨url, timeout⟩] else []
      match box.text with
      | .error failure => { requests, failure := some failure }
      | .ok name =>
        let errors := if isWeb url then (problem? name url (network url)).toList else []
        let later := ofEntries network timeout rest
        { later with requests := requests ++ later.requests, errors := errors ++ later.errors }

def ofCatalog (network : String → BoxReply) (timeout catalog : Value) : BoxFindings :=
  match catalog.entries with
  | .ok entries => ofEntries network timeout entries
  | .error failure => { failure := some failure }

/-- What is wrong with the boxes, once all of them are checked. -/
def result (found : BoxFindings) : Except Failure (List String) :=
  match found.failure with
  | some failure => .error failure
  | none => .ok found.errors

end BoxFindings

/-- The seconds that a request may take where nothing else is said. -/
def boxTimeout : Value := .float (.ofInt 10)

end MachinePlan
