import MachinePlan.Failure

/-!
# Printing line by line

Output that is made while it is printed. Where a line cannot be made, the lines before it have been
printed already.
-/

namespace MachinePlan

/-- What has been printed, and why the printing ended early, if it did. -/
structure Printout where
  output : String
  failure : Option Failure := none

namespace Printout

def line (text : String) : String := text ++ "\n"

/-- Print lines up to the first that cannot be made. -/
def ofLines : List (Except Failure String) → Printout
  | [] => ⟨"", none⟩
  | .ok text :: rest =>
    let later := ofLines rest
    { later with output := line text ++ later.output }
  | .error failure :: _ => ⟨"", some failure⟩

end Printout

end MachinePlan
