/-!
# Origins

Where in which document something was made. Two parts of a document that have one origin are one
and the same thing, and not only equal.
-/

namespace MachinePlan

/-- The place in a row of documents at which something was made. -/
structure Origin where
  /-- The number of the document. -/
  source : Nat
  /-- The number of the node in the document. -/
  node : Nat
  /-- The number of the part of the node; zero stands for the whole node. -/
  part : Nat
  deriving Inhabited, Repr, DecidableEq

namespace Origin

/-- The origin of what all documents share. -/
def shared : Origin := ⟨0, 0, 0⟩

/-- The same place, `n` documents later. -/
def later (n : Nat) (o : Origin) : Origin := { o with source := o.source + n }

end Origin

end MachinePlan
