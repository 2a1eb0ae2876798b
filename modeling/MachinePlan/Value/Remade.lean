import MachinePlan.Value.Ring

/-!
# Values made anew

A document that is read once more makes an equal value, but nothing in it is a part of the value
that was made before: its rings and its NaNs are others. Only the one NaN that all documents share
stays the same.
-/

namespace MachinePlan

/-- The same place in a document that is read `n` documents later. -/
def Origin.remade (n : Nat) (o : Origin) : Origin := if o = shared then o else o.later n

/-- The number with another origin, if it is a NaN. -/
def Binary64.renamed (f : Option Origin → Option Origin) : Binary64 → Binary64
  | .nan origin => .nan (f origin)
  | x => x

namespace Value

mutual

/-- The value with other origins of its NaNs. -/
def renamed (f : Option Origin → Option Origin) : Value → Value
  | .float x => .float (x.renamed f)
  | .list items => .list (renamedItems f items)
  | .map entries => .map (renamedEntries f entries)
  | .tuple items => .tuple (renamedItems f items)
  | .set items => .set (renamedItems f items)
  | .ring o v => .ring o (renamed f v)
  | v => v

def renamedItems (f : Option Origin → Option Origin) : List Value → List Value
  | [] => []
  | v :: rest => renamed f v :: renamedItems f rest

def renamedEntries (f : Option Origin → Option Origin) : Entries → Entries
  | [] => []
  | (k, v) :: rest => (renamed f k, renamed f v) :: renamedEntries f rest

end

/-- The value as it is made `n` documents later. -/
def remade (n : Nat) (v : Value) : Value :=
  copied n (v.renamed fun origin => origin.map (Origin.remade n))

end Value

end MachinePlan
