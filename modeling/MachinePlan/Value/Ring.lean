import MachinePlan.Value.Basic

/-!
# Containers that hold themselves

A container that comes back below itself is a finite value with places that stand for it. `opened`
looks into such a container: what it holds becomes a value of its own, in which those places are
filled in again. A value without rings is opened as it is.
-/

namespace MachinePlan.Value

def form : Value → Form
  | .map _ => .map
  | .tuple _ => .tuple
  | .ring _ v => form v
  | .again _ f => f
  | _ => .list

/-! ### Looking inside -/

mutual

/-- The value as it stands inside the ring of an origin: that ring comes back there. -/
def within (o : Origin) : Value → Value
  | .ring p v => if p = o then .again o v.form else .ring p (within o v)
  | .list items => .list (withinItems o items)
  | .tuple items => .tuple (withinItems o items)
  | .map entries => .map (withinEntries o entries)
  | v => v

def withinItems (o : Origin) : List Value → List Value
  | [] => []
  | v :: rest => within o v :: withinItems o rest

def withinEntries (o : Origin) : Entries → Entries
  | [] => []
  | (k, v) :: rest => (k, within o v) :: withinEntries o rest

end

mutual

/-- The value with `whole` in the places where the ring of an origin comes back. -/
def filled (o : Origin) (whole : Value) : Value → Value
  | .again p f => if p = o then whole else .again p f
  | .ring p v => .ring p (filled o (within p whole) v)
  | .list items => .list (filledItems o whole items)
  | .tuple items => .tuple (filledItems o whole items)
  | .map entries => .map (filledEntries o whole entries)
  | v => v

def filledItems (o : Origin) (whole : Value) : List Value → List Value
  | [] => []
  | v :: rest => filled o whole v :: filledItems o whole rest

def filledEntries (o : Origin) (whole : Value) : Entries → Entries
  | [] => []
  | (k, v) :: rest => (k, filled o whole v) :: filledEntries o whole rest

end

/-- The value, and of a ring what it holds. -/
def opened : Value → Value
  | .ring o v => filled o (.ring o v) v
  | v => v

/-! ### Values without end -/

mutual

/-- Whether a value holds a container that holds itself. -/
def isEndless : Value → Bool
  | .ring _ _ => true
  | .again _ _ => true
  | .list items => anyEndless items
  | .tuple items => anyEndless items
  | .map entries => anyEntryEndless entries
  | _ => false

def anyEndless : List Value → Bool
  | [] => false
  | v :: rest => isEndless v || anyEndless rest

def anyEntryEndless : Entries → Bool
  | [] => false
  | (_, v) :: rest => isEndless v || anyEntryEndless rest

end

/-! ### Rings that are broken

A ring can lose the places where it comes back when entries are replaced. -/

mutual

/-- Whether a container around the value comes back in it; those inside are known by their origins.
-/
def comesBack (inside : List Origin) : Value → Bool
  | .again o _ => !inside.contains o
  | .ring o v => comesBack (o :: inside) v
  | .list items => anyComesBack inside items
  | .tuple items => anyComesBack inside items
  | .map entries => anyEntryComesBack inside entries
  | _ => false

def anyComesBack (inside : List Origin) : List Value → Bool
  | [] => false
  | v :: rest => comesBack inside v || anyComesBack inside rest

def anyEntryComesBack (inside : List Origin) : Entries → Bool
  | [] => false
  | (_, v) :: rest => comesBack inside v || anyEntryComesBack inside rest

end

mutual

/-- The value with its broken rings as plain containers. -/
def tidied : Value → Value
  | .ring o v => if comesBack [] v then .ring o (tidied v) else tidied v
  | .list items => .list (tidiedItems items)
  | .tuple items => .tuple (tidiedItems items)
  | .map entries => .map (tidiedEntries entries)
  | v => v

def tidiedItems : List Value → List Value
  | [] => []
  | v :: rest => tidied v :: tidiedItems rest

def tidiedEntries : Entries → Entries
  | [] => []
  | (k, v) :: rest => (k, tidied v) :: tidiedEntries rest

end

/-! ### Copies -/

mutual

/-- The number of the first document that no ring of the value comes from. -/
def freeSource : Value → Nat
  | .ring o v => max (o.source + 1) (freeSource v)
  | .again o _ => o.source + 1
  | .list items => freeSourceOfItems items
  | .tuple items => freeSourceOfItems items
  | .map entries => freeSourceOfEntries entries
  | _ => 0

def freeSourceOfItems : List Value → Nat
  | [] => 0
  | v :: rest => max (freeSource v) (freeSourceOfItems rest)

def freeSourceOfEntries : Entries → Nat
  | [] => 0
  | (_, v) :: rest => max (freeSource v) (freeSourceOfEntries rest)

end

mutual

/-- A copy whose rings come from documents `n` numbers later, so that they are not those of the
value. -/
def copied (n : Nat) : Value → Value
  | .ring o v => .ring (o.later n) (copied n v)
  | .again o f => .again (o.later n) f
  | .list items => .list (copiedItems n items)
  | .tuple items => .tuple (copiedItems n items)
  | .map entries => .map (copiedEntries n entries)
  | v => v

def copiedItems (n : Nat) : List Value → List Value
  | [] => []
  | v :: rest => copied n v :: copiedItems n rest

def copiedEntries (n : Nat) : Entries → Entries
  | [] => []
  | (k, v) :: rest => (k, copied n v) :: copiedEntries n rest

end

end MachinePlan.Value
