import MachinePlan.Value.Elements

/-!
# Merging layers

One document laid over another. Where both hold a mapping the two are merged entry by entry; at
every other place the value of the upper layer replaces that of the lower one. The entries of the
lower layer keep their order, and those of the upper layer alone follow in theirs.

`mergeEntries` says this for layers that have an end. A layer may also hold itself: a lower layer
that does so holds the merged layer afterwards, and where both layers go on without end, no merged
layer exists.
-/

namespace MachinePlan

open Value

/-! ### Layers that have an end -/

mutual

/-- What stands at a place where the upper layer holds a value, given what the lower layer holds
there, if anything. -/
def mergeAt (below : Option Value) : Value → Value
  | .map upper =>
    match below with
    | some (.map lower) => .map (mergeEntries lower upper)
    | _ => .map upper
  | value => value

/-- The entries of the lower layer with those of the upper layer laid over them. -/
def mergeEntries (base : Entries) : Entries → Entries
  | [] => base
  | (key, value) :: rest =>
    mergeEntries (insert key (mergeAt (lookup key base) value) base) rest

end

/-! ### Layers without end -/

/-- A mapping with a value put under a key. What is put in is a copy, so that no ring in it is taken
for one of the mapping. -/
def putEntry (key value base : Value) : Value :=
  let entry := copied (freeSource base) value
  match base with
  | .map entries => .map (insert key entry entries)
  | .ring o (.map entries) => .ring o (.map (insert key entry entries))
  | other => other

/-- A lower layer with entries laid over it; `meet` merges two mappings that stand at one place. -/
def layOver (meet : Value → Value → Except Failure Value) (base : Value) :
    Entries → Except Failure Value
  | [] => .ok base
  | (key, value) :: rest => do
    let below := base.entries?.bind (lookup key)
    let here ←
      match below.bind entries?, value.entries? with
      | some _, some _ => meet (below.getD .null) value
      | _, _ => pure value
    layOver meet (putEntry key here base) rest

/-- One mapping laid over another, down to a depth. -/
def mergeWithin : Nat → Value → Value → Except Failure Value
  | 0, _, _ => .error (.fault .endless)
  | depth + 1, lower, upper => layOver (mergeWithin depth) lower (upper.entries?.getD [])

/-! ### Any layers -/

/-- One value laid over another. A layer that counts as nothing is an empty mapping; any other
layer that is no mapping has no entries to give or to take. -/
def merge (base upper : Value) : Except Failure Value := do
  let lower := base.orElse (.map [])
  if upper.isTruthy then
    let laid ← upper.entries
    let entries ← lower.entries
    if lower.isEndless || upper.isEndless then
      return (← mergeWithin depthLimit lower upper).tidied
    else return .map (mergeEntries entries laid)
  else return lower

end MachinePlan
