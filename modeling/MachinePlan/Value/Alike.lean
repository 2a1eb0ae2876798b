import MachinePlan.Failure
import MachinePlan.Value.Mapping
import MachinePlan.Value.Ring

/-!
# Comparing values without end

Equality of values that may hold themselves. A ring is equal to itself; two different rings are
compared part by part, and where that never ends the comparison fails. On values with an end it is
`same`.
-/

namespace MachinePlan.Value

/-- How deep a walk through values goes; a deeper one is taken to be endless. -/
def depthLimit : Nat := 1000

def alikeItems (eq : Value → Value → Except Failure Bool) :
    List Value → List Value → Except Failure Bool
  | [], [] => .ok true
  | x :: xs, y :: ys => do
    if ← eq x y then alikeItems eq xs ys else return false
  | _, _ => .ok false

/-- Whether every entry has an equal one among others. -/
def alikeEntries (eq : Value → Value → Except Failure Bool) (others : Entries) :
    Entries → Except Failure Bool
  | [] => .ok true
  | (k, v) :: rest =>
    match lookup k others with
    | some w => do
      if ← eq v w then alikeEntries eq others rest else return false
    | none => .ok false

def isOneRing : Value → Value → Bool
  | .ring o _, .ring p _ => o == p
  | _, _ => false

/-- Equality of values down to a depth. -/
def alikeWithin : Nat → Value → Value → Except Failure Bool
  | 0, _, _ => .error (.fault .endless)
  | depth + 1, a, b =>
    if isOneRing a b then .ok true
    else
      match a.opened, b.opened with
      | .list xs, .list ys =>
        if xs.length = ys.length then alikeItems (alikeWithin depth) xs ys else .ok false
      | .tuple xs, .tuple ys =>
        if xs.length = ys.length then alikeItems (alikeWithin depth) xs ys else .ok false
      | .map es, .map fs =>
        if es.length = fs.length then alikeEntries (alikeWithin depth) fs es else .ok false
      | x, y => .ok (same x y)

def alike (a b : Value) : Except Failure Bool :=
  if a.isEndless || b.isEndless then alikeWithin depthLimit a b else .ok (same a b)

def anyAlike (v : Value) : List Value → Except Failure Bool
  | [] => .ok false
  | x :: rest => do
    if ← alike x v then return true else anyAlike v rest

end MachinePlan.Value
