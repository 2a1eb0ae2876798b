import MachinePlan.Value.Basic

/-!
# Keys

When two values are the same key, and which values can be keys at all. Numbers are compared by
their exact value, so `1`, `1.0` and `true` are one key.
-/

namespace MachinePlan.Value

/-- The whole number that a truth value counts as. -/
def boolInt (b : Bool) : Int := if b then 1 else 0

/-- Equality of two values that contain no others. -/
def sameAtom : Value → Value → Bool
  | .null, .null => true
  | .bool a, .bool b => a == b
  | .bool a, .int j => boolInt a == j
  | .bool a, .float y => y.sameInt (boolInt a)
  | .int i, .bool b => i == boolInt b
  | .int i, .int j => i == j
  | .int i, .float y => y.sameInt i
  | .float x, .bool b => x.sameInt (boolInt b)
  | .float x, .int j => x.sameInt j
  | .float x, .float y => x.same y
  | .str a, .str b => a == b
  | .date a, .date b => a == b
  | .datetime a, .datetime b => a.same b
  | .bytes a, .bytes b => a == b
  | _, _ => false

mutual

/-- Equality of values: numbers by value, sequences item by item, mappings and sets without regard
to order. -/
def same : Value → Value → Bool
  | .list xs, .list ys => sameItems xs ys
  | .tuple xs, .tuple ys => sameItems xs ys
  | .map es, .map fs => es.length == fs.length && sameEntries es fs
  | .set xs, .set ys => xs.length == ys.length && allIn xs ys
  | a, b => sameAtom a b
termination_by structural a => a

def sameItems : List Value → List Value → Bool
  | [], [] => true
  | x :: xs, y :: ys => same x y && sameItems xs ys
  | _, _ => false
termination_by structural xs => xs

/-- Every entry of the first list has an equal one in the second. -/
def sameEntries : Entries → Entries → Bool
  | [], _ => true
  | (k, v) :: es, fs => (fs.any fun (l, w) => same k l && same v w) && sameEntries es fs
termination_by structural es => es

/-- Every item of the first list has an equal one in the second. -/
def allIn : List Value → List Value → Bool
  | [], _ => true
  | x :: xs, ys => (ys.any fun y => same x y) && allIn xs ys
termination_by structural xs => xs

end

mutual

/-- A value that can be a key: one that holds no list, mapping or set. -/
def isHashable : Value → Bool
  | .list _ => false
  | .map _ => false
  | .set _ => false
  | .ring _ _ => false
  | .again _ _ => false
  | .tuple items => allHashable items
  | _ => true

def allHashable : List Value → Bool
  | [] => true
  | x :: xs => isHashable x && allHashable xs

end

end MachinePlan.Value
