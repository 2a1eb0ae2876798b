import MachinePlan.Calendar
import MachinePlan.Number.Binary64

/-!
# Values

The values that a configuration document can denote. A mapping is a list of entries in the order
of their definition; that no key occurs twice is a property of how mappings are built.

A container can hold itself. It is then a `ring` of a certain origin, and `again` stands for it at
the places below where it comes back.
-/

namespace MachinePlan

/-- What a container looks like. -/
inductive Form where
  | list
  | map
  | tuple
  deriving Inhabited, Repr, DecidableEq

/-- A value of a configuration document. -/
inductive Value where
  | null
  | bool (b : Bool)
  | int (i : Int)
  | float (x : Binary64)
  | str (s : String)
  | list (items : List Value)
  | map (entries : List (Value × Value))
  | tuple (items : List Value)
  | date (d : Date)
  | datetime (t : DateTime)
  | bytes (bs : List UInt8)
  | set (items : List Value)
  /-- A container that comes back somewhere below. -/
  | ring (origin : Origin) (contents : Value)
  /-- The container of that origin around this place. -/
  | again (origin : Origin) (form : Form)
  deriving Inhabited, Repr

namespace Value

/-- The entries of a mapping. -/
abbrev Entries := List (Value × Value)

def formName : Form → String
  | .list => "list"
  | .map => "dict"
  | .tuple => "tuple"

def kindName : Value → String
  | .null => "NoneType"
  | .bool _ => "bool"
  | .int _ => "int"
  | .float _ => "float"
  | .str _ => "str"
  | .list _ => "list"
  | .map _ => "dict"
  | .tuple _ => "tuple"
  | .date _ => "date"
  | .datetime _ => "datetime"
  | .bytes _ => "bytes"
  | .set _ => "set"
  | .ring _ v => kindName v
  | .again _ form => formName form

/-- Null, false, zero and everything empty count as nothing. -/
def isTruthy : Value → Bool
  | .null => false
  | .bool b => b
  | .int i => i != 0
  | .float x => x.isNonzero
  | .str s => !s.isEmpty
  | .list items => !items.isEmpty
  | .map entries => !entries.isEmpty
  | .tuple items => !items.isEmpty
  | .date _ => true
  | .datetime _ => true
  | .bytes bs => !bs.isEmpty
  | .set items => !items.isEmpty
  | .ring _ _ => true
  | .again _ _ => true

/-- The value itself unless it counts as nothing, and `other` in its place. -/
def orElse (v other : Value) : Value :=
  if v.isTruthy then v else other

end Value

end MachinePlan
