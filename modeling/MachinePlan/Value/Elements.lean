import MachinePlan.Failure
import MachinePlan.Text.Half
import MachinePlan.Value.Alike
import MachinePlan.Value.Mapping
import MachinePlan.Value.Ring

/-!
# Values as sequences

What a value yields when its elements are asked for one after the other: the items of a sequence,
the keys of a mapping, the characters of a text, the numbers of bytes.
-/

namespace MachinePlan.Value

def characters (s : String) : List String :=
  (Text.pieces s.toList).map String.ofList

/-- The elements of a value; values that contain nothing have none to give. -/
def elements (v : Value) : Except Failure (List Value) :=
  match v.opened with
  | .list items => .ok items
  | .tuple items => .ok items
  | .set items => .ok items
  | .map entries => .ok (entries.map Prod.fst)
  | .str s => .ok ((characters s).map .str)
  | .bytes bs => .ok (bs.map fun b => .int b.toNat)
  | _ => .error (.fault .type)

/-- The elements of a value, and none of a value that counts as nothing. -/
def elementsOrNone (v : Value) : Except Failure (List Value) :=
  if v.isTruthy then v.elements else .ok []

/-- The entries of a mapping; other values have none. -/
def entries? (v : Value) : Option Entries :=
  match v.opened with
  | .map entries => some entries
  | _ => none

def entries (v : Value) : Except Failure Entries :=
  match v.entries? with
  | some entries => .ok entries
  | none => .error (.fault .missingPart)

/-- The item at a position counted from the front, or from the end when it is negative. -/
def itemAt {α : Type} (items : List α) (i : Int) : Except Failure α :=
  let position := if i < 0 then i + items.length else i
  if position < 0 then .error (.fault .missingIndex)
  else
    match items[position.toNat]? with
    | some x => .ok x
    | none => .error (.fault .missingIndex)

def position : Value → Except Failure Int
  | .int i => .ok i
  | .bool b => .ok (boolInt b)
  | _ => .error (.fault .type)

def occursIn {α : Type} [BEq α] (part : List α) : List α → Bool
  | [] => part.isEmpty
  | x :: xs => part.isPrefixOf (x :: xs) || occursIn part xs

/-- Whether a container holds a value: a mapping as a key, a text as a part of it. -/
def contains (container v : Value) : Except Failure Bool :=
  match container.opened with
  | .map entries => if v.isHashable then .ok (hasKey v entries) else .error (.fault .type)
  | .list items => anyAlike v items
  | .tuple items => anyAlike v items
  | .set items =>
    match v with
    | .set _ => .ok false
    | _ => if v.isHashable then .ok (items.any fun x => same x v) else .error (.fault .type)
  | .str s =>
    match v with
    | .str t => .ok (occursIn (Text.codes t.toList) (Text.codes s.toList))
    | _ => .error (.fault .type)
  | .bytes bs =>
    match v with
    | .bytes part => .ok (occursIn part bs)
    | .bool b => .ok (bs.any fun x => (x.toNat : Int) == boolInt b)
    | .int i =>
      if 0 ≤ i && i < 256 then .ok (bs.any fun x => (x.toNat : Int) == i)
      else .error (.fault .value)
    | _ => .error (.fault .type)
  | _ => .error (.fault .type)

/-- The element that a container holds under a key or at a position. -/
def element (container v : Value) : Except Failure Value :=
  match container.opened with
  | .map entries =>
    if v.isHashable then
      match lookup v entries with
      | some x => .ok x
      | none => .error (.fault .missingKey)
    else .error (.fault .type)
  | .list items => do itemAt items (← v.position)
  | .tuple items => do itemAt items (← v.position)
  | .str s => do return .str (← itemAt (characters s) (← v.position))
  | .bytes bs => do return .int (← itemAt bs (← v.position)).toNat
  | _ => .error (.fault .type)

end MachinePlan.Value
