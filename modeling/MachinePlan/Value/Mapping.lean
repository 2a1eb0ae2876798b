import MachinePlan.Value.Key

/-!
# Mappings

Look-up and insertion in a list of entries. Inserting under a key that is there already keeps the
position and the spelling of that key and replaces the value.
-/

namespace MachinePlan.Value

def lookup {α : Type} (key : Value) : List (Value × α) → Option α
  | [] => none
  | (k, v) :: rest => if same k key then some v else lookup key rest

def hasKey (key : Value) (entries : Entries) : Bool :=
  (lookup key entries).isSome

def insert {α : Type} (key : Value) (value : α) : List (Value × α) → List (Value × α)
  | [] => [(key, value)]
  | (k, v) :: rest => if same k key then (k, value) :: rest else (k, v) :: insert key value rest

def ofPairs (pairs : Entries) : Entries :=
  pairs.foldl (fun entries (k, v) => insert k v entries) []

/-- The value under a text key. -/
def get? (name : String) (entries : Entries) : Option Value :=
  lookup (.str name) entries

def getD (name : String) (entries : Entries) : Value :=
  (get? name entries).getD .null

/-- A set that holds each of the items once, in order of first occurrence. -/
def setOf (items : List Value) : List Value :=
  items.foldl (fun seen x => if seen.any fun y => same y x then seen else seen ++ [x]) []

end MachinePlan.Value
