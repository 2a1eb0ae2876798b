import MachinePlan.Hook.Basic
import MachinePlan.Text.Half
import MachinePlan.Value.Text

/-!
# The hook registry

A finite map from names to hooks, kept in ascending order of the names, and the dispatch of a row
of names over the operations of a node. Names are compared code point by code point.
-/

namespace MachinePlan

/-- Hooks under their names, in ascending order of the names. -/
structure Registry where
  hooks : List (String × Hook)
  deriving Inhabited

namespace Registry

def empty : Registry := ⟨[]⟩

/-- The hooks with one put under a name, in place of the hook that was there. -/
def insert (name : String) (hook : Hook) : List (String × Hook) → List (String × Hook)
  | [] => [(name, hook)]
  | (other, old) :: rest =>
    if name = other then (name, hook) :: rest
    else if Text.precedes name other then (name, hook) :: (other, old) :: rest
    else (other, old) :: insert name hook rest

def register (r : Registry) (name : String) (hook : Hook) : Registry :=
  ⟨insert name hook r.hooks⟩

def find? (r : Registry) (name : String) : Option Hook :=
  r.hooks.lookup name

def names (r : Registry) : List String :=
  r.hooks.map Prod.fst

/-- The hook under a name; a name that is not there is reported with those that are. -/
def get (r : Registry) (name : String) : Except Failure Hook :=
  match r.find? name with
  | some hook => .ok hook
  | none => .error (.problem (.unknownHook name r.names))

def contains (r : Registry) (name : String) : Bool :=
  (r.find? name).isSome

def size (r : Registry) : Nat :=
  r.hooks.length

def ofList (pairs : List (String × Hook)) : Registry :=
  pairs.foldl (fun r (name, hook) => r.register name hook) empty

end Registry

/-- What a dispatch leaves: the operations, the labels of the hooks that were started, and why it
ended early, if it did. -/
structure Dispatched where
  operations : List Operation
  started : List Nat
  failure : Option Failure
  deriving Inhabited

namespace Registry

/-- Start the hooks of the given names one after the other; a name without a hook, or a hook that
gives up, ends the dispatch. -/
def dispatch (r : Registry) (node : Node) : List Value → List Operation → Dispatched
  | [], ops => ⟨ops, [], none⟩
  | name :: rest, ops =>
    match name.text.bind r.get with
    | .error failure => ⟨ops, [], some failure⟩
    | .ok hook =>
      let edited := hook.edit node ops
      match edited.failure with
      | some failure => ⟨edited.operations, [hook.label], some failure⟩
      | none =>
        let later := r.dispatch node rest edited.operations
        { later with started := hook.label :: later.started }

/-- Start the hooks whose names a value yields. -/
def dispatchValue (r : Registry) (node : Node) (names : Value) (ops : List Operation) :
    Dispatched :=
  match names.elements with
  | .ok items => r.dispatch node items ops
  | .error failure => ⟨ops, [], some failure⟩

end Registry

end MachinePlan
