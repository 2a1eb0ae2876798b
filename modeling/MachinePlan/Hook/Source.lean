import MachinePlan.Hook.Script
import MachinePlan.Text.Quoted
import MachinePlan.Value.Key

/-!
# Hook files

A hook file binds names, one statement after the other; a later binding of a name takes the place of
an earlier one. The hooks of the file are the functions that end up under a public name and whose
module is what the file is called at its end. A function takes for its module what the file is called
when the function is made, so a function of another module is no hook, and one of the file is none
either once the file is called something else.
-/

namespace MachinePlan

inductive HookStatement where
  /-- Bind a name to a function on nodes. Its module is given where it is not what the file is called
  at this point: that of an imported function, of one that wraps such a function, or one that the
  file assigns to it. -/
  | function (name : String) (hook : Hook) (home : Option Value)
  /-- Bind a name to what another name is bound to. -/
  | alias (name source : String)
  | value (name : String) (v : Value)
  /-- Bind a name to something new that is no function and equal to nothing else. -/
  | other (name : String)
  /-- Stop with a message. -/
  | raise (message : String)
  deriving Inhabited

def HookStatement.define (name : String) (actions : List Action) : HookStatement :=
  .function name (.ofActions 0 actions) none

/-- What names are bound to, as far as comparing tells things apart. -/
inductive Thing where
  /-- It is known by a name before the first statement. -/
  | standing (name : String)
  /-- It was made by the statement with a number. -/
  | made (statement : Nat)
  | value (v : Value)
  deriving Inhabited

def Thing.same : Thing → Thing → Bool
  | .standing name, .standing other => name == other
  | .made k, .made j => k == j
  | .value v, .value w => v.same w
  | _, _ => false

structure Bound where
  thing : Thing
  /-- The function that it is, if it is one, and the module of the function. -/
  hook : Option (Hook × Option Thing)
  deriving Inhabited

/-- The names that a file has bound. -/
abbrev Bindings := List (String × Bound)

/-- What names stand for before the first statement; no statement has made it. -/
structure Standing where
  find? : String → Option Thing
  unmade : ∀ name k, find? name ≠ some (.made k)

/-- The name under which a file finds what it is called. -/
def Standing.selfName : String := "__name__"

namespace Bindings

variable (standing : Standing)

/-- What a name stands for: what the file has bound it to, or else what it stood for before. -/
def find? (bindings : Bindings) (name : String) : Option Bound :=
  match bindings.lookup name with
  | some bound => some bound
  | none => (standing.find? name).map (⟨·, none⟩)

def bind (name : String) (bound : Bound) : Bindings → Bindings
  | [] => [(name, bound)]
  | (other, old) :: rest =>
    if other = name then (name, bound) :: rest else (other, old) :: bind name bound rest

def self (bindings : Bindings) : Option Thing :=
  (bindings.find? standing Standing.selfName).map Bound.thing

/-- The bindings after further statements of a file, of which the first has the given number, or the
message that the file stops with. -/
def run (number : Nat) (bindings : Bindings) : List HookStatement → Except String Bindings
  | [] => .ok bindings
  | .function name hook home :: rest =>
    let home := (home.map Thing.value).or (bindings.self standing)
    run (number + 1) (bind name ⟨.made number, some (hook, home)⟩ bindings) rest
  | .alias name source :: rest =>
    match bindings.find? standing source with
    | some bound => run (number + 1) (bind name bound bindings) rest
    | none => .error s!"name '{source}' is not defined"
  | .value name v :: rest => run (number + 1) (bind name ⟨.value v, none⟩ bindings) rest
  | .other name :: rest => run (number + 1) (bind name ⟨.made number, none⟩ bindings) rest
  | .raise message :: _ => .error message

def ofStatements (statements : List HookStatement) : Except String Bindings :=
  run standing 0 [] statements

def isPublic (name : String) : Bool :=
  !name.startsWith "_"

/-- The hook that a name offers: a function whose module is what the file is called. -/
def offered (bindings : Bindings) (name : String) (bound : Bound) : Option Hook :=
  match bound.hook, bindings.self standing with
  | some (hook, some home), some self => if isPublic name && home.same self then some hook else none
  | _, _ => none

def hooks (bindings : Bindings) : List (String × Hook) :=
  bindings.filterMap fun (name, bound) => (bindings.offered standing name bound).map (name, ·)

end Bindings

end MachinePlan
