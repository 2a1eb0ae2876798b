import MachinePlan.Hook.Registry

/-!
# Dispatching hooks

A dispatch starts the hooks of a row of names from left to right, each on what the one before it has
left. It ends where the names end, at a name that has no hook, or with a hook that gives up. The
rules are stated one by one in `Dispatches`, and `dispatch_iff` says that they are those of the
registry.
-/

namespace MachinePlan

/-- The rules by which a row of names comes to what its dispatch leaves. -/
inductive Dispatches (registry : Registry) (node : Node) :
    List Value → List Operation → Dispatched → Prop
  | finished (ops : List Operation) : Dispatches registry node [] ops ⟨ops, [], none⟩
  | unwritten {name : Value} {failure : Failure} (names : List Value) (ops : List Operation)
      (named : name.text = .error failure) :
      Dispatches registry node (name :: names) ops ⟨ops, [], some failure⟩
  | unknown {name : Value} {text : String} (names : List Value) (ops : List Operation)
      (named : name.text = .ok text) (absent : registry.find? text = none) :
      Dispatches registry node (name :: names) ops
        ⟨ops, [], some (.problem (.unknownHook text registry.names))⟩
  | givesUp {name : Value} {text : String} {hook : Hook} {ops last : List Operation}
      {failure : Failure} (names : List Value) (named : name.text = .ok text)
      (found : registry.find? text = some hook) (edited : hook.edit node ops = ⟨last, some failure⟩) :
      Dispatches registry node (name :: names) ops ⟨last, [hook.label], some failure⟩
  | edits {name : Value} {names : List Value} {text : String} {hook : Hook}
      {ops next : List Operation} {d : Dispatched} (named : name.text = .ok text)
      (found : registry.find? text = some hook) (edited : hook.edit node ops = ⟨next, none⟩)
      (rest : Dispatches registry node names next d) :
      Dispatches registry node (name :: names) ops { d with started := hook.label :: d.started }

variable {registry : Registry} {node : Node} {names : List Value} {ops : List Operation}
  {d : Dispatched}

theorem dispatches (registry : Registry) (node : Node) (names : List Value) (ops : List Operation) :
    Dispatches registry node names ops (registry.dispatch node names ops) := by
  induction names generalizing ops with
  | nil => exact .finished ops
  | cons name names ih =>
    rw [Registry.dispatch]
    cases named : name.text with
    | error failure => exact .unwritten names ops named
    | ok text =>
      simp only [Except.bind, Registry.get]
      cases found : registry.find? text with
      | none => exact .unknown names ops named found
      | some hook =>
        simp only
        rcases edited : hook.edit node ops with ⟨next, _ | failure⟩
        · exact .edits named found edited (ih next)
        · exact .givesUp names named found edited

theorem dispatch_iff :
    registry.dispatch node names ops = d ↔ Dispatches registry node names ops d := by
  constructor
  · rintro rfl
    exact dispatches registry node names ops
  · intro rules
    induction rules with
    | finished ops => rfl
    | unwritten names ops named => simp only [Registry.dispatch, named, Except.bind]
    | unknown names ops named absent =>
      simp only [Registry.dispatch, named, Except.bind, Registry.get, absent]
    | givesUp names named found edited =>
      simp only [Registry.dispatch, named, Except.bind, Registry.get, found, edited]
    | edits named found edited _ ih =>
      simp only [Registry.dispatch, named, Except.bind, Registry.get, found, edited, ih]

end MachinePlan
