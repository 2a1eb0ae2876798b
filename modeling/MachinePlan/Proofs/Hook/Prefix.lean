import MachinePlan.Proofs.Hook.Dispatching
import MachinePlan.Proofs.Value.Shown
import Mathlib.Data.List.Forall2

/-!
# The hooks that a dispatch starts

A dispatch starts the hooks of a front part of its names: those before the first name that it cannot
go on from, or those up to and including the first hook that gives up, whichever comes first
(`Reaches`). What it leaves is what these hooks made of the operations one after the other, and
nothing of that is taken back. So a row of names can be dispatched piece by piece
(`dispatch_runs_prefix`).
-/

namespace MachinePlan

/-- What hooks make of operations one after the other; one that gives up counts with all it did. -/
def effects (node : Node) (hooks : List Hook) (ops : List Operation) : List Operation :=
  hooks.foldl (fun ops hook => (hook.edit node ops).operations) ops

def AllFinish (node : Node) (hooks : List Hook) (ops : List Operation) : Prop :=
  ∀ before hook after, hooks = before ++ hook :: after →
    (hook.edit node (effects node before ops)).failure = none

namespace Registry

/-- The name stands for the hook that is registered under its text. -/
def Calls (registry : Registry) (name : Value) (hook : Hook) : Prop :=
  ∃ text, name.text = .ok text ∧ registry.find? text = some hook

/-- No hook is registered under the text of the name, and the failure says so. -/
def Unknown (registry : Registry) (name : Value) (failure : Failure) : Prop :=
  ∃ text, name.text = .ok text ∧ registry.find? text = none ∧
    failure = .problem (.unknownHook text registry.names)

/-- A dispatch does not get past the name: it is unknown, or it has no text because a number in it
is too long to be written. -/
def EndsAt (registry : Registry) (name : Value) (failure : Failure) : Prop :=
  registry.Unknown name failure ∨ name.holdsLong = true ∧ failure = .fault .value

end Registry

/-- How far a dispatch gets where `ends` says at which names it ends: the hooks that it starts, and
why it ends early, if it does. -/
inductive Reaches (ends : Value → Failure → Prop) (registry : Registry) (node : Node)
    (names : List Value) (ops : List Operation) : List Hook → Option Failure → Prop
  | whole {hooks : List Hook} (called : List.Forall₂ registry.Calls names hooks)
      (finish : AllFinish node hooks ops) : Reaches ends registry node names ops hooks none
  | stops (before after : List Value) {name : Value} {hooks : List Hook} {failure : Failure}
      (split : names = before ++ name :: after) (called : List.Forall₂ registry.Calls before hooks)
      (finish : AllFinish node hooks ops) (ended : ends name failure) :
      Reaches ends registry node names ops hooks (some failure)
  | givesUp (before after : List Value) {name : Value} {hooks : List Hook} {hook : Hook}
      {failure : Failure} (split : names = before ++ name :: after)
      (called : List.Forall₂ registry.Calls before hooks) (finish : AllFinish node hooks ops)
      (last : registry.Calls name hook)
      (failed : (hook.edit node (effects node hooks ops)).failure = some failure) :
      Reaches ends registry node names ops (hooks ++ [hook]) (some failure)

namespace Dispatched

/-- A dispatch that goes on behind hooks that have been started. -/
def behind (started : List Nat) (d : Dispatched) : Dispatched :=
  { d with started := started ++ d.started }

/-- What is left when a second dispatch follows on the operations of a first one, unless that one
ended early. -/
def andThen (first : Dispatched) (next : List Operation → Dispatched) : Dispatched :=
  match first.failure with
  | some _ => first
  | none => (next first.operations).behind first.started

end Dispatched

/-- A dispatch starts exactly the hooks of a front part of its names, and can be done in pieces. -/
structure RunsPrefix (ends : Value → Failure → Prop) (registry : Registry) (node : Node)
    (names : List Value) (ops : List Operation) : Prop where
  runs : ∀ d, registry.dispatch node names ops = d ↔
    ∃ hooks, Reaches ends registry node names ops hooks d.failure ∧
      d.started = hooks.map Hook.label ∧ d.operations = effects node hooks ops
  append : ∀ more, registry.dispatch node (names ++ more) ops =
    (registry.dispatch node names ops).andThen (registry.dispatch node more)

variable {registry : Registry} {node : Node} {names before rest : List Value} {name : Value}
  {ops : List Operation} {hook : Hook} {hooks : List Hook} {failure : Failure}
  {ended : Option Failure} {d : Dispatched}

/-! ### One name -/

theorem dispatch_of_calls (calls : registry.Calls name hook)
    (finish : (hook.edit node ops).failure = none) :
    registry.dispatch node (name :: rest) ops =
      (registry.dispatch node rest (hook.edit node ops).operations).behind [hook.label] := by
  obtain ⟨text, named, found⟩ := calls
  have edited : hook.edit node ops = ⟨(hook.edit node ops).operations, none⟩ := by
    rw [← finish]
  exact dispatch_iff.mpr (.edits named found edited (dispatches registry node rest _))

theorem dispatch_of_givesUp (calls : registry.Calls name hook)
    (failed : (hook.edit node ops).failure = some failure) :
    registry.dispatch node (name :: rest) ops =
      ⟨(hook.edit node ops).operations, [hook.label], some failure⟩ := by
  obtain ⟨text, named, found⟩ := calls
  have edited : hook.edit node ops = ⟨(hook.edit node ops).operations, some failure⟩ := by
    rw [← failed]
  exact dispatch_iff.mpr (.givesUp rest named found edited)

theorem dispatch_of_endsAt (ends : registry.EndsAt name failure) :
    registry.dispatch node (name :: rest) ops = ⟨ops, [], some failure⟩ := by
  obtain ⟨text, named, absent, rfl⟩ | long := ends
  · exact dispatch_iff.mpr (.unknown rest ops named absent)
  · exact dispatch_iff.mpr (.unwritten rest ops (Value.text_eq_error.mpr long))

/-! ### Several names -/

theorem allFinish_nil (node : Node) (ops : List Operation) : AllFinish node [] ops := by
  intro before hook after split
  simp at split

theorem allFinish_cons : AllFinish node (hook :: hooks) ops ↔
    (hook.edit node ops).failure = none ∧
      AllFinish node hooks (hook.edit node ops).operations := by
  constructor
  · intro all
    refine ⟨all [] hook hooks rfl, fun before other after split => ?_⟩
    exact all (hook :: before) other after (by rw [split, List.cons_append])
  · rintro ⟨first, all⟩ before other after split
    cases before with
    | nil =>
      obtain ⟨rfl, rfl⟩ := List.cons.inj split
      exact first
    | cons head before =>
      obtain ⟨rfl, rest⟩ := List.cons.inj split
      exact all before other after rest

/-- Names whose hooks all finish are got past, and the dispatch goes on with what they left. -/
theorem dispatch_of_called (called : List.Forall₂ registry.Calls before hooks)
    (finish : AllFinish node hooks ops) (rest : List Value) :
    registry.dispatch node (before ++ rest) ops =
      (registry.dispatch node rest (effects node hooks ops)).behind (hooks.map Hook.label) := by
  induction called generalizing ops with
  | nil => rfl
  | cons calls _ ih =>
    obtain ⟨first, finish⟩ := allFinish_cons.mp finish
    rw [List.cons_append, dispatch_of_calls calls first, ih finish]
    rfl

theorem Reaches.cons {ends : Value → Failure → Prop} (calls : registry.Calls name hook)
    (first : (hook.edit node ops).failure = none)
    (rest : Reaches ends registry node names (hook.edit node ops).operations hooks ended) :
    Reaches ends registry node (name :: names) ops (hook :: hooks) ended := by
  cases rest with
  | whole called finish => exact .whole (.cons calls called) (allFinish_cons.mpr ⟨first, finish⟩)
  | stops before after split called finish atName =>
    refine .stops (name :: before) after ?_ (.cons calls called)
      (allFinish_cons.mpr ⟨first, finish⟩) atName
    rw [split, List.cons_append]
  | givesUp before after split called finish last failed =>
    rw [← List.cons_append]
    refine .givesUp (name :: before) after ?_ (.cons calls called)
      (allFinish_cons.mpr ⟨first, finish⟩) last failed
    rw [split, List.cons_append]

/-- Every dispatch gets somewhere: name by name, along its rules. -/
theorem Dispatches.reaches (rules : Dispatches registry node names ops d) :
    ∃ hooks, Reaches registry.EndsAt registry node names ops hooks d.failure ∧
      d.started = hooks.map Hook.label ∧ d.operations = effects node hooks ops := by
  induction rules with
  | finished ops => exact ⟨[], .whole .nil (allFinish_nil node ops), rfl, rfl⟩
  | unwritten names ops named =>
    have atName := Value.text_eq_error.mp named
    exact ⟨[], .stops [] names rfl .nil (allFinish_nil node ops) (.inr atName), rfl, rfl⟩
  | unknown names ops named absent =>
    have atName : registry.EndsAt _ _ := .inl ⟨_, named, absent, rfl⟩
    exact ⟨[], .stops [] names rfl .nil (allFinish_nil node ops) atName, rfl, rfl⟩
  | @givesUp name text hook ops last failure names named found edited =>
    refine ⟨[] ++ [hook], .givesUp [] names rfl .nil (allFinish_nil node ops)
      ⟨text, named, found⟩ ?_, rfl, ?_⟩
    · exact congrArg Edited.failure edited
    · exact (congrArg Edited.operations edited).symm
  | @edits name names text hook ops next d named found edited _ ih =>
    obtain ⟨hooks, reaches, started, left⟩ := ih
    obtain rfl : (hook.edit node ops).operations = next := congrArg Edited.operations edited
    have first : (hook.edit node ops).failure = none := congrArg Edited.failure edited
    refine ⟨hook :: hooks, reaches.cons ⟨text, named, found⟩ first, ?_, left⟩
    rw [List.map_cons, ← started]

/-- How far a dispatch gets says all that it leaves, and whether other names can follow. -/
theorem Reaches.dispatch (reaches : Reaches registry.EndsAt registry node names ops hooks ended)
    (more : List Value) : registry.dispatch node (names ++ more) ops =
      Dispatched.andThen ⟨effects node hooks ops, hooks.map Hook.label, ended⟩
        (registry.dispatch node more) := by
  cases reaches with
  | whole called finish => exact dispatch_of_called called finish more
  | stops before after split called finish atName =>
    rw [split, List.append_assoc, List.cons_append, dispatch_of_called called finish,
      dispatch_of_endsAt atName]
    simp [Dispatched.behind, Dispatched.andThen]
  | givesUp before after split called finish last failed =>
    rw [split, List.append_assoc, List.cons_append, dispatch_of_called called finish,
      dispatch_of_givesUp last failed]
    simp [Dispatched.behind, Dispatched.andThen, effects]

theorem Reaches.dispatch_eq (reaches : Reaches registry.EndsAt registry node names ops hooks ended) :
    registry.dispatch node names ops = ⟨effects node hooks ops, hooks.map Hook.label, ended⟩ := by
  have alone := reaches.dispatch []
  rw [List.append_nil] at alone
  rw [alone, Dispatched.andThen]
  split
  · rfl
  · rename_i finished
    obtain rfl : ended = none := finished
    simp [Registry.dispatch, Dispatched.behind]

/-- Whatever the hooks do: a dispatch starts, in order and with repetitions, the hooks of the names
before the first one that is unknown or has no text, or up to and including the first hook that gives
up, and reports that and nothing else. It leaves what the started hooks made of the operations. -/
theorem dispatch_runs_prefix (registry : Registry) (node : Node) (names : List Value)
    (ops : List Operation) : RunsPrefix registry.EndsAt registry node names ops := by
  constructor
  case runs =>
    intro d
    constructor
    · rintro rfl
      exact (dispatches registry node names ops).reaches
    · rintro ⟨hooks, reaches, started, left⟩
      rw [reaches.dispatch_eq, ← started, ← left]
  case append =>
    intro more
    obtain ⟨hooks, reaches, -⟩ := (dispatches registry node names ops).reaches
    rw [reaches.dispatch more, ← reaches.dispatch_eq]

/-- A name that has no text is not found either, but that is not what is reported. -/
theorem dispatch_runs_prefix_fails : ¬ ∀ registry node names ops,
    RunsPrefix (Registry.Unknown registry) registry node names ops := by
  intro every
  have long : (Value.int Value.numeralBound).text = .error (.fault .value) :=
    Value.text_eq_error.mpr
      ⟨by simp only [Value.holdsLong, Int.natAbs_natCast, Nat.le_refl, decide_true], rfl⟩
  have left : Registry.empty.dispatch default [.int Value.numeralBound] [] =
      ⟨[], [], some (.fault .value)⟩ := dispatch_iff.mpr (.unwritten [] [] long)
  obtain ⟨hooks, reaches, -⟩ := ((every .empty default _ []).runs _).mp left
  -- the only name is neither reported as unknown, nor does it stand for a hook
  cases reaches with
  | stops _ _ split _ _ unknown =>
    obtain ⟨text, named, absent, other⟩ := unknown
    cases other
  | givesUp _ _ _ _ _ calls =>
    obtain ⟨text, named, found⟩ := calls
    cases found

end MachinePlan
