import MachinePlan.Hook.Source
import MachinePlan.Proofs.Pairs
import Mathlib.Logic.Basic

/-!
# What a hook file offers

Which hooks a file offers can be read off its statements without running them
(`ofStatements_cases`): for each name one goes back to the statement that made the thing it stands
for, through all aliases. A file stops at the first statement that raises a message or looks up a
name that stands for nothing.
-/

namespace MachinePlan

def HookStatement.target? : HookStatement → Option String
  | .function name _ _ => some name
  | .alias name _ => some name
  | .value name _ => some name
  | .other name => some name
  | .raise _ => none

namespace HookFile

def Binds (ss : List HookStatement) (k : Nat) (name : String) : Prop :=
  ∃ s ∈ ss.take k, s.target? = some name

/-- What a name stands for after so many statements of a file: the last one of them that binds it
decides. -/
def standsFor (standing : Standing) (ss : List HookStatement) : Nat → String → Option Thing
  | 0, name => standing.find? name
  | k + 1, name =>
    match ss[k]? with
    | some (.function bound _ _) =>
      if name = bound then some (.made k) else standsFor standing ss k name
    | some (.value bound v) => if name = bound then some (.value v) else standsFor standing ss k name
    | some (.other bound) => if name = bound then some (.made k) else standsFor standing ss k name
    | some (.alias bound source) =>
      if name = bound then standsFor standing ss k source else standsFor standing ss k name
    | some (.raise _) => standsFor standing ss k name
    | none => standsFor standing ss k name

/-- A statement that a file cannot get past, and the reason. -/
inductive Halts (standing : Standing) (ss : List HookStatement) : Nat → String → Prop
  | raise {k : Nat} {message : String} (raises : ss[k]? = some (.raise message)) :
    Halts standing ss k message
  | lacks {k : Nat} {name source : String} (looksUp : ss[k]? = some (.alias name source))
    (unbound : standsFor standing ss k source = none) :
    Halts standing ss k s!"name '{source}' is not defined"

/-- All statements of a file can be run. -/
def Completes (standing : Standing) (ss : List HookStatement) : Prop :=
  ∀ k reason, ¬ Halts standing ss k reason

/-- The first statement that a file cannot get past, by its reason. -/
def StopsWith (standing : Standing) (ss : List HookStatement) (reason : String) : Prop :=
  ∃ k, Halts standing ss k reason ∧ ∀ j < k, ∀ other, ¬ Halts standing ss j other

/-- The module of a function that a statement makes: what is said there, or else what the file is
called at that point. -/
def homeOf (standing : Standing) (ss : List HookStatement) (k : Nat) (home : Option Value) :
    Option Thing :=
  (home.map Thing.value).or (standsFor standing ss k Standing.selfName)

/-- A module that is what the file is called at its end. -/
def IsSelf (standing : Standing) (ss : List HookStatement) (home : Option Thing) : Prop :=
  ∃ thing self, home = some thing ∧
    standsFor standing ss ss.length Standing.selfName = some self ∧ thing.same self = true

/-- A hook of a file under a name: at the end the public name stands for a function that a statement
of the file has made, and the module of the function is what the file is called. -/
structure Offers (standing : Standing) (ss : List HookStatement) (name : String) (hook : Hook) :
    Prop where
  isPublic : name.startsWith "_" = false
  made : ∃ k own home, ss[k]? = some (.function own hook home) ∧
    standsFor standing ss ss.length name = some (.made k) ∧
    IsSelf standing ss (homeOf standing ss k home)

variable {standing : Standing} {ss : List HookStatement} {k : Nat} {name source reason : String}
  {hook : Hook} {home : Option Thing}

theorem Halts.statement (halts : Halts standing ss k reason) :
    ss[k]? = some (.raise reason) ∨
      ∃ name source, ss[k]? = some (.alias name source) ∧ standsFor standing ss k source = none := by
  cases halts with
  | raise raises => exact .inl raises
  | lacks looksUp unbound => exact .inr ⟨_, _, looksUp, unbound⟩

theorem Halts.eq {other : String} (halts : Halts standing ss k reason) (again : Halts standing ss k other) :
    reason = other := by
  cases halts with
  | raise raises =>
    cases again with
    | raise raises' => cases raises.symm.trans raises'; rfl
    | lacks looksUp => cases raises.symm.trans looksUp
  | lacks looksUp =>
    cases again with
    | raise raises => cases looksUp.symm.trans raises
    | lacks looksUp' => cases looksUp.symm.trans looksUp'; rfl

theorem StopsWith.eq {other : String} (stops : StopsWith standing ss reason) (again : StopsWith standing ss other) :
    reason = other := by
  obtain ⟨k, halts, first⟩ := stops
  obtain ⟨j, halts', first'⟩ := again
  obtain rfl : k = j := by
    rcases Nat.lt_trichotomy k j with before | same | behind
    · exact absurd halts (first' k before reason)
    · exact same
    · exact absurd halts' (first j behind other)
  exact halts.eq halts'

/-- A function that a statement has made, and its module. -/
def functionOf (standing : Standing) (ss : List HookStatement) :
    Thing → Option (Hook × Option Thing)
  | .made k =>
    match ss[k]? with
    | some (.function _ hook home) => some (hook, homeOf standing ss k home)
    | _ => none
  | _ => none

theorem functionOf_iff {thing : Thing} :
    functionOf standing ss thing = some (hook, home) ↔
      ∃ k own given, thing = .made k ∧ ss[k]? = some (.function own hook given) ∧
        home = homeOf standing ss k given := by
  constructor
  · intro function
    cases thing with
    | made k =>
      rw [functionOf] at function
      split at function
      · next own _ given made =>
        cases function
        exact ⟨k, own, given, rfl, made, rfl⟩
      · cases function
    | standing name => cases function
    | value v => cases function
  · rintro ⟨k, own, given, rfl, made, rfl⟩
    rw [functionOf, made]

def boundOf (standing : Standing) (ss : List HookStatement) (thing : Thing) : Bound :=
  ⟨thing, functionOf standing ss thing⟩

theorem binds_succ {s : HookStatement} (next : ss[k]? = some s) (name : String) :
    Binds ss (k + 1) name ↔ s.target? = some name ∨ Binds ss k name := by
  have further : ss.take (k + 1) = ss.take k ++ [s] := by rw [List.take_add_one, next]; rfl
  simp only [Binds, further, List.mem_append, List.mem_singleton, or_and_right, exists_or,
    exists_eq_left]
  exact or_comm

theorem standsFor_function {own : String} {given : Option Value}
    (next : ss[k]? = some (.function own hook given)) (name : String) :
    standsFor standing ss (k + 1) name =
      if name = own then some (.made k) else standsFor standing ss k name := by
  rw [standsFor, next]

theorem standsFor_value {own : String} {v : Value} (next : ss[k]? = some (.value own v))
    (name : String) : standsFor standing ss (k + 1) name =
      if name = own then some (.value v) else standsFor standing ss k name := by
  rw [standsFor, next]

theorem standsFor_other {own : String} (next : ss[k]? = some (.other own)) (name : String) :
    standsFor standing ss (k + 1) name =
      if name = own then some (.made k) else standsFor standing ss k name := by
  rw [standsFor, next]

theorem standsFor_alias {own : String} (next : ss[k]? = some (.alias own source)) (name : String) :
    standsFor standing ss (k + 1) name =
      if name = own then standsFor standing ss k source else standsFor standing ss k name := by
  rw [standsFor, next]

end HookFile

namespace Bindings

open HookFile

variable {ss : List HookStatement} {k : Nat} {name other reason : String} {hook : Hook}
  {bound : Bound} {bindings : Bindings}

theorem lookup_bind (name other : String) (bound : Bound) (bindings : Bindings) :
    (bind name bound bindings).lookup other =
      if other = name then some bound else bindings.lookup other := by
  induction bindings with
  | nil => exact lookup_pair name other bound []
  | cons entry rest ih =>
    obtain ⟨first, old⟩ := entry
    rw [bind]
    by_cases here : first = name
    · rw [if_pos here, lookup_pair, lookup_pair, here]
      split <;> rfl
    · rw [if_neg here, lookup_pair, lookup_pair, ih]
      by_cases wanted : other = name
      · have elsewhere : other ≠ first := fun same => here (same.symm.trans wanted)
        rw [if_neg elsewhere, if_pos wanted, if_pos wanted]
      · rw [if_neg wanted, if_neg wanted]

theorem mem_names_bind :
    other ∈ (bind name bound bindings).map Prod.fst ↔
      other = name ∨ other ∈ bindings.map Prod.fst := by
  induction bindings with
  | nil => simp [bind]
  | cons entry rest ih =>
    obtain ⟨first, old⟩ := entry
    rw [bind]
    split
    · next here => simp [here]
    · rw [List.map_cons, List.map_cons, List.mem_cons, List.mem_cons, ih, or_left_comm]

theorem nodup_bind (distinct : (bindings.map Prod.fst).Nodup) :
    ((bind name bound bindings).map Prod.fst).Nodup := by
  induction bindings with
  | nil => exact List.nodup_cons.mpr ⟨List.not_mem_nil, .nil⟩
  | cons entry rest ih =>
    obtain ⟨first, old⟩ := entry
    obtain ⟨fresh, distinct⟩ := List.nodup_cons.mp distinct
    rw [bind]
    split
    · next here => exact List.nodup_cons.mpr ⟨here ▸ fresh, distinct⟩
    · next other =>
      refine List.nodup_cons.mpr ⟨fun member => ?_, ih distinct⟩
      rcases mem_names_bind.mp member with same | member
      · exact other same
      · exact fresh member

theorem find?_bind (name other : String) (bound : Bound) (bindings : Bindings) :
    (bind name bound bindings).find? standing other =
      if other = name then some bound else bindings.find? standing other := by
  rw [find?, find?, lookup_bind]
  by_cases here : other = name
  · rw [if_pos here, if_pos here]
  · rw [if_neg here, if_neg here]

/-! ### Running the statements -/

/-- Bindings that are those after so many statements. -/
structure After (standing : Standing) (ss : List HookStatement) (k : Nat) (bindings : Bindings) :
    Prop where
  distinct : (bindings.map Prod.fst).Nodup
  find?_eq : ∀ name, bindings.find? standing name =
    (standsFor standing ss k name).map (boundOf standing ss)
  bound_iff : ∀ name, (bindings.lookup name).isSome ↔ Binds ss k name

theorem functionOf_standing (standing : Standing) (ss : List HookStatement) {thing : Thing}
    (found : standing.find? name = some thing) : functionOf standing ss thing = none := by
  cases thing with
  | made k => exact absurd found (standing.unmade name k)
  | standing => rfl
  | value => rfl

theorem after_nothing (standing : Standing) (ss : List HookStatement) : After standing ss 0 [] := by
  refine ⟨.nil, fun name => ?_, fun name => by simp [Binds]⟩
  change (standing.find? name).map _ = (standing.find? name).map _
  refine Option.map_congr fun thing found => ?_
  rw [boundOf, functionOf_standing standing ss found]

theorem After.self_eq (after : After standing ss k bindings) :
    bindings.self standing = standsFor standing ss k Standing.selfName := by
  rw [self, after.find?_eq, Option.map_map]
  exact Option.map_id' (x := standsFor standing ss k Standing.selfName)

theorem After.bind {s : HookStatement} (after : After standing ss k bindings)
    (next : ss[k]? = some s) (target : s.target? = some name)
    (stands : ∀ other, standsFor standing ss (k + 1) other =
      if other = name then some bound.thing else standsFor standing ss k other)
    (whole : boundOf standing ss bound.thing = bound) :
    After standing ss (k + 1) (bind name bound bindings) := by
  refine ⟨nodup_bind after.distinct, fun other => ?_, fun other => ?_⟩
  · rw [find?_bind, stands, after.find?_eq]
    split
    · rw [Option.map_some, whole]
    · rfl
  · rw [binds_succ next, target, lookup_bind, Option.some.injEq, ← after.bound_iff]
    split
    · next same => simp [same]
    · next different => simp [Ne.symm different]

/-- How a file ends whose statements before the given one can be run. -/
inductive Ends (standing : Standing) (ss : List HookStatement) (k : Nat) :
    Except String Bindings → Prop
  | whole {last : Bindings} (after : After standing ss ss.length last)
    (passes : ∀ j reason, k ≤ j → ¬ Halts standing ss j reason) : Ends standing ss k (.ok last)
  | stops {j : Nat} {reason : String} (here : k ≤ j) (halts : Halts standing ss j reason)
    (first : ∀ i, k ≤ i → i < j → ∀ other, ¬ Halts standing ss i other) :
    Ends standing ss k (.error reason)

theorem Ends.earlier {r : Except String Bindings} (ends : Ends standing ss (k + 1) r)
    (passes : ∀ reason, ¬ Halts standing ss k reason) : Ends standing ss k r := by
  have later {i : Nat} (from_k : k ≤ i) (other : String) (halts : Halts standing ss i other) :
      k + 1 ≤ i := Nat.lt_of_le_of_ne from_k fun same => passes other (same ▸ halts)
  cases ends with
  | whole after rest =>
    exact .whole after fun j reason from_k halts => rest j reason (later from_k reason halts) halts
  | stops here halts first =>
    exact .stops (Nat.le_of_succ_le here) halts fun i from_k before other halts =>
      first i (later from_k other halts) before other halts

theorem ends_run (rest before : List HookStatement) (split : ss = before ++ rest)
    (after : After standing ss before.length bindings) :
    Ends standing ss before.length (run standing before.length bindings rest) := by
  -- `before` are the statements that have been run; the next one is found behind them in `ss`
  induction rest generalizing before bindings with
  | nil =>
    have ended : ss.length = before.length := by rw [split, List.append_nil]
    refine .whole (ended ▸ after) fun j reason from_k halts => ?_
    have beyond : ss[j]? = none := List.getElem?_eq_none (ended ▸ from_k)
    obtain raises | ⟨_, _, looksUp, -⟩ := halts.statement
    · cases beyond.symm.trans raises
    · cases beyond.symm.trans looksUp
  | cons s rest ih =>
    have next : ss[before.length]? = some s := by
      rw [split, List.getElem?_append_right (Nat.le_refl _), Nat.sub_self]
      rfl
    have further (bindings : Bindings) (after : After standing ss (before.length + 1) bindings) :
        Ends standing ss (before.length + 1) (run standing (before.length + 1) bindings rest) := by
      have step := ih (before ++ [s]) (by rw [split, List.append_assoc]; rfl)
        (by rwa [List.length_append])
      rwa [List.length_append] at step
    match s with
    | .raise message =>
      exact .stops (Nat.le_refl _) (.raise next) fun i from_k before => absurd before (by omega)
    | .function own hook given =>
      refine (further _ (after.bind next rfl (standsFor_function next) ?_)).earlier
        fun reason halts => ?_
      · rw [boundOf, functionOf, next, after.self_eq]
        rfl
      · obtain raises | ⟨_, _, looksUp, -⟩ := halts.statement
        · cases next.symm.trans raises
        · cases next.symm.trans looksUp
    | .value own v =>
      refine (further _ (after.bind next rfl (standsFor_value next) rfl)).earlier
        fun reason halts => ?_
      obtain raises | ⟨_, _, looksUp, -⟩ := halts.statement
      · cases next.symm.trans raises
      · cases next.symm.trans looksUp
    | .other own =>
      refine (further _ (after.bind next rfl (standsFor_other next) ?_)).earlier
        fun reason halts => ?_
      · rw [boundOf, functionOf, next]
      · obtain raises | ⟨_, _, looksUp, -⟩ := halts.statement
        · cases next.symm.trans raises
        · cases next.symm.trans looksUp
    | .alias own source =>
      have known := after.find?_eq source
      rw [run]
      cases stands : standsFor standing ss before.length source with
      | none =>
        rw [stands] at known
        rw [known]
        exact .stops (Nat.le_refl _) (.lacks next stands) fun i from_k before =>
          absurd before (by omega)
      | some p =>
        rw [stands] at known
        rw [known]
        refine (further _ (after.bind next rfl (fun other => ?_) rfl)).earlier
          fun reason halts => ?_
        · rw [standsFor_alias next, stands]
          rfl
        · obtain raises | ⟨_, _, looksUp, unbound⟩ := halts.statement
          · cases next.symm.trans raises
          · cases next.symm.trans looksUp
            cases stands.symm.trans unbound

/-! ### The hooks of a file -/

theorem offered_iff : bindings.offered standing name bound = some hook ↔
    isPublic name = true ∧ ∃ home self, bound.hook = some (hook, some home) ∧
      bindings.self standing = some self ∧ home.same self = true := by
  rw [offered]
  rcases bound.hook with _ | ⟨made, _ | home⟩
  · simp
  · simp
  · cases bindings.self standing with
    | none => simp
    | some self =>
      simp only [Bool.and_eq_true, Option.ite_none_right_eq_some, Option.some.injEq, Prod.mk.injEq]
      constructor
      · rintro ⟨⟨seen, same⟩, rfl⟩
        exact ⟨seen, home, self, ⟨rfl, rfl⟩, rfl, same⟩
      · rintro ⟨seen, _, _, ⟨rfl, rfl⟩, rfl, same⟩
        exact ⟨⟨seen, same⟩, rfl⟩

theorem lookup_of_made {j : Nat}
    (found : bindings.find? standing name =
      (standsFor standing ss k name).map (boundOf standing ss))
    (stands : standsFor standing ss k name = some (.made j)) :
    bindings.lookup name = some (boundOf standing ss (.made j)) := by
  rw [stands, Option.map_some, find?] at found
  split at found
  · next bound here => rw [here, found]
  · -- what stood for something before was made by no statement
    obtain ⟨thing, there, same⟩ := Option.map_eq_some_iff.mp found
    exact absurd (there.trans (congrArg some (congrArg Bound.thing same))) (standing.unmade name j)

/-- What is offered at the end was made by a statement of the file. -/
theorem After.mem_hooks (after : After standing ss ss.length bindings) :
    (name, hook) ∈ bindings.hooks standing ↔ Offers standing ss name hook := by
  have shown : isPublic name = true ↔ name.startsWith "_" = false := by simp [isPublic]
  constructor
  · intro member
    obtain ⟨⟨_, bound⟩, there, offers⟩ := List.mem_filterMap.mp member
    obtain ⟨_, offers, same⟩ := Option.map_eq_some_iff.mp offers
    cases same
    obtain ⟨seen, home, self, function, called, equal⟩ := offered_iff.mp offers
    have found := after.find?_eq name
    rw [find?, lookup_pair_of_mem after.distinct there] at found
    obtain ⟨thing, stands, rfl⟩ := Option.map_eq_some_iff.mp found.symm
    rw [after.self_eq] at called
    obtain ⟨k, own, given, rfl, made, known⟩ := functionOf_iff.mp function
    exact ⟨shown.mp seen, k, own, given, made, stands, home, self, known.symm, called, equal⟩
  · rintro ⟨seen, k, own, given, made, stands, home, self, known, called, equal⟩
    have found := lookup_of_made (after.find?_eq name) stands
    refine List.mem_filterMap.mpr
      ⟨_, mem_of_lookup_pair found, Option.map_eq_some_iff.mpr ⟨_, ?_, rfl⟩⟩
    refine offered_iff.mpr ⟨shown.mpr seen, home, self, ?_, after.self_eq.trans called, equal⟩
    exact functionOf_iff.mpr ⟨k, own, given, rfl, made, known.symm⟩

theorem hooks_sublist (standing : Standing) (all bindings : Bindings) :
    ((bindings.filterMap fun (name, bound) => (all.offered standing name bound).map (name, ·)).map
      Prod.fst).Sublist (bindings.map Prod.fst) := by
  induction bindings with
  | nil => exact .slnil
  | cons entry rest ih =>
    obtain ⟨name, bound⟩ := entry
    rw [List.filterMap_cons]
    cases offers : all.offered standing name bound with
    | none =>
      simp only [offers, Option.map_none]
      exact .cons name ih
    | some hook =>
      simp only [offers, Option.map_some]
      exact .cons_cons name ih

theorem After.hooks_nodup (after : After standing ss k bindings) :
    ((bindings.hooks standing).map Prod.fst).Nodup :=
  after.distinct.sublist (hooks_sublist standing bindings bindings)

/-- A file either stops with a reason, or it offers what its statements say. -/
theorem ofStatements_cases (standing : Standing) (ss : List HookStatement) :
    (∃ last, ofStatements standing ss = .ok last ∧ Completes standing ss ∧
        After standing ss ss.length last) ∨
      ∃ reason, ofStatements standing ss = .error reason ∧ StopsWith standing ss reason := by
  have ends := ends_run ss [] rfl (after_nothing standing ss)
  rw [ofStatements]
  cases ran : run standing 0 [] ss with
  | ok last =>
    rw [List.length_nil, ran] at ends
    cases ends with
    | whole after passes =>
      exact .inl ⟨last, rfl, fun k reason => passes k reason (Nat.zero_le k), after⟩
  | error reason =>
    rw [List.length_nil, ran] at ends
    cases ends with
    | stops _ halts first =>
      exact .inr ⟨reason, rfl, _, halts, fun i before => first i (Nat.zero_le i) before⟩

end Bindings

end MachinePlan
