import MachinePlan.Backend.Basic

/-!
# Outcomes

The ways in which a sequence of steps ends: with a result exactly when its first step has one and
the rest has one from there, and otherwise with the first failure. A step over a state is known by
its outcome together with the state that it leaves.
-/

namespace MachinePlan

variable {α β ε : Type}

theorem ok_bind (a : α) (next : α → Except ε β) : (Except.ok a >>= next) = next a := rfl

theorem bind_eq_ok {first : Except ε α} {next : α → Except ε β} {b : β} :
    (first >>= next) = .ok b ↔ ∃ a, first = .ok a ∧ next a = .ok b := by
  cases first with
  | error failure => simp [bind, Except.bind]
  | ok a => simp [bind, Except.bind]

theorem bind_eq_error {first : Except ε α} {next : α → Except ε β} {failure : ε} :
    (first >>= next) = .error failure ↔
      first = .error failure ∨ ∃ a, first = .ok a ∧ next a = .error failure := by
  cases first with
  | error other => simp [bind, Except.bind]
  | ok a => simp [bind, Except.bind]

theorem map_eq_ok {f : α → β} {r : Except ε α} {b : β} :
    r.map f = .ok b ↔ ∃ a, r = .ok a ∧ f a = b := by
  cases r <;> simp [Except.map]

theorem bind_map {γ : Type} (r : Except ε α) (f : α → β) (next : β → Except ε γ) :
    (r.map f >>= next) = r >>= fun a => next (f a) := by
  cases r <;> rfl

theorem map_bind {γ : Type} (r : Except ε α) (next : α → Except ε β) (f : β → γ) :
    (r >>= next).map f = r >>= fun a => (next a).map f := by
  cases r <;> rfl

theorem exists_of_isOk {r : Except ε α} (made : r.isOk = true) : ∃ a, r = .ok a := by
  cases r with
  | ok a => exact ⟨a, rfl⟩
  | error => cases made

/-- An end that can be told to the user: a result with a property, or a problem in words. -/
inductive Explained (P : α → Prop) : Except Failure α → Prop
  | ok {a : α} (holds : P a) : Explained P (.ok a)
  | problem (p : Problem) : Explained P (.error (.problem p))

namespace Explained

variable {P : α → Prop} {Q : β → Prop} {r : Except Failure α}

theorem bind {next : α → Except Failure β} (first : Explained P r)
    (rest : ∀ a, P a → Explained Q (next a)) : Explained Q (r >>= next) := by
  cases first with
  | ok holds => exact rest _ holds
  | problem p => exact .problem p

theorem map {f : α → β} (ended : Explained P r) (next : ∀ a, P a → Q (f a)) :
    Explained Q (r.map f) := by
  cases ended with
  | ok holds => exact .ok (next _ holds)
  | problem p => exact .problem p

theorem iff_exists : Explained P r ↔ (∃ a, r = .ok a ∧ P a) ∨ ∃ p, r = .error (.problem p) := by
  constructor
  · rintro (⟨holds⟩ | ⟨p⟩)
    · exact .inl ⟨_, rfl, holds⟩
    · exact .inr ⟨p, rfl⟩
  · rintro (⟨a, rfl, holds⟩ | ⟨p, rfl⟩)
    · exact .ok holds
    · exact .problem p

end Explained

/-- Whatever problem an end is reported with has a property. -/
def Reveals (P : Problem → Prop) (r : Except Failure α) : Prop := ∀ p, r = .error (.problem p) → P p

/-- An end that is no problem in words: a result, or the misuse of a value or of the file tree. -/
def Wordless (r : Except Failure α) : Prop := Reveals (fun _ => False) r

namespace Reveals

variable {P Q : Problem → Prop} {r : Except Failure α} {next : α → Except Failure β}

theorem ok (a : α) : Reveals P (.ok a : Except Failure α) := fun _ ended => by cases ended

theorem fault (f : Fault) : Reveals P (.error (.fault f) : Except Failure α) :=
  fun _ ended => by cases ended

theorem problem {p : Problem} (holds : P p) :
    Reveals P (.error (.problem p) : Except Failure α) := by
  rintro _ ⟨⟩
  exact holds

theorem bind (first : Reveals P r) (rest : ∀ a, r = .ok a → Reveals P (next a)) :
    Reveals P (r >>= next) := by
  intro p ended
  obtain failed | ⟨a, ran, failed⟩ := bind_eq_error.mp ended
  · exact first p failed
  · exact rest a ran p failed

theorem of_error {failure : Failure} (ended : Reveals P r) (failed : r = .error failure) :
    Reveals P (.error failure : Except Failure β) := by
  rintro p ⟨⟩
  exact ended p failed

theorem map {f : α → β} (ended : Reveals P r) : Reveals P (r.map f) := by
  cases r with
  | ok a => exact .ok (f a)
  | error failure => exact ended.of_error rfl

theorem mono (ended : Reveals P r) (weaker : ∀ p, P p → Q p) : Reveals Q r :=
  fun p told => weaker p (ended p told)

end Reveals

theorem Wordless.reveals {P : Problem → Prop} {r : Except Failure α} (wordless : Wordless r) : Reveals P r :=
  Reveals.mono wordless fun _ => False.elim

namespace Step

variable {σ : Type} (s : σ)

theorem run_bind (first : Step σ α) (next : α → Step σ β) :
    (first >>= next).run s =
      match first.run s with
      | (.ok a, t) => (next a).run t
      | (.error failure, t) => (.error failure, t) := by
  simp only [ExceptT.run, bind, ExceptT.bind, ExceptT.mk, StateT.bind]
  rcases first s with ⟨failure | a, t⟩ <;> rfl

@[simp] theorem run_pure (a : α) : (pure a : Step σ α).run s = (.ok a, s) := rfl

@[simp] theorem run_throw (failure : Failure) :
    (throw failure : Step σ α).run s = (.error failure, s) := rfl

/-- An action cannot fail. -/
@[simp] theorem run_action (action : StateM σ α) :
    (liftM action : Step σ α).run s = (.ok (action s).1, (action s).2) := rfl

/-- What does not look at the state leaves it alone. -/
@[simp] theorem run_outcome (outcome : Except Failure α) :
    (liftM outcome : Step σ α).run s = (outcome, s) := by
  cases outcome <;> rfl

theorem run_outcome_bind (outcome : Except Failure α) (next : α → Step σ β) :
    (liftM outcome >>= next : Step σ β).run s =
      match outcome with
      | .ok a => (next a).run s
      | .error failure => (.error failure, s) := by
  rw [run_bind, run_outcome]
  cases outcome <;> rfl

theorem run_get_bind (next : σ → Step σ β) :
    (get >>= next : Step σ β).run s = (next s).run s := rfl

theorem run_modify_bind (change : σ → σ) (next : PUnit → Step σ β) :
    (modify change >>= next : Step σ β).run s = (next ⟨⟩).run (change s) := rfl

/-- A step that leaves a part of the state as it is, however it ends. -/
def Keeps {γ : Type} (part : σ → γ) (step : Step σ α) : Prop :=
  ∀ s, part (step.run s).2 = part s

namespace Keeps

variable {γ : Type} {part : σ → γ}

theorem pure (a : α) : Keeps part (Pure.pure a : Step σ α) := fun _ => rfl

theorem throw (failure : Failure) : Keeps part (MonadExcept.throw failure : Step σ α) :=
  fun _ => rfl

theorem outcome (outcome : Except Failure α) : Keeps part (liftM outcome : Step σ α) := by
  intro s
  rw [run_outcome]

theorem action {action : StateM σ α} (keeps : ∀ s, part (action s).2 = part s) :
    Keeps part (liftM action : Step σ α) := keeps

theorem bind {first : Step σ α} {next : α → Step σ β} (keeps : Keeps part first)
    (rest : ∀ a, Keeps part (next a)) : Keeps part (first >>= next) := by
  intro s
  have here := keeps s
  rw [run_bind]
  rcases ran : first.run s with ⟨failure | a, t⟩
  · rwa [ran] at here
  · rw [ran] at here
    exact (rest a t).trans here

end Keeps

theorem reveals_run_bind {P : Problem → Prop} {first : Step σ α} {next : α → Step σ β} {s : σ}
    (here : Reveals P (first.run s).1) (rest : ∀ a t, Reveals P ((next a).run t).1) :
    Reveals P ((first >>= next).run s).1 := by
  rw [run_bind]
  rcases ran : first.run s with ⟨failure | a, t⟩
  · rw [ran] at here
    exact here.of_error rfl
  · exact rest a t

/-- Whatever the state, the problems that a step reports have a property. -/
def Reports (P : Problem → Prop) (step : Step σ α) : Prop := ∀ s, Reveals P (step.run s).1

namespace Reports

variable {P : Problem → Prop}

theorem pure (a : α) : Reports P (Pure.pure a : Step σ α) := fun _ => .ok a

theorem outcome {outcome : Except Failure α} (told : Reveals P outcome) :
    Reports P (liftM outcome : Step σ α) := by
  intro s
  rwa [run_outcome]

theorem action (action : StateM σ α) : Reports P (liftM action : Step σ α) := fun s => .ok (action s).1

theorem bind {first : Step σ α} {next : α → Step σ β} (reports : Reports P first)
    (rest : ∀ a, Reports P (next a)) : Reports P (first >>= next) :=
  fun s => reveals_run_bind (reports s) rest

end Reports

end Step

end MachinePlan
