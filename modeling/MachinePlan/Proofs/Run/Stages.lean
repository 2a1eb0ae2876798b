import MachinePlan.Proofs.Backend.Writing
import MachinePlan.Run

/-!
# The stages of a run

A run over any backend, stage by stage. Without its checks it is the plan of the project handed over
(`run_unprepared`); with its checks it can only fail more often (`run_eq_none`). What is planned
depends on three of the settings (`planned_congr`).
-/

namespace MachinePlan

/-- Settings that find the same files and hooks. -/
structure Settings.SameProject (s t : Settings) : Prop where
  configFile : s.configFile = t.configFile
  localConfigFile : s.localConfigFile = t.localConfigFile
  hooksDirectory : s.hooksDirectory = t.hooksDirectory

namespace Run

/-- What a project is compiled to, with the hooks of its directory. -/
def planned (settings : Settings) (fs : Files) : Except Failure (List CompiledNode) := do
  let d ← load settings fs
  compile settings fs none d

/-- The checks that a run makes before it compiles. -/
def checks {σ : Type} (settings : Settings) (b : Backend σ) (unprepared : Bool) (d : Document) :
    Step σ Unit :=
  if unprepared then pure () else prepare settings b d

/-- Other settings do not matter. -/
theorem planned_congr {s t : Settings} (same : s.SameProject t) (fs : Files) :
    planned s fs = planned t fs := by
  simp only [planned, load, compile, same.configFile, same.localConfigFile, same.hooksDirectory]

section
variable {σ : Type} (settings : Settings) (fs : Files) (b : Backend σ) (s : σ)

/-- The stages behind the loading of the document, without the form in which they are written. -/
theorem finish_eq (unprepared : Bool) (hooks : Option Registry) (d : Document) :
    (finish settings fs b unprepared hooks d).run s =
      match (checks settings b unprepared d).run s with
      | (.error failure, t) => (⟨⟨some d, []⟩, some failure⟩, t)
      | (.ok (), t) =>
        match compile settings fs hooks d with
        | .error failure => (⟨⟨some d, []⟩, some failure⟩, t)
        | .ok nodes =>
          match (b.apply nodes).run t with
          | (.error failure, u) => (⟨⟨some d, nodes⟩, some failure⟩, u)
          | (.ok (), u) => (⟨⟨some d, nodes⟩, none⟩, u) := by
  rw [checks]
  simp only [finish, StateT.run, bind, StateT.bind]
  rcases (ite (unprepared = true) _ _ : Step σ Unit).run s with ⟨failure | _, t⟩
  · rfl
  · cases compile settings fs hooks d with
    | error failure => rfl
    | ok nodes =>
      simp only [StateT.bind]
      rcases (b.apply nodes).run t with ⟨failure | _, u⟩ <;> rfl

/-- A run without checks hands the plan over, if there is one. -/
theorem run_unprepared :
    ((run settings fs b true none).run s).map RunResult.failure id =
      match planned settings fs with
      | .error failure => (some failure, s)
      | .ok nodes =>
        match (b.apply nodes).run s with
        | (.error failure, t) => (some failure, t)
        | (.ok (), t) => (none, t) := by
  rw [run, planned]
  cases load settings fs with
  | error failure => rfl
  | ok d =>
    simp only
    rw [finish_eq]
    change Prod.map _ _ (match compile settings fs none d with
      | .error failure => _
      | .ok nodes => _) = match compile settings fs none d with
      | .error failure => _
      | .ok nodes => _
    cases compile settings fs none d with
    | error failure => rfl
    | ok nodes =>
      simp only
      rcases (b.apply nodes).run s with ⟨failure | _, t⟩ <;> rfl

theorem keeps_prepare {γ : Type} {part : σ → γ} (tidy : b.Tidy part) (d : Document) :
    Step.Keeps part (prepare settings b d) :=
  .bind (Backend.keeps_checkVersion tidy _) fun _ =>
    .bind (Backend.keeps_ensurePlugins tidy _) fun _ => .pure ()

theorem keeps_checks {γ : Type} {part : σ → γ} (tidy : b.Tidy part) (unprepared : Bool)
    (d : Document) : Step.Keeps part (checks settings b unprepared d) := by
  rw [checks]
  split
  · exact .pure ()
  · exact keeps_prepare settings b tidy d

end

section
variable {σ γ : Type} {settings : Settings} {fs : Files} {b : Backend σ} {s after : σ}
  {unprepared : Bool} {r : RunResult}

/-- A run ends before its plan is handed over, or with the handing over; its checks leave the backend
as it was. -/
theorem run_ended {part : σ → γ} (tidy : b.Tidy part)
    (ran : (run settings fs b unprepared none).run s = (r, after)) :
    (∃ failure, r.failure = some failure ∧ part after = part s) ∨
      ∃ nodes t outcome, planned settings fs = .ok nodes ∧ part t = part s ∧
        (b.apply nodes).run t = (outcome, after) ∧ r.result = outcome.map fun _ => nodes := by
  rw [run] at ran
  cases loaded : load settings fs with
  | error failure =>
    rw [loaded] at ran
    cases ran
    exact .inl ⟨failure, rfl, rfl⟩
  | ok d =>
    simp only [loaded] at ran
    rw [finish_eq] at ran
    have kept := keeps_checks settings b tidy unprepared d s
    rcases checked : (checks settings b unprepared d).run s with ⟨failure | _, t⟩
    · simp only [checked] at ran kept
      cases ran
      exact .inl ⟨failure, rfl, kept⟩
    · simp only [checked] at ran kept
      cases compiled : compile settings fs none d with
      | error failure =>
        simp only [compiled] at ran
        cases ran
        exact .inl ⟨failure, rfl, kept⟩
      | ok nodes =>
        simp only [compiled] at ran
        have whole : planned settings fs = .ok nodes := bind_eq_ok.mpr ⟨d, loaded, compiled⟩
        rcases applied : (b.apply nodes).run t with ⟨failure | _, u⟩
        · simp only [applied] at ran
          cases ran
          exact .inr ⟨nodes, t, _, whole, kept, applied, rfl⟩
        · simp only [applied] at ran
          cases ran
          exact .inr ⟨nodes, t, _, whole, kept, applied, rfl⟩

/-- A run that succeeds has handed the plan over, to a backend that its checks have left as it
was. -/
theorem run_eq_none {part : σ → γ} (tidy : b.Tidy part)
    (ran : (run settings fs b unprepared none).run s = (r, after)) (succeeded : r.failure = none) :
    ∃ nodes t, planned settings fs = .ok nodes ∧ part t = part s ∧
      (b.apply nodes).run t = (.ok (), after) := by
  rcases run_ended tidy ran with ⟨failure, failed, -⟩ | ⟨nodes, t, outcome, whole, kept, applied, result⟩
  · cases succeeded.symm.trans failed
  · cases outcome with
    | error failure =>
      rw [RunResult.result, succeeded] at result
      cases result
    | ok => exact ⟨nodes, t, whole, kept, applied⟩

end

end Run

end MachinePlan
