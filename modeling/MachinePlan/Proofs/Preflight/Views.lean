import MachinePlan.Preflight.Basic
import MachinePlan.Proofs.Backend.Noted
import MachinePlan.Run

/-!
# Checks and runs, part by part

How the checks before a run find the configuration, the version of the backend and the plugins, next
to how a run finds them. `configView` and `versionView` say it case by case: what a run stops with is
what the checks collect, unless it is a fault, which ends the checks as well.
-/

namespace MachinePlan.Preflight

open Value

def missingItem (plugin : String) : String :=
  s!"{plugin} not installed\n  Installed automatically by: boxfile apply"

/-- An item reports a problem with the configuration: in the same words, except that the item for a
document without nodes goes on behind its first line. -/
def Reports (item : String) (problem : ConfigProblem) : Prop :=
  item = problem.message ∨
    (∃ sources, problem = .noNodes sources) ∧ Document.firstLine item = problem.message

section
variable {settings : Settings} {fs : Files} {name version constraint : String}
  {plugins : List Value} {report : Report} {problem : Problem} {d : Document}

theorem succeeded_iff :
    report.succeeded = true ↔ report.config.failed = [] ∧ report.backend.failed = [] ∧
      report.plugins.failed = [] ∧ report.boxes.failed = [] := by
  simp [Report.succeeded, Report.categories]

/-! ### The configuration -/

theorem failed_documentChecks (d : Document) :
    (documentChecks settings d).failed = d.validate := by
  unfold documentChecks
  cases d.validate <;> rfl

theorem firstLine_append_newline (s rest : String) :
    Document.firstLine (s ++ ("\n" ++ rest)) = Document.firstLine s := by
  have newline : ("\n" : String).toList = ['\n'] := rfl
  unfold Document.firstLine
  rw [String.toList_append, String.toList_append, newline]
  congr 1
  induction s.toList with
  | nil => rfl
  | cons c cs ih => rw [List.cons_append, List.takeWhile_cons, List.takeWhile_cons, ih]

theorem firstLine_append (s rest : String) (one_line : ∀ c ∈ s.toList, (c != '\n') = true) :
    Document.firstLine (s ++ rest) = s ++ Document.firstLine rest := by
  unfold Document.firstLine
  rw [String.toList_append, List.takeWhile_append_of_pos one_line, String.ofList_append,
    String.ofList_toList]

/-- What is wrong with a document without nodes begins with the line that a run stops with. -/
theorem reports_noNodes (sources : String) :
    Reports ((ConfigProblem.noNodes sources).message ++ "\n  Add at least one entry under 'nodes:'")
      (.noNodes (Document.firstLine sources)) := by
  have message : ∀ t, (ConfigProblem.noNodes t).message = "No nodes defined in " ++ t := fun t => rfl
  refine .inr ⟨⟨_, rfl⟩, ?_⟩
  rw [message, message]
  exact (firstLine_append_newline _ "  Add at least one entry under 'nodes:'").trans
    (firstLine_append _ _ (List.all_eq_true.mp (by decide)))

/-- How the checks and a run find the configuration. -/
inductive ConfigView (settings : Settings) (fs : Files) : Prop
  | sound (d : Document)
      (loaded : Document.load fs settings.configFile (some settings.localConfigFile) = .ok d)
      (run : Run.load settings fs = .ok d)
      (checked : checkConfig settings fs = .ok (some d, documentChecks settings d))
      (failed : (documentChecks settings d).failed = [])
  | withoutNodes (d : Document) (problem : ConfigProblem) (item : String)
      (loaded : Document.load fs settings.configFile (some settings.localConfigFile) = .ok d)
      (run : Run.load settings fs = .error (.config problem))
      (checked : checkConfig settings fs = .ok (some d, documentChecks settings d))
      (failed : (documentChecks settings d).failed = [item]) (reports : Reports item problem)
  | refused (problem : ConfigProblem)
      (loaded : Document.load fs settings.configFile (some settings.localConfigFile) =
        .error (.config problem))
      (run : Run.load settings fs = .error (.config problem))
      (checked : checkConfig settings fs = .ok (none, { failed := [problem.message] }))
  | broken (failure : Failure) (foreign : ∀ problem, failure ≠ .config problem)
      (loaded : Document.load fs settings.configFile (some settings.localConfigFile) =
        .error failure)
      (run : Run.load settings fs = .error failure)
      (checked : checkConfig settings fs = .error failure)

theorem configView (settings : Settings) (fs : Files) : ConfigView settings fs := by
  have run : Run.load settings fs =
      (Document.load fs settings.configFile (some settings.localConfigFile) >>= fun d =>
        d.check >>= fun _ => .ok d) := rfl
  cases loaded : Document.load fs settings.configFile (some settings.localConfigFile) with
  | ok d =>
    have checked : checkConfig settings fs = .ok (some d, documentChecks settings d) := by
      rw [checkConfig, loaded]
    rw [loaded] at run
    cases empty : d.nodes.isEmpty with
    | false =>
      refine .sound d loaded ?_ checked ?_
      · rw [run]
        show (d.check >>= fun _ => Except.ok d) = _
        rw [Document.check, if_neg (by simp [empty])]
        rfl
      · rw [failed_documentChecks, Document.validate, if_neg (by simp [empty])]
    | true =>
      refine .withoutNodes d (.noNodes (Document.firstLine d.sourceText)) _ loaded ?_ checked ?_
        (reports_noNodes d.sourceText)
      · rw [run]
        show (d.check >>= fun _ => Except.ok d) = _
        rw [Document.check, if_pos (by simp [empty])]
        rfl
      · rw [failed_documentChecks, Document.validate, if_pos (by simp [empty])]
  | error failure =>
    rw [loaded] at run
    by_cases own : ∃ problem, failure = .config problem
    · obtain ⟨problem, rfl⟩ := own
      exact .refused problem loaded run (by rw [checkConfig, loaded]; rfl)
    · rw [not_exists] at own
      refine .broken failure own loaded run ?_
      rw [checkConfig, loaded]
      split
      · rename_i found
        cases found
      · rename_i problem found
        exact absurd (Except.error.inj found) (own problem)
      · rename_i found
        rw [Except.error.inj found]

/-! ### The version -/

/-- Of the clauses of a constraint, a bad one is a problem with the configuration. -/
theorem problem_of_checkClauses {clauses : List (List Char)}
    (failed : Version.checkClauses version clauses = .error (.problem problem)) :
    ∃ wrong, problem = .config wrong := by
  induction clauses with
  | nil => cases failed
  | cons text rest ih =>
    rw [Version.checkClauses] at failed
    split at failed
    · exact ih failed
    · split at failed
      · exact ⟨_, (Failure.problem.inj (Except.error.inj failed)).symm⟩
      · rename_i clause _
        cases outcome : clause.check version with
        | error failure =>
          rw [outcome] at failed
          obtain rfl := Except.error.inj failed
          unfold Version.Clause.check Version.components at outcome
          split at outcome <;> [split at outcome; skip] <;> cases outcome
        | ok holds =>
          rw [outcome] at failed
          cases holds with
          | true => exact ih failed
          | false => cases failed

/-- How the checks and a run find the version of a backend. -/
inductive VersionView (name version constraint : String) : Prop
  | accepted (v : String) (checks : Checks)
      (run : Backend.acceptVersion name version constraint = .ok v)
      (checked : versionChecks name constraint (Backend.acceptVersion name version constraint) =
        .ok checks)
      (failed : checks.failed = [])
  | refused (problem : Problem) (checks : Checks)
      (run : Backend.acceptVersion name version constraint = .error (.problem problem))
      (checked : versionChecks name constraint (Backend.acceptVersion name version constraint) =
        .ok checks)
      (failed : checks.failed ≠ [])
  | broken (fault : Fault)
      (run : Backend.acceptVersion name version constraint = .error (.fault fault))
      (checked : versionChecks name constraint (Backend.acceptVersion name version constraint) =
        .error (.fault fault))

theorem problem_of_acceptVersion
    (refused : Backend.acceptVersion name version constraint = .error (.problem problem)) :
    (∃ wrong, problem = .version wrong) ∨ ∃ wrong, problem = .config wrong := by
  unfold Backend.acceptVersion at refused
  split at refused
  · exact .inl ⟨_, (Failure.problem.inj (Except.error.inj refused)).symm⟩
  · rename_i found _
    cases outcome : Version.satisfies found constraint with
    | error failure =>
      rw [outcome] at refused
      obtain rfl := Except.error.inj refused
      exact .inr (problem_of_checkClauses outcome)
    | ok satisfied =>
      rw [outcome] at refused
      cases satisfied with
      | true => cases refused
      | false => exact .inl ⟨_, (Failure.problem.inj (Except.error.inj refused)).symm⟩

theorem versionView (name version constraint : String) : VersionView name version constraint := by
  cases run : Backend.acceptVersion name version constraint with
  | ok v => exact .accepted v _ run (by rw [run]; rfl) rfl
  | error failure =>
    cases failure with
    | fault fault => exact .broken fault run (by rw [run]; rfl)
    | problem problem =>
      rcases problem_of_acceptVersion run with ⟨wrong, rfl⟩ | ⟨wrong, rfl⟩
      · exact .refused _ _ run (by rw [run]; rfl) (List.cons_ne_nil _ _)
      · exact .refused _ _ run (by rw [run]; rfl) (List.cons_ne_nil _ _)

/-! ### The plugins -/

theorem failed_pluginChecks (installed : List Value) (required : List String) :
    (pluginChecks installed required).failed =
      (Backend.missing installed required).map missingItem := by
  induction required with
  | nil => rfl
  | cons p required ih =>
    rw [pluginChecks]
    cases found : Backend.isInstalled (.str p) installed with
    | true => rw [Backend.missing_cons_of_installed found]; exact ih
    | false =>
      rw [Backend.missing_cons_of_absent found, List.map_cons, ← ih]
      rfl

end

end MachinePlan.Preflight
