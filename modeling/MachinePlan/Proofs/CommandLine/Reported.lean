import MachinePlan.Proofs.CommandLine.SameNodes
import MachinePlan.Proofs.Preflight.Reading

/-!
# Reports and what they are about

A report tells apart all findings that can be handed to it, says in its last line whether anything
has failed, and marks as many lines as items have failed. What `preflight` prints and the status that
it ends with never disagree (`reports_readable`).
-/

namespace MachinePlan

/-- What the text of findings tells. -/
structure Findings.Readable (f : Findings) (text : String) : Prop where
  written : f.text = .ok text
  /-- Every item can be read in it, in its category and in its place. -/
  read : Report.read text = f.report
  marks : (Text.splitString '\n' text).countP Report.isMarked = f.report.failedCount
  closing : Report.EndsWith text "All checks passed." ↔ f.report.failedCount = 0

theorem Findings.Regular.readable {f : Findings} (regular : f.Regular) (plain : f.report.Plain) :
    f.Readable f.report.text where
  written := regular.text
  read := Report.read_text plain
  marks := by rw [Report.splitString_text plain, Report.countP_allLines]
  closing := by rw [Report.endsWith_text_iff, Report.failedCount_eq_zero]

namespace CommandLine

open Printout

variable {s t : String}

theorem endsWith_line_iff : Report.EndsWith (line s) (line t) ↔ Report.EndsWith s t := by
  simp only [Report.EndsWith, line, String.toList_append]
  constructor
  · rintro ⟨front, same⟩
    rw [← List.append_assoc] at same
    exact ⟨front, List.append_cancel_right same⟩
  · rintro ⟨front, same⟩
    exact ⟨front, by rw [← List.append_assoc, same]⟩

theorem output_failure (host : Host) (output : String) (failure : Failure) :
    (Answer.failure host output failure).output = output := by
  cases failure <;> rfl

/-- The status of the checks is zero exactly when the last line of their report says so. -/
theorem preflight_status_iff (i : Invocation) (settings : Settings) (env : Environment)
    (host : Host) : (preflight i settings env host).status = .ok 0 ↔
      Report.EndsWith (preflight i settings env host).output (line "All checks passed.") := by
  rw [preflight]
  rcases (Preflight.run settings host.files (vagrant settings).backend i.checkBoxes env.network
    boxTimeout).run host with ⟨⟨failure | report, requests⟩, after⟩
  · refine iff_of_false (status_failure after "" failure) ?_
    change ¬ Report.EndsWith (Answer.failure after "" failure).output (line "All checks passed.")
    rw [output_failure]
    exact fun ends => absurd ends.length_le (by decide)
  · change Except.ok (if report.succeeded then 0 else 1) = Except.ok 0 ↔
      Report.EndsWith (line report.text) (line "All checks passed.")
    rw [endsWith_line_iff, Report.endsWith_text_iff]
    cases report.succeeded <;> simp

/-- Findings of the four categories whose passed items are single lines can be read back from their
text, so no two of them have the same one; the text marks every failed item once and ends with the
good news exactly when there is none. That is so when the checks before a run have succeeded, and
`preflight` ends with status zero exactly when it prints it. -/
theorem reports_readable :
    (∀ f : Findings, f.Regular → f.report.Plain → ∃ text, f.Readable text) ∧
    (∀ f g : Findings, f.Regular → f.report.Plain → g.Regular → g.report.Plain →
      f.text = g.text → ∀ key, f.checks key = g.checks key) ∧
    (∀ {σ : Type} (settings : Settings) (fs : Files) (b : Backend σ) (withBoxes : Bool)
      (network : String → BoxReply) (timeout : Value) (s : σ) (report : Report),
      ((Preflight.run settings fs b withBoxes network timeout).run s).1.outcome = .ok report →
        ∃ text, (Findings.ofReport report).text = .ok text ∧
          (Report.EndsWith text "All checks passed." ↔ report.succeeded = true)) ∧
    ∀ words i env host, Request.ofWords words = .ok (.run i) → i.command = .preflight →
      ((answer words env host).status = .ok 0 ↔
        Report.EndsWith (answer words env host).output (line "All checks passed.")) := by
  refine ⟨fun f regular plain => ⟨_, regular.readable plain⟩, ?_, ?_, ?_⟩
  · intro f g regular plain other plain' same key
    rw [regular.text, other.text, Except.ok.injEq] at same
    have reports := congrArg Report.read same
    rw [Report.read_text plain, Report.read_text plain'] at reports
    exact regular.checks_eq other reports key
  · intro σ settings fs b withBoxes network timeout s report _
    exact ⟨report.text, Findings.text_ofReport report, report.endsWith_text_iff⟩
  · intro words i env host asked command
    rw [answer, asked]
    change (invoke i env host).status = _ ↔ Report.EndsWith (invoke i env host).output _
    rw [invoke, command]
    exact preflight_status_iff i _ env host

/-- Findings of two categories whose items look like other parts of a report. -/
def imitations : Findings :=
  [("plugins", ⟨some ["✗ env"], some ["a\n✗ b\n\nBox URLs:", ""]⟩),
    ("config", ⟨some [], some ["All checks passed."]⟩)]

/-- The same findings in another order, and a category without findings. -/
def rearranged : Findings := imitations.reverse ++ [("boxes", ⟨some [], some []⟩)]

theorem reports_readable_imitations :
    (∃ text, imitations.text = .ok text ∧
      Report.read text = ⟨⟨[], ["All checks passed."]⟩, {},
        ⟨["✗ env"], ["a\n✗ b\n\nBox URLs:", ""]⟩, {}⟩ ∧
      (Text.splitString '\n' text).countP Report.isMarked = 3 ∧
      ¬ Report.EndsWith text "All checks passed.") ∧
    (∀ key, imitations.checks key = rearranged.checks key) ∧
    (answer ["preflight"] silence twoNodes).status = .ok 1 ∧
    ¬ Report.EndsWith (answer ["preflight"] silence twoNodes).output (line "All checks passed.") := by
  obtain ⟨readable, injective, -, agree⟩ := reports_readable
  have regular : imitations.Regular := by
    refine ⟨by decide, by decide, ?_⟩
    exact List.forall_mem_cons.mpr ⟨⟨_, _, rfl⟩, List.forall_mem_singleton.mpr ⟨_, _, rfl⟩⟩
  have regular' : rearranged.Regular := by
    refine ⟨by decide, by decide, ?_⟩
    refine List.forall_mem_cons.mpr ⟨⟨_, _, rfl⟩, ?_⟩
    exact List.forall_mem_cons.mpr ⟨⟨_, _, rfl⟩, List.forall_mem_singleton.mpr ⟨_, _, rfl⟩⟩
  have plain : imitations.report.Plain := by decide +kernel
  have plain' : rearranged.report.Plain := by decide +kernel
  have same : imitations.text = rearranged.text := by
    rw [regular.text, regular'.text]
    rfl
  have failed : imitations.report.failedCount = 3 := by decide
  have asked : Request.ofWords ["preflight"] = .ok (.run { command := .preflight }) := by decide +kernel
  have status : (answer ["preflight"] silence twoNodes).status = .ok 1 := by decide +kernel
  obtain ⟨text, told⟩ := readable imitations regular plain
  refine ⟨⟨text, told.written, told.read, told.marks.trans failed, ?_⟩,
    injective _ _ regular plain regular' plain' same, status, ?_⟩
  · rw [told.closing, failed]
    decide
  · rw [← agree _ _ silence twoNodes asked rfl, status]
    decide

end CommandLine

end MachinePlan
