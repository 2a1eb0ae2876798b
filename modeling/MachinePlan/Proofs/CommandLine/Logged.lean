import MachinePlan.CommandLine.Transcript
import MachinePlan.Proofs.Text.Encoding

/-!
# Logs and printed lines

What a row of events amounts to on the outputs: records are written where the log stands
(`write_records_append`), lines on the output as long as it takes them (`write_prints_append`), and
the first that it does not take ends the writing (`complete_write_prints`). The error output holds
nothing but what the log leaves there (`exists_log_errors`), and without a log that is nothing
(`log_of_silent`).
-/

namespace MachinePlan

def Event.records (events : List Event) : List LogRecord :=
  events.filterMap fun
    | .record r => some r
    | .print _ => none

def Writing.followedBy (first later : Writing) : Writing :=
  ⟨first.output ++ later.output, first.errors ++ later.errors, later.complete⟩

namespace Event

@[simp] theorem records_nil : records [] = [] := rfl

@[simp] theorem records_append (first later : List Event) :
    records (first ++ later) = records first ++ records later := List.filterMap_append

@[simp] theorem records_record (rs : List LogRecord) : records (rs.map .record) = rs := by
  induction rs with
  | nil => rfl
  | cons r rs ih => exact congrArg (r :: ·) ih

@[simp] theorem records_print (lines : List String) : records (lines.map .print) = [] := by
  induction lines with
  | nil => rfl
  | cons line lines ih => exact ih

end Event

namespace Runtime

variable {rt : Runtime} {i : Invocation} {n : Nat}

/-- What a log leaves on the outputs; the first record has the given number. -/
def log (rt : Runtime) (i : Invocation) (n : Nat) (rs : List LogRecord) : Writing :=
  rt.write i n (rs.map .record)

/-! ### Records -/

theorem writeRecord_eq (rt : Runtime) (i : Invocation) (n : Nat) (r : LogRecord) (later : Writing) :
    rt.writeRecord i n r later = (rt.writeRecord i n r {}).followedBy later := by
  simp only [writeRecord]
  split
  · simp [Writing.followedBy]
  · split
    · simp [Writing.followedBy]
    · split <;> simp [Writing.followedBy]

theorem log_cons (rt : Runtime) (i : Invocation) (n : Nat) (r : LogRecord) (rs : List LogRecord) :
    rt.log i n (r :: rs) = (rt.writeRecord i n r {}).followedBy (rt.log i (n + 1) rs) :=
  writeRecord_eq rt i n r _

theorem followedBy_assoc (first second third : Writing) :
    (first.followedBy second).followedBy third = first.followedBy (second.followedBy third) := by
  simp [Writing.followedBy, String.append_assoc]

theorem write_records_append (rt : Runtime) (i : Invocation) (n : Nat) (rs : List LogRecord)
    (rest : List Event) : rt.write i n (rs.map .record ++ rest) =
      (rt.log i n rs).followedBy (rt.write i (n + rs.length) rest) := by
  induction rs generalizing n with
  | nil => simp [log, write, Writing.followedBy]
  | cons r rs ih =>
    rw [List.map_cons, List.cons_append, write, writeRecord_eq, ih, log_cons, followedBy_assoc,
      List.length_cons, Nat.add_assoc, Nat.add_comm 1]

theorem log_append (rt : Runtime) (i : Invocation) (n : Nat) (rs later : List LogRecord) :
    rt.log i n (rs ++ later) = (rt.log i n rs).followedBy (rt.log i (n + rs.length) later) := by
  rw [log, List.map_append, write_records_append]
  rfl

@[simp] theorem log_nil : rt.log i n [] = {} := rfl

theorem complete_log (rt : Runtime) (i : Invocation) (n : Nat) (rs : List LogRecord) :
    (rt.log i n rs).complete = true := by
  induction rs generalizing n with
  | nil => rfl
  | cons r rs ih => rw [log_cons, Writing.followedBy, ih]

/-- Without a log nothing is written. -/
theorem log_of_silent (silent : rt.logs = false) (i : Invocation) (n : Nat) (rs : List LogRecord) :
    rt.log i n rs = {} := by
  induction rs generalizing n with
  | nil => rfl
  | cons r rs ih => simp [log_cons, ih, writeRecord, shows, silent, Writing.followedBy]

/-- Beside a plan in JSON the output holds no log. -/
theorem output_log_of_json (json : i.jsonOutput = true) (n : Nat) (rs : List LogRecord) :
    (rt.log i n rs).output = "" := by
  induction rs generalizing n with
  | nil => rfl
  | cons r rs ih =>
    rw [log_cons, Writing.followedBy, ih, String.append_empty, writeRecord]
    cases rt.shows i r <;> simp [json]

/-- Any other command leaves the error output to its errors, if the output takes the log. -/
theorem errors_log_of_plain (plain : i.jsonOutput = false) (rs : List LogRecord)
    (taken : ∀ n, ∀ r ∈ rs, rt.charset.takes (rt.line n r) = true) (n : Nat) :
    (rt.log i n rs).errors = "" := by
  induction rs generalizing n with
  | nil => rfl
  | cons r rs ih =>
    rw [log_cons, Writing.followedBy, ih fun n s member => taken n s (List.mem_cons_of_mem r member),
      String.append_empty, writeRecord]
    cases rt.shows i r <;> simp [plain, taken n r List.mem_cons_self]

/-! ### Lines -/

theorem write_prints_append {lines : List String}
    (taken : ∀ line ∈ lines, rt.charset.takes line = true) (rest : List Event) :
    rt.write i n (lines.map .print ++ rest) =
      Writing.followedBy { output := String.join (lines.map Printout.line) } (rt.write i n rest) := by
  induction lines with
  | nil => simp [Writing.followedBy, String.join]
  | cons line lines ih =>
    obtain ⟨here, later⟩ := List.forall_mem_cons.mp taken
    rw [List.map_cons, List.cons_append, write, if_pos here, ih later]
    simp [Writing.followedBy, String.append_assoc]

theorem complete_write_prints {lines : List String} {rest : List Event} :
    (rt.write i n (lines.map .print ++ rest)).complete = true ↔
      (∀ line ∈ lines, rt.charset.takes line = true) ∧ (rt.write i n rest).complete = true := by
  induction lines with
  | nil => simp
  | cons line lines ih =>
    rw [List.map_cons, List.cons_append, write, List.forall_mem_cons]
    cases taken : rt.charset.takes line with
    | false => simp
    | true => simpa using ih

theorem complete_write_records {rs : List LogRecord} {rest : List Event} :
    (rt.write i n (rs.map .record ++ rest)).complete = true ↔
      (rt.write i (n + rs.length) rest).complete = true := by
  rw [write_records_append, Writing.followedBy]

/-! ### The error output -/

/-- The error output holds the log, up to a line that the output does not take. -/
theorem exists_log_errors (rt : Runtime) (i : Invocation) (n : Nat) (events : List Event) :
    ∃ rs, rs <+: Event.records events ∧
      (rt.write i n events).errors = (rt.log i n rs).errors := by
  induction events generalizing n with
  | nil => exact ⟨[], List.nil_prefix, rfl⟩
  | cons event rest ih =>
    cases event with
    | record r =>
      obtain ⟨rs, before, same⟩ := ih (n + 1)
      refine ⟨r :: rs, List.prefix_cons_inj r |>.mpr before, ?_⟩
      rw [write, writeRecord_eq, log_cons, Writing.followedBy, Writing.followedBy, same]
    | print line =>
      obtain ⟨rs, before, same⟩ := ih n
      rw [write]
      split
      · exact ⟨rs, before, same⟩
      · exact ⟨[], List.nil_prefix, rfl⟩

end Runtime

/-! ### The end of a session -/

def Failure.status : Failure → Except Breakdown Nat
  | .problem _ => .ok 1
  | .fault f => .error (.fault f)

theorem Failure.status_ne (failure : Failure) : failure.status ≠ .ok 0 := by
  cases failure <;> simp [status]

/-- What the error output is told about a failure. -/
def Failure.report (charset : Charset) : Failure → String
  | .problem p => charset.escaped (CommandLine.errorLine p)
  | .fault _ => ""

/-- A transcript of a command that fails and has printed nothing: it holds the log, and the report of
the failure behind it. -/
structure Transcript.FailsWith (charset : Charset) (log : Writing) (failure : Failure)
    (t : Transcript) : Prop where
  status : t.status = failure.status
  output : t.output = log.output
  errors : t.errors = log.errors ++ failure.report charset

namespace CommandLine

variable {rt : Runtime} {i : Invocation} {c : Course} {rs later : List LogRecord}
  {lines : List String}

@[simp] theorem host_close (rt : Runtime) (i : Invocation) (ended : Except Failure Nat × Course) :
    (close rt i ended).host = ended.2.host := by
  rw [close]
  split
  · split <;> rfl
  · rfl

@[simp] theorem requests_close (rt : Runtime) (i : Invocation)
    (ended : Except Failure Nat × Course) : (close rt i ended).requests = ended.2.requests := by
  rw [close]
  split
  · split <;> rfl
  · rfl

theorem failsWith_close (noted : c.events = rs.map .record) (failure : Failure) :
    (close rt i (.error failure, c)).FailsWith rt.charset (rt.log i 0 rs) failure := by
  rw [close, noted, ← Runtime.log, if_pos (rt.complete_log i 0 rs)]
  cases failure with
  | problem p => exact ⟨rfl, rfl, rfl⟩
  | fault f => exact ⟨rfl, rfl, rfl⟩

/-- A session that fails does not end with status zero, whatever it has printed. -/
theorem status_close_ne (rt : Runtime) (i : Invocation) (failure : Failure) (c : Course) :
    (close rt i (.error failure, c)).status ≠ .ok 0 := by
  rw [close]
  split
  · cases failure <;> exact nofun
  · exact nofun

theorem records_told (told : c.events = rs.map .record ++ (lines.map .print ++ later.map .record)) :
    Event.records c.events = rs ++ later := by
  rw [told, Event.records_append, Event.records_append, Event.records_record, Event.records_print,
    Event.records_record, List.nil_append]

/-- Lines that are taken are printed between the records before and behind them. -/
theorem write_printed (told : c.events = rs.map .record ++ (lines.map .print ++ later.map .record))
    (taken : ∀ line ∈ lines, rt.charset.takes line = true) :
    rt.write i 0 c.events = (rt.log i 0 rs).followedBy
      (Writing.followedBy { output := String.join (lines.map Printout.line) }
        (rt.log i rs.length later)) := by
  rw [told, Runtime.write_records_append, Runtime.write_prints_append taken, Nat.zero_add]
  rfl

theorem close_printed (told : c.events = rs.map .record ++ (lines.map .print ++ later.map .record))
    (taken : ∀ line ∈ lines, rt.charset.takes line = true) (status : Nat) :
    close rt i (.ok status, c) = ⟨.ok status,
      (rt.log i 0 rs).output ++ (String.join (lines.map Printout.line) ++
        (rt.log i rs.length later).output),
      (rt.log i 0 rs).errors ++ (rt.log i rs.length later).errors, c.host, c.requests⟩ := by
  rw [close, write_printed told taken]
  simp [Writing.followedBy, rt.complete_log]

/-- A line that is not taken breaks the program off. -/
theorem status_close_of_refused
    (told : c.events = rs.map .record ++ (lines.map .print ++ later.map .record))
    (refused : ∃ line ∈ lines, rt.charset.takes line = false) (ending : Except Failure Nat) :
    (close rt i (ending, c)).status = .error .unencodable := by
  obtain ⟨line, member, refused⟩ := refused
  have broken : (rt.write i 0 c.events).complete = false := by
    rw [told, ← Bool.not_eq_true, Runtime.complete_write_records, Runtime.complete_write_prints]
    rintro ⟨taken, -⟩
    cases refused.symm.trans (taken line member)
  rw [close]
  simp [broken]

/-! ### Transcripts of invocations -/

/-- All that the log leaves of an invocation. -/
def logged (rt : Runtime) (i : Invocation) (env : Environment) (host : Host) : Writing :=
  rt.log i 0 (Event.records ((Session.ofInvocation rt i env).run { host }).2.events)

section
variable {words : List String} {env : Environment} {host : Host}
  (asked : Request.ofWords words = .ok (.run i))
include asked

theorem transcript_of_run (rt : Runtime) (env : Environment) (host : Host) :
    transcript rt words env host = close rt i ((Session.ofInvocation rt i env).run { host }) := by
  rw [transcript, asked]

theorem failsWith_transcript {failure : Failure}
    (ran : (Session.ofInvocation rt i env).run { host } = (.error failure, c))
    (noted : c.events = rs.map .record) :
    (transcript rt words env host).FailsWith rt.charset (logged rt i env host) failure := by
  rw [transcript_of_run asked, logged, ran, noted, Event.records_record]
  exact failsWith_close noted failure

/-- Lines that are taken stand between the records before and behind them. -/
theorem transcript_between {status : Nat}
    (ran : (Session.ofInvocation rt i env).run { host } = (.ok status, c))
    (told : c.events = rs.map .record ++ (lines.map .print ++ later.map .record))
    (taken : ∀ line ∈ lines, rt.charset.takes line = true) :
    transcript rt words env host = ⟨.ok status,
      (rt.log i 0 rs).output ++ (String.join (lines.map Printout.line) ++
        (rt.log i rs.length later).output),
      (logged rt i env host).errors, c.host, c.requests⟩ := by
  rw [transcript_of_run asked, logged, ran, close_printed told taken, records_told told,
    Runtime.log_append, Nat.zero_add]
  rfl

theorem transcript_printed {status : Nat}
    (ran : (Session.ofInvocation rt i env).run { host } = (.ok status, c))
    (told : c.events = rs.map .record ++ lines.map .print)
    (taken : ∀ line ∈ lines, rt.charset.takes line = true) :
    transcript rt words env host = ⟨.ok status,
      (logged rt i env host).output ++ String.join (lines.map Printout.line),
      (logged rt i env host).errors, c.host, c.requests⟩ := by
  have whole : c.events =
      rs.map .record ++ (lines.map .print ++ ([] : List LogRecord).map .record) := by
    rw [told, List.map_nil, List.append_nil]
  have noted : Event.records ((Session.ofInvocation rt i env).run { host }).2.events = rs := by
    rw [ran, records_told whole, List.append_nil]
  rw [transcript_between asked ran whole taken, logged, noted, Runtime.log_nil,
    String.append_empty]

theorem status_transcript_of_refused {ending : Except Failure Nat}
    (ran : (Session.ofInvocation rt i env).run { host } = (ending, c))
    (told : c.events = rs.map .record ++ lines.map .print)
    (refused : ∃ line ∈ lines, rt.charset.takes line = false) :
    (transcript rt words env host).status = .error .unencodable := by
  have whole : c.events =
      rs.map .record ++ (lines.map .print ++ ([] : List LogRecord).map .record) := by
    rw [told, List.map_nil, List.append_nil]
  rw [transcript_of_run asked, ran]
  exact status_close_of_refused whole refused ending

end

end CommandLine

end MachinePlan
