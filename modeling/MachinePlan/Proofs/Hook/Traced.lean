import MachinePlan.Compile.Document
import MachinePlan.Proofs.Hook.Overlay
import MachinePlan.Proofs.Wording
import MachinePlan.Proofs.Wordless

/-!
# What hooks and hook files quote

A hook file that cannot be loaded is reported with its path and with texts of its statements, or with
what the interpreter says about it (`reveals_loadDirectory`), a hook that gives up with a text of its
own, and a name without a hook together with the names that have one (`reveals_hooked`).
-/

namespace MachinePlan

open Text Value

/-- A text that a hook gives up with. -/
def Hook.GivesUpWith (hook : Hook) (text : String) : Prop :=
  ∃ node ops p, (hook.edit node ops).failure = some (.problem p) ∧ text ∈ p.quotes

/-- A text of a statement that a message can quote. -/
def HookStatement.Quotes : HookStatement → String → Prop
  | .function name hook _, text => text = name ∨ hook.GivesUpWith text
  | .alias name source, text => text = name ∨ text = source
  | .raise message, text => text = message
  | .value _ _, _ => False
  | .other _, _ => False

/-- A text in a hook file of a directory. -/
def InHookFile (fs : Files) (directory : Path) (text : String) : Prop :=
  ∃ file ss s, IsHookFile fs directory file ∧
    Registry.fileStatements fs (directory.child file) = .ok ss ∧ s ∈ ss ∧ s.Quotes text

/-- Why the interpreter does not run a hook file of a directory. -/
def AboutHookFile (fs : Files) (directory : Path) (reason : String) : Prop :=
  ∃ file bytes, IsHookFile fs directory file ∧ fs.find? (directory.child file) = some (.file bytes) ∧
    fs.readers.program (fs.absoluteText (directory.child file)) bytes = .error reason

/-- Hooks that can only be reported with texts from some sources. -/
structure Registry.From (sources : String → Prop) (r : Registry) : Prop where
  names : ∀ name ∈ r.names, sources name
  hooks : ∀ name hook, r.find? name = some hook → ∀ text, hook.GivesUpWith text → sources text

variable {sources : String → Prop} {fs : Files} {directory : Path} {file name reason : String}
  {standing : Standing} {ss : List HookStatement} {hook : Hook} {r : Registry}

/-! ### Hook files -/

theorem HookFile.quotes_of_standsFor {n k : Nat} {own : String} {home : Option Value}
    (made : ss[k]? = some (.function own hook home))
    (stands : standsFor standing ss n name = some (.made k)) : ∃ s ∈ ss, s.Quotes name := by
  -- a name is followed back through the statements, from one alias to the next
  induction n generalizing name with
  | zero => exact absurd stands (standing.unmade name k)
  | succ n ih =>
    rw [standsFor] at stands
    split at stands
    case h_1 bound _ _ next =>
      split at stands
      · next here => exact ⟨_, List.mem_of_getElem? next, .inl here⟩
      · exact ih stands
    case h_2 bound v next =>
      split at stands
      · cases stands
      · exact ih stands
    case h_3 bound next =>
      split at stands
      · cases stands
        cases next.symm.trans made
      · exact ih stands
    case h_4 bound source next =>
      split at stands
      · next here => exact ⟨_, List.mem_of_getElem? next, .inl here⟩
      · exact ih stands
    all_goals exact ih stands

theorem breaksFrom_of_halts {k : Nat} (halts : HookFile.Halts standing ss k reason)
    (texts : ∀ s ∈ ss, ∀ text, s.Quotes text → sources text) : BreaksFrom sources reason := by
  cases halts with
  | raise raises => exact breaksFrom_of_source (texts _ (List.mem_of_getElem? raises) _ rfl)
  | @lacks name source looksUp unbound =>
    have quoted : sources source := texts _ (List.mem_of_getElem? looksUp) _ (.inr rfl)
    have same : breaks ("name '" ++ source ++ "' is not defined") = [source].flatMap breaks := by
      simp (disch := decide +kernel) only [breaks_append, breaks_words, List.flatMap_singleton,
        List.nil_append, List.append_nil]
    exact breaksFrom_of_breaks same (List.forall_mem_singleton.mpr (breaksFrom_of_source quoted))

theorem unbroken_directoryReason (fs : Files) (p : Path) :
    Unbroken (Registry.directoryReason fs p).toList := by
  obtain ⟨shown, reason⟩ : ∃ cs, Registry.directoryReason fs p =
      "[Errno 21] Is a directory: " ++ String.ofList (quoted cs) := ⟨_, rfl⟩
  have words : Unbroken "[Errno 21] Is a directory: ".toList := by decide +kernel
  have quote : Unbroken (String.ofList (quoted shown)).toList := by
    rw [String.toList_ofList]
    exact unbroken_quoted shown
  rw [reason, String.toList_append]
  exact List.forall_mem_append.mpr ⟨words, quote⟩

theorem reveals_of_fileStops {failure : Failure}
    (stops : FileStops fs (directory.child file) failure) (path : sources (directory.child file).text)
    (texts : ∀ ss, Registry.fileStatements fs (directory.child file) = .ok ss → ∀ s ∈ ss,
      ∀ text, s.Quotes text → sources text)
    (reasons : ∀ bytes reason, fs.find? (directory.child file) = some (.file bytes) →
      fs.readers.program (fs.absoluteText (directory.child file)) bytes = .error reason →
        sources reason) :
    Reveals (·.Traced sources) (.error failure : Except Failure Unit) := by
  have reported {reason : String} (traced : BreaksFrom sources reason) :
      Reveals (·.Traced sources)
        (.error (.problem (.hookFile (directory.child file).text reason)) : Except Failure Unit) :=
    .problem (List.forall_mem_cons.mpr
      ⟨breaksFrom_of_source path, List.forall_mem_singleton.mpr traced⟩)
  cases stops with
  | unread failed =>
    rw [Registry.fileStatements] at failed
    split at failed
    case h_2 =>
      obtain rfl := Except.error.inj failed
      exact reported (breaksFrom_of_unbroken (unbroken_directoryReason fs _))
    case h_3 bytes there => exact reported (breaksFrom_of_source (reasons bytes _ there failed))
    all_goals cases failed
  | halts read stops =>
    obtain ⟨k, halts, -⟩ := stops
    exact reported (breaksFrom_of_halts halts (texts _ read))
  | unlisted => exact .fault _

theorem Registry.From.of_overlaid {counts : String → Prop} {after : Registry}
    (overlaid : Overlaid fs directory counts .empty after)
    (texts : ∀ file ss, counts file → Registry.fileStatements fs (directory.child file) = .ok ss →
      ∀ s ∈ ss, ∀ text, s.Quotes text → sources text) : after.From sources := by
  constructor
  · intro name member
    obtain known | ⟨file, hook, counted, ss, read, offers, -⟩ := (overlaid.names name).mp member
    · cases known
    · obtain ⟨k, own, home, made, stands, -⟩ := offers.made
      obtain ⟨s, inside, quoted⟩ := HookFile.quotes_of_standsFor made stands
      exact texts file ss counted read s inside name quoted
  · intro name hook found
    obtain ⟨file, other, offer, here⟩ | ⟨-, kept⟩ := overlaid.find?_eq name
    · obtain rfl := Option.some.inj (here.symm.trans found)
      obtain ⟨ss, read, offers, -⟩ := offer.offers
      obtain ⟨k, own, home, made, -⟩ := offers.made
      exact fun text givesUp =>
        texts file ss offer.counted read _ (List.mem_of_getElem? made) text (.inr givesUp)
    · rw [found] at kept
      cases kept

/-- Loading a directory reports a file with its path and texts of its statements or of the
interpreter, and registers hooks that have no others. -/
theorem Registry.reveals_loadDirectory
    (paths : ∀ file, IsHookFile fs directory file → sources (directory.child file).text)
    (texts : ∀ text, InHookFile fs directory text → sources text)
    (reasons : ∀ reason, AboutHookFile fs directory reason → sources reason) :
    Reveals (·.Traced sources) (empty.loadDirectory fs directory).result ∧
      ∀ after, (empty.loadDirectory fs directory).result = .ok after → after.From sources := by
  rw [loadDirectory]
  cases there : fs.isDirectory directory with
  | false =>
    refine ⟨.ok _, ?_⟩
    rintro after ⟨⟩
    exact ⟨List.forall_mem_nil _, fun name hook found => by cases found⟩
  | true =>
    have sorted := (fs.names_sorted directory).filter isHookFile
    have loaded := loaded_loadFiles fs directory _ .empty sorted
    rw [if_pos rfl]
    generalize loadFiles fs directory _ empty = l at loaded ⊢
    have written (file : String) (counted : file ∈ (fs.names directory).filter isHookFile)
        (ss : List HookStatement) (read : fileStatements fs (directory.child file) = .ok ss)
        (s : HookStatement) (member : s ∈ ss) (text : String) (quoted : s.Quotes text) :
        sources text :=
      texts text ⟨file, ss, s, (mem_hookFiles_iff there).mp counted, read, member, quoted⟩
    cases loaded with
    | whole loads overlaid =>
      refine ⟨.ok _, ?_⟩
      rintro after ⟨⟩
      exact From.of_overlaid overlaid fun file ss counted => written file counted ss
    | @stopped after earlier later file failure split loads stops overlaid =>
      have counted : file ∈ (fs.names directory).filter isHookFile := by
        rw [split]
        exact List.mem_append_right _ List.mem_cons_self
      have here := (mem_hookFiles_iff there).mp counted
      refine ⟨?_, by rintro after ⟨⟩⟩
      exact (reveals_of_fileStops stops (paths file here) (written file counted)
        fun bytes reason there failed => reasons reason ⟨file, bytes, here, there, failed⟩).of_error
          rfl

/-! ### Hooks at work -/

theorem Hook.reveals_edit {node : Node} {ops : List Operation} {failure : Failure}
    (texts : ∀ text, hook.GivesUpWith text → sources text)
    (failed : (hook.edit node ops).failure = some failure) :
    Reveals (·.Traced sources) (.error failure : Except Failure Unit) := by
  cases failure with
  | problem p =>
    exact .problem fun text quoted =>
      breaksFrom_of_source (texts text ⟨node, ops, p, failed, quoted⟩)
  | fault f => exact .fault f

namespace Registry

theorem reveals_get (known : r.From sources) (asked : sources name) :
    Reveals (·.Traced sources) (r.get name) := by
  rw [get]
  split
  · exact .ok _
  · refine .problem (List.forall_mem_cons.mpr ⟨breaksFrom_of_source asked, fun other member => ?_⟩)
    exact breaksFrom_of_source (known.names other member)

theorem reveals_dispatch (known : r.From sources) {names : List Value} {node : Node}
    {ops : List Operation} {failure : Failure}
    (asked : ∀ v ∈ names, ∀ name, v.text = .ok name → sources name)
    (failed : (r.dispatch node names ops).failure = some failure) :
    Reveals (·.Traced sources) (.error failure : Except Failure Unit) := by
  induction names generalizing ops with
  | nil => cases failed
  | cons v rest ih =>
    obtain ⟨first, others⟩ := List.forall_mem_cons.mp asked
    have found : Reveals (·.Traced sources) (v.text.bind r.get) :=
      .bind (wordless_text v).reveals fun name text => reveals_get known (first name text)
    rw [dispatch] at failed
    split at failed
    · next unknown =>
      obtain rfl := Option.some.inj failed
      exact found.of_error unknown
    · next hook here =>
      obtain ⟨name, -, here⟩ := bind_eq_ok.mp here
      have texts := known.hooks name hook (get_eq_ok_iff.mp here)
      simp only at failed
      split at failed
      · next ended =>
        obtain rfl := Option.some.inj failed
        exact hook.reveals_edit texts ended
      · exact ih others failed

end Registry

/-- Running the hooks of a node quotes the names that it asks for, those of hooks, and texts of the
hooks. -/
theorem Compile.reveals_hooked (known : r.From sources) {n : Node} {ops : List Operation}
    (asked : ∀ v ∈ n.externalFunctions, ∀ name, v.text = .ok name → sources name) :
    Reveals (·.Traced sources) (hooked r n ops) := by
  rw [hooked]
  split
  · next failed =>
    intro p ended
    cases ended
    exact Registry.reveals_dispatch known asked failed p rfl
  · exact .ok _

end MachinePlan
