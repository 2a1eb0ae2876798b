import MachinePlan.Backend.Preview
import MachinePlan.Backend.Vagrant
import MachinePlan.Compile.Node
import MachinePlan.Document.Load
import MachinePlan.Hook.Script
import MachinePlan.Preflight.Boxes
import MachinePlan.Proofs.Value.Shown
import MachinePlan.Version.Constraint

/-!
# Steps that never end in words

A value that is misused, a number that is too long and a path that leads nowhere are faults of a
kind. The steps that look into values, write them or change files fail in no other way, so what they
meet is never quoted in a message.
-/

namespace MachinePlan

open Value

variable {α : Type}

/-! ### Values -/

namespace Value

theorem wordless_numeral (i : Int) : Wordless (numeral i) := by
  rw [numeral]
  split
  · exact .ok _
  · exact .fault .value

theorem wordless_display (v : Value) : Wordless v.display := by
  intro p ended
  cases failure_display v ended

theorem wordless_text (v : Value) : Wordless v.text := by
  intro p ended
  cases failure_text ended

theorem wordless_texts (items : List Value) : Wordless (texts items) := by
  induction items with
  | nil => exact .ok []
  | cons v rest ih => exact .bind (wordless_text v) fun _ _ => .bind ih fun _ _ => .ok _

theorem wordless_elements (v : Value) : Wordless v.elements := by
  rw [elements]
  split
  case h_7 => exact .fault .type
  all_goals exact .ok _

theorem wordless_elementsOrNone (v : Value) : Wordless v.elementsOrNone := by
  rw [elementsOrNone]
  split
  · exact wordless_elements v
  · exact .ok []

theorem wordless_entries (v : Value) : Wordless v.entries := by
  rw [entries]
  split
  · exact .ok _
  · exact .fault .missingPart

theorem wordless_position (v : Value) : Wordless v.position := by
  cases v with
  | int | bool => exact .ok _
  | _ => exact .fault .type

theorem wordless_itemAt (items : List α) (i : Int) : Wordless (itemAt items i) := by
  simp only [itemAt]
  generalize (if i < 0 then i + (items.length : Int) else i) = position
  split
  · exact .fault .missingIndex
  · split
    · exact .ok _
    · exact .fault .missingIndex

theorem wordless_alikeItems {eq : Value → Value → Except Failure Bool} (wordless : ∀ x y, Wordless (eq x y))
    (xs ys : List Value) : Wordless (alikeItems eq xs ys) := by
  induction xs generalizing ys with
  | nil => cases ys <;> exact .ok _
  | cons x xs ih =>
    cases ys with
    | nil => exact .ok false
    | cons y ys =>
      refine .bind (wordless x y) fun equal _ => ?_
      cases equal
      · exact .ok false
      · exact ih ys

theorem wordless_alikeEntries {eq : Value → Value → Except Failure Bool}
    (wordless : ∀ x y, Wordless (eq x y)) (others es : Entries) : Wordless (alikeEntries eq others es) := by
  induction es with
  | nil => exact .ok true
  | cons entry es ih =>
    rw [alikeEntries]
    split
    · refine .bind (wordless _ _) fun equal _ => ?_
      cases equal
      · exact .ok false
      · exact ih
    · exact .ok false

theorem wordless_alikeWithin (depth : Nat) (a b : Value) : Wordless (alikeWithin depth a b) := by
  induction depth generalizing a b with
  | zero => exact .fault .endless
  | succ depth ih =>
    rw [alikeWithin]
    split
    · exact .ok true
    · split
      · split
        · exact wordless_alikeItems ih _ _
        · exact .ok false
      · split
        · exact wordless_alikeItems ih _ _
        · exact .ok false
      · split
        · exact wordless_alikeEntries ih _ _
        · exact .ok false
      · exact .ok _

theorem wordless_alike (a b : Value) : Wordless (alike a b) := by
  rw [alike]
  split
  · exact wordless_alikeWithin depthLimit a b
  · exact .ok _

theorem wordless_anyAlike (v : Value) (items : List Value) : Wordless (anyAlike v items) := by
  induction items with
  | nil => exact .ok false
  | cons x rest ih =>
    refine .bind (wordless_alike x v) fun equal _ => ?_
    cases equal
    · exact ih
    · exact .ok true

theorem wordless_contains (container v : Value) : Wordless (container.contains v) := by
  rw [contains]
  split
  case h_2 | h_3 => exact wordless_anyAlike _ _
  all_goals
    repeat' split
    all_goals first | exact .ok _ | exact .fault _

theorem wordless_element (container v : Value) : Wordless (container.element v) := by
  rw [element]
  split
  case h_1 =>
    repeat' split
    all_goals first | exact .ok _ | exact .fault _
  case h_2 | h_3 => exact .bind (wordless_position v) fun _ _ => wordless_itemAt _ _
  case h_4 | h_5 =>
    exact .bind (wordless_position v) fun _ _ => .bind (wordless_itemAt _ _) fun _ _ => .ok _
  case h_6 => exact .fault .type

end Value

/-! ### Merging -/

theorem wordless_layOver {meet : Value → Value → Except Failure Value}
    (wordless : ∀ lower upper, Wordless (meet lower upper)) (base : Value) (es : Entries) :
    Wordless (layOver meet base es) := by
  induction es generalizing base with
  | nil => exact .ok base
  | cons entry es ih =>
    obtain ⟨key, value⟩ := entry
    simp only [layOver]
    split
    · exact .bind (wordless _ _) fun _ _ => ih _
    · exact ih _

theorem wordless_mergeWithin (depth : Nat) (lower upper : Value) :
    Wordless (mergeWithin depth lower upper) := by
  induction depth generalizing lower upper with
  | zero => exact .fault .endless
  | succ depth ih => exact wordless_layOver ih _ _

theorem wordless_merge (base upper : Value) : Wordless (merge base upper) := by
  rw [merge]
  split
  · refine .bind (wordless_entries _) fun _ _ => .bind (wordless_entries _) fun _ _ => ?_
    split
    · exact .bind (wordless_mergeWithin _ _ _) fun _ _ => .ok _
    · exact .ok _
  · exact .ok _

/-! ### Versions, keys and locations -/

theorem Version.wordless_components (version : String) : Wordless (components version) := by
  rw [components]
  split
  · exact .ok _
  · exact .fault .value

theorem Version.Clause.wordless_check (version : String) (clause : Clause) :
    Wordless (clause.check version) :=
  .bind (wordless_components _) fun _ _ => .bind (wordless_components _) fun _ _ => .ok _

namespace Compile

theorem wordless_normalizedPairs (es : Entries) : Wordless (normalizedPairs es) := by
  induction es with
  | nil => exact .ok []
  | cons entry es ih =>
    exact .bind (.bind (wordless_text _) fun _ _ => .ok _) fun _ _ => .bind ih fun _ _ => .ok _

theorem wordless_normalizeKeys (es : Entries) : Wordless (normalizeKeys es) :=
  .bind (wordless_normalizedPairs es) fun _ _ => .ok _

theorem wordless_normalizeArguments (v : Value) : Wordless (normalizeArguments v) :=
  .bind (wordless_elementsOrNone v) fun _ _ => .ok _

theorem wordless_identity (n : Node) (boxes : Value) : Wordless (identity n boxes) := by
  refine .bind ?_ fun _ _ => .ok _
  unfold boxLocation
  split
  · exact .ok none
  · refine .bind (wordless_contains _ _) fun known _ => ?_
    cases known
    · exact .ok none
    · exact .bind (wordless_element _ _) fun _ _ => .ok _

theorem wordless_networkPairs (es : Entries) : Wordless (networkPairs es) := by
  induction es with
  | nil => exact .ok []
  | cons entry es ih =>
    refine .bind ?_ fun _ _ => .bind (wordless_text _) fun _ _ => .bind ih fun _ _ => .ok _
    rw [networkParams]
    split
    · exact .map (wordless_normalizeKeys _)
    · exact .ok _

theorem wordless_provisionerParams (provisioner : String) (index : Nat) (es : Entries) :
    Wordless (provisionerParams provisioner index es) := by
  induction es with
  | nil => exact .ok []
  | cons entry es ih =>
    obtain ⟨key, value⟩ := entry
    have last (op : Operation) :
        Wordless (do return op :: (← provisionerParams provisioner index es)) :=
      .bind ih fun _ _ => .ok _
    rw [provisionerParams]
    split
    · exact .bind (wordless_normalizeArguments _) fun _ _ => last _
    · exact .bind (wordless_text _) fun _ _ => last _

theorem wordless_providerParams (provider : String) (es : Entries) :
    Wordless (providerParams provider es) := by
  induction es with
  | nil => exact .ok []
  | cons entry es ih => exact .bind (wordless_text _) fun _ _ => .bind ih fun _ _ => .ok _

end Compile

namespace BoxFindings

theorem wordless_ofEntries (network : String → BoxReply) (timeout : Value) (es : Entries) :
    Wordless (ofEntries network timeout es).result := by
  induction es with
  | nil => exact .ok _
  | cons entry es ih =>
    obtain ⟨box, location⟩ := entry
    rw [ofEntries]
    cases located : location.text with
    | error failure => exact (wordless_text location).of_error located
    | ok url =>
      cases named : box.text with
      | error failure => exact (wordless_text box).of_error named
      | ok name =>
        rw [result] at ih ⊢
        cases ended : (ofEntries network timeout es).failure with
        | none => exact .ok _
        | some failure =>
          rw [ended] at ih
          exact ih.of_error rfl

theorem wordless_ofCatalog (network : String → BoxReply) (timeout catalog : Value) :
    Wordless (ofCatalog network timeout catalog).result := by
  rw [ofCatalog]
  cases opened : catalog.entries with
  | error failure => exact (wordless_entries catalog).of_error opened
  | ok es => exact wordless_ofEntries network timeout es

end BoxFindings

/-! ### Files and plans -/

namespace Files

theorem wordless_readBytes (fs : Files) (p : Path) : Wordless (fs.readBytes p) := by
  rw [readBytes]
  split
  · exact .ok _
  all_goals exact .fault _

theorem wordless_failure (obstacle : Obstacle) :
    Wordless (.error obstacle.failure : Except Failure Files) := by
  obtain (_ | _) | _ := obstacle <;> exact .fault _

theorem wordless_ensureDirectory (fs : Files) (p : Path) : Wordless (fs.ensureDirectory p) := by
  rw [ensureDirectory]
  split
  · exact .ok _
  · split
    · exact .ok _
    · exact wordless_failure _

theorem wordless_ensureDirectories (p : Path) (depth : Nat) (fs : Files) :
    Wordless (ensureDirectories p depth fs) := by
  induction depth generalizing p with
  | zero => exact wordless_ensureDirectory fs p
  | succ depth ih =>
    rw [ensureDirectories]
    split
    · exact .ok _
    · exact .bind (ih _) fun _ _ => wordless_ensureDirectory _ p
    · split
      · exact .ok _
      · exact wordless_failure _

theorem wordless_makeDirectories (fs : Files) (p : Path) : Wordless (fs.makeDirectories p) :=
  wordless_ensureDirectories p p.parts.length fs

theorem wordless_writeText (fs : Files) (p : Path) (text : String) : Wordless (fs.writeText p text) := by
  rw [writeText]
  split
  · exact .fault .notFound
  · exact .fault .notDirectory
  · split
    all_goals first | exact .ok _ | exact .fault _

end Files

namespace Json

theorem wordless_keyText (key : Value) : Wordless (keyText key) := by
  cases key with
  | int i => exact wordless_numeral i
  | str | float | bool | null => exact .ok _
  | _ => exact .fault .type

mutual

theorem wordless_write (spacing : Spacing) (level : Nat) (v : Value) :
    Wordless (write spacing level v) := by
  cases v with
  | int i => exact .map (wordless_numeral i)
  | list items | tuple items =>
    cases items with
    | nil => exact .ok _
    | cons v rest => exact .bind (wordless_writeItems spacing level (v :: rest)) fun _ _ => .ok _
  | map es =>
    cases es with
    | nil => exact .ok _
    | cons entry rest => exact .bind (wordless_writeEntries spacing level (entry :: rest)) fun _ _ => .ok _
  | ring _ v => exact wordless_write spacing level v
  | null | bool | float | str => exact .ok _
  | _ => exact .fault _
termination_by structural v

theorem wordless_writeItems (spacing : Spacing) (level : Nat) (items : List Value) :
    Wordless (writeItems spacing level items) := by
  cases items with
  | nil => exact .ok _
  | cons v rest =>
    cases rest with
    | nil => exact wordless_write spacing (level + 1) v
    | cons w rest =>
      exact .bind (wordless_write spacing (level + 1) v) fun _ _ =>
        .bind (wordless_writeItems spacing level (w :: rest)) fun _ _ => .ok _
termination_by structural items

theorem wordless_writeEntries (spacing : Spacing) (level : Nat) (es : Entries) :
    Wordless (writeEntries spacing level es) := by
  cases es with
  | nil => exact .ok _
  | cons entry rest =>
    obtain ⟨key, v⟩ := entry
    cases rest with
    | nil =>
      exact .bind (wordless_keyText key) fun _ _ =>
        .bind (wordless_write spacing (level + 1) v) fun _ _ => .ok _
    | cons other rest =>
      exact .bind (wordless_keyText key) fun _ _ => .bind (wordless_write spacing (level + 1) v) fun _ _ =>
        .bind (wordless_writeEntries spacing level (other :: rest)) fun _ _ => .ok _
termination_by structural es

end

end Json

theorem Operation.wordless_record (op : Operation) : Wordless op.record := by
  rw [record]
  split
  · exact .fault .endless
  · exact .ok _

theorem wordless_planValue (nodes : List CompiledNode) : Wordless (planValue nodes) := by
  refine .bind ?_ fun _ _ => .ok _
  induction nodes with
  | nil => exact .ok []
  | cons n rest ih =>
    refine .bind (.bind ?_ fun _ _ => .ok _) fun _ _ => .bind ih fun _ _ => .ok _
    generalize n.operations = ops
    induction ops with
    | nil => exact .ok []
    | cons op ops again => exact .bind op.wordless_record fun _ _ => .bind again fun _ _ => .ok _

/-- A printout ends early as one of its lines does. -/
theorem Printout.wordless_ofLines {rows : List (Except Failure String)} {failure : Failure}
    (each : ∀ l ∈ rows, Wordless l) (failed : (ofLines rows).failure = some failure) :
    Wordless (.error failure : Except Failure Unit) := by
  induction rows with
  | nil => cases failed
  | cons l rest ih =>
    obtain ⟨here, later⟩ := List.forall_mem_cons.mp each
    cases l with
    | ok text => exact ih later failed
    | error other =>
      obtain rfl := Option.some.inj failed
      exact here.of_error rfl

namespace Preview

theorem wordless_fieldTexts (fields : List (String × Value)) : Wordless (fieldTexts fields) := by
  induction fields with
  | nil => exact .ok []
  | cons field rest ih => exact .bind (wordless_display _) fun _ _ => .bind ih fun _ _ => .ok _

theorem wordless_operationLine (op : Operation) : Wordless (operationLine op) :=
  .bind op.wordless_record fun _ _ => .bind (wordless_fieldTexts _) fun _ _ => .ok _

theorem wordless_nodeLines (n : CompiledNode) : ∀ l ∈ nodeLines n, Wordless l := by
  have autostart : ∀ l ∈ autostartLines n.autostart, Wordless l := by
    unfold autostartLines
    split
    · exact List.forall_mem_nil _
    · exact List.forall_mem_singleton.mpr (.map (wordless_text _))
  have operations : ∀ l ∈ n.operations.map operationLine, Wordless l :=
    List.forall_mem_map.mpr fun op _ => wordless_operationLine op
  rw [nodeLines]
  exact List.forall_mem_append.mpr ⟨List.forall_mem_append.mpr
    ⟨List.forall_mem_cons.mpr ⟨.ok _, autostart⟩, operations⟩, List.forall_mem_singleton.mpr (.ok _)⟩

theorem wordless_printout {nodes : List CompiledNode} {failure : Failure}
    (failed : (printout nodes).failure = some failure) :
    Wordless (.error failure : Except Failure Unit) := by
  have texts (rows : List String) : ∀ l ∈ rows.map Except.ok, Wordless l :=
    List.forall_mem_map.mpr fun row _ => .ok row
  refine Printout.wordless_ofLines (List.forall_mem_append.mpr ⟨List.forall_mem_append.mpr
    ⟨texts heading, fun l member => ?_⟩, texts (summary nodes)⟩) failed
  obtain ⟨n, -, inside⟩ := List.mem_flatMap.mp member
  exact wordless_nodeLines n l inside

end Preview

namespace Vagrant

theorem wordless_textOfPlan (plan : Value) : Wordless (textOfPlan plan) :=
  .bind (.map (Json.wordless_write _ _ plan)) fun _ _ => .ok _

end Vagrant

end MachinePlan
