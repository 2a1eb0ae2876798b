import MachinePlan.Backend.Vagrant
import MachinePlan.Proofs.Text.Lines
import MachinePlan.Value.Elements

/-!
# Reasons for failed installations

A plugin that the tool does not install is reported with a reason in one line. Whatever the tool
writes, there is such a line: the last one of what it wrote, which is not blank, or else its status
(`installation_explained`).
-/

namespace MachinePlan

namespace Vagrant

open Text

/-- What the tool says about a failed call: its errors, or else its output, without the blanks at
the ends. -/
def said (result : CommandResult) : List Char :=
  trim (if result.errors.isEmpty then result.output else result.errors).toList

/-- The reason that is given for a failed call. -/
structure Explains (result : CommandResult) (reason : String) : Prop where
  /-- Where anything is said, there is a last line. -/
  last : said result ≠ [] → Value.itemAt (Text.lines (said result)) (-1) = .ok reason.toList
  status : said result = [] → reason = "exit code " ++ toString result.status
  nonempty : reason ≠ ""
  unbroken : Unbroken reason.toList
  ends : ∀ c ∈ reason.toList.getLast?, isBlank c = false

/-- What comes of the installation of a plugin, given what the tool answers. -/
structure InstallAnswered (plugin : String) (result : CommandResult)
    (outcome : Except InstallFailure Unit) : Prop where
  succeeds : result.status = 0 → outcome = .ok ()
  fails : result.status ≠ 0 → ∃ reason, outcome = .error (.explained (.failed plugin reason)) ∧
    (PluginProblem.failed plugin reason).message =
      "Installation of plugin " ++ plugin ++ " failed: " ++ reason ∧
    Explains result reason

variable {result : CommandResult} {reason : String} {front : List Char} {c : Char}

/-! ### The status as a reason -/

/-- A numeral is a row of digits, perhaps behind a sign. -/
theorem exists_digits (i : Int) : ∃ sign ds, (toString i).toList = sign ++ ds ∧
    (sign = [] ∨ sign = ['-']) ∧ ds ≠ [] ∧ ∀ c ∈ ds, c.isDigit = true := by
  have digits (n : Nat) : ∀ c ∈ Nat.toDigits 10 n, c.isDigit = true := fun c =>
    Nat.isDigit_of_mem_toDigits (by decide) (by decide)
  rw [Int.toString_eq_repr]
  cases i with
  | ofNat n =>
    exact ⟨[], _, Nat.toList_repr, .inl rfl, Nat.toDigits_ne_nil, digits n⟩
  | negSucc n =>
    refine ⟨['-'], Nat.toDigits 10 (n + 1), ?_, .inr rfl, Nat.toDigits_ne_nil, digits (n + 1)⟩
    change ("-" ++ (n + 1).repr).toList = _
    rw [String.toList_append, Nat.toList_repr]
    rfl

theorem isBlank_of_isAsciiDigit (digit : c.isDigit = true) : isBlank c = false := by
  have range : 48 ≤ c.toNat ∧ c.toNat ≤ 57 := by
    rw [Char.isDigit, Bool.and_eq_true, decide_eq_true_eq, decide_eq_true_eq] at digit
    exact ⟨UInt32.le_iff_toNat_le.mp digit.1, UInt32.le_iff_toNat_le.mp digit.2⟩
  rw [← Bool.not_eq_true]
  simp only [isBlank, Bool.or_eq_true, Bool.and_eq_true, decide_eq_true_eq, beq_iff_eq]
  omega

/-- A reason needs a last character only. -/
theorem explains_of_concat
    (last : said result ≠ [] → Value.itemAt (Text.lines (said result)) (-1) = .ok reason.toList)
    (status : said result = [] → reason = "exit code " ++ toString result.status)
    (unbroken : Unbroken reason.toList) (split : reason.toList = front ++ [c])
    (plain : isBlank c = false) : Explains result reason where
  last := last
  status := status
  nonempty := by
    rintro rfl
    simp at split
  unbroken := unbroken
  ends := by
    rw [split, List.getLast?_concat]
    rintro _ ⟨⟩
    exact plain

theorem explains_status (silent : said result = []) :
    Explains result ("exit code " ++ toString result.status) := by
  obtain ⟨sign, ds, digits, signed, some, all⟩ := exists_digits result.status
  obtain ⟨front, c, rfl⟩ := (List.eq_nil_or_concat ds).resolve_left some
  rw [List.concat_eq_append] at digits all
  have whole : ("exit code " ++ toString result.status).toList =
      "exit code ".toList ++ sign ++ front ++ [c] := by
    rw [String.toList_append, digits]
    simp only [List.append_assoc]
  refine explains_of_concat (absurd silent) (fun _ => rfl) ?_ whole
    (isBlank_of_isAsciiDigit (all c (by simp)))
  have words : Unbroken "exit code ".toList := by decide +kernel
  have mark : Unbroken sign := by
    rcases signed with rfl | rfl <;> simp [Unbroken, isBreak]
  have number : Unbroken (front ++ [c]) := fun d member =>
    isBreak_of_not_isBlank (isBlank_of_isAsciiDigit (all d member))
  rw [whole, List.append_assoc]
  exact List.forall_mem_append.mpr ⟨List.forall_mem_append.mpr ⟨words, mark⟩, number⟩

/-! ### The last line as a reason -/

theorem itemAt_concat {α : Type} (items : List α) (x : α) :
    Value.itemAt (items ++ [x]) (-1) = .ok x := by
  have place : -1 + ((items ++ [x]).length : Int) = items.length := by
    rw [List.length_append, List.length_singleton]
    omega
  have inside : ¬ (items.length : Int) < 0 := by omega
  simp only [Value.itemAt, show (-1 : Int) < 0 by decide, if_true, place, if_neg inside,
    Int.toNat_natCast, List.getElem?_concat_length]

theorem explains_lastLine (loud : said result ≠ []) : ∃ line,
    (Text.lines (said result)).getLast? = some line ∧ Explains result (String.ofList line) := by
  obtain ⟨front, c, split, plain⟩ := exists_trim_concat loud
  change said result = _ at split
  obtain ⟨above, line, laid⟩ := exists_lines_concat (isBreak_of_not_isBlank plain) front
  rw [← split] at laid
  refine ⟨line ++ [c], by rw [laid, List.getLast?_concat], ?_⟩
  refine explains_of_concat (fun _ => ?_) (absurd · loud) ?_ String.toList_ofList plain
  · rw [laid, String.toList_ofList]
    exact itemAt_concat above (line ++ [c])
  · have member : line ++ [c] ∈ Text.lines (said result) := by
      rw [laid]
      exact List.mem_append_right above List.mem_cons_self
    rw [String.toList_ofList]
    exact unbroken_of_mem_lines member

theorem explains_installReason (result : CommandResult) :
    Explains result (installReason result) := by
  delta installReason
  dsimp only
  split
  case h_1 line last =>
    by_cases silent : said result = []
    · change (Text.lines (said result)).getLast? = _ at last
      rw [silent] at last
      cases last
    · obtain ⟨_, found, explains⟩ := explains_lastLine silent
      obtain rfl := Option.some.inj (found.symm.trans last)
      exact explains
  case h_2 nothing =>
    by_cases silent : said result = []
    · exact explains_status silent
    · obtain ⟨_, found, -⟩ := explains_lastLine silent
      cases found.symm.trans nothing

/-- The tool is asked to install a plugin; where it fails, whatever it writes, the plugin is reported
with a reason in one line that is not blank. -/
theorem installation_explained (v : Vagrant) (plugin : String) (host : Host) :
    InstallAnswered plugin (v.call ["plugin", "install", plugin] v.timeout host).1
      (v.backend.installPlugin (.str plugin) host).1 := by
  have answered : (v.backend.installPlugin (.str plugin) host).1 =
    installResult plugin (v.call ["plugin", "install", plugin] v.timeout host).1 := rfl
  rw [answered]
  generalize (v.call ["plugin", "install", plugin] v.timeout host).1 = result
  rw [installResult]
  constructor
  · exact fun done => if_pos done
  · intro failed
    exact ⟨installReason result, if_neg failed, rfl, explains_installReason result⟩

example : installReason ⟨1, "", "Resolving\n\u2028Gem not found \r\n"⟩ = "Gem not found" := by
  decide +kernel

end Vagrant

end MachinePlan
