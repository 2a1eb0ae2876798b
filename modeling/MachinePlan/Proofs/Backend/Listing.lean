import MachinePlan.Backend.Vagrant
import MachinePlan.Proofs.Text.Lines
import Mathlib.Data.List.TakeWhile

/-!
# Listings of plugins

The tool lists its plugins line by line, each by its name and details in parentheses, with notes on
it below. Reading gives back the names of every listing that is written so, and from any text at all
nothing but the words in front of a parenthesis (`installedPlugins_read`).
-/

namespace MachinePlan

namespace Vagrant

open Text

/-- A line below a plugin: a blank one, or one that tells which versions are asked for. -/
inductive IsNote : List Char → Prop
  | blank {line : List Char} (blank : ∀ c ∈ line, isBlank c = true) : IsNote line
  | constraint {indent : List Char} (text : List Char) (blank : ∀ c ∈ indent, isBlank c = true) :
      IsNote (indent ++ "- Version Constraint:".toList ++ text)

/-- A plugin as it is listed. -/
structure Listed where
  name : String
  details : List Char
  notes : List (List Char)
  nonempty : name.toList ≠ []
  word : ∀ c ∈ name.toList, isPluginChar c = true
  unbroken : Unbroken details ∧ ∀ note ∈ notes, Unbroken note
  noted : ∀ note ∈ notes, IsNote note

namespace Listed

def heading (p : Listed) : List Char := p.name.toList ++ " (".toList ++ p.details ++ [')']

def lines (p : Listed) : List (List Char) := p.heading :: p.notes

end Listed

/-- A line that names a plugin. -/
structure Names (line : List Char) (name : String) : Prop where
  nonempty : name.toList ≠ []
  word : ∀ c ∈ name.toList, isPluginChar c = true
  /-- Blanks and an opening parenthesis follow the name in the trimmed line. -/
  followed : ∃ blanks rest, trim line = name.toList ++ blanks ++ '(' :: rest ∧ blanks ≠ [] ∧
    ∀ c ∈ blanks, isBlank c = true

/-- The names that lines give, in order: one for each line that names a plugin, and no others. -/
inductive Gathered : List (List Char) → List String → Prop
  | nil : Gathered [] []
  | takes {line : List Char} {name : String} {rows : List (List Char)} {names : List String}
      (here : Names line name) (rest : Gathered rows names) : Gathered (line :: rows) (name :: names)
  | passes {line : List Char} {rows : List (List Char)} {names : List String}
      (none : ∀ name, ¬ Names line name) (rest : Gathered rows names) : Gathered (line :: rows) names

/-- What the answer of the tool is read as. -/
structure ReadsListing (answer : CommandResult) (names : List String) : Prop where
  failed : answer.status ≠ 0 → names = []
  listed : answer.status = 0 → ∀ plugins : List Listed,
    LaidOut (plugins.flatMap Listed.lines) answer.output.toList → names = plugins.map Listed.name
  gathered : answer.status = 0 → Gathered (Text.lines answer.output.toList) names

variable {c : Char} {line text rest : List Char} {name : String} {rows : List (List Char)}

/-! ### Characters -/

theorem isPluginChar_of_isBlank (blank : isBlank c = true) : isPluginChar c = false := by
  rw [Bool.eq_false_iff]
  intro word
  have apart (d : Char) (other : isBlank d = false) : c ≠ d := by
    rintro rfl
    rw [blank] at other
    cases other
  have letter : 48 ≤ c.toNat ∧ c.toNat ≤ 57 ∨ 65 ≤ c.toNat ∧ c.toNat ≤ 90 ∨
      97 ≤ c.toNat ∧ c.toNat ≤ 122 := by
    simp only [isPluginChar, isAsciiDigit, Bool.or_eq_true, Bool.and_eq_true, decide_eq_true_eq,
      apart '_' (by decide), apart '.' (by decide), apart '-' (by decide), or_false] at word
    rcases word with (⟨low, high⟩ | ⟨low, high⟩) | ⟨low, high⟩
    · exact .inr (.inl ⟨UInt32.le_iff_toNat_le.mp low, UInt32.le_iff_toNat_le.mp high⟩)
    · exact .inr (.inr ⟨UInt32.le_iff_toNat_le.mp low, UInt32.le_iff_toNat_le.mp high⟩)
    · exact .inl ⟨UInt32.le_iff_toNat_le.mp low, UInt32.le_iff_toNat_le.mp high⟩
  simp only [isBlank, Bool.or_eq_true, Bool.and_eq_true, decide_eq_true_eq, beq_iff_eq] at blank
  omega

/-! ### Lines -/

theorem pluginOfLine?_of_names (names : Names line name) : pluginOfLine? line = some name := by
  obtain ⟨blanks, rest, trimmed, nonempty, blank⟩ := names.followed
  obtain ⟨c, more, rfl⟩ := List.exists_cons_of_ne_nil nonempty
  have stop : ((c :: more) ++ '(' :: rest).takeWhile isPluginChar = [] := by
    rw [List.cons_append, List.takeWhile_cons_of_neg]
    simp [isPluginChar_of_isBlank (blank c List.mem_cons_self)]
  have taken : (trim line).takeWhile isPluginChar = name.toList := by
    rw [trimmed, List.append_assoc, List.takeWhile_append_of_pos names.word, stop, List.append_nil]
  have left : (trim line).dropWhile isPluginChar = (c :: more) ++ '(' :: rest := by
    rw [trimmed, List.append_assoc, List.dropWhile_append_of_pos names.word]
    refine List.dropWhile_cons_of_neg ?_
    simp [isPluginChar_of_isBlank (blank c List.mem_cons_self)]
  have opened : (((c :: more) ++ '(' :: rest).dropWhile isBlank).head? = some '(' := by
    rw [List.dropWhile_append_of_pos blank]
    rfl
  unfold pluginOfLine?
  simp only [taken, left, opened, String.ofList_toList]
  simp [names.nonempty, blank c List.mem_cons_self]

theorem names_of_pluginOfLine? (found : pluginOfLine? line = some name) : Names line name := by
  unfold pluginOfLine? at found
  simp only [Option.ite_none_left_eq_some, Option.ite_none_right_eq_some, Option.some.injEq,
    Bool.or_eq_true, not_or, Bool.not_eq_true', Bool.not_eq_false] at found
  obtain ⟨⟨nonempty, follows⟩, opened, rfl⟩ := found
  set word := (trim line).takeWhile isPluginChar
  set rest := (trim line).dropWhile isPluginChar with after
  obtain ⟨behind, open'⟩ := List.head?_eq_some_iff.mp opened
  refine ⟨?_, ?_, rest.takeWhile isBlank, behind, ?_, ?_, ?_⟩
  · simpa using nonempty
  · rw [String.toList_ofList]
    exact fun c => List.mem_takeWhile_imp
  · rw [String.toList_ofList, ← open', List.append_assoc, List.takeWhile_append_dropWhile, after,
      List.takeWhile_append_dropWhile]
  · cases front : rest with
    | nil => simp [front] at follows
    | cons c more =>
      rw [front] at follows
      have first : isBlank c = true := by simpa using follows
      simp [first]
  · exact fun c => List.mem_takeWhile_imp

theorem pluginOfLine?_eq_some_iff : pluginOfLine? line = some name ↔ Names line name :=
  ⟨names_of_pluginOfLine?, pluginOfLine?_of_names⟩

theorem names_heading (p : Listed) : Names p.heading p.name := by
  obtain ⟨c, more, split⟩ := List.exists_cons_of_ne_nil p.nonempty
  have trimmed : trim ([] ++ p.heading ++ []) = p.heading := by
    refine trimBy_between (by simp) (by simp) (by simp [Listed.heading]) ?_ ?_
    · intro d head
      have first : d = c := by simpa [Listed.heading, split] using head.symm
      rw [first, ← Bool.not_eq_true]
      intro blank
      have word := p.word c (by rw [split]; exact List.mem_cons_self)
      rw [isPluginChar_of_isBlank blank] at word
      cases word
    · intro d last
      rw [Listed.heading, List.getLast?_concat] at last
      rw [← Option.some.inj last]
      decide
  rw [List.nil_append, List.append_nil] at trimmed
  refine ⟨p.nonempty, p.word, [' '], p.details ++ [')'], ?_, by simp, by simp [isBlank_space]⟩
  rw [trimmed]
  simp [Listed.heading]

/-- A hyphen, a blank and a letter do not look like a plugin. -/
theorem pluginOfLine?_of_note (note : IsNote line) : pluginOfLine? line = none := by
  cases note with
  | blank blank =>
    unfold pluginOfLine?
    rw [trim_of_blank blank]
    rfl
  | constraint text blank =>
    have first : ∀ c ∈ "- Version Constraint:".toList.head?, isBlank c = false := by
      rintro c ⟨⟩
      rfl
    have last : ∀ c ∈ "- Version Constraint:".toList.getLast?, isBlank c = false := by
      rintro c ⟨⟩
      rfl
    obtain ⟨tail, trimmed⟩ : ∃ tail, trim _ = "- Version Constraint:".toList ++ tail :=
      exists_trimBy_core blank (by decide) first last text
    unfold pluginOfLine?
    rw [trimmed]
    rfl

theorem filterMap_lines_listed (p : Listed) :
    p.lines.filterMap pluginOfLine? = [p.name] := by
  have none : p.notes.filterMap pluginOfLine? = [] :=
    List.filterMap_eq_nil_iff.mpr fun note member => pluginOfLine?_of_note (p.noted note member)
  rw [Listed.lines, List.filterMap_cons_some (pluginOfLine?_of_names (names_heading p)), none]

theorem unbroken_heading (p : Listed) : Unbroken p.heading := by
  have word : Unbroken p.name.toList := by
    intro c member
    rw [← Bool.not_eq_true]
    intro ends
    have named := p.word c member
    rw [isPluginChar_of_isBlank (isBlank_of_isBreak ends)] at named
    cases named
  have opening : Unbroken " (".toList := by simp [Unbroken, isBreak]
  have closing : Unbroken [')'] := by simp [Unbroken, isBreak]
  unfold Listed.heading Unbroken
  simp only [List.forall_mem_append]
  exact ⟨⟨⟨word, opening⟩, p.unbroken.1⟩, closing⟩

theorem filterMap_lines_of_listed (plugins : List Listed)
    (laid : LaidOut (plugins.flatMap Listed.lines) text) :
    (Text.lines text).filterMap pluginOfLine? = plugins.map Listed.name := by
  have unbroken : ∀ line ∈ plugins.flatMap Listed.lines, Unbroken line := by
    intro line member
    obtain ⟨p, -, member⟩ := List.mem_flatMap.mp member
    rcases List.mem_cons.mp member with rfl | member
    · exact unbroken_heading p
    · exact p.unbroken.2 line member
  rw [filterMap_lines laid unbroken rfl]
  clear laid unbroken
  induction plugins with
  | nil => rfl
  | cons p plugins ih =>
    rw [List.flatMap_cons, List.filterMap_append, filterMap_lines_listed, ih]
    rfl

theorem gathered_filterMap (rows : List (List Char)) :
    Gathered rows (rows.filterMap pluginOfLine?) := by
  induction rows with
  | nil => exact .nil
  | cons line rows ih =>
    rw [List.filterMap_cons]
    cases found : pluginOfLine? line with
    | none =>
      refine .passes (fun name names => ?_) ih
      rw [pluginOfLine?_eq_some_iff.mpr names] at found
      cases found
    | some name => exact .takes (pluginOfLine?_eq_some_iff.mp found) ih

/-- The names of every listing are read back, from any text only words in front of a parenthesis
are read, and from a failed call nothing. -/
theorem installedPlugins_read (v : Vagrant) (host : Host) : ∃ names : List String,
    (v.backend.installedPlugins host).1 = names.map .str ∧
    ReadsListing (v.call ["plugin", "list"] pluginsTimeout host).1 names := by
  refine ⟨pluginsListed (v.call ["plugin", "list"] pluginsTimeout host).1, rfl, ?_⟩
  unfold pluginsListed
  exact {
    failed := fun failed => if_neg failed
    listed := fun ran plugins laid => by rw [if_pos ran, filterMap_lines_of_listed plugins laid]
    gathered := fun ran => by rw [if_pos ran]; exact gathered_filterMap _ }

example : pluginsListed ⟨0, "vagrant-hostmanager (1.8.9, global)\n  - Version Constraint: > 0\n\n" ++
    "vbguest 0.32.0\nvagrant-env\t(0.0.3)", ""⟩ = ["vagrant-hostmanager", "vagrant-env"] := by
  decide +kernel

end Vagrant

end MachinePlan
