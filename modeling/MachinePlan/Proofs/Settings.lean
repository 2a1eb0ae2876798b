import MachinePlan.Proofs.Path
import MachinePlan.Settings

/-!
# Where settings come from

Each setting is the first text of three that is not empty: the argument, the variable and the
default. Files and directories are read from the root unless they are absolute. What is printed of
the settings can be read back, and from an absolute root all settings come back from what is printed
of them (`resolve_resolved`).
-/

namespace MachinePlan

namespace SettingTexts

def fields : List (SettingTexts → String) :=
  [root, configFile, localConfigFile, hooksDirectory, versionConstraint, planFile]

end SettingTexts

namespace Settings

open MachinePlan.Path

def paths : List (Settings → Path) := [root, configFile, localConfigFile, hooksDirectory, planFile]

/-- The texts of the settings that are read from the root, and the paths that they become. -/
def placed : List ((SettingTexts → String) × (Settings → Path)) :=
  [(SettingTexts.configFile, configFile), (SettingTexts.localConfigFile, localConfigFile),
    (SettingTexts.hooksDirectory, hooksDirectory), (SettingTexts.planFile, planFile)]

def printed (s : Settings) : SettingTexts where
  root := s.root.text
  configFile := s.configFile.text
  localConfigFile := s.localConfigFile.text
  hooksDirectory := s.hooksDirectory.text
  versionConstraint := s.versionConstraint
  planFile := s.planFile.text

/-- The first of some texts that says anything. -/
def IsFirst (candidates : List String) (text : String) : Prop :=
  ∃ before after, candidates = before ++ text :: after ∧ (∀ other ∈ before, other = "") ∧ text ≠ ""

/-- A text is read as a path from a directory. -/
inductive ReadFrom (directory : Path) (text : String) (p : Path) : Prop
  | absolute (denotes : Denotes text p) (root : p.root ≠ .none)
  | relative {q : Path} (denotes : Denotes text q) (free : q.root = .none)
      (root : p.root = directory.root) (parts : p.parts = directory.parts ++ q.parts)

/-- Settings that are resolved from arguments and variables in a current directory. -/
structure Resolved (arguments : SettingTexts) (environment : String → String) (here : Path)
    (s : Settings) : Prop where
  chosen : ∃ texts : SettingTexts,
    (∀ field ∈ SettingTexts.fields, IsFirst
      [field arguments, field (ofEnvironment environment), field (defaults here)] (field texts)) ∧
    Denotes texts.root s.root ∧ s.versionConstraint = texts.versionConstraint ∧
    ∀ place ∈ placed, ReadFrom s.root (place.1 texts) (place.2 s)
  /-- What is printed of a path is read as that path. -/
  readable : ∀ path ∈ paths, ofString (path s).text = path s
  /-- Under an absolute root the printed settings stand for themselves, whatever the variables and
  wherever they are read. -/
  again : s.root.root ≠ .none → ∀ environment here, resolve s.printed environment here = s

variable {arguments texts : SettingTexts} {environment : String → String} {here directory p : Path}
  {s : Settings} {text : String}

theorem forall_fields {P : (SettingTexts → String) → Prop} :
    (∀ field ∈ SettingTexts.fields, P field) ↔
      P SettingTexts.root ∧ P SettingTexts.configFile ∧ P SettingTexts.localConfigFile ∧
        P SettingTexts.hooksDirectory ∧ P SettingTexts.versionConstraint ∧
          P SettingTexts.planFile := by
  simp [SettingTexts.fields]

theorem forall_paths {P : (Settings → Path) → Prop} :
    (∀ path ∈ paths, P path) ↔
      P root ∧ P configFile ∧ P localConfigFile ∧ P hooksDirectory ∧ P planFile := by
  simp [paths]

/-! ### The first text that says anything -/

theorem firstOf_of_ne (some : text ≠ "") (other : String) : firstOf text other = text := by
  unfold firstOf
  rw [if_neg (by simpa using some)]

theorem isFirst_firstOf (given set preset : String) (some : preset ≠ "") :
    IsFirst [given, set, preset] (firstOf (firstOf given set) preset) := by
  unfold firstOf
  by_cases first : given = ""
  · by_cases second : set = ""
    · exact ⟨[given, set], [], by simp [first, second], by simp [first, second],
        by simp [first, second, some]⟩
    · exact ⟨[given], [preset], by simp [first, second], by simp [first],
        by simp [first, second]⟩
  · exact ⟨[], [set, preset], by simp [first], by simp, by simp [first]⟩

theorem IsFirst.ne_empty {candidates : List String} (first : IsFirst candidates text) :
    text ≠ "" := by
  obtain ⟨_, _, _, _, some⟩ := first
  exact some

theorem field_fill (texts others : SettingTexts) :
    ∀ field ∈ SettingTexts.fields, field (fill texts others) = firstOf (field texts) (field others) :=
  forall_fields.mpr ⟨rfl, rfl, rfl, rfl, rfl, rfl⟩

theorem field_defaults (normal : here.Normal) :
    ∀ field ∈ SettingTexts.fields, field (defaults here) ≠ "" := by
  refine forall_fields.mpr ⟨text_ne_empty normal, ?_⟩
  simp only [defaults]
  decide

theorem isFirst_fill (normal : here.Normal) (arguments : SettingTexts)
    (environment : String → String) : ∀ field ∈ SettingTexts.fields, IsFirst
      [field arguments, field (ofEnvironment environment), field (defaults here)]
      (field (fill (fill arguments (ofEnvironment environment)) (defaults here))) := by
  intro field member
  rw [field_fill _ _ field member, field_fill _ _ field member]
  exact isFirst_firstOf _ _ _ (field_defaults normal field member)

/-- Texts that say something about everything leave nothing to the variables and the defaults. -/
theorem resolve_of_ne (some : ∀ field ∈ SettingTexts.fields, field texts ≠ "") :
    resolve texts environment here = ofTexts texts := by
  obtain ⟨root, configFile, localConfigFile, hooksDirectory, versionConstraint, planFile⟩ :=
    forall_fields.mp some
  simp only [resolve, fill, firstOf_of_ne, root, configFile, localConfigFile, hooksDirectory,
    versionConstraint, planFile, ne_eq, not_false_eq_true]

/-! ### Paths read from the root -/

theorem readFrom_join (directory : Path) (text : String) :
    ReadFrom directory text (directory.join (ofString text)) := by
  have denotes := denotes_ofString text
  unfold join isAbsolute
  by_cases root : (ofString text).root = .none
  · rw [if_neg (by simpa using root)]
    exact .relative denotes root rfl rfl
  · rw [if_pos (by simpa using root)]
    exact .absolute denotes root

/-- An absolute directory makes every path absolute. -/
theorem root_join (root : directory.root ≠ .none) (p : Path) : (directory.join p).root ≠ .none := by
  unfold join isAbsolute
  split
  · rename_i absolute
    simpa using absolute
  · exact root

theorem join_of_absolute (root : p.root ≠ .none) : directory.join p = p := by
  unfold join isAbsolute
  rw [if_pos (by simpa using root)]

theorem ofTexts_placed (texts : SettingTexts) :
    ∀ place ∈ placed, ReadFrom (ofTexts texts).root (place.1 texts) (place.2 (ofTexts texts)) := by
  simp only [placed, List.forall_mem_cons, List.not_mem_nil, false_imp_iff, implies_true, and_true]
  exact ⟨readFrom_join _ _, readFrom_join _ _, readFrom_join _ _, readFrom_join _ _⟩

theorem ofTexts_normal (texts : SettingTexts) : ∀ path ∈ paths, (path (ofTexts texts)).Normal := by
  have below (text : String) : ((ofTexts texts).root.join (ofString text)).Normal :=
    (normal_ofString texts.root).join (normal_ofString text)
  exact forall_paths.mpr ⟨normal_ofString _, below _, below _, below _, below _⟩

theorem ofTexts_absolute (root : (ofTexts texts).root.root ≠ .none) :
    ∀ path ∈ paths, (path (ofTexts texts)).root ≠ .none :=
  forall_paths.mpr ⟨root, root_join root _, root_join root _, root_join root _, root_join root _⟩

/-! ### Settings read back -/

theorem printed_ne_empty (normal : ∀ path ∈ paths, (path s).Normal)
    (versionConstraint : s.versionConstraint ≠ "") :
    ∀ field ∈ SettingTexts.fields, field s.printed ≠ "" := by
  obtain ⟨root, configFile, localConfigFile, hooksDirectory, planFile⟩ := forall_paths.mp normal
  exact forall_fields.mpr ⟨text_ne_empty root, text_ne_empty configFile,
    text_ne_empty localConfigFile, text_ne_empty hooksDirectory, versionConstraint,
    text_ne_empty planFile⟩

/-- Absolute paths are printed and read back one by one; the root adds nothing to them. -/
theorem ofTexts_printed (normal : ∀ path ∈ paths, (path s).Normal)
    (absolute : ∀ path ∈ paths, (path s).root ≠ .none) : ofTexts s.printed = s := by
  have back : ∀ path ∈ paths, s.root.join (ofString (path s).text) = path s := by
    intro path member
    rw [ofString_text (normal path member), join_of_absolute (absolute path member)]
  obtain ⟨_, configFile, localConfigFile, hooksDirectory, planFile⟩ := forall_paths.mp back
  have root : ofString s.root.text = s.root := ofString_text (forall_paths.mp normal).1
  simp only [ofTexts, printed, root, configFile, localConfigFile, hooksDirectory, planFile]

/-- Every setting is the first text that says anything, files and directories are read from the
root, and the settings can be read back from what is printed of them. -/
theorem resolve_resolved (arguments : SettingTexts) (environment : String → String) (cwd : String) :
    Resolved arguments environment (.ofString cwd)
      (resolve arguments environment (.ofString cwd)) := by
  have chosen := isFirst_fill (normal_ofString cwd) arguments environment
  unfold resolve
  generalize fill (fill arguments (ofEnvironment environment)) (defaults (.ofString cwd)) = texts
    at chosen ⊢
  have normal := ofTexts_normal texts
  constructor
  case chosen =>
    exact ⟨texts, chosen, denotes_ofString texts.root, rfl, ofTexts_placed texts⟩
  case readable =>
    intro path member
    exact ofString_text (normal path member)
  case again =>
    intro root environment here
    have constraint : (ofTexts texts).versionConstraint ≠ "" :=
      (forall_fields.mp chosen).2.2.2.2.1.ne_empty
    rw [resolve_of_ne (printed_ne_empty normal constraint),
      ofTexts_printed normal (ofTexts_absolute root)]

end Settings

end MachinePlan
