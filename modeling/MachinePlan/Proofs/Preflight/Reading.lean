import MachinePlan.Preflight.Report
import MachinePlan.Proofs.Pairs
import MachinePlan.Proofs.Text.Pieces
import MachinePlan.Proofs.Value.Shown

/-!
# Reading reports

A report can be read back from its text (`read_text`), although the items of a report are free texts
that may look like its titles, its marks or its last line. A mark stands in front of the first line
of every item and the lines behind it are indented, so a line of an item is never empty and never a
title. The reader takes the lines of a category up to the first empty one and goes through them from
the last one up, for the indented lines belong to the first marked line above them.
-/

namespace MachinePlan

namespace Report

/-! ### A reader -/

/-- What the lines below a line show: findings, and lines that go on an item begun further up. -/
structure Reading where
  checks : Checks := {}
  behind : List String := []

/-- Read a line above lines that have been read. -/
def readLine (line : String) (below : Reading) : Reading :=
  let checks := below.checks
  match line.toList with
  | '✓' :: ' ' :: item =>
    { below with checks := { checks with passed := String.ofList item :: checks.passed } }
  | '✗' :: ' ' :: first =>
    let item := "\n".intercalate (String.ofList first :: below.behind)
    { checks := { checks with failed := item :: checks.failed } }
  | ' ' :: ' ' :: later => { below with behind := String.ofList later :: below.behind }
  | _ => below

/-- Read lines from the last one up. -/
def readLines (lines : List String) (below : Reading) : Reading := lines.foldr readLine below

/-- Read the category with a title, and what is left behind it. A category that does not stand there
has no findings. -/
def readSection (title : String) : List String → Checks × List String
  | [] => ({}, [])
  | line :: rest =>
    if line = title ++ ":" then
      ((readLines (rest.takeWhile (· != "")) {}).checks, (rest.dropWhile (· != "")).tail)
    else ({}, line :: rest)

/-- Read the categories with the given titles. -/
def readSections : List String → List String → List Checks
  | [], _ => []
  | title :: titles, lines =>
    let (checks, rest) := readSection title lines
    checks :: readSections titles rest

/-- Read a report from its text; the first three lines are its heading. -/
def read (text : String) : Report :=
  match readSections (titles.map Prod.snd) ((Text.splitString '\n' text).drop 3) with
  | [config, backend, plugins, boxes] => { config, backend, plugins, boxes }
  | _ => {}

variable {checks : Checks} {title item line : String} {lines rest : List String}
  {below : Reading} {sections : List (String × Checks)} {r : Report}

/-! ### Items -/

theorem readLine_passedLine (item : String) (below : Reading) : readLine (passedLine item) below =
    { below with checks := { below.checks with passed := item :: below.checks.passed } } := by
  simp [readLine, passedLine]

theorem readLine_first (first : String) (below : Reading) : readLine ("✗ " ++ first) below =
    { checks := { below.checks with
      failed := "\n".intercalate (first :: below.behind) :: below.checks.failed } } := by
  simp [readLine]

theorem readLine_later (later : String) (below : Reading) :
    readLine ("  " ++ later) below = { below with behind := later :: below.behind } := by
  simp [readLine]

theorem readLines_later (later : List String) (below : Reading) :
    readLines (later.map ("  " ++ ·)) below = { below with behind := later ++ below.behind } := by
  induction later with
  | nil => rfl
  | cons line later ih =>
    rw [readLines] at ih ⊢
    rw [List.map_cons, List.foldr_cons, ih, readLine_later]
    rfl

theorem exists_failedLines (item : String) : ∃ first later,
    Text.splitString '\n' item = first :: later ∧
      failedLines item = ("✗ " ++ first) :: later.map ("  " ++ ·) := by
  obtain ⟨first, later, split⟩ := List.exists_cons_of_ne_nil
    (Text.splitString_ne_nil '\n' item)
  exact ⟨first, later, split, by rw [failedLines, split]⟩

theorem readLines_failedLines (item : String) (checks : Checks) :
    readLines (failedLines item) ⟨checks, []⟩ =
      ⟨{ checks with failed := item :: checks.failed }, []⟩ := by
  obtain ⟨first, later, split, lines⟩ := exists_failedLines item
  have whole : "\n".intercalate (Text.splitString '\n' item) = item :=
    Text.intercalate_splitString rfl item
  rw [split] at whole
  have below := readLines_later later ⟨checks, []⟩
  rw [readLines] at below ⊢
  rw [lines, List.foldr_cons, below, readLine_first, List.append_nil, whole]

theorem readLines_append (lines rest : List String) (below : Reading) :
    readLines (lines ++ rest) below = readLines lines (readLines rest below) :=
  List.foldr_append

theorem readLines_failed (failed : List String) :
    readLines (failed.flatMap failedLines) {} = ⟨⟨[], failed⟩, []⟩ := by
  induction failed with
  | nil => rfl
  | cons item failed ih => rw [List.flatMap_cons, readLines_append, ih, readLines_failedLines]

theorem readLines_items (passed failed : List String) :
    readLines (passed.map passedLine ++ failed.flatMap failedLines) {} =
      ⟨⟨passed, failed⟩, []⟩ := by
  rw [readLines_append, readLines_failed]
  induction passed with
  | nil => rfl
  | cons item passed ih =>
    rw [readLines] at ih ⊢
    rw [List.map_cons, List.foldr_cons, ih, readLine_passedLine]

/-! ### Categories -/

theorem ne_empty_of_items (passed failed : List String) :
    ∀ line ∈ passed.map passedLine ++ failed.flatMap failedLines, (line != "") = true := by
  have nonempty : ∀ (mark item : String), mark ≠ "" → (mark ++ item != "") = true := by
    intro mark item some
    simp [bne_iff_ne, String.append_eq_empty_iff, some]
  refine List.forall_mem_append.mpr ⟨List.forall_mem_map.mpr fun item _ => ?_, ?_⟩
  · exact nonempty "✓ " item (by decide)
  · intro line member
    obtain ⟨item, _, member⟩ := List.mem_flatMap.mp member
    obtain ⟨first, later, -, lines⟩ := exists_failedLines item
    rw [lines, List.mem_cons, List.mem_map] at member
    obtain rfl | ⟨rest, _, rfl⟩ := member
    · exact nonempty "✗ " first (by decide)
    · exact nonempty "  " rest (by decide)

/-- A category is read from its lines, whatever stands behind it; one without findings needs that
its title does not stand there. -/
theorem readSection_categoryLines (checks : Checks)
    (apart : ∀ line ∈ rest.head?, line ≠ title ++ ":") :
    readSection title (categoryLines title checks ++ rest) = (checks, rest) := by
  obtain ⟨passed, failed⟩ := checks
  rw [categoryLines]
  split
  · rename_i none
    simp only [Bool.and_eq_true, List.isEmpty_iff] at none
    obtain ⟨rfl, rfl⟩ := none
    cases rest with
    | nil => rfl
    | cons line rest =>
      rw [List.nil_append, readSection, if_neg (apart line rfl)]
  · have inside := ne_empty_of_items passed failed
    rw [List.append_assoc, List.cons_append, List.cons_append, readSection, if_pos rfl,
      List.singleton_append, List.takeWhile_append_of_pos inside,
      List.dropWhile_append_of_pos inside]
    simp [readLines_items]

theorem head_sections {last : String} :
    ∀ line ∈ (sections.flatMap (fun s => categoryLines s.1 s.2) ++ [last]).head?,
      line = last ∨ ∃ s ∈ sections, line = s.1 ++ ":" := by
  induction sections with
  | nil =>
    intro line first
    exact .inl (Option.some.inj first).symm
  | cons s sections ih =>
    intro line first
    rw [List.flatMap_cons, categoryLines] at first
    split at first
    · obtain rfl | ⟨other, member, rfl⟩ := ih line first
      · exact .inl rfl
      · exact .inr ⟨other, List.mem_cons_of_mem _ member, rfl⟩
    · exact .inr ⟨s, List.mem_cons_self, (Option.some.inj first).symm⟩

theorem readSections_sections {last : String} (distinct : (sections.map Prod.fst).Nodup)
    (apart : ∀ s ∈ sections, s.1 ++ ":" ≠ last) :
    readSections (sections.map Prod.fst)
      (sections.flatMap (fun s => categoryLines s.1 s.2) ++ [last]) = sections.map Prod.snd := by
  induction sections with
  | nil => rfl
  | cons s sections ih =>
    obtain ⟨title, checks⟩ := s
    rw [List.map_cons, List.nodup_cons] at distinct
    rw [List.forall_mem_cons] at apart
    have first : ∀ line ∈ (sections.flatMap (fun s => categoryLines s.1 s.2) ++ [last]).head?,
        line ≠ title ++ ":" := by
      rintro _ here rfl
      obtain same | ⟨other, member, same⟩ := head_sections _ here
      · exact apart.1 same
      · rw [String.append_left_inj] at same
        exact distinct.1 (List.mem_map.mpr ⟨other, member, same.symm⟩)
    rw [List.map_cons, List.flatMap_cons, List.append_assoc, readSections,
      readSection_categoryLines checks first]
    exact congrArg (checks :: ·) (ih distinct.2 apart.2)

/-! ### Whole reports -/

/-- The findings under the titles of their categories. -/
def titled (r : Report) : List (String × Checks) :=
  [("Configuration", r.config), ("Backend", r.backend), ("Plugins", r.plugins),
    ("Box URLs", r.boxes)]

/-- Every item that has passed stands on one line. -/
def Plain (r : Report) : Prop := ∀ s ∈ r.titled, ∀ item ∈ s.2.passed, OneLine item

instance : Decidable r.Plain :=
  inferInstanceAs (Decidable (∀ s ∈ r.titled, ∀ item ∈ s.2.passed, OneLine item))

def allLines (r : Report) : List String :=
  ["", "Preflight checks:", ""] ++
    (r.titled.flatMap (fun s => categoryLines s.1 s.2) ++ [closing r.succeeded])

/-- The heading stands for three lines. -/
theorem intercalate_heading (some : rest ≠ []) :
    "\n".intercalate (heading :: rest) =
      "\n".intercalate (["", "Preflight checks:", ""] ++ rest) := by
  have spelled : heading.toList = '\n' :: "Preflight checks:".toList ++ ['\n'] := by decide
  have more : rest.map String.toList ≠ [] := by simpa using some
  rw [← String.toList_inj, String.toList_intercalate, String.toList_intercalate]
  simp only [List.map_cons, List.cons_append, List.nil_append, List.intercalate_cons_cons,
    List.intercalate_cons_of_ne_nil more, spelled]
  simp

theorem text_eq (r : Report) : r.text = "\n".intercalate r.allLines :=
  intercalate_heading (by simp)

theorem oneLine_categoryLines (named : OneLine title)
    (plain : ∀ item ∈ checks.passed, OneLine item) :
    ∀ line ∈ categoryLines title checks, OneLine line := by
  rw [categoryLines]
  split
  · exact List.forall_mem_nil _
  · refine List.forall_mem_append.mpr ⟨List.forall_mem_append.mpr ⟨?_, ?_⟩, ?_⟩
    · refine List.forall_mem_cons.mpr ⟨named.append (by decide +kernel), ?_⟩
      exact List.forall_mem_map.mpr fun item member => .append (by decide +kernel) (plain item member)
    · intro line member
      obtain ⟨item, _, member⟩ := List.mem_flatMap.mp member
      obtain ⟨first, later, split, lines⟩ := exists_failedLines item
      have pieces : ∀ piece ∈ first :: later, OneLine piece := by
        rw [← split, Text.splitString]
        exact List.forall_mem_map.mpr fun cs inside => .ofList (Text.notMem_of_mem_splitAt inside)
      rw [List.forall_mem_cons] at pieces
      rw [lines, List.mem_cons, List.mem_map] at member
      obtain rfl | ⟨rest, inside, rfl⟩ := member
      · exact .append (by decide +kernel) pieces.1
      · exact .append (by decide +kernel) (pieces.2 rest inside)
    · exact List.forall_mem_singleton.mpr (by decide)

theorem names_titled (r : Report) : r.titled.map Prod.fst = titles.map Prod.snd := rfl

theorem forall_titles {P : String → Prop} (all : ∀ title ∈ titles.map Prod.snd, P title) :
    ∀ s ∈ r.titled, P s.1 := by
  intro s member
  refine all s.1 ?_
  rw [← r.names_titled]
  exact List.mem_map_of_mem member

theorem splitString_text (plain : r.Plain) : Text.splitString '\n' r.text = r.allLines := by
  rw [text_eq]
  refine Text.splitString_intercalate rfl ?_ (List.cons_ne_nil _ _)
  refine List.forall_mem_append.mpr ⟨by decide, List.forall_mem_append.mpr ⟨?_, ?_⟩⟩
  · have titles : ∀ s ∈ r.titled, OneLine s.1 := forall_titles (by decide +kernel)
    intro line member
    obtain ⟨s, inside, member⟩ := List.mem_flatMap.mp member
    exact oneLine_categoryLines (titles s inside) (plain s inside) line member
  · rw [List.forall_mem_singleton]
    cases r.succeeded <;> decide +kernel

/-- A report is what can be read in its text. -/
theorem read_text (plain : r.Plain) : read r.text = r := by
  have apart : ∀ s ∈ r.titled, s.1 ++ ":" ≠ closing r.succeeded :=
    forall_titles (P := fun title => title ++ ":" ≠ closing r.succeeded)
      (by cases r.succeeded <;> decide)
  have distinct : (r.titled.map Prod.fst).Nodup := by
    rw [names_titled]
    decide
  have found := readSections_sections distinct apart
  rw [read, splitString_text plain]
  change (match readSections (r.titled.map Prod.fst)
    (r.titled.flatMap (fun s => categoryLines s.1 s.2) ++ [closing r.succeeded]) with
    | [config, backend, plugins, boxes] => (⟨config, backend, plugins, boxes⟩ : Report)
    | _ => {}) = r
  rw [found]
  rfl

/-! ### Marks and the last line -/

/-- A line that begins with the mark of failures. -/
def isMarked (line : String) : Bool := line.toList.head? == some '✗'

def failedCount (r : Report) : Nat := (r.titled.flatMap fun s => s.2.failed).length

theorem countP_failedLines (item : String) : (failedLines item).countP isMarked = 1 := by
  obtain ⟨first, later, -, lines⟩ := exists_failedLines item
  have marked : isMarked ("✗ " ++ first) = true := by simp [isMarked]
  have below : (later.map ("  " ++ ·)).countP isMarked = 0 := by
    simp [List.countP_eq_zero, isMarked]
  rw [lines, List.countP_cons_of_pos marked, below]

theorem countP_categoryLines (plain : isMarked (title ++ ":") = false) (checks : Checks) :
    (categoryLines title checks).countP isMarked = checks.failed.length := by
  have passed : (checks.passed.map passedLine).countP isMarked = 0 := by
    simp [List.countP_eq_zero, isMarked, passedLine]
  have failed : (checks.failed.flatMap failedLines).countP isMarked = checks.failed.length := by
    induction checks.failed with
    | nil => rfl
    | cons item failed ih =>
      rw [List.flatMap_cons, List.countP_append, countP_failedLines, ih, List.length_cons,
        Nat.add_comm]
  rw [categoryLines]
  split
  · rename_i none
    simp only [Bool.and_eq_true, List.isEmpty_iff] at none
    rw [none.2]
    rfl
  · rw [List.countP_append, List.countP_append, List.countP_cons_of_neg (by simp [plain]), passed,
      failed]
    simp [isMarked]

theorem countP_allLines (r : Report) : r.allLines.countP isMarked = r.failedCount := by
  have titles : ∀ s ∈ r.titled, isMarked (s.1 ++ ":") = false :=
    forall_titles (P := fun title => isMarked (title ++ ":") = false) (by decide)
  have last : [closing r.succeeded].countP isMarked = 0 := by
    cases r.succeeded <;> decide
  rw [allLines, List.countP_append, List.countP_append, last, List.countP_flatMap, failedCount,
    List.length_flatMap]
  have head : ["", "Preflight checks:", ""].countP isMarked = 0 := by decide
  rw [head, Nat.zero_add, Nat.add_zero]
  refine congrArg List.sum (List.map_congr_left fun s member => ?_)
  exact countP_categoryLines (titles s member) s.2

theorem failedCount_eq_zero : r.failedCount = 0 ↔ r.succeeded = true := by
  simp [failedCount, titled, succeeded, categories]

def EndsWith (text last : String) : Prop := last.toList <:+ text.toList

theorem endsWith_text_iff (r : Report) :
    EndsWith r.text "All checks passed." ↔ r.succeeded = true := by
  have ends : (closing r.succeeded).toList <:+ r.text.toList := by
    rw [text_eq, String.toList_intercalate, allLines, ← List.append_assoc, List.map_append]
    exact Text.suffix_intercalate _ _ _
  cases done : r.succeeded with
  | true =>
    rw [done] at ends
    exact iff_of_true ends rfl
  | false =>
    rw [done] at ends
    refine iff_of_false (fun other => ?_) Bool.false_ne_true
    have inside := List.suffix_of_suffix_length_le other ends (by decide)
    revert inside
    decide

end Report

/-! ### Findings of any origin -/

namespace Findings

variable {f g : Findings} {key : String}

def checks (f : Findings) (key : String) : Checks :=
  match f.lookup key with
  | some found => { passed := found.passed.getD [], failed := found.failed.getD [] }
  | none => {}

def report (f : Findings) : Report :=
  { config := f.checks "config", backend := f.checks "backend", plugins := f.checks "plugins",
    boxes := f.checks "boxes" }

/-- Complete findings of some of the four categories, of each of them once. -/
structure Regular (f : Findings) : Prop where
  known : ∀ e ∈ f, e.1 ∈ Report.titles.map Prod.fst
  distinct : (f.map Prod.fst).Nodup
  complete : ∀ e ∈ f, ∃ passed failed, e.2 = ⟨some passed, some failed⟩

theorem lines_of_complete (complete : ∀ e ∈ f, ∃ passed failed, e.2 = ⟨some passed, some failed⟩)
    (titles : List (String × String)) : f.lines titles =
      .ok (titles.flatMap fun (key, title) => Report.categoryLines title (f.checks key)) := by
  induction titles with
  | nil => rfl
  | cons entry titles ih =>
    obtain ⟨key, title⟩ := entry
    rw [lines]
    change _ = Except.ok (Report.categoryLines title (f.checks key) ++ _)
    cases found : f.lookup key with
    | none =>
      have own : f.checks key = {} := by rw [checks, found]
      rw [own]
      exact ih
    | some loose =>
      obtain ⟨passed, failed, same⟩ := complete _ (mem_of_lookup_pair found)
      obtain rfl : loose = ⟨some passed, some failed⟩ := same
      have own : f.checks key = ⟨passed, failed⟩ := by rw [checks, found]; rfl
      rw [own, ih]
      rfl

theorem succeeded_of_complete
    (complete : ∀ e ∈ f, ∃ passed failed, e.2 = ⟨some passed, some failed⟩) :
    f.succeeded = .ok (f.all fun e => (e.2.failed.getD []).isEmpty) := by
  induction f with
  | nil => rfl
  | cons e f ih =>
    rw [List.forall_mem_cons] at complete
    obtain ⟨⟨passed, failed, same⟩, complete⟩ := complete
    obtain ⟨key, loose⟩ := e
    obtain rfl : loose = ⟨some passed, some failed⟩ := same
    cases failed with
    | nil => exact ih complete
    | cons item failed => rfl

theorem Regular.checks_of_mem (regular : f.Regular) {loose : LooseChecks}
    (member : (key, loose) ∈ f) : f.checks key = ⟨loose.passed.getD [], loose.failed.getD []⟩ := by
  rw [checks, lookup_pair_of_mem regular.distinct member]

theorem Regular.succeeded (regular : f.Regular) : f.succeeded = .ok f.report.succeeded := by
  rw [succeeded_of_complete regular.complete]
  congr 1
  have none_failed : f.report.succeeded = true ↔
      ∀ key ∈ Report.titles.map Prod.fst, (f.checks key).failed = [] := by
    simp [Report.succeeded, Report.categories, Report.titles, report]
  rw [Bool.eq_iff_iff, none_failed, List.all_eq_true]
  constructor
  · intro all key _
    cases found : f.lookup key with
    | none => rw [checks, found]
    | some loose =>
      have member := mem_of_lookup_pair found
      rw [regular.checks_of_mem member]
      exact List.isEmpty_iff.mp (all _ member)
  · rintro all ⟨key, loose⟩ member
    have own := all key (regular.known _ member)
    rw [regular.checks_of_mem member] at own
    exact List.isEmpty_iff.mpr own

theorem Regular.text (regular : f.Regular) : f.text = .ok f.report.text := by
  rw [Findings.text, lines_of_complete regular.complete, regular.succeeded]
  rfl

theorem Regular.checks_eq (regular : f.Regular) (other : g.Regular) (same : f.report = g.report)
    (key : String) : f.checks key = g.checks key := by
  have known : ∀ key ∈ Report.titles.map Prod.fst, f.checks key = g.checks key := by
    have config : f.checks "config" = g.checks "config" := congrArg Report.config same
    have backend : f.checks "backend" = g.checks "backend" := congrArg Report.backend same
    have plugins : f.checks "plugins" = g.checks "plugins" := congrArg Report.plugins same
    have boxes : f.checks "boxes" = g.checks "boxes" := congrArg Report.boxes same
    simp [Report.titles, config, backend, plugins, boxes]
  by_cases titled : key ∈ Report.titles.map Prod.fst
  · exact known key titled
  · have absent {h : Findings} (regular : h.Regular) : h.lookup key = none := by
      refine lookup_eq_none_of_notMem fun member => titled ?_
      obtain ⟨e, inside, rfl⟩ := List.mem_map.mp member
      exact regular.known e inside
    rw [checks, checks, absent regular, absent other]

def ofReport (r : Report) : Findings :=
  r.categories.map fun (key, checks) => (key, ⟨some checks.passed, some checks.failed⟩)

theorem regular_ofReport (r : Report) : (ofReport r).Regular where
  known := by simp [ofReport, Report.categories, Report.titles]
  distinct := show ["config", "backend", "plugins", "boxes"].Nodup by decide
  complete := by simp [ofReport, Report.categories]

theorem text_ofReport (r : Report) : (ofReport r).text = .ok r.text :=
  (regular_ofReport r).text

end Findings

end MachinePlan
