import MachinePlan.Files.Change

/-!
# Changing a file tree

Making directories adds directories and nothing else (`made_of_makeDirectories`), and paths lead
where they led before. A text can be written wherever the directory above is there and the path
leads to no directory (`writeText_eq_put`); it is then read from the same path again
(`readBytes_of_writeText`).
-/

namespace MachinePlan.Files

/-- Whatever stands somewhere stands in a directory. -/
def IsTree (fs : Files) : Prop :=
  ∀ location entry, fs.entry? location = some entry → fs.entry? location.dropLast = some .directory

/-- The second tree is the first one with some directories added. -/
structure Grown (before after : Files) : Prop where
  here_eq : after.here = before.here
  entry_eq : ∀ location, after.entry? location = before.entry? location ∨
    before.entry? location = none ∧ after.entry? location = some .directory

/-- The second tree is the first one with the directories for a path added. -/
structure Made (p : Path) (before after : Files) : Prop where
  grown : Grown before after
  isDirectory : after.isDirectory p = true
  isTree : before.IsTree → after.IsTree

variable {fs gs hs : Files} {p : Path} {location other : Location} {entry : Entry} {text : String}

/-! ### Places -/

@[simp] theorem entry?_nil : fs.entry? [] = some .directory := rfl

theorem lookup_putEntry (entries : List (Location × Entry)) :
    (putEntry location entry entries).lookup other =
      if other = location then some entry else entries.lookup other := by
  have lookup_cons : ∀ place (old : Entry) rest, List.lookup other ((place, old) :: rest) =
      if other = place then some old else rest.lookup other := by
    intro place old rest
    by_cases same : other = place
    · rw [if_pos same, same, List.lookup_cons_self]
    · rw [if_neg same, List.lookup_cons, beq_eq_false_iff_ne.mpr same]
  induction entries with
  | nil => exact lookup_cons location entry []
  | cons first rest ih =>
    obtain ⟨place, old⟩ := first
    rw [putEntry]
    by_cases here : place = location
    · subst here
      rw [if_pos rfl, lookup_cons, lookup_cons]
      split <;> rfl
    · rw [if_neg here, lookup_cons, lookup_cons, ih]
      by_cases same : other = place
      · rw [if_pos same, if_pos same, if_neg (fun there => here (same ▸ there))]
      · rw [if_neg same, if_neg same]

theorem entry?_put (inside : location ≠ []) :
    Files.entry? (fs.put location entry) other =
      if other = location then some entry else fs.entry? other := by
  unfold entry?
  cases other with
  | nil =>
    rw [if_neg inside.symm]
    rfl
  | cons => exact lookup_putEntry fs.entries

theorem entry?_put_self (inside : location ≠ []) :
    Files.entry? (fs.put location entry) location = some entry := by
  rw [entry?_put inside, if_pos rfl]

theorem entry?_put_of_ne (inside : location ≠ []) (different : other ≠ location) :
    Files.entry? (fs.put location entry) other = fs.entry? other := by
  rw [entry?_put inside, if_neg different]

/-- A place that holds no directory is not the root. -/
theorem ne_nil_of_free (free : fs.entry? location ≠ some .directory) : location ≠ [] := by
  rintro rfl
  exact free entry?_nil

/-- What is put beside the directories leaves every one of them. -/
theorem directory_put (free : fs.entry? location ≠ some .directory)
    (there : fs.entry? other = some .directory) :
    Files.entry? (fs.put location entry) other = some .directory := by
  have different : other ≠ location := by
    rintro rfl
    exact free there
  rw [entry?_put_of_ne (ne_nil_of_free free) different, there]

theorem isTree_put (tree : fs.IsTree) (above : fs.entry? location.dropLast = some .directory)
    (free : fs.entry? location ≠ some .directory) : (fs.put location entry).IsTree := by
  intro other found there
  by_cases same : other = location
  · subst same
    exact directory_put free above
  · rw [entry?_put_of_ne (ne_nil_of_free free) same] at there
    exact directory_put free (tree other found there)

/-! ### Paths -/

theorem walk_append (first second : List String) :
    fs.walk location (first ++ second) =
      match fs.walk location first with
      | .ok middle => fs.walk middle second
      | .error reason => .error reason := by
  induction first generalizing location with
  | nil => rfl
  | cons part rest ih =>
    rw [List.cons_append, walk, walk]
    rcases fs.entry? location with _ | ⟨_ | _ | _⟩
    · rfl
    · exact ih
    · rfl
    · rfl

/-- Paths that lead somewhere lead there in every tree with at least the same directories. -/
theorem walk_of_directories
    (kept : ∀ location, fs.entry? location = some .directory →
      gs.entry? location = some .directory) (parts : List String) :
    fs.walk location parts = .ok other → gs.walk location parts = .ok other := by
  induction parts generalizing location with
  | nil => exact id
  | cons part rest ih =>
    intro led
    rw [walk] at led
    split at led
    case h_1 there =>
      rw [walk, kept location there]
      exact ih led
    all_goals cases led

theorem locate_of_directories (here_eq : gs.here = fs.here)
    (kept : ∀ location, fs.entry? location = some .directory →
      gs.entry? location = some .directory)
    (led : fs.locate p = .ok location) : gs.locate p = .ok location := by
  rw [locate, here_eq]
  exact walk_of_directories kept p.parts led

theorem isDirectory_iff : fs.isDirectory p = true ↔
    ∃ location, fs.locate p = .ok location ∧ fs.entry? location = some .directory := by
  rw [isDirectory, find?]
  cases fs.locate p with
  | error reason => simp
  | ok location =>
    rcases there : fs.entry? location with _ | ⟨_ | _ | _⟩ <;> simp [there]

/-! ### Growing -/

namespace Grown

theorem refl (fs : Files) : Grown fs fs := ⟨rfl, fun _ => .inl rfl⟩

theorem kept (grown : Grown fs gs) (there : fs.entry? location = some entry) :
    gs.entry? location = some entry := by
  rcases grown.entry_eq location with same | ⟨absent, -⟩
  · rw [same, there]
  · cases absent.symm.trans there

theorem trans (first : Grown fs gs) (second : Grown gs hs) : Grown fs hs := by
  refine ⟨second.here_eq.trans first.here_eq, fun location => ?_⟩
  rcases second.entry_eq location with same | ⟨absent, made⟩
  · rw [same]
    exact first.entry_eq location
  · rcases first.entry_eq location with same | ⟨-, made'⟩
    · exact .inr ⟨same ▸ absent, made⟩
    · cases absent.symm.trans made'

theorem locate (grown : Grown fs gs) (led : fs.locate p = .ok location) :
    gs.locate p = .ok location :=
  locate_of_directories grown.here_eq (fun _ => grown.kept) led

/-- No file is new, gone or different. -/
theorem bytesAt?_eq (grown : Grown fs gs) (location : Location) :
    gs.bytesAt? location = fs.bytesAt? location := by
  rw [bytesAt?, bytesAt?]
  rcases grown.entry_eq location with same | ⟨absent, made⟩
  · rw [same]
  · rw [absent, made]

end Grown

theorem grown_put (inside : location ≠ []) (absent : fs.entry? location = none) :
    Grown fs (fs.put location .directory) := by
  refine ⟨rfl, fun other => ?_⟩
  by_cases same : other = location
  · subst same
    exact .inr ⟨absent, entry?_put_self inside⟩
  · exact .inl (entry?_put_of_ne inside same)

/-! ### Directories -/

theorem makeDirectory_eq_ok (made : fs.makeDirectory p = .ok gs) :
    ∃ location, fs.locate p = .ok location ∧ location ≠ [] ∧
      fs.entry? location.dropLast = some .directory ∧ fs.entry? location = none ∧
      gs = fs.put location .directory := by
  rw [makeDirectory] at made
  cases led : fs.locate p with
  | error reason =>
    rw [led] at made
    cases made
  | ok location =>
    rw [led] at made
    cases location with
    | nil => cases made
    | cons first rest =>
      refine ⟨first :: rest, rfl, List.cons_ne_nil _ _, ?_⟩
      simp only at made
      split at made
      case h_1 above =>
        split at made
        case isTrue => cases made
        case isFalse free =>
          have absent := Option.not_isSome_iff_eq_none.mp free
          exact ⟨above, absent, (Except.ok.inj made).symm⟩
      all_goals cases made

theorem made_of_makeDirectory (made : fs.makeDirectory p = .ok gs) : Made p fs gs := by
  obtain ⟨location, led, inside, above, absent, rfl⟩ := makeDirectory_eq_ok made
  have grown := grown_put inside absent
  refine ⟨grown, isDirectory_iff.mpr ⟨location, grown.locate led, entry?_put_self inside⟩, ?_⟩
  intro tree
  exact isTree_put tree above (by simp [absent])

/-- Where a directory stands already, nothing is made. -/
theorem made_of_isDirectory {obstacle : Obstacle}
    (made : (if fs.isDirectory p then .ok fs else .error obstacle.failure : Except Failure Files) =
      .ok gs) : Made p fs gs := by
  split at made
  case isTrue there =>
    cases made
    exact ⟨.refl fs, there, id⟩
  case isFalse => cases made

theorem made_of_ensureDirectory (made : fs.ensureDirectory p = .ok gs) : Made p fs gs := by
  rw [ensureDirectory] at made
  split at made
  case h_1 done =>
    cases made
    exact made_of_makeDirectory done
  case h_2 => exact made_of_isDirectory made

theorem made_of_ensureDirectories (depth : Nat) (fs : Files) :
    ∀ {p gs}, ensureDirectories p depth fs = .ok gs → Made p fs gs := by
  induction depth with
  | zero => exact made_of_ensureDirectory
  | succ depth ih =>
    intro p gs made
    rw [ensureDirectories] at made
    split at made
    case h_1 done =>
      cases made
      exact made_of_makeDirectory done
    case h_2 =>
      -- First the directories above, then the one itself.
      cases above : ensureDirectories p.parent depth fs with
      | error failure =>
        rw [above] at made
        cases made
      | ok hs =>
        rw [above] at made
        have upper := ih above
        have last := made_of_ensureDirectory made
        exact ⟨upper.grown.trans last.grown, last.isDirectory, fun tree =>
          last.isTree (upper.isTree tree)⟩
    case h_3 => exact made_of_isDirectory made

theorem made_of_makeDirectories (made : fs.makeDirectories p = .ok gs) : Made p fs gs :=
  made_of_ensureDirectories p.parts.length fs made

/-! ### Texts -/

theorem toList_loop (bytes : ByteArray) (i : Nat) (before : List UInt8) :
    ByteArray.toList.loop bytes i before = before.reverse ++ bytes.data.toList.drop i := by
  fun_induction ByteArray.toList.loop bytes i before with
  | case1 i before inside ih =>
    have there : i < bytes.data.toList.length := inside
    have here : bytes.get! i = bytes.data.toList[i] := by
      rw [Array.getElem_toList, ByteArray.get!, getElem!_pos bytes.data i inside]
    rw [ih, List.reverse_cons, List.append_assoc, List.drop_eq_getElem_cons there, here]
    rfl
  | case2 i before outside =>
    have past : bytes.data.toList.length ≤ i := Nat.le_of_not_lt outside
    rw [List.drop_eq_nil_of_le past, List.append_nil]

/-- Different texts have different bytes. -/
theorem toUTF8_toList_inj {s t : String} : s.toUTF8.toList = t.toUTF8.toList ↔ s = t := by
  refine ⟨fun same => ?_, fun same => same ▸ rfl⟩
  rw [ByteArray.toList, ByteArray.toList, toList_loop, toList_loop] at same
  exact String.toByteArray_inj.mp (ByteArray.ext (Array.toList_inj.mp same))

/-- In a directory, a path that leads to no directory leads to a free place or a file. -/
theorem locate_of_parent (tree : fs.IsTree) (above : fs.isDirectory p.parent = true)
    (free : fs.isDirectory p = false) :
    ∃ location, fs.locate p = .ok location ∧ fs.entry? location ≠ some .directory ∧
      fs.entry? location.dropLast = some .directory := by
  obtain ⟨upper, led, there⟩ := isDirectory_iff.mp above
  rcases List.eq_nil_or_concat p.parts with nil | ⟨parts, part, eq⟩
  · -- The path without parts is its own parent.
    have own : p.parent = p := by rw [Path.parent, nil, List.dropLast_nil, ← nil]
    rw [own, free] at above
    cases above
  rw [locate, Path.parent, eq, List.concat_eq_append, List.dropLast_concat] at led
  have whole : fs.locate p = .ok (if part = ".." then upper.dropLast else upper ++ [part]) := by
    rw [locate, eq, List.concat_eq_append, walk_append]
    change (match fs.walk (if p.isAbsolute then [] else fs.here) parts with
      | .ok middle => fs.walk middle [part]
      | .error reason => .error reason) = _
    rw [show fs.walk (if p.isAbsolute then [] else fs.here) parts = .ok upper from led]
    simp only [walk, there]
  have unoccupied : ∀ location, fs.locate p = .ok location →
      fs.entry? location ≠ some .directory := by
    intro location led there
    rw [isDirectory_iff.mpr ⟨location, led, there⟩] at free
    cases free
  by_cases up : part = ".."
  · rw [if_pos up] at whole
    exact absurd (tree upper _ there) (unoccupied _ whole)
  · rw [if_neg up] at whole
    exact ⟨_, whole, unoccupied _ whole, by rw [List.dropLast_concat, there]⟩

/-- Below a directory, a text can be written wherever no directory is. -/
theorem writeText_eq_put (tree : fs.IsTree) (above : fs.isDirectory p.parent = true)
    (free : fs.isDirectory p = false) (text : String) :
    ∃ location, fs.locate p = .ok location ∧
      fs.writeText p text = .ok (fs.put location (.file text.toUTF8.toList)) := by
  obtain ⟨location, led, unoccupied, there⟩ := locate_of_parent tree above free
  refine ⟨location, led, ?_⟩
  rw [writeText, led]
  simp only
  rcases found : fs.entry? location with _ | ⟨_ | _ | _⟩
  · rw [there]
  · exact absurd found unoccupied
  · rfl
  · rfl

theorem writeText_eq_ok (written : fs.writeText p text = .ok gs) :
    ∃ location, fs.locate p = .ok location ∧ fs.entry? location ≠ some .directory ∧
      gs = fs.put location (.file text.toUTF8.toList) := by
  rw [writeText] at written
  cases led : fs.locate p with
  | error reason =>
    rw [led] at written
    cases reason <;> cases written
  | ok location =>
    rw [led] at written
    refine ⟨location, rfl, ?_⟩
    simp only at written
    split at written <;> simp_all

/-- What is written to a path is read from it. -/
theorem readBytes_of_writeText (written : fs.writeText p text = .ok gs) :
    gs.readBytes p = .ok text.toUTF8.toList := by
  obtain ⟨location, led, free, rfl⟩ := writeText_eq_ok written
  have here_eq : (fs.put location (.file text.toUTF8.toList)).here = fs.here := rfl
  have again := locate_of_directories here_eq (fun _ => directory_put free) led
  rw [readBytes, find?, again]
  simp only [entry?_put_self (ne_nil_of_free free)]

/-- A tree given by entries is one if each entry stands in a directory. -/
theorem isTree_of_entries
    (inside : ∀ entry ∈ fs.entries, fs.entry? entry.1.dropLast = some .directory) : fs.IsTree := by
  intro location entry there
  unfold entry? at there
  split at there
  case isTrue top =>
    rw [List.isEmpty_iff.mp top]
    rfl
  case isFalse =>
    obtain ⟨before, after, split, -⟩ := List.lookup_eq_some_iff.mp there
    have member : (location, entry) ∈ fs.entries := by rw [split]; simp
    exact inside _ member

end MachinePlan.Files
