import MachinePlan.Hook.Directory
import MachinePlan.Proofs.Files.Changing
import MachinePlan.Proofs.Hook.Naming
import MachinePlan.Proofs.Hook.Registering
import MachinePlan.Proofs.Outcome
import Mathlib.Data.String.Basic

/-!
# Directories of hooks over a registry

What loading a directory of hook files does to a registry (`loadDirectory_overlays`): for each name
the last file that offers a hook decides, and where none does the registry stays as it was. A file
that cannot be loaded ends this; then the files before it count and no other.
-/

namespace MachinePlan

open HookFile

/-! ### Names in a directory -/

namespace Files

variable {fs : Files} {directory : Path} {name : String}

theorem locate_child (there : fs.isDirectory directory = true) (part : name ≠ "..") :
    ∃ location, fs.locate directory = .ok location ∧
      fs.locate (directory.child name) = .ok (location ++ [name]) := by
  obtain ⟨location, led, there⟩ := isDirectory_iff.mp there
  refine ⟨location, led, ?_⟩
  rw [locate] at led
  change fs.walk (if directory.isAbsolute then [] else fs.here) (directory.parts ++ [name]) = _
  rw [walk_append, led]
  simp only [walk, there, if_neg part]

/-- The names in a directory are those of what is found there. -/
theorem mem_names_iff (there : fs.isDirectory directory = true) (part : name ≠ "..") :
    name ∈ fs.names directory ↔ fs.exists? (directory.child name) = true := by
  obtain ⟨location, led, below⟩ := locate_child there part
  have inside (other : Location) :
      (if other.length = location.length + 1 && other.dropLast == location then other.getLast?
        else none) = some name ↔ other = location ++ [name] := by
    constructor
    · intro last
      obtain ⟨place, last⟩ := Option.ite_none_right_eq_some.mp last
      obtain ⟨above, rfl⟩ := List.getLast?_eq_some_iff.mp last
      rw [Bool.and_eq_true, beq_iff_eq, List.dropLast_concat] at place
      rw [place.2]
    · rintro rfl
      simp
  have outside : location ++ [name] ≠ [] := by simp
  rw [names, led, exists?, find?, below]
  simp only [List.mem_mergeSort, List.mem_filterMap, inside, entry?, List.isEmpty_iff,
    if_neg outside, List.lookup_isSome_iff, beq_iff_eq]
  exact exists_congr fun entry => and_congr_right fun _ => eq_comm

theorem names_sorted (fs : Files) (directory : Path) : (fs.names directory).Pairwise (· ≤ ·) := by
  rw [names]
  split
  · exact (List.pairwise_mergeSort (by simpa using fun _ _ _ => le_trans)
      (by simpa using fun _ _ => le_total _ _) _).imp (by simp)
  · exact .nil

end Files

/-! ### Registering -/

namespace Registry

variable {name : String} {hooks : List (String × Hook)}

theorem find?_registerAll (r : Registry) (distinct : (hooks.map Prod.fst).Nodup) :
    (r.registerAll hooks).find? name = (hooks.lookup name).or (r.find? name) := by
  induction hooks generalizing r with
  | nil => rfl
  | cons pair rest ih =>
    obtain ⟨first, hook⟩ := pair
    obtain ⟨fresh, distinct⟩ := List.nodup_cons.mp distinct
    change ((r.register first hook).registerAll rest).find? name = _
    rw [ih _ distinct, find?_register, lookup_pair]
    by_cases here : name = first
    · have once : rest.lookup name = none := by
        refine List.lookup_eq_none_iff.mpr fun pair member => bne_iff_ne.mpr fun same => ?_
        exact fresh (List.mem_map.mpr ⟨pair, member, same.symm.trans here⟩)
      rw [if_pos here, if_pos here, once]
      rfl
    · rw [if_neg here, if_neg here]

end Registry

/-! ### Files of hooks -/

/-- A file of a directory that is read for hooks. -/
structure IsHookFile (fs : Files) (directory : Path) (name : String) : Prop where
  there : fs.exists? (directory.child name) = true
  ending : name.endsWith ".py" = true
  isPublic : name.startsWith "_" = false

/-- What the listing of a file gives that has bound its name. -/
def ListsNames (fs : Files) (p : Path) (listed : Except Fault (List String)) : Prop :=
  ∃ bindings, Registry.fileBindings fs p = .ok bindings ∧ fs.readers.names bindings = listed

/-- The statements of a file can all be run, and so can its listing, if it has one. -/
def FileLoads (fs : Files) (p : Path) : Prop :=
  ∃ ss, Registry.fileStatements fs p = .ok ss ∧ Completes (Registry.standing fs p) ss ∧
    (Binds ss ss.length Bindings.listing → ∃ names, ListsNames fs p (.ok names))

/-- A file cannot be read, one of its statements cannot be run, or its listing fails. The former two
are reported with the path of the file. -/
inductive FileStops (fs : Files) (p : Path) : Failure → Prop
  | unread {reason : String} (failed : Registry.fileStatements fs p = .error reason) :
    FileStops fs p (.problem (.hookFile p.text reason))
  | halts {ss : List HookStatement} {reason : String} (read : Registry.fileStatements fs p = .ok ss)
    (stops : StopsWith (Registry.standing fs p) ss reason) :
    FileStops fs p (.problem (.hookFile p.text reason))
  | unlisted {ss : List HookStatement} {fault : Fault}
    (read : Registry.fileStatements fs p = .ok ss) (completes : Completes (Registry.standing fs p) ss)
    (binds : Binds ss ss.length Bindings.listing) (failed : ListsNames fs p (.error fault)) :
    FileStops fs p (.fault fault)

/-- A hook that a file offers under a name, and lists if it has a listing. -/
def FileOffers (fs : Files) (p : Path) (name : String) (hook : Hook) : Prop :=
  ∃ ss, Registry.fileStatements fs p = .ok ss ∧ Offers (Registry.standing fs p) ss name hook ∧
    (Binds ss ss.length Bindings.listing → ∃ names, ListsNames fs p (.ok names) ∧ name ∈ names)

/-- The last of the files that count and offer a hook under a name. -/
structure LastOffer (fs : Files) (directory : Path) (counts : String → Prop) (name : String)
    (hook : Hook) (file : String) : Prop where
  counted : counts file
  offers : FileOffers fs (directory.child file) name hook
  last : ∀ later other, counts later → FileOffers fs (directory.child later) name other →
    later ≤ file

/-- A registry with the hooks of the files that count laid over it. -/
structure Overlaid (fs : Files) (directory : Path) (counts : String → Prop)
    (before after : Registry) : Prop where
  find?_eq : ∀ name,
    (∃ file hook, LastOffer fs directory counts name hook file ∧ after.find? name = some hook) ∨
      ((∀ file hook, counts file → ¬ FileOffers fs (directory.child file) name hook) ∧
        after.find? name = before.find? name)
  names : ∀ name, name ∈ after.names ↔ name ∈ before.names ∨
    ∃ file hook, counts file ∧ FileOffers fs (directory.child file) name hook

/-- The first file of a directory that cannot be loaded, and how it fails. -/
structure FirstStop (fs : Files) (directory : Path) (file : String) (failure : Failure) : Prop where
  isHookFile : IsHookFile fs directory file
  stops : FileStops fs (directory.child file) failure
  first : ∀ earlier, IsHookFile fs directory earlier → earlier < file →
    FileLoads fs (directory.child earlier)

/-- What loading a directory of hook files leaves. -/
structure Overlays (fs : Files) (directory : Path) (before : Registry) (l : LoadedHooks) :
    Prop where
  absent : fs.isDirectory directory = false → l = ⟨before, none⟩
  /-- Loading ends well only if all files can be loaded; then all of them count. -/
  loaded : fs.isDirectory directory = true → ∀ after, l.result = .ok after →
    (∀ file, IsHookFile fs directory file → FileLoads fs (directory.child file)) ∧
      l.registry = after ∧ Overlaid fs directory (IsHookFile fs directory) before after
  /-- Loading fails as the first file does that cannot be loaded, and only those before it count. -/
  stopped : fs.isDirectory directory = true → ∀ file failure, FirstStop fs directory file failure →
    l.result = .error failure ∧
      Overlaid fs directory (fun earlier => IsHookFile fs directory earlier ∧ earlier < file)
        before l.registry
  /-- Loading fails for no other reason. -/
  failed : ∀ failure, l.result = .error failure → ∃ file, FirstStop fs directory file failure

variable {fs : Files} {directory p : Path} {counts others : String → Prop} {name file : String}
  {before after : Registry} {hooks : List (String × Hook)}

theorem fileBindings_cases (fs : Files) (p : Path) :
    (∃ ss bindings, Registry.fileStatements fs p = .ok ss ∧ Completes (Registry.standing fs p) ss ∧
        Registry.fileBindings fs p = .ok bindings ∧
        Bindings.After (Registry.standing fs p) ss ss.length bindings) ∨
      ∃ reason, Registry.fileBindings fs p = .error reason ∧
        FileStops fs p (.problem (.hookFile p.text reason)) := by
  rw [Registry.fileBindings]
  cases read : Registry.fileStatements fs p with
  | error reason => exact .inr ⟨reason, rfl, .unread read⟩
  | ok ss =>
    obtain ⟨last, ran, completes, after⟩ | ⟨reason, ran, stops⟩ :=
      Bindings.ofStatements_cases (Registry.standing fs p) ss
    · exact .inl ⟨ss, last, rfl, completes, ran, after⟩
    · exact .inr ⟨reason, ran, .halts read stops⟩

/-- A file either has hooks, which are what it offers, or it cannot be loaded. -/
theorem fileHooks_cases (fs : Files) (p : Path) :
    (∃ hooks, Registry.fileHooks fs p = .ok hooks ∧ FileLoads fs p ∧ (hooks.map Prod.fst).Nodup ∧
        ∀ name hook, (name, hook) ∈ hooks ↔ FileOffers fs p name hook) ∨
      ∃ failure, Registry.fileHooks fs p = .error failure ∧ FileStops fs p failure := by
  rw [Registry.fileHooks]
  obtain ⟨ss, bindings, read, completes, bound, after⟩ | ⟨reason, failed, stops⟩ :=
    fileBindings_cases fs p
  · have offers (name : String) (hook : Hook) : FileOffers fs p name hook ↔
        Offers (Registry.standing fs p) ss name hook ∧
          (Binds ss ss.length Bindings.listing →
            ∃ names, ListsNames fs p (.ok names) ∧ name ∈ names) := by
      constructor
      · rintro ⟨_, again, offered⟩
        cases read.symm.trans again
        exact offered
      · exact fun offered => ⟨ss, read, offered⟩
    rw [bound]
    simp only [Bindings.listed]
    by_cases binds : Binds ss ss.length Bindings.listing
    · rw [if_pos ((after.bound_iff _).mpr binds)]
      cases listed : fs.readers.names bindings with
      | error fault =>
        exact .inr ⟨.fault fault, rfl, .unlisted read completes binds ⟨bindings, bound, listed⟩⟩
      | ok names =>
        refine .inl ⟨_, rfl, ⟨ss, read, completes, fun _ => ⟨names, bindings, bound, listed⟩⟩,
          after.hooks_nodup.sublist (List.filter_sublist.map _), fun name hook => ?_⟩
        rw [List.mem_filter, decide_eq_true_eq, after.mem_hooks, offers]
        refine and_congr_right fun _ => ⟨fun member _ => ⟨names, ⟨bindings, bound, listed⟩, member⟩,
          fun shown => ?_⟩
        obtain ⟨_, ⟨_, again, listed'⟩, member⟩ := shown binds
        cases bound.symm.trans again
        cases listed.symm.trans listed'
        exact member
    · rw [if_neg fun isBound => binds ((after.bound_iff _).mp isBound)]
      refine .inl ⟨_, rfl, ⟨ss, read, completes, fun other => absurd other binds⟩,
        after.hooks_nodup, fun name hook => ?_⟩
      rw [after.mem_hooks, offers]
      exact (and_iff_left fun other => absurd other binds).symm
  · rw [failed]
    exact .inr ⟨_, rfl, stops⟩

theorem FileLoads.not_stops {failure : Failure} (loads : FileLoads fs p) :
    ¬ FileStops fs p failure := by
  obtain ⟨ss, read, completes, lists⟩ := loads
  rintro (failed | ⟨again, k, halts, -⟩ | ⟨again, -, binds, bindings, bound, failed⟩)
  · cases read.symm.trans failed
  · cases read.symm.trans again
    exact completes k _ halts
  · cases read.symm.trans again
    obtain ⟨names, _, bound', listed⟩ := lists binds
    cases bound.symm.trans bound'
    cases failed.symm.trans listed

theorem FileStops.eq {failure other : Failure} (stops : FileStops fs p failure)
    (again : FileStops fs p other) : failure = other := by
  cases stops with
  | unread failed =>
    cases again with
    | unread failed' => rw [Except.error.inj (failed.symm.trans failed')]
    | halts read => cases failed.symm.trans read
    | unlisted read => cases failed.symm.trans read
  | halts read stops =>
    cases again with
    | unread failed => cases failed.symm.trans read
    | halts read' again =>
      cases read.symm.trans read'
      rw [stops.eq again]
    | unlisted read' completes =>
      cases read.symm.trans read'
      obtain ⟨k, halts, -⟩ := stops
      exact absurd halts (completes k _)
  | unlisted read completes _ failed =>
    cases again with
    | unread failed => cases failed.symm.trans read
    | halts read' again =>
      cases read.symm.trans read'
      obtain ⟨k, halts, -⟩ := again
      exact absurd halts (completes k _)
    | unlisted _ _ _ failed' =>
      obtain ⟨_, bound, failed⟩ := failed
      obtain ⟨_, bound', failed'⟩ := failed'
      cases bound.symm.trans bound'
      cases failed.symm.trans failed'
      rfl

/-! ### One file after the other -/

/-- What can be found decides which names there are. -/
theorem Overlaid.of_find?
    (found : ∀ name,
      (∃ file hook, LastOffer fs directory counts name hook file ∧
        after.find? name = some hook) ∨
      ((∀ file hook, counts file → ¬ FileOffers fs (directory.child file) name hook) ∧
        after.find? name = before.find? name)) :
    Overlaid fs directory counts before after := by
  refine ⟨found, fun name => ?_⟩
  rw [Registry.mem_names_iff, Registry.mem_names_iff]
  obtain ⟨file, hook, offer, here⟩ | ⟨none, same⟩ := found name
  · rw [here]
    exact ⟨fun _ => .inr ⟨file, hook, offer.counted, offer.offers⟩, fun _ => rfl⟩
  · rw [same]
    exact ⟨.inl, fun known => known.resolve_right fun ⟨file, hook, counted, offers⟩ =>
      none file hook counted offers⟩

theorem Overlaid.congr (overlaid : Overlaid fs directory counts before after)
    (same : ∀ file, counts file ↔ others file) : Overlaid fs directory others before after := by
  rwa [← funext fun file => propext (same file)]

theorem overlaid_nil (fs : Files) (directory : Path) (r : Registry) :
    Overlaid fs directory (· ∈ []) r r :=
  .of_find? fun _ => .inr ⟨fun _ _ member => absurd member List.not_mem_nil, rfl⟩

/-- The hooks of a file and then those of files with later names. -/
theorem Overlaid.cons {rest : List String} (distinct : (hooks.map Prod.fst).Nodup)
    (offers : ∀ name hook, (name, hook) ∈ hooks ↔ FileOffers fs (directory.child file) name hook)
    (first : ∀ later ∈ rest, file ≤ later)
    (overlaid : Overlaid fs directory (· ∈ rest) (before.registerAll hooks) after) :
    Overlaid fs directory (· ∈ file :: rest) before after := by
  refine .of_find? fun name => ?_
  obtain ⟨last, hook, ⟨counted, offered, latest⟩, found⟩ | ⟨none, found⟩ := overlaid.find?_eq name
  · refine .inl ⟨last, hook, ⟨List.mem_cons_of_mem file counted, offered, ?_⟩, found⟩
    intro later other member offered
    rcases List.mem_cons.mp member with rfl | member
    · exact first last counted
    · exact latest later other member offered
  -- no later file offers the name, so what this one registers for it stays
  · rw [Registry.find?_registerAll before distinct] at found
    cases here : hooks.lookup name with
    | some hook =>
      rw [here] at found
      have offered := (offers name hook).mp (mem_of_lookup_pair here)
      refine .inl ⟨file, hook, ⟨List.mem_cons_self, offered, ?_⟩, found⟩
      intro later other member offered
      rcases List.mem_cons.mp member with rfl | member
      · exact le_refl later
      · exact absurd offered (none later other member)
    | none =>
      rw [here] at found
      refine .inr ⟨fun later hook member offered => ?_, found⟩
      rcases List.mem_cons.mp member with rfl | member
      · cases here.symm.trans (lookup_pair_of_mem distinct ((offers name hook).mpr offered))
      · exact none later hook member offered

/-- What loading files one after the other leaves. -/
inductive Loaded (fs : Files) (directory : Path) (names : List String) (before : Registry) :
    LoadedHooks → Prop
  | whole {after : Registry} (loads : ∀ file ∈ names, FileLoads fs (directory.child file))
    (overlaid : Overlaid fs directory (· ∈ names) before after) :
    Loaded fs directory names before ⟨after, none⟩
  | stopped {after : Registry} {earlier later : List String} {file : String} {failure : Failure}
    (split : names = earlier ++ file :: later)
    (loads : ∀ file ∈ earlier, FileLoads fs (directory.child file))
    (stops : FileStops fs (directory.child file) failure)
    (overlaid : Overlaid fs directory (· ∈ earlier) before after) :
    Loaded fs directory names before ⟨after, some failure⟩

theorem loaded_loadFiles (fs : Files) (directory : Path) (names : List String) (r : Registry)
    (sorted : names.Pairwise (· ≤ ·)) :
    Loaded fs directory names r (Registry.loadFiles fs directory names r) := by
  induction names generalizing r with
  | nil =>
    exact .whole (fun _ member => absurd member List.not_mem_nil) (overlaid_nil fs directory r)
  | cons file rest ih =>
    obtain ⟨first, sorted⟩ := List.pairwise_cons.mp sorted
    obtain ⟨hooks, has, loads, distinct, offers⟩ | ⟨failure, failed, stops⟩ :=
      fileHooks_cases fs (directory.child file)
    · have further := ih (r.registerAll hooks) sorted
      rw [Registry.loadFiles]
      simp only [has]
      generalize Registry.loadFiles fs directory rest _ = l at further ⊢
      cases further with
      | whole all overlaid =>
        exact .whole (List.forall_mem_cons.mpr ⟨loads, all⟩) (overlaid.cons distinct offers first)
      | stopped split all stops overlaid =>
        subst split
        refine .stopped rfl (List.forall_mem_cons.mpr ⟨loads, all⟩) stops
          (overlaid.cons distinct offers fun later member => first later ?_)
        exact List.mem_append_left _ member
    · rw [Registry.loadFiles]
      simp only [failed]
      exact .stopped rfl (fun _ member => absurd member List.not_mem_nil) stops
        (overlaid_nil fs directory r)

/-! ### The whole directory -/

theorem mem_hookFiles_iff (there : fs.isDirectory directory = true) :
    file ∈ (fs.names directory).filter Registry.isHookFile ↔ IsHookFile fs directory file := by
  have shown : Registry.isHookFile file = true ↔
      file.endsWith ".py" = true ∧ file.startsWith "_" = false := by
    rw [Registry.isHookFile, Bool.and_eq_true, Bindings.isPublic, Bool.not_eq_true']
    rfl
  rw [List.mem_filter, shown]
  constructor
  · rintro ⟨member, ending, isPublic⟩
    have part : file ≠ ".." := by
      rintro rfl
      revert ending
      decide +kernel
    exact ⟨(Files.mem_names_iff there part).mp member, ending, isPublic⟩
  · rintro ⟨found, ending, isPublic⟩
    have part : file ≠ ".." := by
      rintro rfl
      revert ending
      decide +kernel
    exact ⟨(Files.mem_names_iff there part).mpr found, ending, isPublic⟩

/-- The files in front of the first one that stops are those with earlier names. -/
theorem mem_earlier_iff {names earlier later : List String} {other : String} {failure : Failure}
    (split : names = earlier ++ file :: later) (sorted : names.Pairwise (· ≤ ·))
    (loads : ∀ file ∈ earlier, FileLoads fs (directory.child file))
    (stops : FileStops fs (directory.child file) failure) :
    other ∈ earlier ↔ other ∈ names ∧ other < file := by
  subst split
  obtain ⟨-, behind, across⟩ := List.pairwise_append.mp sorted
  constructor
  · intro member
    have upTo : other ≤ file := across other member file List.mem_cons_self
    refine ⟨List.mem_append_left _ member, lt_of_le_of_ne upTo ?_⟩
    rintro rfl
    exact (loads other member).not_stops stops
  · rintro ⟨member, before⟩
    rcases List.mem_append.mp member with member | member
    · exact member
    · rcases List.mem_cons.mp member with rfl | member
      · exact absurd before (lt_irrefl other)
      · exact absurd before (not_lt_of_ge ((List.pairwise_cons.mp behind).1 other member))

theorem FirstStop.eq {one : String} {failure other : Failure}
    (stop : FirstStop fs directory file failure) (again : FirstStop fs directory one other) :
    one = file ∧ other = failure := by
  obtain rfl : one = file := by
    rcases lt_trichotomy one file with before | same | behind
    · exact absurd again.stops (stop.first one again.isHookFile before).not_stops
    · exact same
    · exact absurd stop.stops (again.first file stop.isHookFile behind).not_stops
  exact ⟨rfl, again.stops.eq stop.stops⟩

/-- A file that offers a function of its own under another name. -/
def aliasFile : Files :=
  (Files.empty ["work"]).place (.ofString "hooks/a.py")
    (.hooks [.define "_g" [.reverse], .alias "f" "_g", .other "_g"])

def someHooks : Registry := .ofList [("f", .ofActions 1 []), ("kept", .ofActions 2 [])]

/-- A file that is called so, by an equal thing, at its end as it was when `f` was made. -/
def equalFile : Files :=
  (Files.empty ["work"]).place (.ofString "hooks/a.py")
    (.hooks [.alias Standing.selfName "IOError", .define "f" [], .alias Standing.selfName "OSError"])

example : (Registry.empty.loadDirectory equalFile (.ofString "hooks")).result.map Registry.names =
    .ok ["f"] := by
  decide +kernel

/-- A file that is called something else at its end. -/
def renamedFile : Files :=
  (Files.empty ["work"]).place (.ofString "hooks/a.py")
    (.hooks [.define "f" [], .other Standing.selfName])

end MachinePlan
