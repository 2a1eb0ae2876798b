import MachinePlan.Document.Load
import MachinePlan.Files.Change
import MachinePlan.Proofs.Document.Renamed
import MachinePlan.Proofs.Merge.Itself
import MachinePlan.Proofs.Yaml.Keys

/-!
# Documents of two layers

What a document is loaded to, for everything that its two files can hold (`load_layered`). The
primary file is looked at first; an override that is missing or counts as nothing is none; and a
primary file that is its own override makes the same document with two sources, unless it holds
itself (`load_layered_fails_of_selfDefaults`).
-/

namespace MachinePlan

open Value

/-! ### What files hold -/

/-- What a file can hold for a reader of documents. -/
inductive Held where
  /-- There is no file. -/
  | nothing
  /-- The text is no document, for the reason that its reader gives. -/
  | malformed (reason : String)
  | value (v : Value)

/-- What the file at a path holds, which is read as the document with the given number. -/
def Files.Holds (fs : Files) (source : Nat) (p : Path) : Held → Prop
  | .nothing => fs.exists? p = false
  | .malformed reason => fs.exists? p = true ∧
      fs.readValue source p = .error (.config (.invalidMarkup p.text reason))
  | .value v => fs.exists? p = true ∧ fs.readValue source p = .ok v

/-- A mapping with entries. -/
structure Value.Lays (v : Value) : Prop where
  truthy : v.isTruthy = true
  mapping : v.entries?.isSome = true

namespace Document

variable {fs : Files} {n : Nat} {p q : Path} {v w : Value} {d : Document} {override : Option Path}

theorem loadFile_of_nothing (holds : fs.Holds n p .nothing) :
    loadFile fs n p = .error (.config (.missingFile p.text)) := by
  rw [loadFile, show fs.exists? p = false from holds]
  rfl

theorem loadFile_of_malformed {reason : String} (holds : fs.Holds n p (.malformed reason)) :
    loadFile fs n p = .error (.config (.invalidMarkup p.text reason)) := by
  rw [loadFile, holds.1, holds.2]
  rfl

theorem loadFile_of_value (holds : fs.Holds n p (.value v)) :
    loadFile fs n p =
      if !v.isTruthy then .ok none
      else if v.entries?.isNone then .error (.config (.fileNotMapping p.text))
      else .ok (some v) := by
  rw [loadFile, holds.1, holds.2, if_neg (by decide)]
  change (if !v.isTruthy then pure none else if v.entries?.isNone then _ else pure (some v)) = _
  split
  · rfl
  · split <;> rfl

theorem loadFile_of_falsy (holds : fs.Holds n p (.value v)) (falsy : v.isTruthy = false) :
    loadFile fs n p = .ok none := by
  rw [loadFile_of_value holds, falsy]
  rfl

theorem loadFile_of_unfit (holds : fs.Holds n p (.value v)) (truthy : v.isTruthy = true)
    (unfit : v.entries? = none) : loadFile fs n p = .error (.config (.fileNotMapping p.text)) := by
  rw [loadFile_of_value holds, truthy, unfit]
  rfl

theorem loadFile_of_lays (holds : fs.Holds n p (.value v)) (lays : v.Lays) :
    loadFile fs n p = .ok (some v) := by
  obtain ⟨truthy, mapping⟩ := lays
  obtain ⟨es, whole⟩ := Option.isSome_iff_exists.mp mapping
  rw [loadFile_of_value holds, truthy, whole]
  rfl

/-- A mapping is loaded from nothing else than a file that holds one. -/
theorem of_loadFile (loaded : loadFile fs n p = .ok (some v)) :
    fs.Holds n p (.value v) ∧ v.Lays := by
  cases there : fs.exists? p with
  | false =>
    rw [loadFile_of_nothing there] at loaded
    cases loaded
  | true =>
    cases held : fs.readValue n p with
    | error failure =>
      rw [loadFile, there, held] at loaded
      cases loaded
    | ok w =>
      rw [loadFile_of_value ⟨there, held⟩] at loaded
      cases truthy : w.isTruthy with
      | false =>
        rw [truthy] at loaded
        cases loaded
      | true =>
        cases mapping : w.entries? with
        | none =>
          rw [truthy, mapping] at loaded
          cases loaded
        | some es =>
          rw [truthy, mapping] at loaded
          obtain rfl := Option.some.inj (Except.ok.inj loaded)
          exact ⟨⟨there, held⟩, truthy, by rw [mapping]; rfl⟩

/-- Which of its files a document names has no part in what is in it. -/
theorem ofValue_sources (v : Value) (sources others : List Path) :
    ofValue v sources = (ofValue v others).map fun d => { d with sources } := by
  simp only [ofValue, map_bind]
  rfl

theorem sources_of_ofValue {sources : List Path} (read : ofValue v sources = .ok d) :
    d.sources = sources := by
  rw [ofValue_sources v sources []] at read
  obtain ⟨_, -, rfl⟩ := map_eq_ok.mp read
  rfl

/-! ### The primary file -/

theorem load_of_error {failure : Failure} (failed : loadFile fs 0 p = .error failure) :
    load fs p override = .error failure := by
  rw [load, loadPrimary, failed]
  rfl

theorem load_of_falsy (holds : fs.Holds 0 p (.value v)) (falsy : v.isTruthy = false) :
    load fs p override = .error (.config (.emptyFile p.text)) := by
  rw [load, loadPrimary, loadFile_of_falsy holds falsy]
  rfl

theorem load_of_lays (holds : fs.Holds 0 p (.value v)) (lays : v.Lays) :
    load fs p override = (loadOverride fs override >>= fun upper =>
      match upper with
      | none => ofValue v [p]
      | some (q, w) => merge v w >>= fun merged => ofValue merged [p, q]) := by
  rw [load, loadPrimary, loadFile_of_lays holds lays]
  rfl

/-! ### The override file -/

theorem loadOverride_of_nothing (holds : fs.Holds 1 q .nothing) :
    loadOverride fs (some q) = .ok none := by
  rw [loadOverride, if_neg (by rw [show fs.exists? q = false from holds]; decide)]
  rfl

theorem loadOverride_of_exists (there : fs.exists? q = true) :
    loadOverride fs (some q) = (loadFile fs 1 q).map fun v => v.map (q, ·) := by
  rw [loadOverride, if_pos there]
  cases loadFile fs 1 q <;> rfl

/-- An override is what was asked for and holds a mapping. -/
theorem of_loadOverride (loaded : loadOverride fs override = .ok (some (q, w))) :
    override = some q ∧ fs.Holds 1 q (.value w) ∧ w.Lays := by
  cases override with
  | none => cases loaded
  | some r =>
    cases there : fs.exists? r with
    | false =>
      rw [loadOverride_of_nothing there] at loaded
      cases loaded
    | true =>
      rw [loadOverride_of_exists there] at loaded
      obtain ⟨read, held, named⟩ := map_eq_ok.mp loaded
      obtain ⟨x, rfl, pair⟩ := Option.map_eq_some_iff.mp named
      cases pair
      exact ⟨rfl, of_loadFile held⟩

/-- No override, or one without content. -/
inductive Idle (fs : Files) : Option Path → Prop
  | none : Idle fs none
  | nothing {q : Path} (holds : fs.Holds 1 q .nothing) : Idle fs (some q)
  | falsy {q : Path} {w : Value} (holds : fs.Holds 1 q (.value w)) (falsy : w.isTruthy = false) :
    Idle fs (some q)

theorem Idle.loadOverride (idle : Idle fs override) : loadOverride fs override = .ok .none := by
  cases idle with
  | none => rfl
  | nothing holds => exact loadOverride_of_nothing holds
  | falsy holds falsy => rw [loadOverride_of_exists holds.1, loadFile_of_falsy holds falsy]; rfl

theorem Idle.load (idle : Idle fs override) : load fs p override = load fs p .none := by
  rw [Document.load, Document.load, idle.loadOverride,
    (Idle.none : Idle fs .none).loadOverride]

/-! ### Both files -/

theorem load_of_both (holds : fs.Holds 0 p (.value v)) (lays : v.Lays)
    (above : fs.Holds 1 q (.value w)) (fits : w.Lays) :
    load fs p (some q) = merge v w >>= fun whole => ofValue whole [p, q] := by
  rw [load_of_lays holds lays, loadOverride_of_exists above.1, loadFile_of_lays above fits]
  rfl

theorem sources_of_load (loaded : load fs p override = .ok d) :
    (∃ q w, override = some q ∧ fs.Holds 1 q (.value w) ∧ w.Lays ∧ d.sources = [p, q]) ∨
      ((∀ q w, override = some q → fs.Holds 1 q (.value w) → ¬ w.Lays) ∧ d.sources = [p]) := by
  obtain ⟨v, -, loaded⟩ := bind_eq_ok.mp loaded
  obtain ⟨upper, asked, loaded⟩ := bind_eq_ok.mp loaded
  cases upper with
  | none =>
    refine .inr ⟨?_, sources_of_ofValue loaded⟩
    rintro q w rfl above fits
    rw [loadOverride_of_exists above.1, loadFile_of_lays above fits] at asked
    cases asked
  | some named =>
    obtain ⟨q, w⟩ := named
    obtain ⟨asked, above, fits⟩ := of_loadOverride asked
    obtain ⟨whole, -, built⟩ := bind_eq_ok.mp loaded
    exact .inl ⟨q, w, asked, above, fits, sources_of_ofValue built⟩

/-! ### A file over itself -/

theorem readValue_eq_ok : fs.readValue n p = .ok v ↔
    ∃ bytes raw, fs.readBytes p = .ok bytes ∧ Yaml.read bytes = .ok raw ∧ raw.remade n = v := by
  rw [Files.readValue, bind_eq_ok]
  refine exists_congr fun bytes => ?_
  rcases meant : Yaml.read bytes with refusal | raw
  · cases refusal <;> simp [throw, throwThe, MonadExceptOf.throw]
  · simp [pure, Except.pure]

/-- A file that is read once more holds the same, made anew, and the keys of its mappings are
sound. -/
theorem read_again (holds : fs.Holds 0 p (.value v)) :
    fs.Holds 1 p (.value (v.remade 1)) ∧ v.IsSound := by
  obtain ⟨there, read⟩ := holds
  obtain ⟨bytes, raw, content, meant, rfl⟩ := readValue_eq_ok.mp read
  rw [remade_zero]
  exact ⟨⟨there, readValue_eq_ok.mpr ⟨bytes, raw, content, meant, rfl⟩⟩,
    Yaml.isSound_of_read meant⟩

theorem load_of_not_lays (holds : fs.Holds 0 p (.value v)) (unfit : ¬ v.Lays) :
    ∃ failure, ∀ override, load fs p override = .error failure := by
  cases truthy : v.isTruthy with
  | false => exact ⟨_, fun _ => load_of_falsy holds truthy⟩
  | true =>
    cases mapping : v.entries? with
    | none => exact ⟨_, fun _ => load_of_error (loadFile_of_unfit holds truthy mapping)⟩
    | some es => exact absurd ⟨truthy, by rw [mapping]; rfl⟩ unfit

/-- Over itself a mapping with an end is merged to what is read the second time. -/
theorem load_over_itself (holds : fs.Holds 0 p (.value v)) (lays : v.Lays)
    (finite : v.isEndless = false) (proper : v.ProperKeys) :
    load fs p (some p) = ofValue (v.renamed (laterNaN 1)) [p, p] := by
  obtain ⟨again, sound⟩ := read_again holds
  rw [remade_of_finite 1 finite] at again
  obtain ⟨es, mapping⟩ := Option.isSome_iff_exists.mp lays.mapping
  obtain rfl := eq_map_of_entries? finite mapping
  have fits : ((Value.map es).renamed (laterNaN 1)).Lays :=
    ⟨(isTruthy_renamed _ _).trans lays.truthy, rfl⟩
  -- the second reading has other NaNs, and laid over the first one it keeps them
  rw [load_of_both holds lays again fits, merge_renamed ⟨finite, sound⟩ proper]
  rfl

theorem load_itself (holds : fs.Holds 0 p (.value v)) (finite : v.isEndless = false)
    (proper : v.ProperKeys) :
    load fs p (some p) =
      (load fs p none).map fun d => { d.renamed (laterNaN 1) with sources := [p, p] } := by
  by_cases lays : v.Lays
  · rw [load_over_itself holds lays finite proper, load_of_lays holds lays,
      ofValue_renamed [p, p] finite, ofValue_sources v [p, p] [p]]
    change _ = (ofValue v [p]).map _
    cases ofValue v [p] <;> rfl
  · obtain ⟨failure, failed⟩ := load_of_not_lays holds lays
    rw [failed, failed]
    rfl

theorem load_itself_exactly (holds : fs.Holds 0 p (.value v)) (finite : v.isEndless = false)
    (exact : v.nans = []) :
    load fs p (some p) = (load fs p none).map fun d => { d with sources := [p, p] } := by
  by_cases lays : v.Lays
  · rw [load_over_itself holds lays finite (properKeys_of_nans exact), load_of_lays holds lays,
      renamed_of_nans exact, ofValue_sources v [p, p] [p]]
    rfl
  · obtain ⟨failure, failed⟩ := load_of_not_lays holds lays
    rw [failed, failed]
    rfl

/-! ### The whole -/

/-- What a document with a primary file is loaded to, for everything that the files can hold. -/
structure Layered (fs : Files) (p : Path) : Prop where
  /-- An override is asked for by a text that is not empty. -/
  asked : ∀ text, overridePath text = none ↔ text = none ∨ text = some ""
  /-- The primary file is looked at first, whatever the override is. -/
  missing : fs.Holds 0 p .nothing →
    ∀ override, load fs p override = .error (.config (.missingFile p.text))
  malformed : ∀ reason, fs.Holds 0 p (.malformed reason) →
    ∀ override, load fs p override = .error (.config (.invalidMarkup p.text reason))
  empty : ∀ v, fs.Holds 0 p (.value v) → v.isTruthy = false →
    ∀ override, load fs p override = .error (.config (.emptyFile p.text))
  unfit : ∀ v, fs.Holds 0 p (.value v) → v.isTruthy = true → v.entries? = none →
    ∀ override, load fs p override = .error (.config (.fileNotMapping p.text))
  /-- Without an override the document is that of the primary file. -/
  alone : ∀ v, fs.Holds 0 p (.value v) → v.Lays → load fs p none = ofValue v [p]
  idle : ∀ override, Idle fs override → load fs p override = load fs p none
  /-- Then an override has to be a mapping. -/
  overrideMalformed : ∀ v q reason, fs.Holds 0 p (.value v) → v.Lays →
    fs.Holds 1 q (.malformed reason) →
      load fs p (some q) = .error (.config (.invalidMarkup q.text reason))
  overrideUnfit : ∀ v q w, fs.Holds 0 p (.value v) → v.Lays → fs.Holds 1 q (.value w) →
    w.isTruthy = true → w.entries? = none →
      load fs p (some q) = .error (.config (.fileNotMapping q.text))
  /-- It is laid over the primary file. -/
  merged : ∀ v q w, fs.Holds 0 p (.value v) → v.Lays → fs.Holds 1 q (.value w) → w.Lays →
    load fs p (some q) = merge v w >>= fun whole => ofValue whole [p, q]
  /-- The sources tell whether an override was merged. -/
  sources : ∀ override d, load fs p override = .ok d →
    (∃ q w, override = some q ∧ fs.Holds 1 q (.value w) ∧ w.Lays ∧ d.sources = [p, q]) ∨
      ((∀ q w, override = some q → fs.Holds 1 q (.value w) → ¬ w.Lays) ∧ d.sources = [p])
  /-- A primary file with an end that is its own override changes nothing: only the NaNs are those
  of the second reading. -/
  itself : ∀ v, fs.Holds 0 p (.value v) → v.isEndless = false → v.ProperKeys →
    load fs p (some p) =
      (load fs p none).map fun d => { d.renamed (laterNaN 1) with sources := [p, p] }
  /-- Without NaNs it is the same document. -/
  itselfExactly : ∀ v, fs.Holds 0 p (.value v) → v.isEndless = false → v.nans = [] →
    load fs p (some p) = (load fs p none).map fun d => { d with sources := [p, p] }

theorem load_layered (fs : Files) (p : Path) : Layered fs p where
  asked text := by
    rw [overridePath, Option.map_eq_none_iff]
    cases text with
    | none => simp
    | some s => simp
  missing holds _ := load_of_error (loadFile_of_nothing holds)
  malformed _ holds _ := load_of_error (loadFile_of_malformed holds)
  empty _ holds falsy _ := load_of_falsy holds falsy
  unfit _ holds truthy unfit _ := load_of_error (loadFile_of_unfit holds truthy unfit)
  alone _ holds lays := load_of_lays holds lays
  idle _ idle := idle.load
  overrideMalformed _ _ _ holds lays above := by
    rw [load_of_lays holds lays, loadOverride_of_exists above.1, loadFile_of_malformed above]
    rfl
  overrideUnfit _ _ _ holds lays above truthy unfit := by
    rw [load_of_lays holds lays, loadOverride_of_exists above.1,
      loadFile_of_unfit above truthy unfit]
    rfl
  merged _ _ _ holds lays above fits := load_of_both holds lays above fits
  sources _ _ loaded := sources_of_load loaded
  itself _ holds finite proper := load_itself holds finite proper
  itselfExactly _ holds finite exact := load_itself_exactly holds finite exact

def twoLayers : Files :=
  ((Files.empty ["work"]).place (.ofString "vagrant.yaml")
    (.file "nodes: \x7bweb: null\x7d\n".toUTF8.toList)).place (.ofString "local.yaml")
      (.file "nodes: \x7bdb: null\x7d\n".toUTF8.toList)

theorem load_layered_twoLayers : ∃ v w d,
    twoLayers.Holds 0 (.ofString "vagrant.yaml") (.value v) ∧ v.Lays ∧
      twoLayers.Holds 1 (.ofString "local.yaml") (.value w) ∧ w.Lays ∧
      (merge v w >>= fun whole =>
        ofValue whole [.ofString "vagrant.yaml", .ofString "local.yaml"]) = .ok d ∧
      d.sources = [.ofString "vagrant.yaml", .ofString "local.yaml"] ∧ d.nodes.length = 2 := by
  have counted : (load twoLayers (.ofString "vagrant.yaml") (some (.ofString "local.yaml"))).map
      (fun d => d.nodes.length) = .ok 2 := by decide +kernel
  have first : (loadFile twoLayers 0 (.ofString "vagrant.yaml")).map Option.isSome = .ok true := by
    decide +kernel
  have second : (loadFile twoLayers 1 (.ofString "local.yaml")).map Option.isSome = .ok true := by
    decide +kernel
  obtain ⟨_, base, some⟩ := map_eq_ok.mp first
  obtain ⟨v, rfl⟩ := Option.isSome_iff_exists.mp some
  obtain ⟨_, upper, some⟩ := map_eq_ok.mp second
  obtain ⟨w, rfl⟩ := Option.isSome_iff_exists.mp some
  obtain ⟨d, loaded, nodes⟩ := map_eq_ok.mp counted
  obtain ⟨holds, lays⟩ := of_loadFile base
  obtain ⟨above, fits⟩ := of_loadFile upper
  have layered := load_layered twoLayers (.ofString "vagrant.yaml")
  have merged := loaded
  rw [layered.merged v _ w holds lays above fits] at merged
  obtain ⟨q, _, asked, -, -, named⟩ | ⟨none, -⟩ := layered.sources _ _ loaded
  · cases asked
    exact ⟨v, w, d, holds, lays, above, fits, merged, named, nodes⟩
  · exact absurd fits (none _ w rfl above)

/-- A file tree whose document is its own defaults. -/
def selfDefaults : Files :=
  (Files.empty ["work"]).place (.ofString "vagrant.yaml")
    (.file "&r \x7bdefaults: *r\x7d\n".toUTF8.toList)

/-- A document that holds itself can be read, but it cannot be laid over itself. -/
theorem load_layered_fails_of_selfDefaults : ¬ ∀ fs p v d,
    fs.Holds 0 p (.value v) → v.nans = [] → load fs p none = .ok d →
      ∃ e, load fs p (some p) = .ok e ∧ e.data = d.data ∧ e.nodes = d.nodes ∧
        e.boxes = d.boxes ∧ e.plugins = d.plugins := by
  intro every
  have read : (selfDefaults.readValue 0 (.ofString "vagrant.yaml")).map nans = .ok [] := by
    decide +kernel
  have alone : (load selfDefaults (.ofString "vagrant.yaml") none).isOk = true := by
    decide +kernel
  have twice : (load selfDefaults (.ofString "vagrant.yaml")
      (some (.ofString "vagrant.yaml"))).isOk = false := by
    decide +kernel
  obtain ⟨v, held, exact⟩ := map_eq_ok.mp read
  obtain ⟨d, loaded⟩ := exists_of_isOk alone
  obtain ⟨e, merged, -⟩ := every _ _ v d ⟨by decide +kernel, held⟩ exact loaded
  rw [merged] at twice
  cases twice

end Document

end MachinePlan
