import MachinePlan.Preflight.Boxes
import MachinePlan.Proofs.Value.Shown
import Mathlib.Data.List.Forall2

/-!
# Asking for boxes

A catalog is gone through box by box: every location on the web is asked for once, whatever the
answers before, and each answer that is no good is reported (`catalog_asked`). Only a box that cannot
be written ends the check early, because a number in its name or its location is too long.
-/

namespace MachinePlan

open Value

/-- A box and its location, as texts. -/
structure Box where
  name : String
  url : String

/-- An entry of a catalog is written as a box. -/
def Box.Writes (entry : Value × Value) (box : Box) : Prop :=
  entry.1.text = .ok box.name ∧ entry.2.text = .ok box.url

def BoxReply.Good : BoxReply → Prop
  | .status code => code < 400
  | .brokenOff .. => False

instance : DecidablePred BoxReply.Good
  | .status code => inferInstanceAs (Decidable (code < 400))
  | .brokenOff .. => inferInstanceAs (Decidable False)

namespace BoxFindings

def OnWeb (url : String) : Prop :=
  "http://".toList <+: url.toList ∨ "https://".toList <+: url.toList

instance : DecidablePred OnWeb := fun _ => inferInstanceAs (Decidable (_ ∨ _))

/-- What is said about a box for a reply that is no good. A request that broke off as a connection
counts as that, even where it timed out as well. -/
inductive Reported (box : Box) : BoxReply → String → Prop
  | refused {code : Int} (bad : 400 ≤ code) : Reported box (.status code)
      ("Box URL for '" ++ box.name ++ "' returned " ++ toString code ++ "\n  URL: " ++ box.url)
  | unconnected (timeout : Bool) (reason : String) : Reported box (.brokenOff true timeout reason)
      ("Cannot connect to box URL for '" ++ box.name ++ "'\n  URL: " ++ box.url ++ "\n" ++
        "  Check: host is online and reachable from this machine")
  | late (reason : String) : Reported box (.brokenOff false true reason)
      ("Timeout fetching box URL for '" ++ box.name ++ "': " ++ box.url)
  | other (reason : String) : Reported box (.brokenOff false false reason)
      ("Error checking box URL for '" ++ box.name ++ "': " ++ reason)

def onWeb (boxes : List Box) : List Box := boxes.filter fun box => OnWeb box.url

def asked (timeout : Value) (boxes : List Box) : List BoxRequest :=
  (onWeb boxes).map fun box => ⟨box.url, timeout⟩

def complaints (network : String → BoxReply) (boxes : List Box) : List String :=
  (onWeb boxes).flatMap fun box => (problem? box.name box.url (network box.url)).toList

def askedFor (timeout location : Value) : List BoxRequest :=
  match location.text with
  | .ok url => if OnWeb url then [⟨url, timeout⟩] else []
  | .error _ => []

/-- An entry of a catalog whose box and location can be written. -/
def Writable (entry : Value × Value) : Prop :=
  entry.1.holdsLong = false ∧ entry.2.holdsLong = false

/-- The check of a catalog that is written as boxes. -/
structure AskedForAll (network : String → BoxReply) (timeout : Value) (boxes : List Box)
    (found : BoxFindings) : Prop where
  result : found.result = .ok found.errors
  requests : found.requests = asked timeout boxes
  errors : List.Forall₂ (fun box error => Reported box (network box.url) error)
    ((onWeb boxes).filter fun box => ¬ (network box.url).Good) found.errors
  errors_eq_nil_iff : found.errors = [] ↔ ∀ r ∈ found.requests, (network r.url).Good

variable {network : String → BoxReply} {timeout catalog : Value} {es before rest : Entries}
  {entry : Value × Value} {box : Box} {boxes : List Box} {url : String}

/-! ### One box -/

theorem isWeb_iff : isWeb url = true ↔ OnWeb url := by
  unfold isWeb OnWeb
  rw [Bool.or_eq_true, String.startsWith_string_iff, String.startsWith_string_iff]

theorem problem?_of_good (good : (network box.url).Good) :
    problem? box.name box.url (network box.url) = none := by
  cases reply : network box.url with
  | status code =>
    rw [reply] at good
    exact if_neg (Int.not_le.mpr good)
  | brokenOff connection timeout reason =>
    rw [reply] at good
    exact good.elim

theorem exists_reported (bad : ¬ (network box.url).Good) :
    ∃ error, problem? box.name box.url (network box.url) = some error ∧
      Reported box (network box.url) error := by
  cases reply : network box.url with
  | status code =>
    rw [reply] at bad
    have large : 400 ≤ code := Int.not_lt.mp bad
    exact ⟨_, if_pos large, .refused large⟩
  | brokenOff connection timeout reason =>
    cases connection with
    | true => exact ⟨_, rfl, .unconnected timeout reason⟩
    | false =>
      cases timeout with
      | true => exact ⟨_, rfl, .late reason⟩
      | false => exact ⟨_, rfl, .other reason⟩

theorem exists_writes (writable : Writable entry) : ∃ box, Box.Writes entry box := by
  have text (v : Value) (short : v.holdsLong = false) : ∃ s, v.text = .ok s := by
    cases written : v.text with
    | ok s => exact ⟨s, rfl⟩
    | error failure =>
      rw [(text_eq_error.mp written).1] at short
      cases short
  obtain ⟨name, named⟩ := text entry.1 writable.1
  obtain ⟨url, located⟩ := text entry.2 writable.2
  exact ⟨⟨name, url⟩, named, located⟩

theorem ofEntries_of_writes (writes : Box.Writes entry box) (rest : Entries) :
    ofEntries network timeout (entry :: rest) =
      { ofEntries network timeout rest with
        requests := asked timeout [box] ++ (ofEntries network timeout rest).requests
        errors := complaints network [box] ++ (ofEntries network timeout rest).errors } := by
  obtain ⟨key, location⟩ := entry
  obtain ⟨named, located⟩ := writes
  unfold asked complaints onWeb
  rw [ofEntries, located]
  by_cases web : OnWeb box.url
  · simp [named, web, isWeb_iff.mpr web]
  · have away : isWeb box.url = false := Bool.eq_false_iff.mpr fun there => web (isWeb_iff.mp there)
    simp [named, web, away]

/-! ### The boxes of a catalog -/

theorem asked_cons (timeout : Value) (box : Box) (boxes : List Box) :
    asked timeout (box :: boxes) = asked timeout [box] ++ asked timeout boxes := by
  unfold asked onWeb
  by_cases web : OnWeb box.url <;> simp [web]

theorem complaints_cons (network : String → BoxReply) (box : Box) (boxes : List Box) :
    complaints network (box :: boxes) = complaints network [box] ++ complaints network boxes := by
  unfold complaints onWeb
  by_cases web : OnWeb box.url <;> simp [web]

/-- Boxes in front are asked for, and the check goes on behind them, whatever the answers. -/
theorem ofEntries_append (written : List.Forall₂ Box.Writes before boxes) (rest : Entries) :
    ofEntries network timeout (before ++ rest) =
      { ofEntries network timeout rest with
        requests := asked timeout boxes ++ (ofEntries network timeout rest).requests
        errors := complaints network boxes ++ (ofEntries network timeout rest).errors } := by
  induction written with
  | nil => rfl
  | @cons entry box before boxes writes _ ih =>
    rw [List.cons_append, ofEntries_of_writes writes, ih, asked_cons timeout box boxes,
      complaints_cons network box boxes]
    simp only [List.append_assoc]

theorem forall₂_complaints (network : String → BoxReply) (boxes : List Box) :
    List.Forall₂ (fun box error => Reported box (network box.url) error)
      ((onWeb boxes).filter fun box => ¬ (network box.url).Good) (complaints network boxes) := by
  unfold complaints
  induction onWeb boxes with
  | nil => exact .nil
  | cons box boxes ih =>
    rw [List.flatMap_cons]
    by_cases good : (network box.url).Good
    · rw [List.filter_cons_of_neg (by simpa using good), problem?_of_good good]
      exact ih
    · obtain ⟨error, found, reported⟩ := exists_reported good
      rw [List.filter_cons_of_pos (by simpa using good), found]
      exact .cons reported ih

theorem complaints_eq_nil_iff :
    complaints network boxes = [] ↔ ∀ r ∈ asked timeout boxes, (network r.url).Good := by
  unfold complaints asked
  rw [List.flatMap_eq_nil_iff, List.forall_mem_map]
  refine forall₂_congr fun box _ => ?_
  constructor
  · intro none
    by_contra bad
    obtain ⟨error, found, -⟩ := exists_reported bad
    rw [found] at none
    cases none
  · intro good
    rw [problem?_of_good good]
    rfl

theorem askedForAll_of_written (written : List.Forall₂ Box.Writes es boxes) :
    AskedForAll network timeout boxes (ofEntries network timeout es) := by
  have whole : ofEntries network timeout (es ++ []) = _ := ofEntries_append written []
  rw [List.append_nil] at whole
  rw [whole]
  simp only [ofEntries, List.append_nil]
  exact {
    result := rfl
    requests := rfl
    errors := forall₂_complaints network boxes
    errors_eq_nil_iff := complaints_eq_nil_iff }

/-- A box that cannot be written is the last one; where only its name cannot, it is asked for. -/
theorem ofEntries_of_not_writable (long : ¬ Writable entry) (rest : Entries) :
    ofEntries network timeout (entry :: rest) =
      { requests := askedFor timeout entry.2, failure := some (.fault .value) } := by
  obtain ⟨key, location⟩ := entry
  unfold askedFor
  rw [ofEntries]
  cases located : location.text with
  | error failure => rw [failure_text located]
  | ok url =>
    have named : key.text = .error (.fault .value) := by
      refine text_eq_error.mpr ⟨?_, rfl⟩
      by_contra short
      refine long ⟨Bool.eq_false_iff.mpr short, Bool.eq_false_iff.mpr fun unwritten => ?_⟩
      rw [text_eq_error.mpr ⟨unwritten, rfl⟩] at located
      cases located
    simp only [named]
    by_cases web : OnWeb url
    · rw [if_pos (isWeb_iff.mpr web), if_pos web]
    · rw [if_neg (fun there => web (isWeb_iff.mp there)), if_neg web]

theorem exists_boxes (writable : ∀ entry ∈ es, Writable entry) :
    ∃ boxes, List.Forall₂ Box.Writes es boxes := by
  induction es with
  | nil => exact ⟨[], .nil⟩
  | cons entry es ih =>
    rw [List.forall_mem_cons] at writable
    obtain ⟨box, writes⟩ := exists_writes writable.1
    obtain ⟨boxes, written⟩ := ih writable.2
    exact ⟨box :: boxes, .cons writes written⟩

theorem ofCatalog_eq (whole : catalog.entries? = some es) :
    ofCatalog network timeout catalog = ofEntries network timeout es := by
  unfold ofCatalog entries
  rw [whole]

/-- Every box of a catalog is asked for if it is on the web, and only then; a box that cannot be
written ends the check, with those in front of it asked for. -/
theorem catalog_asked (network : String → BoxReply) (timeout catalog : Value) {es : Entries}
    (whole : catalog.entries? = some es) :
    ((∀ entry ∈ es, Writable entry) → ∃ boxes, List.Forall₂ Box.Writes es boxes ∧
      AskedForAll network timeout boxes (ofCatalog network timeout catalog)) ∧
    ∀ before entry after, es = before ++ entry :: after → (∀ e ∈ before, Writable e) →
      ¬ Writable entry → ∃ boxes, List.Forall₂ Box.Writes before boxes ∧
        (ofCatalog network timeout catalog).result = .error (.fault .value) ∧
        (ofCatalog network timeout catalog).requests =
          asked timeout boxes ++ askedFor timeout entry.2 := by
  rw [ofCatalog_eq whole]
  constructor
  · intro writable
    obtain ⟨boxes, written⟩ := exists_boxes writable
    exact ⟨boxes, written, askedForAll_of_written written⟩
  · rintro before entry after rfl writable long
    obtain ⟨boxes, written⟩ := exists_boxes writable
    refine ⟨boxes, written, ?_⟩
    rw [ofEntries_append written, ofEntries_of_not_writable long]
    exact ⟨rfl, rfl⟩

/-- A file, a box that is there, and three whose requests fail, one of them in two ways at once. -/
def mixedCatalog : Entries :=
  [(.str "local", .str "boxes/local.box"), (.str "alma", .str "https://a/alma.box"),
    (.str "arch", .str "http://b/arch.box"), (.null, .str "http://c/null.box"),
    (.str "late", .str "https://d/late.box")]

def mixedReplies (url : String) : BoxReply :=
  if url = "http://b/arch.box" then .status 404
  else if url = "http://c/null.box" then .brokenOff true true "timed out while connecting"
  else if url = "https://d/late.box" then .brokenOff false true "timed out"
  else .status 200

theorem catalog_asked_mixed :
    (Value.map mixedCatalog).entries? = some mixedCatalog ∧
    (∀ entry ∈ mixedCatalog, Writable entry) ∧ ∃ boxes,
      List.Forall₂ Box.Writes mixedCatalog boxes ∧
      AskedForAll mixedReplies boxTimeout boxes
        (ofCatalog mixedReplies boxTimeout (.map mixedCatalog)) := by
  have writable : ∀ entry ∈ mixedCatalog, Writable entry := by
    unfold Writable
    decide +kernel
  exact ⟨rfl, writable, (catalog_asked mixedReplies boxTimeout (.map mixedCatalog) rfl).1 writable⟩

/-- A location that cannot be written keeps the boxes behind it from being asked for. -/
theorem catalog_asked_fails : ¬ ∀ network timeout catalog es, catalog.entries? = some es →
    ∀ entry ∈ es, ∀ url, entry.2.text = .ok url → OnWeb url →
      url ∈ (ofCatalog network timeout catalog).requests.map BoxRequest.url := by
  intro every
  obtain ⟨v, long⟩ : ∃ v : Value, v.holdsLong = true := ⟨_, holdsLong_numeralBound⟩
  let arch : Value × Value := (.str "arch", .str "http://b/arch.box")
  have asked := every mixedReplies boxTimeout (.map [(.str "alma", v), arch]) _ rfl arch (by simp)
    "http://b/arch.box" rfl (by decide +kernel)
  have unwritable : ¬ Writable (.str "alma", v) := by
    intro writable
    rw [writable.2] at long
    cases long
  have unwritten : v.text = .error (.fault .value) := text_eq_error.mpr ⟨long, rfl⟩
  rw [ofCatalog_eq rfl, ofEntries_of_not_writable unwritable, askedFor, unwritten] at asked
  cases asked

end BoxFindings

end MachinePlan
