import MachinePlan.Proofs.Layer
import MachinePlan.Proofs.Outcome
import MachinePlan.Yaml.Value

/-!
# Keys of documents

A document denotes a value whose mappings have sound keys: every key is equal to itself and to no
other key (`isSound_of_read`). While values are made, every mapping that is filled has sound keys,
and whatever is made of a node that is no container can be a key.
-/

namespace MachinePlan.Yaml

open Value

/-! ### Entries whose values are nodes -/

/-- Entries of any kind with sound keys. -/
def SoundKeys {α : Type} (entries : List (Value × α)) : Prop :=
  KeysSound (entries.map fun e => (e.1, Value.null))

section
variable {α : Type} {entries : List (Value × α)} {key : Value}

theorem SoundKeys.nil : SoundKeys ([] : List (Value × α)) := KeysSound.nil

theorem map_insert (key : Value) (a : α) (entries : List (Value × α)) :
    (insert key a entries).map (fun e => (e.1, Value.null)) =
      insert key .null (entries.map fun e => (e.1, Value.null)) := by
  induction entries with
  | nil => rfl
  | cons entry entries ih =>
    obtain ⟨k, b⟩ := entry
    rw [List.map_cons, Value.insert, Value.insert, apply_ite (List.map _), List.map_cons, List.map_cons, ih]

theorem SoundKeys.insert (sound : SoundKeys entries) (isKey : IsKey key) (a : α) :
    SoundKeys (insert key a entries) := by
  rw [SoundKeys, map_insert]
  exact KeysSound.insert sound isKey .null

/-- Sound keys stay sound whatever stands under them. -/
theorem SoundKeys.keysSound (sound : SoundKeys entries) (f : α → Value) :
    KeysSound (entries.map fun e => (e.1, f e.2)) := by
  have same : keys (entries.map fun e => (e.1, f e.2)) =
      keys (entries.map fun e => (e.1, Value.null)) := by simp [keys, Function.comp_def]
  exact ⟨by rw [same]; exact sound.isKey, by rw [same]; exact sound.distinct⟩

end

/-! ### Atoms -/

theorem isKey_date (d : Date) : IsKey (.date d) := isKey_iff.mpr (by simp [keyClass, atomClass])

theorem isKey_datetime (t : DateTime) : IsKey (.datetime t) :=
  isKey_iff.mpr (by simp [keyClass, atomClass])

/-- A number that was made somewhere is equal to itself, also when it is a NaN. -/
theorem isKey_madeAt (x : Binary64) (origin : Origin) : IsKey (.float (x.madeAt origin)) := by
  refine isKey_iff.mpr ?_
  cases x with
  | nan known => cases known <;> simp [Binary64.madeAt, keyClass, atomClass, Binary64.numberClass]
  | _ => simp [Binary64.madeAt, keyClass, atomClass, Binary64.numberClass]

theorem isKey_stampOf {text : List Char} {v : Value} (read : stampOf text = .ok v) : IsKey v := by
  rw [stampOf] at read
  split at read
  · split at read
    · split at read
      · obtain rfl := Except.ok.inj read
        exact isKey_date _
      · dsimp only at read
        split at read
        · obtain rfl := Except.ok.inj read
          exact isKey_datetime _
        · cases read
    · cases read
  · cases read

/-- A scalar is a number with a point or a key. -/
theorem isKey_scalarValue {tag : Tag} {text : String} {v : Value}
    (read : scalarValue tag text = .ok v) : (∃ x, v = .float x) ∨ IsKey v := by
  cases tag with
  | null =>
    obtain rfl := Except.ok.inj read
    exact .inr (isKey_iff.mpr (by simp [keyClass, atomClass]))
  | str =>
    obtain rfl := Except.ok.inj read
    exact .inr (isKey_str text)
  | bool | int | binary =>
    obtain ⟨_, -, rfl⟩ := map_eq_ok.mp read
    exact .inr (isKey_iff.mpr (by simp [keyClass, atomClass]))
  | float =>
    obtain ⟨x, -, rfl⟩ := map_eq_ok.mp read
    exact .inl ⟨x, rfl⟩
  | timestamp => exact .inr (isKey_stampOf read)
  | _ => cases read

/-- Whatever is made of a node that is no container can be a key. -/
theorem Graph.isKey_atom {g : Graph} {i : Nat} {v : Value} (made : g.atom i = .ok v) : IsKey v := by
  rw [Graph.atom] at made
  dsimp only at made
  split at made
  · cases made
  obtain ⟨text, -, made⟩ := bind_eq_ok.mp made
  split at made
  · cases made
  · obtain ⟨v, read, made⟩ := bind_eq_ok.mp made
    split at made
    · obtain rfl := Except.ok.inj made
      exact isKey_madeAt _ _
    case h_2 other =>
      obtain rfl := Except.ok.inj made
      rcases isKey_scalarValue read with ⟨x, rfl⟩ | isKey
      · exact absurd rfl (other x)
      · exact isKey

/-! ### Making values -/

/-- What a node has been made into is sound: a key, or a mapping with sound keys. -/
def Made.Sound : Made → Prop
  | .atom v => IsKey v
  | .map entries => SoundKeys entries
  | _ => True

namespace Workshop

variable {s : Workshop}

def Sound (s : Workshop) : Prop := ∀ i made, s.made? i = some made → made.Sound

theorem sound_start (g : Graph) : (start g).Sound := by
  intro i made there
  rw [start, made?, Array.getD_eq_getD_getElem?] at there
  rcases Nat.lt_or_ge i g.size with inside | outside
  · simp [inside] at there
  · simp [outside] at there

theorem Sound.isKey_atom (sound : s.Sound) (i : Nat) : IsKey (s.atom i) := by
  rw [Workshop.atom]
  split
  case h_1 v made => exact sound i _ made
  case h_2 => exact isKey_iff.mpr (by simp [keyClass, atomClass])

/-- A workshop in which one more node has been made. -/
theorem Sound.put {made : Made} (sound : s.Sound) (here : made.Sound) (i : Nat) :
    Sound { s with made := s.made.setIfInBounds i (some made) } := by
  intro j other there
  rw [made?, Array.getD_eq_getD_getElem?, Array.getElem?_setIfInBounds] at there
  split at there
  · split at there
    · simp only [Option.getD_some, Option.some.injEq] at there
      exact there ▸ here
    · cases there
  · rw [← Array.getD_eq_getD_getElem?] at there
    exact sound j other there

end Workshop

namespace Making

variable {α β : Type} {P : α → Prop} {Q : β → Prop}

/-- A step that keeps a workshop sound and gives a result with a property, if it gives one. -/
def Gives (P : α → Prop) (m : Making α) : Prop :=
  ∀ s a t, s.Sound → m.run s = .ok (a, t) → t.Sound ∧ P a

namespace Gives

theorem pure {a : α} (holds : P a) : Gives P (Pure.pure a) := by
  intro s b t sound ran
  obtain ⟨rfl, rfl⟩ := Prod.mk.inj (Except.ok.inj ran)
  exact ⟨sound, holds⟩

theorem throw (refusal : Refusal) : Gives P (MonadExcept.throw refusal : Making α) := by
  intro s a t _ ran
  cases ran

theorem bind {m : Making α} {next : α → Making β} (first : Gives P m)
    (rest : ∀ a, P a → Gives Q (next a)) : Gives Q (m >>= next) := by
  intro s b t sound ran
  rw [StateT.run_bind] at ran
  obtain ⟨⟨a, u⟩, here, ran⟩ := bind_eq_ok.mp ran
  obtain ⟨between, holds⟩ := first s a u sound here
  exact rest a holds u b t between ran

theorem get : Gives Workshop.Sound (MonadState.get : Making Workshop) := by
  intro s a t sound ran
  obtain ⟨rfl, rfl⟩ := Prod.mk.inj (Except.ok.inj ran)
  exact ⟨sound, sound⟩

/-- A change that leaves alone what has been made. -/
theorem modify {change : Workshop → Workshop} (same : ∀ s, (change s).made = s.made) :
    Gives (fun _ => True) (MonadState.modifyGet fun s => ((), change s) : Making Unit) := by
  intro s a t sound ran
  obtain ⟨rfl, rfl⟩ := Prod.mk.inj (Except.ok.inj ran)
  refine ⟨fun i made there => sound i made ?_, trivial⟩
  rwa [Workshop.made?, same] at there

theorem put (made : Made) (here : made.Sound) (i : Nat) :
    Gives (fun _ => True) (Making.put i made) := by
  intro s a t sound ran
  obtain ⟨rfl, rfl⟩ := Prod.mk.inj (Except.ok.inj ran)
  exact ⟨sound.put here i, trivial⟩

/-- A result that does not look at the workshop. -/
theorem lift {r : Except Refusal α} (holds : ∀ a, r = .ok a → P a) :
    Gives P (liftM r : Making α) := by
  intro s a t sound ran
  cases r with
  | error refusal => cases ran
  | ok b =>
    obtain ⟨rfl, rfl⟩ := Prod.mk.inj (Except.ok.inj ran)
    exact ⟨sound, holds b rfl⟩

end Gives

theorem gives_make (i : Nat) : Gives (fun _ => True) (make i) := by
  refine .bind .get fun s _ => ?_
  split
  · exact .pure trivial
  · split
    · exact .bind (.modify fun _ => rfl) fun _ _ => .put (.list []) trivial i
    · exact .bind (.lift fun v made => Graph.isKey_atom made) fun v isKey => .put (.atom v) isKey i

theorem gives_makeAll (items : List Nat) : Gives (fun _ => True) (makeAll items) := by
  induction items with
  | nil => exact .pure trivial
  | cons i items ih => exact .bind (gives_make i) fun _ _ => ih

theorem gives_makePairs (items : List Nat) : Gives (fun _ => True) (makePairs items) := by
  induction items with
  | nil => exact .pure trivial
  | cons i items ih =>
    refine .bind .get fun s _ => ?_
    split
    · exact .bind (gives_make _) fun _ _ => .bind (gives_make _) fun _ _ =>
        .bind ih fun _ _ => .pure trivial
    · exact .throw _

/-- Inserting the pairs of a mapping one by one keeps its keys sound. -/
theorem gives_makeEntries {entries : List (Value × Nat)} (sound : SoundKeys entries)
    (pairs : List (Nat × Nat)) : Gives SoundKeys (makeEntries entries pairs) := by
  induction pairs generalizing entries with
  | nil => exact .pure sound
  | cons pair pairs ih =>
    obtain ⟨key, value⟩ := pair
    refine .bind (gives_make key) fun _ _ => .bind .get fun s known => ?_
    split
    · exact .throw _
    · exact .bind (gives_make value) fun _ _ => ih (sound.insert (known.isKey_atom key) value)

theorem gives_entriesOf (i : Nat) : Gives SoundKeys (entriesOf i) := by
  refine .bind .get fun s _ => .bind (.lift fun _ _ => trivial) fun g _ => ?_
  exact .bind (.modify fun _ => rfl) fun _ _ => gives_makeEntries .nil _

theorem gives_fill (i : Nat) : Gives (fun _ => True) (fill i) := by
  refine .bind .get fun s _ => ?_
  dsimp only
  split
  · exact .bind (gives_makeAll _) fun _ _ => .put (.list _) trivial i
  · exact .bind (gives_makePairs _) fun pairs _ => .put (.pairs pairs) trivial i
  · exact .bind (gives_entriesOf i) fun entries sound => .put (.map entries) sound i
  · exact .bind (gives_entriesOf i) fun entries _ => .put (.set (entries.map Prod.fst)) trivial i
  · exact .throw _

theorem gives_fillAll (items : List Nat) : Gives (fun _ => True) (fillAll items) := by
  induction items with
  | nil => exact .pure trivial
  | cons i items ih => exact .bind (gives_fill i) fun _ _ => ih

theorem gives_finish (rounds : Nat) : Gives (fun _ => True) (finish rounds) := by
  induction rounds with
  | zero => exact .pure trivial
  | succ rounds ih =>
    refine .bind .get fun s _ => ?_
    split
    · exact .pure trivial
    · exact .bind (.modify fun _ => rfl) fun _ _ => .bind (gives_fillAll _) fun _ _ => ih

theorem gives_all (root : Nat) : Gives (fun _ => True) (all root) :=
  .bind (gives_make root) fun _ _ => .bind .get fun _ _ => gives_finish _

end Making

/-! ### Seeing values -/

theorem isSound_of_isKey {v : Value} (isKey : IsKey v) : v.IsSound := by
  cases v with
  | map => cases isKey.1
  | _ => trivial

theorem isSound_enclosed {i : Nat} {contents : Value} {returns : List Nat}
    (sound : contents.IsSound) : (Workshop.enclosed i contents returns).value.IsSound := by
  rw [Workshop.enclosed]
  split
  · exact sound
  · trivial

/-- A node of a sound workshop is seen as a value with sound keys. -/
theorem Workshop.Sound.isSound_sight {s : Workshop} (sound : s.Sound) (fuel : Nat)
    (around : List Nat) (i : Nat) : (s.sight fuel around i).value.IsSound := by
  induction fuel generalizing around i with
  | zero => trivial
  | succ fuel ih =>
    rw [sight]
    split
    · trivial
    · dsimp only
      split
      · trivial
      case h_2 v made =>
        exact isSound_of_isKey (sound i _ made)
      · trivial
      · exact isSound_enclosed trivial
      case h_5 entries made =>
        have known : SoundKeys entries := sound i _ made
        rw [List.map_map]
        refine isSound_enclosed ⟨known.keysSound fun j => (s.sight fuel (i :: around) j).value, ?_⟩
        rw [entriesSound_iff, List.forall_mem_map]
        exact fun e _ => ih (i :: around) e.2
      · exact isSound_enclosed trivial

/-- The mappings of a value that is read have sound keys. -/
theorem isSound_of_read {bytes : List UInt8} {v : Value} (done : read bytes = .ok v) : v.IsSound := by
  rw [read] at done
  obtain ⟨⟨g, root⟩, -, done⟩ := bind_eq_ok.mp done
  cases root with
  | none =>
    obtain rfl := Except.ok.inj done
    trivial
  | some root =>
    obtain ⟨⟨_, s⟩, made, done⟩ := bind_eq_ok.mp done
    obtain rfl := Except.ok.inj done
    have sound := (Making.gives_all root _ _ s (Workshop.sound_start g) made).1
    exact sound.isSound_sight _ _ _

end MachinePlan.Yaml
