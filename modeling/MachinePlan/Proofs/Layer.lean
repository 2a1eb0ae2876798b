import MachinePlan.Merge
import MachinePlan.Proofs.Entries

/-!
# Layers and key paths

A layer is a mapping that does not contain itself and whose keys are sound at every level. What a
value holds is seen along paths of keys (`at?`), and everything that a layer holds at a path is
again finite and sound.
-/

namespace MachinePlan.Value

/-- What a value holds at the end of a path of keys. -/
def at? : List Value → Value → Option Value
  | [], v => some v
  | k :: path, v => (v.entries?.bind (lookup k)).bind (at? path)

mutual

/-- The keys are sound wherever mappings lead through a value. -/
def IsSound : Value → Prop
  | .map es => KeysSound es ∧ EntriesSound es
  | _ => True

def EntriesSound : Entries → Prop
  | [] => True
  | (_, v) :: rest => IsSound v ∧ EntriesSound rest

end

/-- A value that has an end and whose keys are sound wherever mappings lead. -/
structure IsTree (v : Value) : Prop where
  finite : v.isEndless = false
  sound : v.IsSound

/-- Entries that can be a layer of a document. -/
abbrev Layer (es : Entries) : Prop := (Value.map es).IsTree

section
variable {k key q : Value} {v w : Value} {es fs : Entries} {path : List Value}

theorem entriesSound_iff : EntriesSound es ↔ ∀ e ∈ es, IsSound e.2 := by
  induction es with
  | nil => simp [EntriesSound]
  | cons entry es ih => simp [EntriesSound, ih]

theorem anyEntryEndless_eq_false : anyEntryEndless es = false ↔ ∀ e ∈ es, e.2.isEndless = false := by
  induction es with
  | nil => simp [anyEntryEndless]
  | cons entry es ih => simp [anyEntryEndless, ih]

theorem layer_iff : Layer es ↔ KeysSound es ∧ ∀ e ∈ es, e.2.IsTree := by
  constructor
  · rintro ⟨finite, keysSound, sound⟩
    exact ⟨keysSound, fun e member =>
      ⟨anyEntryEndless_eq_false.mp finite e member, entriesSound_iff.mp sound e member⟩⟩
  · rintro ⟨keysSound, trees⟩
    exact ⟨anyEntryEndless_eq_false.mpr fun e member => (trees e member).finite, keysSound,
      entriesSound_iff.mpr fun e member => (trees e member).sound⟩

theorem finite_of_lookup (finite : (Value.map es).isEndless = false)
    (found : lookup q es = some v) : v.isEndless = false := by
  obtain ⟨k, member, _⟩ := mem_of_lookup found
  exact anyEntryEndless_eq_false.mp finite (k, v) member

theorem opened_of_finite (finite : v.isEndless = false) : v.opened = v := by
  cases v with
  | ring o contents => simp [isEndless] at finite
  | _ => rfl

theorem eq_map_of_entries? (finite : v.isEndless = false) (read : v.entries? = some es) :
    v = .map es := by
  unfold entries? at read
  rw [opened_of_finite finite] at read
  split at read
  · exact congrArg Value.map (Option.some.inj read)
  · cases read

@[simp] theorem entries?_map (es : Entries) : (Value.map es).entries? = some es := rfl

/-! ### Layers inside layers -/

theorem IsTree.nil : Layer [] := layer_iff.mpr ⟨KeysSound.nil, by simp⟩

theorem IsTree.keysSound (layer : Layer es) : KeysSound es := layer.sound.1

theorem IsTree.of_cons (layer : Layer ((k, v) :: es)) : IsKey k ∧ v.IsTree ∧ Layer es := by
  obtain ⟨keysSound, trees⟩ := layer_iff.mp layer
  obtain ⟨isKey, _, rest⟩ := keysSound_cons.mp keysSound
  exact ⟨isKey, trees (k, v) (by simp),
    layer_iff.mpr ⟨rest, fun e member => trees e (List.mem_cons_of_mem _ member)⟩⟩

theorem IsTree.lookup (layer : Layer es) (found : lookup q es = some v) : v.IsTree := by
  obtain ⟨k, member, _⟩ := mem_of_lookup found
  exact (layer_iff.mp layer).2 (k, v) member

theorem mem_insert {e : Value × Value} (member : e ∈ insert key v es) : e.2 = v ∨ e ∈ es := by
  induction es with
  | nil =>
    obtain rfl := List.mem_singleton.mp member
    exact Or.inl rfl
  | cons entry es ih =>
    obtain ⟨k, w⟩ := entry
    rw [insert] at member
    split at member
    · rcases List.mem_cons.mp member with rfl | member
      · exact Or.inl rfl
      · exact Or.inr (List.mem_cons_of_mem _ member)
    · rcases List.mem_cons.mp member with rfl | member
      · exact Or.inr (by simp)
      · rcases ih member with same | member
        · exact Or.inl same
        · exact Or.inr (List.mem_cons_of_mem _ member)

theorem IsTree.insert (layer : Layer es) (isKey : IsKey key) (tree : v.IsTree) :
    Layer (insert key v es) := by
  obtain ⟨keysSound, trees⟩ := layer_iff.mp layer
  refine layer_iff.mpr ⟨keysSound.insert isKey v, ?_⟩
  intro e member
  rcases mem_insert member with rfl | member
  · exact tree
  · exact trees e member

/-! ### Paths -/

@[simp] theorem at?_nil (v : Value) : v.at? [] = some v := rfl

theorem at?_map_cons (k : Value) (path : List Value) (es : Entries) :
    (Value.map es).at? (k :: path) = (Value.lookup k es).bind (at? path) := rfl

theorem at?_cons_eq_some :
    v.at? (k :: path) = some w ↔ ∃ x, v.at? [k] = some x ∧ x.at? path = some w := by
  simp only [at?, Option.bind_eq_some_iff]
  constructor
  · rintro ⟨x, found, deeper⟩
    exact ⟨x, ⟨x, found, rfl⟩, deeper⟩
  · rintro ⟨x, ⟨_, found, ⟨⟩⟩, deeper⟩
    exact ⟨x, found, deeper⟩

theorem at?_cons_of_no_entries (plain : v.entries? = none) : v.at? (k :: path) = none := by
  rw [at?, plain]
  rfl

theorem IsTree.at? (tree : v.IsTree) (found : v.at? path = some w) : w.IsTree := by
  induction path generalizing v with
  | nil =>
    obtain rfl := Option.some.inj found
    exact tree
  | cons k path ih =>
    cases read : v.entries? with
    | none =>
      rw [at?_cons_of_no_entries read] at found
      cases found
    | some es =>
      obtain rfl := eq_map_of_entries? tree.finite read
      rw [at?_map_cons] at found
      obtain ⟨x, inside, found⟩ := Option.bind_eq_some_iff.mp found
      exact ih (tree.lookup inside) found

end

end MachinePlan.Value
