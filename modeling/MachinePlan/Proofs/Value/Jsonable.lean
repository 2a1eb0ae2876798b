import MachinePlan.Json.Basic
import MachinePlan.Proofs.Layer
import MachinePlan.Proofs.Outcome

/-!
# Values with a JSON form

Values that are built from null, truth values, numbers that can be written, texts, rows and mappings
under such keys. Each of them has a text (`Jsonable.text`) and a JSON text (`Jsonable.write`), in
whatever way they are nested; dates, bytes and sets are left out, and so are containers that hold
themselves.
-/

namespace MachinePlan.Value

/-- The keys that JSON knows. -/
inductive JsonKey : Value → Prop
  | null : JsonKey .null
  | bool (b : Bool) : JsonKey (.bool b)
  | int {i : Int} (short : i.natAbs < numeralBound) : JsonKey (.int i)
  | float (x : Binary64) : JsonKey (.float x)
  | str (s : String) : JsonKey (.str s)

/-- The values that JSON knows. -/
inductive Jsonable : Value → Prop
  | null : Jsonable .null
  | bool (b : Bool) : Jsonable (.bool b)
  | int {i : Int} (short : i.natAbs < numeralBound) : Jsonable (.int i)
  | float (x : Binary64) : Jsonable (.float x)
  | str (s : String) : Jsonable (.str s)
  | list {items : List Value} (all : ∀ v ∈ items, Jsonable v) : Jsonable (.list items)
  | tuple {items : List Value} (all : ∀ v ∈ items, Jsonable v) : Jsonable (.tuple items)
  | map {es : Entries} (keys : ∀ e ∈ es, JsonKey e.1) (values : ∀ e ∈ es, Jsonable e.2) :
    Jsonable (.map es)

variable {v k : Value} {items : List Value} {es : Entries}

theorem JsonKey.jsonable (key : JsonKey k) : Jsonable k := by
  cases key with
  | null => exact .null
  | bool b => exact .bool b
  | int short => exact .int short
  | float x => exact .float x
  | str s => exact .str s

/-- Numerals with few enough digits can be written. -/
theorem pow_le_numeralBound {digits : Nat} (few : digits ≤ Text.maxDigits) :
    10 ^ digits ≤ numeralBound := by
  unfold numeralBound
  generalize Text.maxDigits = most at few
  exact Nat.pow_le_pow_right (Nat.succ_pos 9) few

theorem numeralBound_pos : 0 < numeralBound := pow_le_numeralBound (Nat.zero_le _)

theorem numeral_of_lt {i : Int} (short : i.natAbs < numeralBound) :
    numeral i = .ok (toString i) := if_pos short

/-! ### Texts -/

theorem displayItems_of_all (all : ∀ v ∈ items, Explained (fun _ => True) (display v)) :
    Explained (fun _ => True) (displayItems items) := by
  induction items with
  | nil => exact .ok trivial
  | cons v items ih =>
    rw [displayItems]
    refine .bind (all v List.mem_cons_self) fun _ _ => ?_
    exact .bind (ih fun w member => all w (List.mem_cons_of_mem v member)) fun _ _ => .ok trivial

theorem displayEntries_of_all
    (all : ∀ e ∈ es, Explained (fun _ => True) (display e.1) ∧
      Explained (fun _ => True) (display e.2)) :
    Explained (fun _ => True) (displayEntries es) := by
  induction es with
  | nil => exact .ok trivial
  | cons entry es ih =>
    obtain ⟨k, v⟩ := entry
    obtain ⟨key, value⟩ := all (k, v) List.mem_cons_self
    rw [displayEntries]
    refine .bind key fun _ _ => .bind value fun _ _ => ?_
    exact .bind (ih fun e member => all e (List.mem_cons_of_mem _ member)) fun _ _ => .ok trivial

theorem JsonKey.display (key : JsonKey k) : Explained (fun _ => True) k.display := by
  cases key with
  | int short =>
    rw [Value.display, numeral_of_lt short]
    exact .ok trivial
  | _ => exact .ok trivial

theorem Jsonable.display (fine : Jsonable v) : Explained (fun _ => True) v.display := by
  induction fine with
  | int short => exact (JsonKey.int short).display
  | list _ ih => exact .bind (displayItems_of_all ih) fun _ _ => .ok trivial
  | @tuple items _ ih =>
    match items with
    | [] => exact .ok trivial
    | [item] => exact .bind (ih item List.mem_cons_self) fun _ _ => .ok trivial
    | _ :: _ :: _ => exact .bind (displayItems_of_all ih) fun _ _ => .ok trivial
  | @map es keys _ ih =>
    exact .bind (displayEntries_of_all fun e member => ⟨(keys e member).display, ih e member⟩)
      fun _ _ => .ok trivial
  | _ => exact .ok trivial

/-- Each of the values has a text. -/
theorem Jsonable.text (fine : Jsonable v) : Explained (fun _ => True) v.text := by
  cases fine with
  | str s => exact .ok trivial
  | null => exact Jsonable.null.display
  | bool b => exact (Jsonable.bool b).display
  | int short => exact (Jsonable.int short).display
  | float x => exact (Jsonable.float x).display
  | list all => exact (Jsonable.list all).display
  | tuple all => exact (Jsonable.tuple all).display
  | map keys values => exact (Jsonable.map keys values).display

theorem texts_of_all (all : ∀ v ∈ items, Jsonable v) : Explained (fun _ => True) (texts items) := by
  induction items with
  | nil => exact .ok trivial
  | cons v items ih =>
    rw [texts]
    refine .bind (all v List.mem_cons_self).text fun _ _ => ?_
    exact .bind (ih fun w member => all w (List.mem_cons_of_mem v member)) fun _ _ => .ok trivial

/-! ### JSON texts -/

theorem JsonKey.keyText (key : JsonKey k) : Explained (fun _ => True) (Json.keyText k) := by
  cases key with
  | int short =>
    rw [Json.keyText, numeral_of_lt short]
    exact .ok trivial
  | _ => exact .ok trivial

theorem writeItems_of_all {spacing : Json.Spacing} {level : Nat}
    (all : ∀ v ∈ items, ∀ level, Explained (fun _ => True) (Json.write spacing level v)) :
    Explained (fun _ => True) (Json.writeItems spacing level items) := by
  induction items with
  | nil => exact .ok trivial
  | cons v items ih =>
    have first := all v List.mem_cons_self (level + 1)
    cases items with
    | nil => exact first
    | cons w items =>
      rw [Json.writeItems]
      · refine .bind first fun _ _ => ?_
        exact .bind (ih fun x member => all x (List.mem_cons_of_mem v member)) fun _ _ => .ok trivial
      · exact List.cons_ne_nil w items

theorem writeEntries_of_all {spacing : Json.Spacing} {level : Nat}
    (keys : ∀ e ∈ es, JsonKey e.1)
    (all : ∀ e ∈ es, ∀ level, Explained (fun _ => True) (Json.write spacing level e.2)) :
    Explained (fun _ => True) (Json.writeEntries spacing level es) := by
  induction es with
  | nil => exact .ok trivial
  | cons entry es ih =>
    obtain ⟨k, v⟩ := entry
    have name := (keys (k, v) List.mem_cons_self).keyText
    have first := all (k, v) List.mem_cons_self (level + 1)
    cases es with
    | nil => exact .bind name fun _ _ => .bind first fun _ _ => .ok trivial
    | cons e es =>
      rw [Json.writeEntries]
      · refine .bind name fun _ _ => .bind first fun _ _ => ?_
        exact .bind (ih (fun f member => keys f (List.mem_cons_of_mem _ member))
          fun f member => all f (List.mem_cons_of_mem _ member)) fun _ _ => .ok trivial
      · exact List.cons_ne_nil e es

/-- Each of the values has a JSON text. -/
theorem Jsonable.write (fine : Jsonable v) (spacing : Json.Spacing) :
    ∀ level, Explained (fun _ => True) (Json.write spacing level v) := by
  induction fine with
  | @int i short =>
    intro level
    rw [Json.write, numeral_of_lt short]
    exact .ok trivial
  | @list items _ ih =>
    intro level
    cases items with
    | nil => exact .ok trivial
    | cons v items => exact .bind (writeItems_of_all ih) fun _ _ => .ok trivial
  | @tuple items _ ih =>
    intro level
    cases items with
    | nil => exact .ok trivial
    | cons v items => exact .bind (writeItems_of_all ih) fun _ _ => .ok trivial
  | @map es keys _ ih =>
    intro level
    cases es with
    | nil => exact .ok trivial
    | cons e es => exact .bind (writeEntries_of_all keys ih) fun _ _ => .ok trivial
  | _ => exact fun _ => .ok trivial

theorem anyEndless_of_all (all : ∀ v ∈ items, v.isEndless = false) : anyEndless items = false := by
  induction items with
  | nil => rfl
  | cons v items ih =>
    rw [anyEndless, all v List.mem_cons_self,
      ih fun w member => all w (List.mem_cons_of_mem v member)]
    rfl

/-- None of the values holds itself. -/
theorem Jsonable.finite (fine : Jsonable v) : v.isEndless = false := by
  induction fine with
  | list _ ih => exact anyEndless_of_all ih
  | tuple _ ih => exact anyEndless_of_all ih
  | map _ _ ih => exact anyEntryEndless_eq_false.mpr ih
  | _ => rfl

theorem Jsonable.opened (fine : Jsonable v) : v.opened = v := opened_of_finite fine.finite

/-! ### Parts -/

theorem Jsonable.of_map (fine : Jsonable (.map es)) :
    ∀ e ∈ es, JsonKey e.1 ∧ Jsonable e.2 := by
  cases fine with
  | map keys values => exact fun e member => ⟨keys e member, values e member⟩

theorem jsonable_map_iff : Jsonable (.map es) ↔ ∀ e ∈ es, JsonKey e.1 ∧ Jsonable e.2 :=
  ⟨Jsonable.of_map, fun all => .map (fun e member => (all e member).1) fun e member =>
    (all e member).2⟩

theorem jsonable_list_iff : Jsonable (.list items) ↔ ∀ v ∈ items, Jsonable v := by
  refine ⟨fun fine => ?_, .list⟩
  cases fine with
  | list all => exact all

theorem jsonable_getD (name : String) (all : ∀ e ∈ es, Jsonable e.2) : Jsonable (getD name es) := by
  rw [getD]
  cases found : get? name es with
  | none => exact .null
  | some v =>
    obtain ⟨k, member, -⟩ := mem_of_lookup found
    exact all (k, v) member

theorem Jsonable.insert {key value : Value} (fine : Jsonable (.map es)) (known : JsonKey key)
    (here : Jsonable value) : Jsonable (.map (insert key value es)) := by
  have key_of_mem : ∀ k ∈ keys es, JsonKey k := by
    intro k member
    obtain ⟨e, inside, rfl⟩ := List.mem_map.mp member
    exact (fine.of_map e inside).1
  refine .map ?_ ?_
  · intro e member
    have there : e.1 ∈ keys (Value.insert key value es) := List.mem_map_of_mem member
    rw [keys_insert] at there
    split at there
    · exact key_of_mem e.1 there
    · rcases List.mem_append.mp there with old | new
      · exact key_of_mem e.1 old
      · rw [List.mem_singleton.mp new]
        exact known
  · intro e member
    rcases mem_insert member with same | old
    · rw [same]
      exact here
    · exact (fine.of_map e old).2

/-- Entries that arise by inserting one pair after the other. -/
theorem jsonable_ofPairs {pairs : Entries} (all : ∀ e ∈ pairs, JsonKey e.1 ∧ Jsonable e.2) :
    Jsonable (.map (ofPairs pairs)) := by
  have insert_all : ∀ start : Entries, Jsonable (.map start) →
      Jsonable (.map (pairs.foldl (fun es e => insert e.1 e.2 es) start)) := by
    induction pairs with
    | nil => exact fun _ fine => fine
    | cons e pairs ih =>
      intro start fine
      obtain ⟨key, value⟩ := all e List.mem_cons_self
      exact ih (fun f member => all f (List.mem_cons_of_mem e member)) _ (fine.insert key value)
  exact insert_all [] (.map (by simp) (by simp))

/-- The value can stand where elements are asked for: it has some, or it counts as nothing. -/
def Row (v : Value) : Prop := v.isTruthy = true → ∃ items, v.elements = .ok items

theorem elements_of_row (fine : Jsonable v) (row : Row v) :
    Explained (fun items => ∀ x ∈ items, Jsonable x) v.elementsOrNone := by
  rw [elementsOrNone]
  split
  case isFalse => exact .ok (by simp)
  case isTrue truthy =>
    obtain ⟨items, yields⟩ := row truthy
    rw [elements, fine.opened] at yields ⊢
    cases fine with
    | list all => exact .ok all
    | tuple all => exact .ok all
    | map known _ =>
      refine .ok fun k member => ?_
      obtain ⟨e, inside, rfl⟩ := List.mem_map.mp member
      exact (known e inside).jsonable
    | str s =>
      refine .ok fun c member => ?_
      obtain ⟨piece, _, rfl⟩ := List.mem_map.mp member
      exact .str piece
    | _ => cases yields

end MachinePlan.Value
