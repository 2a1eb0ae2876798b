import MachinePlan.Proofs.Entries
import MachinePlan.Value.Ring

/-!
# Values that have an end

Copying renames rings and tidying removes broken ones; a value without rings goes through both as it
is. On the entries of a mapping both work value by value.
-/

namespace MachinePlan.Value

mutual

theorem copied_of_finite (n : Nat) (v : Value) (finite : v.isEndless = false) : copied n v = v := by
  cases v with
  | list items =>
    rw [isEndless] at finite
    rw [copied, copiedItems_of_finite n items finite]
  | tuple items =>
    rw [isEndless] at finite
    rw [copied, copiedItems_of_finite n items finite]
  | map es =>
    rw [isEndless] at finite
    rw [copied, copiedEntries_of_finite n es finite]
  | ring | again => simp [isEndless] at finite
  | _ => rfl
termination_by structural v

theorem copiedItems_of_finite (n : Nat) (items : List Value) (finite : anyEndless items = false) :
    copiedItems n items = items := by
  cases items with
  | nil => rfl
  | cons v items =>
    rw [anyEndless, Bool.or_eq_false_iff] at finite
    rw [copiedItems, copied_of_finite n v finite.1, copiedItems_of_finite n items finite.2]
termination_by structural items

theorem copiedEntries_of_finite (n : Nat) (es : Entries) (finite : anyEntryEndless es = false) :
    copiedEntries n es = es := by
  cases es with
  | nil => rfl
  | cons entry es =>
    obtain ⟨k, v⟩ := entry
    rw [anyEntryEndless, Bool.or_eq_false_iff] at finite
    rw [copiedEntries, copied_of_finite n v finite.1, copiedEntries_of_finite n es finite.2]
termination_by structural es

end

mutual

theorem tidied_of_finite (v : Value) (finite : v.isEndless = false) : tidied v = v := by
  cases v with
  | list items =>
    rw [isEndless] at finite
    rw [tidied, tidiedItems_of_finite items finite]
  | tuple items =>
    rw [isEndless] at finite
    rw [tidied, tidiedItems_of_finite items finite]
  | map es =>
    rw [isEndless] at finite
    rw [tidied, tidiedEntries_of_finite es finite]
  | ring | again => simp [isEndless] at finite
  | _ => rfl
termination_by structural v

theorem tidiedItems_of_finite (items : List Value) (finite : anyEndless items = false) :
    tidiedItems items = items := by
  cases items with
  | nil => rfl
  | cons v items =>
    rw [anyEndless, Bool.or_eq_false_iff] at finite
    rw [tidiedItems, tidied_of_finite v finite.1, tidiedItems_of_finite items finite.2]
termination_by structural items

theorem tidiedEntries_of_finite (es : Entries) (finite : anyEntryEndless es = false) :
    tidiedEntries es = es := by
  cases es with
  | nil => rfl
  | cons entry es =>
    obtain ⟨k, v⟩ := entry
    rw [anyEntryEndless, Bool.or_eq_false_iff] at finite
    rw [tidiedEntries, tidied_of_finite v finite.1, tidiedEntries_of_finite es finite.2]
termination_by structural es

end

theorem isTruthy_of_isEndless {v : Value} (endless : v.isEndless = true) : v.isTruthy = true := by
  cases v with
  | list items | tuple items =>
    cases items with
    | nil => cases endless
    | cons => rfl
  | map es =>
    cases es with
    | nil => cases endless
    | cons => rfl
  | ring | again => rfl
  | _ => cases endless

/-- Entries with another value under each key. -/
def mapValues (f : Value → Value) (es : Entries) : Entries := es.map fun e => (e.1, f e.2)

theorem keys_mapValues (f : Value → Value) (es : Entries) : keys (mapValues f es) = keys es := by
  simp [keys, mapValues]

theorem lookup_mapValues (f : Value → Value) (q : Value) (es : Entries) :
    lookup q (mapValues f es) = (lookup q es).map f := by
  induction es with
  | nil => rfl
  | cons entry es ih =>
    obtain ⟨k, v⟩ := entry
    show (if same k q then some (f v) else lookup q (mapValues f es)) = _
    rw [lookup_cons, ih]
    split <;> rfl

theorem copiedEntries_eq (n : Nat) (es : Entries) : copiedEntries n es = mapValues (copied n) es := by
  induction es with
  | nil => rfl
  | cons entry es ih => rw [copiedEntries, ih]; rfl

theorem tidiedEntries_eq (es : Entries) : tidiedEntries es = mapValues tidied es := by
  induction es with
  | nil => rfl
  | cons entry es ih => rw [tidiedEntries, ih]; rfl

end MachinePlan.Value
