import MachinePlan.Value.Mapping
import Mathlib.Algebra.Order.Field.Rat
import Mathlib.Algebra.Order.Field.Power
import Mathlib.Tactic.Positivity

/-!
# Equality of keys

Every value that can be a key belongs to one class, and two of them are the same key exactly when
their classes are equal (`same_iff`). Numbers are classed by their exact value, so `same` is an
equivalence on keys although it compares whole numbers, truth values and floating numbers crosswise.
-/

namespace MachinePlan

/-- What a number is known by: a NaN by the place it comes from, any other by its value. -/
inductive NumberClass where
  | exact (q : ℚ)
  | infinite (negative : Bool)
  | nan (origin : Origin)

/-- What a time is known by: its instant where the offset is known, else the way it is written. -/
inductive Moment where
  | written (t : DateTime)
  | instant (microseconds : Int)

/-- What a key is known by. -/
inductive KeyClass where
  | null
  | number (n : NumberClass)
  | text (s : String)
  | date (d : Date)
  | time (m : Moment)
  | bytes (bs : List UInt8)
  | tuple (items : List KeyClass)

namespace Binary64

/-- The exact value of a finite number. -/
def ratio (negative : Bool) (s : Nat) (e : Int) : ℚ := signed negative s * 2 ^ e

/-- The class of a floating number; a NaN without an origin has none. -/
def numberClass : Binary64 → Option NumberClass
  | .nan origin => origin.map .nan
  | .infinite negative => some (.infinite negative)
  | .finite negative s e => some (.exact (ratio negative s e))

theorem twoTo_cast (n : Nat) : ((twoTo n : Nat) : ℚ) = 2 ^ n := by
  simp [twoTo]

/-- A significand rewritten in smaller units denotes the same number. -/
theorem ratio_of_units {negative : Bool} {s : Nat} {e unit : Int} (below : unit ≤ e) :
    ((signed negative s * twoTo (e - unit).toNat : Int) : ℚ) * 2 ^ unit = ratio negative s e := by
  have shift : (2 : ℚ) ^ (e - unit).toNat * 2 ^ unit = 2 ^ e := by
    rw [← zpow_natCast, ← zpow_add₀ (by norm_num), Int.toNat_of_nonneg (by omega)]
    congr 1
    omega
  rw [ratio, Int.cast_mul, Int.cast_natCast, twoTo_cast, mul_assoc, shift]

theorem finite_same_iff (na nb : Bool) (sa sb : Nat) (ea eb : Int) :
    (finite na sa ea).same (finite nb sb eb) = true ↔ ratio na sa ea = ratio nb sb eb := by
  have unit : (2 : ℚ) ^ min ea eb ≠ 0 := by positivity
  rw [← ratio_of_units (min_le_left ea eb), ← ratio_of_units (min_le_right ea eb),
    mul_left_inj' unit, Int.cast_inj]
  simp only [same, beq_iff_eq]

theorem same_iff_numberClass (x y : Binary64) :
    x.same y = true ↔ x.numberClass ≠ none ∧ x.numberClass = y.numberClass := by
  cases x with
  | nan o =>
    cases y with
    | nan p => cases o <;> cases p <;> simp [same, numberClass]
    | _ => cases o <;> simp [same, numberClass]
  | infinite n => cases y <;> simp [same, numberClass]
  | finite n s e =>
    cases y with
    | nan p => simp [same, numberClass]
    | infinite m => simp [same, numberClass]
    | finite m t f =>
      rw [finite_same_iff]
      simp [numberClass]

theorem sameInt_iff_numberClass (x : Binary64) (i : Int) :
    x.sameInt i = true ↔ x.numberClass = some (.exact i) := by
  cases x with
  | nan o => simp [sameInt, numberClass]
  | infinite n => simp [sameInt, numberClass]
  | finite n s e =>
    simp only [sameInt, numberClass, Option.some.injEq, NumberClass.exact.injEq]
    split
    · rename_i nonneg
      rw [beq_iff_eq, ← ratio_of_units nonneg, zpow_zero, mul_one, Int.cast_inj, sub_zero]
    · rename_i negative
      have unit : (2 : ℚ) ^ e ≠ 0 := by positivity
      have whole : ((i * twoTo (-e).toNat : Int) : ℚ) * 2 ^ e = i := by
        rw [Int.cast_mul, Int.cast_natCast, twoTo_cast, mul_assoc, ← zpow_natCast,
          ← zpow_add₀ (by norm_num), Int.toNat_of_nonneg (by omega)]
        simp
      rw [beq_iff_eq, ratio, ← whole, mul_left_inj' unit, Int.cast_inj]

end Binary64

/-- The moment that a time denotes. -/
def DateTime.moment (t : DateTime) : Moment :=
  match t.offset with
  | none => .written t
  | some x => .instant (t.localMicroseconds - x * 60000000)

theorem DateTime.same_iff_moment (a b : DateTime) : a.same b = true ↔ a.moment = b.moment := by
  unfold DateTime.same DateTime.moment
  cases a.offset with
  | none => cases b.offset <;> simp
  | some x => cases b.offset <;> simp

namespace Value

/-- The class of a value that contains no others. -/
def atomClass : Value → Option KeyClass
  | .null => some .null
  | .bool b => some (.number (.exact (boolInt b)))
  | .int i => some (.number (.exact i))
  | .float x => x.numberClass.map .number
  | .str s => some (.text s)
  | .date d => some (.date d)
  | .datetime t => some (.time t.moment)
  | .bytes bs => some (.bytes bs)
  | _ => none

mutual

/-- The class of a value that can be a key; a NaN that is equal to none has no class. -/
def keyClass : Value → Option KeyClass
  | .tuple items => (keyClasses items).map .tuple
  | v => atomClass v

def keyClasses : List Value → Option (List KeyClass)
  | [] => some []
  | x :: xs => (keyClass x).bind fun c => (keyClasses xs).map (c :: ·)

end

theorem atomClass_ne_tupleClass (v : Value) (items : List Value)
    (classed : keyClass (.tuple items) ≠ none) : atomClass v ≠ keyClass (.tuple items) := by
  rw [keyClass] at classed ⊢
  cases h : keyClasses items with
  | none => simp [h] at classed
  | some cs => cases v <;> simp [atomClass]

theorem sameInt_iff_class (x : Binary64) (i : Int) :
    x.sameInt i = true ↔ x.numberClass.map KeyClass.number = some (.number (.exact i)) := by
  rw [x.sameInt_iff_numberClass]
  cases x.numberClass <;> simp

/-- On values without parts, equality is equality of classes. -/
theorem sameAtom_iff_atomClass (a b : Value) :
    sameAtom a b = true ↔ atomClass a ≠ none ∧ atomClass a = atomClass b := by
  cases a with
  | float x =>
    cases b with
    | float y =>
      rw [sameAtom, x.same_iff_numberClass y]
      simp only [atomClass]
      cases x.numberClass <;> cases y.numberClass <;> simp
    | bool j => cases h : x.numberClass <;> simp [sameAtom, atomClass, sameInt_iff_class, h]
    | int j => cases h : x.numberClass <;> simp [sameAtom, atomClass, sameInt_iff_class, h]
    | _ => cases h : x.numberClass <;> simp [sameAtom, atomClass, h]
  | bool i =>
    cases b with
    | float y =>
      rw [sameAtom, sameInt_iff_class, eq_comm]
      simp [atomClass]
    | bool j => cases i <;> cases j <;> simp [sameAtom, atomClass, boolInt]
    | _ => simp [sameAtom, atomClass]
  | int i =>
    cases b with
    | float y =>
      rw [sameAtom, sameInt_iff_class, eq_comm]
      simp [atomClass]
    | _ => simp [sameAtom, atomClass]
  | datetime t =>
    cases b with
    | float y => cases h : y.numberClass <;> simp [sameAtom, atomClass, h]
    | datetime u => simp [sameAtom, atomClass, DateTime.same_iff_moment]
    | _ => simp [sameAtom, atomClass]
  | _ =>
    cases b with
    | float y => cases h : y.numberClass <;> simp [sameAtom, atomClass, h]
    | _ => simp [sameAtom, atomClass]

theorem keyClass_of_atom {v : Value} (atom : ∀ items, v ≠ .tuple items) :
    keyClass v = atomClass v := by
  cases v with
  | tuple items => exact absurd rfl (atom items)
  | _ => simp only [keyClass]

theorem same_of_atom {a b : Value} (hashable : a.isHashable = true)
    (atom : ∀ items, a ≠ .tuple items) : same a b = sameAtom a b := by
  cases a with
  | tuple items => exact absurd rfl (atom items)
  | list | map | set => simp [isHashable] at hashable
  | _ => simp only [same]

mutual

/-- The equality of keys is the equality of their classes. -/
theorem same_iff (a b : Value) (hashable : a.isHashable = true) :
    same a b = true ↔ keyClass a ≠ none ∧ keyClass a = keyClass b := by
  cases a with
  | tuple xs =>
    cases b with
    | tuple ys =>
      rw [same, sameItems_iff xs ys hashable]
      simp only [keyClass]
      cases keyClasses xs <;> cases keyClasses ys <;> simp
    | _ =>
      simp only [same, sameAtom, Bool.false_eq_true, false_iff, not_and]
      intro classed equal
      exact atomClass_ne_tupleClass _ xs classed (equal.trans (keyClass_of_atom (by simp))).symm
  | _ =>
    rw [same_of_atom hashable (by simp), sameAtom_iff_atomClass, keyClass_of_atom (by simp)]
    cases b with
    | tuple ys =>
      refine and_congr_right fun classed => ?_
      constructor
      · intro equal
        exact absurd equal classed
      · intro equal
        exact absurd equal (atomClass_ne_tupleClass _ ys (equal ▸ classed))
    | _ => simp only [keyClass]
termination_by structural a

theorem sameItems_iff (xs ys : List Value) (hashable : allHashable xs = true) :
    sameItems xs ys = true ↔ keyClasses xs ≠ none ∧ keyClasses xs = keyClasses ys := by
  cases xs with
  | nil =>
    cases ys with
    | nil => simp [sameItems, keyClasses]
    | cons y ys => cases h : keyClass y <;> cases g : keyClasses ys <;> simp [sameItems, keyClasses, h, g]
  | cons x xs =>
    simp only [allHashable, Bool.and_eq_true] at hashable
    cases ys with
    | nil => cases h : keyClass x <;> cases g : keyClasses xs <;> simp [sameItems, keyClasses, h, g]
    | cons y ys =>
      rw [sameItems, Bool.and_eq_true, same_iff x y hashable.1, sameItems_iff xs ys hashable.2]
      simp only [keyClasses]
      cases keyClass x <;> cases keyClass y <;> cases keyClasses xs <;> cases keyClasses ys <;> simp
termination_by structural xs

end

mutual

theorem hashable_of_keyClass (v : Value) (classed : keyClass v ≠ none) : v.isHashable = true := by
  cases v with
  | tuple items =>
    rw [keyClass, ne_eq, Option.map_eq_none_iff] at classed
    exact allHashable_of_keyClasses items classed
  | list | map | set | ring | again => simp [keyClass, atomClass] at classed
  | _ => rfl
termination_by structural v

theorem allHashable_of_keyClasses (items : List Value) (classed : keyClasses items ≠ none) :
    allHashable items = true := by
  cases items with
  | nil => rfl
  | cons x xs =>
    rw [keyClasses] at classed
    have first : keyClass x ≠ none := by
      intro missing
      simp [missing] at classed
    have rest : keyClasses xs ≠ none := by
      intro missing
      cases h : keyClass x <;> simp [missing, h] at classed
    rw [allHashable, hashable_of_keyClass x first, allHashable_of_keyClasses xs rest]
    rfl
termination_by structural items

end

mutual

theorem isHashable_of_same (a b : Value) (equal : same a b = true) : a.isHashable = b.isHashable := by
  cases a with
  | list xs => cases b with
    | list => rfl
    | _ => simp [same, sameAtom] at equal
  | map => cases b with
    | map => rfl
    | _ => simp [same, sameAtom] at equal
  | set => cases b with
    | set => rfl
    | _ => simp [same, sameAtom] at equal
  | tuple xs => cases b with
    | tuple ys => exact allHashable_of_sameItems xs ys (by simpa only [same] using equal)
    | _ => simp [same, sameAtom] at equal
  | _ => cases b <;> first | rfl | simp [same, sameAtom] at equal
termination_by structural a

theorem allHashable_of_sameItems (xs ys : List Value) (equal : sameItems xs ys = true) :
    allHashable xs = allHashable ys := by
  cases xs with
  | nil => cases ys with
    | nil => rfl
    | cons => simp [sameItems] at equal
  | cons x xs => cases ys with
    | nil => simp [sameItems] at equal
    | cons y ys =>
      rw [sameItems, Bool.and_eq_true] at equal
      rw [allHashable, allHashable, isHashable_of_same x y equal.1,
        allHashable_of_sameItems xs ys equal.2]
termination_by structural xs

end

/-! ### Keys -/

/-- A value that a mapping can hold as a key and find again; a NaN of its own is none. -/
def IsKey (k : Value) : Prop := k.isHashable = true ∧ same k k = true

theorem isKey_iff {k : Value} : IsKey k ↔ keyClass k ≠ none := by
  constructor
  · rintro ⟨hashable, reflexive⟩
    exact ((same_iff k k hashable).mp reflexive).1
  · intro classed
    have hashable := hashable_of_keyClass k classed
    exact ⟨hashable, (same_iff k k hashable).mpr ⟨classed, rfl⟩⟩

theorem isKey_str (s : String) : IsKey (.str s) :=
  isKey_iff.mpr (by simp [keyClass, atomClass])

variable {a b c : Value}

theorem IsKey.same_iff (key : IsKey a) : same a b = true ↔ keyClass a = keyClass b := by
  rw [Value.same_iff a b key.1]
  exact and_iff_right (isKey_iff.mp key)

theorem IsKey.of_same (key : IsKey a) (equal : same a b = true) : IsKey b := by
  rw [key.same_iff] at equal
  exact isKey_iff.mpr (equal ▸ isKey_iff.mp key)

/-- Whatever is equal to a key has its class. -/
theorem IsKey.same_right_iff (key : IsKey b) : same a b = true ↔ keyClass a = keyClass b := by
  constructor
  · intro equal
    exact ((Value.same_iff a b ((isHashable_of_same a b equal).trans key.1)).mp equal).2
  · intro classes
    have other : IsKey a := isKey_iff.mpr (classes ▸ isKey_iff.mp key)
    exact other.same_iff.mpr classes

theorem IsKey.isKey_of_same (key : IsKey b) (equal : same a b = true) : IsKey a :=
  isKey_iff.mpr (key.same_right_iff.mp equal ▸ isKey_iff.mp key)

theorem same_str (k : Value) (s : String) : same k (.str s) = true ↔ k = .str s := by
  cases k <;> simp [same, sameAtom]

end Value

end MachinePlan
