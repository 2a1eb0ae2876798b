import MachinePlan.Proofs.Finite
import MachinePlan.Proofs.Layer
import MachinePlan.Proofs.Outcome
import MachinePlan.Value.Elements
import MachinePlan.Value.Remade
import MachinePlan.Value.Text

/-!
# Values with other NaNs

Renaming the NaNs of a value changes nothing that can be read off it: its texts, its elements and
what it holds under a text stay the same but for the NaNs (`display_renamed`, `elements_renamed`,
`getD_renamed`). A value without NaNs is left as it is (`renamed_of_nans`), and one that is made anew
and has an end is a renamed one (`remade_of_finite`).
-/

namespace MachinePlan.Value

variable {f : Option Origin → Option Origin} {v : Value} {items : List Value} {es : Entries}

theorem renamedItems_eq (f : Option Origin → Option Origin) (items : List Value) :
    renamedItems f items = items.map (renamed f) := by
  induction items with
  | nil => rfl
  | cons v items ih => rw [renamedItems, ih, List.map_cons]

theorem renamedEntries_eq (f : Option Origin → Option Origin) (es : Entries) :
    renamedEntries f es = es.map fun e => (e.1.renamed f, e.2.renamed f) := by
  induction es with
  | nil => rfl
  | cons entry es ih =>
    obtain ⟨k, v⟩ := entry
    rw [renamedEntries, ih, List.map_cons]

/-! ### The NaNs of a value -/

mutual

/-- The origins of the NaNs in a value. -/
def nans : Value → List (Option Origin)
  | .float (.nan origin) => [origin]
  | .list items => nansOfItems items
  | .map entries => nansOfEntries entries
  | .tuple items => nansOfItems items
  | .set items => nansOfItems items
  | .ring _ v => nans v
  | _ => []

def nansOfItems : List Value → List (Option Origin)
  | [] => []
  | v :: rest => nans v ++ nansOfItems rest

def nansOfEntries : Entries → List (Option Origin)
  | [] => []
  | (k, v) :: rest => nans k ++ nans v ++ nansOfEntries rest

end

mutual

/-- Origins that a value does not hold can be renamed as one likes. -/
theorem renamed_of_fixed (v : Value) (fixed : ∀ o ∈ v.nans, f o = o) : v.renamed f = v := by
  cases v with
  | float x =>
    cases x with
    | nan o => rw [renamed, Binary64.renamed, fixed o (List.mem_singleton.mpr rfl)]
    | _ => rfl
  | list items =>
    rw [nans] at fixed
    rw [renamed, renamedItems_of_fixed items fixed]
  | map es =>
    rw [nans] at fixed
    rw [renamed, renamedEntries_of_fixed es fixed]
  | tuple items =>
    rw [nans] at fixed
    rw [renamed, renamedItems_of_fixed items fixed]
  | set items =>
    rw [nans] at fixed
    rw [renamed, renamedItems_of_fixed items fixed]
  | ring o v =>
    rw [nans] at fixed
    rw [renamed, renamed_of_fixed v fixed]
  | _ => rfl
termination_by structural v

theorem renamedItems_of_fixed (items : List Value) (fixed : ∀ o ∈ nansOfItems items, f o = o) :
    renamedItems f items = items := by
  cases items with
  | nil => rfl
  | cons v items =>
    rw [nansOfItems, List.forall_mem_append] at fixed
    rw [renamedItems, renamed_of_fixed v fixed.1, renamedItems_of_fixed items fixed.2]
termination_by structural items

theorem renamedEntries_of_fixed (es : Entries) (fixed : ∀ o ∈ nansOfEntries es, f o = o) :
    renamedEntries f es = es := by
  cases es with
  | nil => rfl
  | cons entry es =>
    obtain ⟨k, v⟩ := entry
    rw [nansOfEntries, List.forall_mem_append, List.forall_mem_append] at fixed
    rw [renamedEntries, renamed_of_fixed k fixed.1.1, renamed_of_fixed v fixed.1.2,
      renamedEntries_of_fixed es fixed.2]
termination_by structural es

end

/-- A value without NaNs has none to rename. -/
theorem renamed_of_nans (none : v.nans = []) : v.renamed f = v :=
  renamed_of_fixed v (by simp [none])

/-! ### What stays the same -/

mutual

theorem isEndless_renamed (f : Option Origin → Option Origin) (v : Value) :
    (v.renamed f).isEndless = v.isEndless := by
  cases v with
  | list items => rw [renamed, isEndless, isEndless, anyEndless_renamed f items]
  | tuple items => rw [renamed, isEndless, isEndless, anyEndless_renamed f items]
  | map es => rw [renamed, isEndless, isEndless, anyEntryEndless_renamed f es]
  | _ => rfl
termination_by structural v

theorem anyEndless_renamed (f : Option Origin → Option Origin) (items : List Value) :
    anyEndless (renamedItems f items) = anyEndless items := by
  cases items with
  | nil => rfl
  | cons v items =>
    rw [renamedItems, anyEndless, anyEndless, isEndless_renamed f v, anyEndless_renamed f items]
termination_by structural items

theorem anyEntryEndless_renamed (f : Option Origin → Option Origin) (es : Entries) :
    anyEntryEndless (renamedEntries f es) = anyEntryEndless es := by
  cases es with
  | nil => rfl
  | cons entry es =>
    obtain ⟨k, v⟩ := entry
    rw [renamedEntries, anyEntryEndless, anyEntryEndless, isEndless_renamed f v,
      anyEntryEndless_renamed f es]
termination_by structural es

end

theorem isTruthy_renamed (f : Option Origin → Option Origin) (v : Value) :
    (v.renamed f).isTruthy = v.isTruthy := by
  cases v with
  | float x => cases x <;> rfl
  | list items => rw [renamed, renamedItems_eq, isTruthy, isTruthy, List.isEmpty_map]
  | tuple items => rw [renamed, renamedItems_eq, isTruthy, isTruthy, List.isEmpty_map]
  | set items => rw [renamed, renamedItems_eq, isTruthy, isTruthy, List.isEmpty_map]
  | map es => rw [renamed, renamedEntries_eq, isTruthy, isTruthy, List.isEmpty_map]
  | _ => rfl

/-! ### Texts -/

mutual

/-- All NaNs are written in the same way. -/
theorem display_renamed (f : Option Origin → Option Origin) (v : Value) :
    (v.renamed f).display = v.display := by
  cases v with
  | float x => cases x <;> rfl
  | list items => rw [renamed, display, display, displayItems_renamed f items]
  | map es => rw [renamed, display, display, displayEntries_renamed f es]
  | tuple items =>
    match items with
    | [] => rfl
    | [v] => rw [renamed, renamedItems, renamedItems, display, display, display_renamed f v]
    | v :: w :: items =>
      have inside := displayItems_renamed f (v :: w :: items)
      simp only [renamedItems] at inside
      simp only [renamed, renamedItems, display, inside]
  | set items =>
    match items with
    | [] => rfl
    | v :: items =>
      have inside := displayItems_renamed f (v :: items)
      simp only [renamedItems] at inside
      simp only [renamed, renamedItems, display, inside]
  | ring o v => rw [renamed, display, display, display_renamed f v]
  | _ => rfl
termination_by structural v

theorem displayItems_renamed (f : Option Origin → Option Origin) (items : List Value) :
    displayItems (renamedItems f items) = displayItems items := by
  cases items with
  | nil => rfl
  | cons v items =>
    rw [renamedItems, displayItems, displayItems, display_renamed f v, displayItems_renamed f items]
termination_by structural items

theorem displayEntries_renamed (f : Option Origin → Option Origin) (es : Entries) :
    displayEntries (renamedEntries f es) = displayEntries es := by
  cases es with
  | nil => rfl
  | cons entry es =>
    obtain ⟨k, v⟩ := entry
    rw [renamedEntries, displayEntries, displayEntries, display_renamed f k, display_renamed f v,
      displayEntries_renamed f es]
termination_by structural es

end

theorem text_renamed (f : Option Origin → Option Origin) (v : Value) :
    (v.renamed f).text = v.text := by
  cases v with
  | str | date | datetime => rfl
  | _ => exact display_renamed f _

theorem texts_renamed (f : Option Origin → Option Origin) (items : List Value) :
    texts (items.map (renamed f)) = texts items := by
  induction items with
  | nil => rfl
  | cons v items ih => rw [List.map_cons, texts, texts, text_renamed, ih]

/-! ### Parts -/

theorem same_str_renamed (k : Value) (name : String) :
    same (k.renamed f) (.str name) = same k (.str name) := by
  rw [Bool.eq_iff_iff, same_str, same_str]
  cases k <;> simp [renamed]

theorem lookup_str_renamed (f : Option Origin → Option Origin) (name : String) (es : Entries) :
    lookup (.str name) (renamedEntries f es) = (lookup (.str name) es).map (renamed f) := by
  induction es with
  | nil => rfl
  | cons entry es ih =>
    obtain ⟨k, v⟩ := entry
    rw [renamedEntries, lookup_cons, lookup_cons, same_str_renamed, ih]
    split <;> rfl

/-- What is found under a text is what was there before, renamed. -/
theorem getD_renamed (f : Option Origin → Option Origin) (name : String) (es : Entries) :
    getD name (renamedEntries f es) = (getD name es).renamed f := by
  rw [getD, getD, get?, get?, lookup_str_renamed]
  cases lookup (.str name) es <;> rfl

theorem orElse_renamed (f : Option Origin → Option Origin) (v other : Value) :
    (v.renamed f).orElse (other.renamed f) = (v.orElse other).renamed f := by
  rw [orElse, orElse, isTruthy_renamed, apply_ite (renamed f)]

theorem entries?_renamed (finite : v.isEndless = false) :
    (v.renamed f).entries? = v.entries?.map (renamedEntries f) := by
  cases v with
  | ring | again => cases finite
  | _ => rfl

/-- The elements are those from before, renamed. -/
theorem elements_renamed (finite : v.isEndless = false) :
    (v.renamed f).elements = v.elements.map (List.map (renamed f)) := by
  cases v with
  | ring | again => cases finite
  | list items | tuple items | set items => exact congrArg Except.ok (renamedItems_eq f items)
  | map es =>
    have keys : (renamedEntries f es).map Prod.fst = (es.map Prod.fst).map (renamed f) := by
      rw [renamedEntries_eq, List.map_map, List.map_map]
      rfl
    exact congrArg Except.ok keys
  | str s =>
    have same : (characters s).map Value.str = ((characters s).map Value.str).map (renamed f) := by
      rw [List.map_map]
      rfl
    exact congrArg Except.ok same
  | bytes bs =>
    have same : bs.map (fun b => Value.int b.toNat) =
        (bs.map fun b => Value.int b.toNat).map (renamed f) := by
      rw [List.map_map]
      rfl
    exact congrArg Except.ok same
  | _ => rfl

theorem elementsOrNone_renamed (finite : v.isEndless = false) :
    (v.renamed f).elementsOrNone = v.elementsOrNone.map (List.map (renamed f)) := by
  rw [elementsOrNone, elementsOrNone, isTruthy_renamed, elements_renamed finite]
  split <;> rfl

/-! ### Values made anew -/

mutual

theorem copied_zero (v : Value) : copied 0 v = v := by
  cases v with
  | list items => rw [copied, copiedItems_zero items]
  | tuple items => rw [copied, copiedItems_zero items]
  | map es => rw [copied, copiedEntries_zero es]
  | ring o v => rw [copied, copied_zero v]; rfl
  | _ => rfl
termination_by structural v

theorem copiedItems_zero (items : List Value) : copiedItems 0 items = items := by
  cases items with
  | nil => rfl
  | cons v items => rw [copiedItems, copied_zero v, copiedItems_zero items]
termination_by structural items

theorem copiedEntries_zero (es : Entries) : copiedEntries 0 es = es := by
  cases es with
  | nil => rfl
  | cons entry es =>
    obtain ⟨k, v⟩ := entry
    rw [copiedEntries, copied_zero v, copiedEntries_zero es]
termination_by structural es

end

/-- The first document is made as it is. -/
theorem remade_zero (v : Value) : v.remade 0 = v := by
  rw [remade, copied_zero]
  refine renamed_of_fixed v fun o _ => ?_
  cases o with
  | none => rfl
  | some o =>
    rw [Option.map_some, Origin.remade]
    split <;> rfl

/-- The origins of NaNs in a document that is read `n` documents later. -/
def laterNaN (n : Nat) (origin : Option Origin) : Option Origin := origin.map (Origin.remade n)

/-- A value with an end is made anew with other NaNs, and with nothing else. -/
theorem remade_of_finite (n : Nat) (finite : v.isEndless = false) :
    v.remade n = v.renamed (laterNaN n) :=
  copied_of_finite n _ ((isEndless_renamed _ v).trans finite)

end MachinePlan.Value
