import MachinePlan.Proofs.Merge.Entries
import MachinePlan.Proofs.Value.Renamed

/-!
# A layer over itself

A layer that is laid over itself changes nothing. When it is read once more for that, its NaNs are
others, and the merged layer holds those of the upper one (`merge_renamed`).
-/

namespace MachinePlan

open Value

variable {f : Option Origin → Option Origin} {v : Value} {es : Entries}

namespace Value

mutual

/-- No key holds a NaN wherever mappings lead through a value. -/
def ProperKeys : Value → Prop
  | .map es => ProperEntries es
  | _ => True

/-- No key of the entries holds a NaN, nor does one below them. -/
def ProperEntries : Entries → Prop
  | [] => True
  | (k, v) :: rest => k.nans = [] ∧ ProperKeys v ∧ ProperEntries rest

end

theorem properEntries_iff : ProperEntries es ↔ ∀ e ∈ es, e.1.nans = [] ∧ e.2.ProperKeys := by
  induction es with
  | nil => exact ⟨fun _ => List.forall_mem_nil _, fun _ => trivial⟩
  | cons entry es ih => rw [ProperEntries, List.forall_mem_cons, ih, and_assoc]

mutual

theorem properKeys_of_nans {v : Value} (none : v.nans = []) : v.ProperKeys := by
  cases v with
  | map es => exact properEntries_of_nans none
  | _ => trivial
termination_by structural v

theorem properEntries_of_nans {es : Entries} (none : nansOfEntries es = []) :
    ProperEntries es := by
  cases es with
  | nil => trivial
  | cons entry es =>
    obtain ⟨k, v⟩ := entry
    obtain ⟨⟨inKey, inValue⟩, rest⟩ : (k.nans = [] ∧ v.nans = []) ∧ nansOfEntries es = [] := by
      rwa [nansOfEntries, List.append_eq_nil_iff, List.append_eq_nil_iff] at none
    exact ⟨inKey, properKeys_of_nans inValue, properEntries_of_nans rest⟩
termination_by structural es

end

/-- Under proper keys only values are renamed. -/
theorem renamedEntries_of_proper (proper : ProperEntries es) :
    renamedEntries f es = mapValues (renamed f) es := by
  rw [renamedEntries_eq, mapValues]
  refine List.map_congr_left fun e member => ?_
  rw [renamed_of_nans (properEntries_iff.mp proper e member).1]

end Value

theorem mergeEntries_of_entrywise (sound : KeysSound es) (proper : ProperEntries es)
    (all : ∀ e ∈ es, mergeAt (some e.2) (e.2.renamed f) = e.2.renamed f) :
    mergeEntries es (renamedEntries f es) = renamedEntries f es := by
  refine mergeEntries_of_sameKeys sound ?_ fun k v w below found => ?_
  · rw [renamedEntries_of_proper proper, keys_mapValues]
  · rw [renamedEntries_of_proper proper, lookup_mapValues, below] at found
    obtain rfl := Option.some.inj found
    obtain ⟨l, member, -⟩ := mem_of_lookup below
    exact all (l, v) member

mutual

/-- What is laid over itself stays as it is above. -/
theorem mergeAt_renamed (v : Value) (tree : v.IsTree) (proper : v.ProperKeys) :
    mergeAt (some v) (v.renamed f) = v.renamed f := by
  cases v with
  | map es =>
    have all := mergeAt_renamedEntries es tree proper
    rw [renamed, mergeAt, mergeEntries_of_entrywise tree.keysSound proper all]
  | _ => rfl
termination_by structural v

theorem mergeAt_renamedEntries (es : Entries) (layer : Layer es) (proper : ProperEntries es) :
    ∀ e ∈ es, mergeAt (some e.2) (e.2.renamed f) = e.2.renamed f := by
  cases es with
  | nil => exact List.forall_mem_nil _
  | cons entry es =>
    obtain ⟨k, v⟩ := entry
    obtain ⟨-, tree, above⟩ := layer.of_cons
    rw [ProperEntries] at proper
    exact List.forall_mem_cons.mpr ⟨mergeAt_renamed v tree proper.2.1,
      mergeAt_renamedEntries es above proper.2.2⟩
termination_by structural es

end

/-- A layer with an end that is laid over itself. -/
theorem merge_renamed (layer : Layer es) (proper : ProperEntries es) :
    merge (.map es) ((Value.map es).renamed f) = .ok ((Value.map es).renamed f) := by
  have finite : (Value.map (renamedEntries f es)).isEndless = false :=
    (isEndless_renamed f (.map es)).trans layer.finite
  have all := mergeAt_renamedEntries (f := f) es layer proper
  rw [renamed, merge_of_finite layer.finite finite,
    mergeEntries_of_entrywise layer.keysSound proper all]

end MachinePlan
