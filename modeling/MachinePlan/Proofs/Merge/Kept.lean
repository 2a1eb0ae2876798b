import MachinePlan.Proofs.Finite
import MachinePlan.Proofs.Merge.Entries
import MachinePlan.Proofs.Outcome

/-!
# What a merge leaves alone

A base that has an end keeps, under whatever is laid over it, every entry that the upper layer does
not mention, in its place; and so does each mapping of the base, one level deeper (`merge_kept`).
The upper layer may contain itself: what is put into the base is then copied and tidied on the way,
which changes no value that has an end.
-/

namespace MachinePlan

open Value

variable {base upper result ps : Entries} {s m : Value}

/-- The entries of a base that an upper layer does not mention are kept in front, and its own
entries follow. -/
structure Kept (base upper result : Entries) : Prop where
  ordered : KeysSound upper →
    keys result = keys base ++ (keys upper).filter fun k => !hasKey k base
  same : ∀ q, IsKey q → lookup q upper = none → lookup q result = lookup q base

theorem Laid.kept {meets : Option Value → Value → Value → Prop}
    (laid : Laid meets base upper result) : Kept base upper result where
  ordered := laid.keys_eq
  same _ isKey absent := laid.lookup_of_absent isKey absent

theorem Kept.mapValues {f : Value → Value} (spared : ∀ q v, lookup q base = some v → f v = v)
    (kept : Kept base upper result) : Kept base upper (mapValues f result) where
  ordered sound := by rw [keys_mapValues, kept.ordered sound]
  same q isKey absent := by
    rw [lookup_mapValues, kept.same q isKey absent]
    cases found : lookup q base with
    | none => rfl
    | some v => rw [Option.map_some, spared q v found]

theorem Kept.copied (finite : (Value.map base).isEndless = false) (n : Nat)
    (kept : Kept base upper result) : Kept base upper (copiedEntries n result) := by
  rw [copiedEntries_eq]
  exact kept.mapValues fun q v found => copied_of_finite n v (finite_of_lookup finite found)

theorem Kept.tidied (finite : (Value.map base).isEndless = false)
    (kept : Kept base upper result) : Kept base upper (tidiedEntries result) := by
  rw [tidiedEntries_eq]
  exact kept.mapValues fun q v found => tidied_of_finite v (finite_of_lookup finite found)

/-! ### Upper layers that may have no end -/

/-- What a value becomes over what is below it, while mappings that meet are merged by `meet`. -/
def overBelow (meet : Value → Value → Except Failure Value) (below : Option Value) (v : Value) :
    Except Failure Value :=
  match below.bind entries?, v.entries? with
  | some _, some _ => meet (below.getD .null) v
  | _, _ => .ok v

theorem layOver_map_cons (meet : Value → Value → Except Failure Value) (base rest : Entries)
    (key v : Value) :
    layOver meet (.map base) ((key, v) :: rest) =
      overBelow meet (lookup key base) v >>= fun here =>
        layOver meet (putEntry key here (.map base)) rest := by
  rw [layOver, overBelow, entries?_map, Option.bind_some]
  cases (lookup key base).bind entries? with
  | none => rfl
  | some below => cases v.entries? <;> rfl

theorem laid_of_layOver {meet : Value → Value → Except Failure Value}
    (ran : layOver meet (.map base) upper = .ok m) :
    ∃ result, m = .map result ∧ Laid (fun below v here => ∃ n made,
      overBelow meet below v = .ok made ∧ here = copied n made) base upper result := by
  induction upper generalizing base with
  | nil => exact ⟨base, (Except.ok.inj ran).symm, .nil base⟩
  | cons entry rest ih =>
    obtain ⟨key, v⟩ := entry
    rw [layOver_map_cons] at ran
    obtain ⟨made, met, ran⟩ := bind_eq_ok.mp ran
    obtain ⟨result, rfl, later⟩ := ih ran
    exact ⟨result, rfl, .cons ⟨_, made, met, rfl⟩ later⟩

theorem kept_of_mergeWithin {depth : Nat} (ran : mergeWithin depth (.map base) s = .ok m)
    (read : s.entries? = some upper) : ∃ result, m = .map result ∧ Kept base upper result := by
  cases depth with
  | zero => cases ran
  | succ depth =>
    rw [mergeWithin, read, Option.getD_some] at ran
    obtain ⟨result, rfl, laid⟩ := laid_of_layOver ran
    exact ⟨result, rfl, laid.kept⟩

/-! ### Two levels -/

/-- What a merge leaves alone at the top, and in each mapping below it that meets a mapping. -/
structure KeptBelow (base upper result : Entries) : Prop extends Kept base upper result where
  below : ∀ q bs w ws, IsKey q → lookup q base = some (.map bs) → lookup q upper = some w →
    w.entries? = some ws → ∃ rs, lookup q result = some (.map rs) ∧ Kept bs ws rs

theorem keptBelow_mergeEntries (finite : (Value.map upper).isEndless = false)
    (distinct : (keys upper).Pairwise fun a b => same a b = false) :
    KeptBelow base upper (mergeEntries base upper) where
  toKept := (laid_mergeEntries base upper).kept
  below q bs w ws isKey lower found read := by
    obtain ⟨_, rfl, last⟩ :=
      (laid_mergeEntries base upper).lookup_of_present isKey distinct found
    obtain rfl := eq_map_of_entries? (finite_of_lookup finite found) read
    refine ⟨mergeEntries bs ws, ?_, (laid_mergeEntries bs ws).kept⟩
    rw [last, lower, mergeAt]

theorem keptBelow_mergeWithin {depth : Nat} (finite : (Value.map base).isEndless = false)
    (distinct : (keys upper).Pairwise fun a b => same a b = false)
    (read : s.entries? = some upper) (ran : mergeWithin depth (.map base) s = .ok m) :
    ∃ result, m.tidied = .map result ∧ KeptBelow base upper result := by
  cases depth with
  | zero => cases ran
  | succ depth =>
    rw [mergeWithin, read, Option.getD_some] at ran
    obtain ⟨result, rfl, laid⟩ := laid_of_layOver ran
    refine ⟨tidiedEntries result, by rw [Value.tidied], laid.kept.tidied finite, ?_⟩
    intro q bs w ws isKey lower found inside
    obtain ⟨here, ⟨n, made, met, rfl⟩, last⟩ := laid.lookup_of_present isKey distinct found
    have ended : (Value.map bs).isEndless = false := finite_of_lookup finite lower
    rw [overBelow, lower, Option.bind_some, entries?_map, inside] at met
    obtain ⟨rs, rfl, kept⟩ := kept_of_mergeWithin met inside
    -- The merged section is copied where it is put in and tidied with the whole at the end.
    refine ⟨tidiedEntries (copiedEntries n rs), ?_, (kept.copied ended n).tidied ended⟩
    rw [tidiedEntries_eq, lookup_mapValues, last, Option.map_some, Value.copied, Value.tidied]

theorem merge_of_endless (endless : s.isEndless = true) (read : s.entries? = some upper) :
    merge (.map base) s = (mergeWithin depthLimit (.map base) s).map tidied := by
  unfold merge
  rw [orElse_map_nil]
  simp only [isTruthy_of_isEndless endless, if_true, Value.entries, read, entries?_map, endless,
    Bool.or_true]
  cases mergeWithin depthLimit (.map base) s <;> rfl

/-- Whatever is laid over a base that has an end leaves alone what it does not mention. -/
theorem merge_kept (finite : (Value.map base).isEndless = false)
    (distinct : (keys upper).Pairwise fun a b => same a b = false)
    (read : s.entries? = some upper) (ran : merge (.map base) s = .ok m) :
    ∃ result, m = .map result ∧ KeptBelow base upper result := by
  cases ended : s.isEndless with
  | false =>
    obtain rfl := eq_map_of_entries? ended read
    rw [merge_of_finite finite ended] at ran
    exact ⟨_, (Except.ok.inj ran).symm, keptBelow_mergeEntries ended distinct⟩
  | true =>
    rw [merge_of_endless ended read] at ran
    cases within : mergeWithin depthLimit (.map base) s with
    | error failure =>
      rw [within] at ran
      cases ran
    | ok merged =>
      rw [within] at ran
      obtain rfl := Except.ok.inj ran
      exact keptBelow_mergeWithin finite distinct read within

end MachinePlan
