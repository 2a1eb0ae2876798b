import MachinePlan.Hook.Registry
import MachinePlan.Proofs.Pairs
import MachinePlan.Proofs.Text.CodeOrder
import Mathlib.Data.List.Induction

/-!
# Registries over their histories

Whatever is put into a new registry and asked of it, in whatever order, it answers as the finite map
from each name to the hook that was put there last (`registry_refines_map`). One call after the other
keeps the names in order and every lookup at the latest hook (`Represents.call`).
-/

namespace MachinePlan

/-- What can be done with a registry. -/
inductive RegistryCall where
  | register (name : String) (hook : Hook)
  | get (name : String)
  | names
  | contains (name : String)
  | size

inductive RegistryReply where
  | hook (result : Except Failure Hook)
  | names (row : List String)
  | truth (b : Bool)
  | count (n : Nat)

namespace RegistryCall

/-- Only this call is there to change a registry. -/
def Registers : RegistryCall → Prop
  | register .. => True
  | _ => False

def Registered (past : List RegistryCall) (name : String) : Prop :=
  ∃ hook, register name hook ∈ past

def Latest (past : List RegistryCall) (name : String) (hook : Hook) : Prop :=
  ∃ before after, past = before ++ register name hook :: after ∧
    ∀ other, register name other ∉ after

/-- The names in use, in strictly ascending order. -/
structure Listed (past : List RegistryCall) (names : List String) : Prop where
  mem_iff : ∀ name, name ∈ names ↔ Registered past name
  ascending : names.Pairwise (Text.precedes · · = true)
  /-- The order is that of the code points which the names spell. -/
  codePoints : ∀ rows : List (List Nat), (∀ row ∈ rows, ∀ n ∈ row, Text.IsCode n) →
    names = rows.map Text.ofCodes → rows.Pairwise (· < ·)

/-- The words for a name that is not among those in use. The row of these is empty also where the
empty text is the only one. -/
inductive Unknown (names : List String) (name : String) : String → Prop
  | nothing (empty : ", ".intercalate names = "") :
      Unknown names name ("Unknown hook: " ++ name ++ ". Available: none")
  | known (some : ", ".intercalate names ≠ "") :
      Unknown names name ("Unknown hook: " ++ name ++ ". Available: " ++ ", ".intercalate names)

/-- What the map that the past has made answers, with the names in use. -/
inductive Answers (past : List RegistryCall) (names : List String) :
    RegistryCall → RegistryReply → Prop
  | registered (name : String) (hook : Hook) :
      Answers past names (.register name hook) (.hook (.ok hook))
  | found {name : String} {hook : Hook} (latest : Latest past name hook) :
      Answers past names (.get name) (.hook (.ok hook))
  | unknown {name : String} (fresh : ¬ Registered past name)
      (words : Unknown names name (Problem.unknownHook name names).message) :
      Answers past names (.get name) (.hook (.error (.problem (.unknownHook name names))))
  | names : Answers past names .names (.names names)
  | contains {name : String} {b : Bool} (truth : b = true ↔ Registered past name) :
      Answers past names (.contains name) (.truth b)
  | size : Answers past names .size (.count names.length)

end RegistryCall

open RegistryCall

namespace Registry

def call (r : Registry) : RegistryCall → Registry × RegistryReply
  | .register name hook => (r.register name hook, .hook (.ok hook))
  | .get name => (r, .hook (r.get name))
  | .names => (r, .names r.names)
  | .contains name => (r, .truth (r.contains name))
  | .size => (r, .count r.size)

def after (past : List RegistryCall) : Registry :=
  past.foldl (fun r c => (r.call c).1) .empty

/-- A registry stands for the map that the past has made. -/
structure Refines (past : List RegistryCall) (r : Registry) : Prop where
  listed : Listed past r.names
  answers : ∀ c, Answers past r.names c (r.call c).2
  kept : ∀ c, ¬ c.Registers → (r.call c).1 = r
  /-- A hook under one name leaves what is found under the others. -/
  others : ∀ name hook other found, other ≠ name →
    ((r.register name hook).get other = .ok found ↔ r.get other = .ok found)

/-- What one call after the other keeps. -/
structure Represents (past : List RegistryCall) (r : Registry) : Prop where
  sorted : r.hooks.Pairwise fun a b => Text.precedes a.1 b.1 = true
  find?_iff : ∀ name hook, r.find? name = some hook ↔ Latest past name hook

variable {past : List RegistryCall} {r : Registry} {c : RegistryCall} {name other : String}
  {hook old : Hook} {hooks : List (String × Hook)} {pair : String × Hook}

/-! ### Registering -/

theorem lookup_insert (hooks : List (String × Hook)) :
    (insert name hook hooks).lookup other =
      if other = name then some hook else hooks.lookup other := by
  induction hooks with
  | nil => exact lookup_pair name other hook []
  | cons pair rest ih =>
    obtain ⟨first, old⟩ := pair
    rw [insert]
    by_cases here : name = first
    · rw [if_pos here, lookup_pair, lookup_pair, here]
      split <;> rfl
    · rw [if_neg here]
      split
      · exact lookup_pair name other hook _
      · rw [lookup_pair, lookup_pair, ih]
        by_cases wanted : other = name
        · have elsewhere : other ≠ first := fun same => here (wanted.symm.trans same)
          rw [if_neg elsewhere, if_pos wanted, if_pos wanted]
        · rw [if_neg wanted, if_neg wanted]

theorem find?_register (r : Registry) :
    (r.register name hook).find? other = if other = name then some hook else r.find? other :=
  lookup_insert r.hooks

theorem mem_names_iff : name ∈ r.names ↔ (r.find? name).isSome = true := by
  rw [names, find?, List.lookup_isSome_iff, List.mem_map]
  simp only [beq_iff_eq]
  exact exists_congr fun pair => and_congr_right fun _ => eq_comm

theorem mem_insert (member : pair ∈ insert name hook hooks) : pair = (name, hook) ∨ pair ∈ hooks := by
  induction hooks with
  | nil => exact .inl (List.mem_singleton.mp member)
  | cons first rest ih =>
    rw [insert] at member
    split at member
    · exact (List.mem_cons.mp member).imp_right (List.mem_cons_of_mem first)
    · split at member
      · exact List.mem_cons.mp member
      · rcases List.mem_cons.mp member with rfl | member
        · exact .inr List.mem_cons_self
        · exact (ih member).imp_right (List.mem_cons_of_mem first)

theorem sorted_insert (sorted : hooks.Pairwise fun a b => Text.precedes a.1 b.1 = true) :
    (insert name hook hooks).Pairwise fun a b => Text.precedes a.1 b.1 = true := by
  induction hooks with
  | nil => exact List.pairwise_singleton _ _
  | cons first rest ih =>
    obtain ⟨above, rest_sorted⟩ := List.pairwise_cons.mp sorted
    rw [insert]
    split
    case isTrue same => exact List.pairwise_cons.mpr ⟨same ▸ above, rest_sorted⟩
    case isFalse apart =>
      split
      case isTrue before =>
        refine List.pairwise_cons.mpr ⟨fun pair member => ?_, sorted⟩
        rcases List.mem_cons.mp member with rfl | member
        · exact before
        · exact Text.precedes_trans before (above pair member)
      case isFalse behind =>
        refine List.pairwise_cons.mpr ⟨fun pair member => ?_, ih rest_sorted⟩
        rcases mem_insert member with rfl | member
        · exact Text.precedes_of_not_precedes apart behind
        · exact above pair member

/-! ### Histories -/

theorem after_concat (past : List RegistryCall) (c : RegistryCall) :
    after (past ++ [c]) = ((after past).call c).1 := by
  rw [after, List.foldl_append]
  rfl

theorem latest_concat : Latest (past ++ [c]) name hook ↔
    c = .register name hook ∨ (∀ other, c ≠ .register name other) ∧ Latest past name hook := by
  constructor
  · rintro ⟨before, after, split, last⟩
    -- the last call is the one looked for, or it stands behind that one
    rcases List.eq_nil_or_concat after with rfl | ⟨between, d, rfl⟩
    · exact .inl (List.append_inj_right' split rfl |> List.singleton_inj.mp)
    · rw [List.concat_eq_append, ← List.cons_append, ← List.append_assoc] at split
      obtain ⟨rfl, same⟩ := List.append_inj' split rfl
      obtain rfl := List.singleton_inj.mp same
      rw [List.concat_eq_append] at last
      refine .inr ⟨fun other same => last other ?_, before, between, rfl, fun other member => ?_⟩
      · exact List.mem_append_right between (List.mem_singleton.mpr same.symm)
      · exact last other (List.mem_append_left [c] member)
  · rintro (rfl | ⟨apart, before, between, rfl, last⟩)
    · exact ⟨past, [], rfl, fun _ => List.not_mem_nil⟩
    · refine ⟨before, between ++ [c], by simp, fun other member => ?_⟩
      rcases List.mem_append.mp member with member | member
      · exact last other member
      · exact apart other (List.mem_singleton.mp member).symm

theorem registered_iff : Registered past name ↔ ∃ hook, Latest past name hook := by
  constructor
  · rintro ⟨hook, member⟩
    -- from the last call back: it registers the latest hook, or one of the calls before it does
    induction past using List.reverseRecOn with
    | nil => cases member
    | append_singleton past c ih =>
      by_cases here : ∃ other, c = .register name other
      · obtain ⟨other, rfl⟩ := here
        exact ⟨other, latest_concat.mpr (.inl rfl)⟩
      · rcases List.mem_append.mp member with member | member
        · obtain ⟨hook, latest⟩ := ih member
          exact ⟨hook, latest_concat.mpr (.inr ⟨not_exists.mp here, latest⟩)⟩
        · exact absurd ⟨hook, (List.mem_singleton.mp member).symm⟩ here
  · rintro ⟨hook, before, after, rfl, -⟩
    exact ⟨hook, List.mem_append_right before List.mem_cons_self⟩

theorem Represents.empty : Represents [] .empty := by
  refine ⟨.nil, fun name hook => ?_⟩
  constructor
  · intro found
    cases found
  · rintro ⟨before, after, split, -⟩
    cases before <;> cases split

theorem Represents.ask (represents : Represents past r) (asks : ∀ name hook, c ≠ .register name hook) :
    Represents (past ++ [c]) r := by
  refine ⟨represents.sorted, fun name hook => ?_⟩
  rw [represents.find?_iff, latest_concat]
  exact ⟨fun latest => .inr ⟨asks name, latest⟩,
    fun latest => (latest.resolve_left (asks name hook)).2⟩

theorem Represents.register (represents : Represents past r) :
    Represents (past ++ [.register name hook]) (r.register name hook) := by
  refine ⟨sorted_insert represents.sorted, fun wanted found => ?_⟩
  rw [find?_register, latest_concat, RegistryCall.register.injEq]
  by_cases here : wanted = name
  · subst here
    rw [if_pos rfl, Option.some.injEq]
    refine ⟨fun same => .inl ⟨rfl, same⟩, ?_⟩
    rintro (⟨-, same⟩ | ⟨apart, -⟩)
    · exact same
    · exact absurd rfl (apart hook)
  · rw [if_neg here, represents.find?_iff]
    constructor
    · refine fun latest => .inr ⟨?_, latest⟩
      rintro other same
      cases same
      exact here rfl
    · rintro (⟨rfl, -⟩ | ⟨-, latest⟩)
      · exact absurd rfl here
      · exact latest

theorem Represents.call (represents : Represents past r) (c : RegistryCall) :
    Represents (past ++ [c]) (r.call c).1 := by
  cases c with
  | register name hook => exact represents.register
  | _ => exact represents.ask (by rintro _ _ ⟨⟩)

theorem represents_after (past : List RegistryCall) : Represents past (after past) := by
  induction past using List.reverseRecOn with
  | nil => exact .empty
  | append_singleton past c ih =>
    rw [after_concat]
    exact ih.call c

/-! ### Answers -/

theorem get_eq_ok_iff : r.get name = .ok hook ↔ r.find? name = some hook := by
  rw [get]
  cases r.find? name <;> simp

theorem Represents.isSome_iff (represents : Represents past r) :
    (r.find? name).isSome = true ↔ Registered past name := by
  rw [registered_iff, Option.isSome_iff_exists]
  simp only [represents.find?_iff]

theorem Represents.listed (represents : Represents past r) : Listed past r.names := by
  have ascending : r.names.Pairwise (Text.precedes · · = true) :=
    List.pairwise_map.mpr represents.sorted
  refine ⟨fun name => mem_names_iff.trans represents.isSome_iff, ascending, fun rows codes spelled => ?_⟩
  rw [spelled, List.pairwise_map] at ascending
  exact ascending.imp_of_mem fun one two before =>
    (Text.precedes_ofCodes (codes _ one) (codes _ two)).mp before

theorem unknown_message (names : List String) (name : String) :
    Unknown names name (Problem.unknownHook name names).message := by
  have message : (Problem.unknownHook name names).message =
      "Unknown hook: " ++ name ++ ". Available: " ++ namesOr "none" names := rfl
  by_cases empty : ", ".intercalate names = ""
  · have words : namesOr "none" names = "none" := by
      rw [namesOr, empty]
      rfl
    have joined : ". Available: " ++ "none" = ". Available: none" := by decide
    rw [message, words, String.append_assoc, joined]
    exact .nothing empty
  · have words : namesOr "none" names = ", ".intercalate names :=
      if_neg fun none => empty (String.isEmpty_iff.mp none)
    rw [message, words]
    exact .known empty

theorem Represents.answers (represents : Represents past r) (c : RegistryCall) :
    Answers past r.names c (r.call c).2 := by
  cases c with
  | register name hook => exact .registered name hook
  | get name =>
    change Answers past r.names (.get name) (.hook (r.get name))
    rw [get]
    cases found : r.find? name with
    | some hook => exact .found ((represents.find?_iff name hook).mp found)
    | none =>
      refine .unknown (fun known => ?_) (unknown_message r.names name)
      rw [← represents.isSome_iff, found] at known
      cases known
  | names => exact .names
  | contains name => exact .contains represents.isSome_iff
  | size =>
    change Answers past r.names .size (.count r.hooks.length)
    rw [← List.length_map Prod.fst]
    exact .size

/-- After every row of calls a new registry stands for the map that they have made. -/
theorem registry_refines_map (past : List RegistryCall) : Refines past (after past) := by
  have represents := represents_after past
  refine ⟨represents.listed, represents.answers, ?_, ?_⟩
  · rintro (_ | _ | _ | _ | _) asks
    · exact absurd trivial asks
    all_goals rfl
  · intro name hook other found apart
    rw [get_eq_ok_iff, get_eq_ok_iff, find?_register, if_neg apart]

end Registry

end MachinePlan
