import MachinePlan.CommandLine.Basic
import MachinePlan.Document.Basic
import MachinePlan.Proofs.Compile.Explained

/-!
# Documents end with a plan or a problem

From a mapping to the text of its plan: reading the document, checking it, compiling it without
hooks, and writing the plan. Where a container is read without a look at its kind, a value of
another kind ends this with a fault that nobody explains (`planText_explained_fails`). There are
four such places, the plugins, the catalog of boxes, the box of a node and the arguments of a
provisioner; the others are values that JSON does not know. Everything else ends with the text or
with a problem in words (`planText_explained`).
-/

namespace MachinePlan

open Value

/-- Attributes of a node whose box is no container, with the arguments of provisioners in rows. -/
structure TameAttributes (attrs : Entries) : Prop where
  box : (getD "box" attrs).isHashable = true
  provisioners : ∀ items, getD "provisioners" attrs = .list items →
    items.length ≤ numeralBound ∧ ∀ entry ∈ items, ArgumentsInRow entry

/-- A mapping with values that JSON knows in its sections, in which what is read without a look at
its kind is of the right kind. All other sections and attributes may hold anything. -/
structure TameDocument (data : Entries) : Prop where
  nodes : Jsonable (getD "nodes" data)
  attributes : ∀ es, getD "nodes" data = .map es → ∀ e ∈ es, ∀ attrs, e.2 = .map attrs →
    TameAttributes attrs
  boxes : Jsonable (getD "boxes" data)
  catalog : (getD "boxes" data).isTruthy = true → ∃ es, getD "boxes" data = .map es
  plugins : Jsonable (getD "plugins" data)
  row : Row (getD "plugins" data)

/-- An answer that tells how the program ended: success, or a problem in one line. -/
def Answer.Told (a : Answer) : Prop :=
  a.status = .ok 0 ∨ a.status = .ok 1 ∧ ∃ p : Problem, a.errors = "ERROR: " ++ p.message ++ "\n"

namespace Document

def planText (data : Value) (sources : List Path) : Except Failure String := do
  let d ← ofValue data sources
  d.check
  Vagrant.planText (← Compile.document d Registry.empty)

variable {attrs es data : Entries} {v : Value} {name : String} {ns : List (String × Node)}

/-! ### Reading nodes -/

theorem explained_listAttribute (node name : String) (all : ∀ e ∈ attrs, Jsonable e.2) :
    Explained (fun items => (∀ v ∈ items, Jsonable v) ∧
      (items = [] ∨ getD name attrs = .list items)) (Node.listAttribute node attrs name) := by
  have fine := jsonable_getD name all
  rw [Node.listAttribute, fine.opened]
  generalize getD name attrs = v at fine ⊢
  cases fine with
  | null => exact .ok ⟨List.forall_mem_nil _, .inl rfl⟩
  | list all => exact .ok ⟨all, .inr rfl⟩
  | _ => exact .problem _

theorem explained_mapAttribute (node name : String) (all : ∀ e ∈ attrs, Jsonable e.2) :
    Explained (fun es => Jsonable (.map es)) (Node.mapAttribute node attrs name) := by
  have fine := jsonable_getD name all
  rw [Node.mapAttribute, fine.opened]
  generalize getD name attrs = v at fine ⊢
  cases fine with
  | null => exact .ok (.map (List.forall_mem_nil _) (List.forall_mem_nil _))
  | map known values => exact .ok (.map known values)
  | _ => exact .problem _

theorem explained_ofEntries (node : String) (all : ∀ e ∈ attrs, Jsonable e.2)
    (tame : TameAttributes attrs) : Explained Node.Tame (Node.ofEntries node attrs) := by
  refine .bind (explained_listAttribute node _ all) fun networks h₁ => ?_
  refine .bind (explained_listAttribute node _ all) fun ports h₂ => ?_
  refine .bind (explained_listAttribute node _ all) fun folders h₃ => ?_
  refine .bind (explained_listAttribute node _ all) fun provisioners h₄ => ?_
  refine .bind (explained_listAttribute node _ all) fun functions h₅ => ?_
  refine .bind (explained_mapAttribute node _ all) fun providers h₆ => .ok ?_
  have rows : provisioners.length ≤ numeralBound ∧ ∀ entry ∈ provisioners, ArgumentsInRow entry := by
    rcases h₄.2 with rfl | given
    · exact ⟨Nat.zero_le _, List.forall_mem_nil _⟩
    · exact tame.provisioners provisioners given
  have part := fun name => jsonable_getD name all
  exact {
    box := part "box"
    hashable := tame.box
    hostname := part "hostname"
    autostart := part "autostart"
    memory := part "memory"
    cpus := part "cpus"
    chipset := part "chipset"
    networks := h₁.1
    forwardedPorts := h₂.1
    syncedFolders := h₃.1
    provisioners := fun v member => ⟨h₄.1 v member, rows.2 v member⟩
    positions := rows.1
    providers := h₆
    externalFunctions := h₅.1 }

theorem tameAttributes_nil : TameAttributes [] := ⟨rfl, nofun⟩

theorem explained_ofNamed (node : String) (fine : Jsonable v)
    (tame : ∀ attrs, v = .map attrs → TameAttributes attrs) :
    Explained Node.Tame (Node.ofNamed node v) := by
  rw [Node.ofNamed, fine.opened]
  cases fine with
  | null => exact explained_ofEntries node (List.forall_mem_nil _) tameAttributes_nil
  | map known values => exact explained_ofEntries node values (tame _ rfl)
  | _ => exact .problem _

theorem forall_putNode {P : Node → Prop} {node : Node} (here : P node)
    (all : ∀ entry ∈ ns, P entry.2) : ∀ entry ∈ putNode name node ns, P entry.2 := by
  induction ns with
  | nil => simpa [putNode] using here
  | cons old ns ih =>
    obtain ⟨first, rest⟩ := List.forall_mem_cons.mp all
    rw [putNode]
    split
    · exact List.forall_mem_cons.mpr ⟨here, rest⟩
    · exact List.forall_mem_cons.mpr ⟨first, ih rest⟩

theorem explained_readNodes (all : ∀ e ∈ es, JsonKey e.1 ∧ Jsonable e.2)
    (tame : ∀ e ∈ es, ∀ attrs, e.2 = .map attrs → TameAttributes attrs) :
    ∀ ns, (∀ entry ∈ ns, entry.2.Tame) →
      Explained (fun ns => ∀ entry ∈ ns, entry.2.Tame) (readNodes ns es) := by
  induction es with
  | nil => exact fun _ before => .ok before
  | cons e es ih =>
    intro ns before
    obtain ⟨key, attrs⟩ := e
    obtain ⟨known, here⟩ := all (key, attrs) List.mem_cons_self
    rw [readNodes]
    refine .bind known.jsonable.text fun name _ => ?_
    refine .bind (explained_ofNamed name here (tame (key, attrs) List.mem_cons_self)) ?_
    intro node fine
    exact ih (fun f member => all f (List.mem_cons_of_mem _ member))
      (fun f member => tame f (List.mem_cons_of_mem _ member)) _ (forall_putNode fine before)

/-! ### Documents -/

/-- A document with nodes that can be compiled and a catalog to look boxes up in. -/
structure Tame (d : Document) : Prop where
  nodes : ∀ entry ∈ d.nodes, entry.2.Tame
  boxes : ∃ es, d.boxes = .map es ∧ Jsonable (.map es)

theorem explained_nodeEntries (tame : TameDocument data) :
    Explained (fun es => (∀ e ∈ es, JsonKey e.1 ∧ Jsonable e.2) ∧
      ∀ e ∈ es, ∀ attrs, e.2 = .map attrs → TameAttributes attrs) (nodeEntries data) := by
  rw [nodeEntries, orElse]
  have fine := tame.nodes
  cases truthy : (getD "nodes" data).isTruthy with
  | false => exact .ok ⟨List.forall_mem_nil _, List.forall_mem_nil _⟩
  | true =>
    rw [if_pos rfl]
    cases read : (getD "nodes" data).entries? with
    | none => exact .problem _
    | some es =>
      have whole := eq_map_of_entries? fine.finite read
      rw [whole] at fine
      exact .ok ⟨fine.of_map, tame.attributes es whole⟩

theorem explained_ofValue (tame : TameDocument data) (sources : List Path) :
    Explained Tame (ofValue (.map data) sources) := by
  refine .bind (P := (· = data)) (.ok rfl) ?_
  rintro entries rfl
  refine .bind (explained_nodeEntries tame) fun es all => ?_
  refine .bind (explained_readNodes all.1 all.2 [] (List.forall_mem_nil _)) fun nodes fine => ?_
  refine .bind (elements_of_row tame.plugins tame.row) fun plugins known => ?_
  refine .bind (texts_of_all known) fun names _ => .ok ⟨fine, ?_⟩
  change ∃ es, (getD "boxes" entries).orElse (.map []) = .map es ∧ _
  rw [orElse]
  split
  case isTrue truthy =>
    obtain ⟨es, whole⟩ := tame.catalog truthy
    exact ⟨es, whole, whole ▸ tame.boxes⟩
  case isFalse => exact ⟨[], rfl, .map (List.forall_mem_nil _) (List.forall_mem_nil _)⟩

theorem explained_check (d : Document) : Explained (fun _ => True) d.check := by
  rw [check]
  split
  · exact .problem _
  · exact .ok trivial

theorem explained_planText (tame : TameDocument data) (sources : List Path) :
    Explained (fun _ => True) (planText (.map data) sources) := by
  refine .bind (explained_ofValue tame sources) fun d fine => ?_
  refine .bind (explained_check d) fun _ _ => ?_
  obtain ⟨es, catalog, known⟩ := fine.boxes
  rw [Compile.document, catalog]
  exact .bind (Compile.explained_nodes fine.nodes known) fun nodes all =>
    MachinePlan.explained_planText all

theorem told_of_explained {P : String → Prop} {r : Except Failure String} (ended : Explained P r)
    (host : Host) : (Answer.ofResult host r).Told := by
  cases ended with
  | ok => exact .inl rfl
  | problem p => exact .inr ⟨rfl, p, rfl⟩

/-- A tame document ends with the text of its plan or with a problem in words, and the program tells
which of them. -/
theorem planText_explained (tame : TameDocument data) (sources : List Path) (host : Host) :
    ((∃ text, planText (.map data) sources = .ok text) ∨
      ∃ p, planText (.map data) sources = .error (.problem p)) ∧
    (Answer.ofResult host (planText (.map data) sources)).Told := by
  have ended := explained_planText tame sources
  refine ⟨?_, told_of_explained ended host⟩
  simpa using Explained.iff_exists.mp ended

def oneOfEach : Entries :=
  [(.str "nodes", .map [(.str "web", .map [(.str "box", .str "debian"),
      (.str "provisioners", .list [.map [(.str "shell", .map [(.str "arguments",
        .list [.map [(.str "name", .str "-v")]])])]])])]),
    (.str "boxes", .map [(.str "debian", .str "https://boxes.test/debian")]),
    (.str "plugins", .list [.str "env"])]

theorem planText_explained_oneOfEach :
    TameDocument oneOfEach ∧ ((∃ text, planText (.map oneOfEach) [] = .ok text) ∨
      ∃ p, planText (.map oneOfEach) [] = .error (.problem p)) := by
  have tame : TameDocument oneOfEach := by
    refine ⟨?_, ?_, ?_, fun _ => ⟨_, rfl⟩, ?_, fun _ => ⟨_, rfl⟩⟩
    · change Jsonable (.map _)
      simp [jsonable_map_iff, jsonable_list_iff, Jsonable.str, JsonKey.str]
    · rintro es ⟨⟩ e member attrs given
      obtain rfl := List.mem_singleton.mp member
      cases given
      refine ⟨rfl, ?_⟩
      rintro items ⟨⟩
      refine ⟨numeralBound_pos, List.forall_mem_singleton.mpr ?_⟩
      intro typed inside params whole
      obtain rfl := List.mem_singleton.mp inside
      cases whole
      exact List.forall_mem_singleton.mpr fun _ _ => ⟨_, rfl⟩
    · change Jsonable (.map _)
      simp [jsonable_map_iff, Jsonable.str, JsonKey.str]
    · change Jsonable (.list _)
      simp [jsonable_list_iff, Jsonable.str]
  exact ⟨tame, (planText_explained tame [] ⟨.empty [], [], []⟩).1⟩

def numberedPlugins : Value :=
  .map [(.str "nodes", .map [(.str "web", .null)]), (.str "plugins", .int 5)]

/-- Not every document ends with a text or a problem. -/
theorem planText_explained_fails : ¬ ∀ data sources, data.entries?.isSome = true →
    (∃ text, planText data sources = .ok text) ∨
      ∃ p, planText data sources = .error (.problem p) := by
  intro every
  have fault : planText numberedPlugins [] = .error (.fault .type) := rfl
  rcases every numberedPlugins [] rfl with ⟨text, ended⟩ | ⟨p, ended⟩
  · cases fault.symm.trans ended
  · cases fault.symm.trans ended

end Document

end MachinePlan
