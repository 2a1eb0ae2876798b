import MachinePlan.Proofs.Hook.Traced

/-!
# What the compilation of a node quotes

A node that does not compile is reported with its name and with names in it: those of its
provisioners, of its providers and of the hooks that it asks for (`reveals_document`).
-/

namespace MachinePlan

open Text Value

/-- The values in a node that name something by their text. -/
def Node.namers (n : Node) : List Value :=
  n.provisioners.flatMap (fun entry => (Compile.typedEntries entry).map Prod.fst) ++
    n.providers.map Prod.fst ++ n.externalFunctions

namespace Compile

variable {sources : String → Prop} {n : Node} {part : String} {es : Entries}

theorem reveals_partEntries (source : sources n.name) (inside : BreaksFrom sources part) (v : Value) :
    Reveals (·.Traced sources) (partEntries n part v) := by
  unfold partEntries
  split
  · exact .ok []
  · exact .ok _
  · refine .problem (List.forall_mem_cons.mpr ⟨breaksFrom_of_source source, ?_⟩)
    exact List.forall_mem_cons.mpr ⟨inside, List.forall_mem_singleton.mpr
      (breaksFrom_of_unbroken (unbroken_kindName _))⟩

/-- A part that is called by a name. -/
theorem breaksFrom_part {first last name : String} (source : sources name)
    (before : breaks first = []) (behind : breaks last = []) :
    BreaksFrom sources (first ++ name ++ last) := by
  have same : breaks (first ++ name ++ last) = [name].flatMap breaks := by
    rw [breaks_append, breaks_append, before, behind, List.nil_append, List.append_nil,
      List.flatMap_singleton]
  exact breaksFrom_of_breaks same (List.forall_mem_singleton.mpr (breaksFrom_of_source source))

/-- A part that is called by its position. -/
theorem breaksFrom_position {first last : String} (before : breaks first = [])
    (behind : breaks last = []) (i : Nat) :
    BreaksFrom sources (first ++ toString i ++ last) := by
  refine breaksFrom_of_unbroken ?_
  rw [← breaks_eq_nil_iff, breaks_append, breaks_append, before, behind,
    breaks_eq_nil_iff.mpr (unbroken_nat i)]
  rfl

theorem reveals_forwardedPorts (source : sources n.name) (i : Nat) (ports : List Value) :
    Reveals (·.Traced sources) (forwardedPorts n i ports) := by
  induction ports generalizing i with
  | nil => exact .ok []
  | cons port rest ih =>
    have part : BreaksFrom sources s!"forwarded_ports[{i}]" :=
      breaksFrom_position (by decide +kernel) (by decide +kernel) i
    exact .bind (reveals_partEntries source part port) fun _ _ =>
      .bind (wordless_normalizeKeys _).reveals fun _ _ => .bind (ih (i + 1)) fun _ _ => .ok _

theorem reveals_syncedFolders (source : sources n.name) (i : Nat) (folders : List Value) :
    Reveals (·.Traced sources) (syncedFolders n i folders) := by
  induction folders generalizing i with
  | nil => exact .ok []
  | cons folder rest ih =>
    have part : BreaksFrom sources s!"synced_folders[{i}]" :=
      breaksFrom_position (by decide +kernel) (by decide +kernel) i
    exact .bind (reveals_partEntries source part folder) fun _ _ => .bind (ih (i + 1)) fun _ _ => .ok _

theorem reveals_provisionerBlocks (source : sources n.name) (index : Nat)
    (kinds : ∀ v ∈ es.map Prod.fst, ∀ name, v.text = .ok name → sources name) :
    Reveals (·.Traced sources) (provisionerBlocks n index es) := by
  induction es with
  | nil => exact .ok []
  | cons entry es ih =>
    obtain ⟨first, others⟩ := List.forall_mem_cons.mp kinds
    refine .bind (wordless_text _).reveals fun kind text => ?_
    have part : BreaksFrom sources s!"provisioner '{kind}' parameters" :=
      breaksFrom_part (first kind text) (by decide +kernel) (by decide +kernel)
    exact .bind (reveals_partEntries source part _) fun _ _ =>
      .bind (wordless_provisionerParams _ _ _).reveals fun _ _ => .bind (ih others) fun _ _ => .ok _

theorem reveals_provisioners (source : sources n.name) (i : Nat) {items : List Value}
    (kinds : ∀ v ∈ items.flatMap (fun entry => (typedEntries entry).map Prod.fst),
      ∀ name, v.text = .ok name → sources name) :
    Reveals (·.Traced sources) (provisioners n i items) := by
  induction items generalizing i with
  | nil => exact .ok []
  | cons item rest ih =>
    rw [List.flatMap_cons, List.forall_mem_append] at kinds
    exact .bind (reveals_provisionerBlocks source i kinds.1) fun _ _ =>
      .bind (ih (i + 1) kinds.2) fun _ _ => .ok _

theorem reveals_providerProperties (source : sources n.name)
    (names : ∀ v ∈ es.map Prod.fst, ∀ name, v.text = .ok name → sources name) :
    Reveals (·.Traced sources) (providerProperties n es) := by
  induction es with
  | nil => exact .ok []
  | cons entry es ih =>
    obtain ⟨first, others⟩ := List.forall_mem_cons.mp names
    refine .bind (wordless_text _).reveals fun provider text => ?_
    have part : BreaksFrom sources s!"provider '{provider}' parameters" :=
      breaksFrom_part (first provider text) (by decide +kernel) (by decide +kernel)
    exact .bind (reveals_partEntries source part _) fun _ _ =>
      .bind (wordless_providerParams _ _).reveals fun _ _ => .bind (ih others) fun _ _ => .ok _

theorem reveals_node (name : String) (boxes : Value) (source : sources n.name)
    (named : ∀ v ∈ n.namers, ∀ name, v.text = .ok name → sources name) :
    Reveals (·.Traced sources) (node name n boxes) := by
  rw [Node.namers, List.forall_mem_append, List.forall_mem_append] at named
  obtain ⟨⟨kinds, providers⟩, -⟩ := named
  exact .bind (wordless_identity n _).reveals fun _ _ =>
    .bind (wordless_networkPairs _).reveals fun _ _ =>
    .bind (reveals_forwardedPorts source 0 _) fun _ _ =>
    .bind (reveals_provisioners source 0 kinds) fun _ _ =>
    .bind (reveals_providerProperties source providers) fun _ _ =>
    .bind (reveals_syncedFolders source 0 _) fun _ _ => .ok _

/-- Compiling a document quotes the names of its nodes, names in them, and what its hooks quote. -/
theorem reveals_document {d : Document} {registry : Registry} (known : registry.From sources)
    (source : ∀ entry ∈ d.nodes, sources entry.2.name)
    (named : ∀ entry ∈ d.nodes, ∀ v ∈ entry.2.namers, ∀ name, v.text = .ok name → sources name) :
    Reveals (·.Traced sources) (document d registry) := by
  rw [document]
  generalize d.nodes = ns at source named
  induction ns with
  | nil => exact .ok []
  | cons entry ns ih =>
    obtain ⟨firstSource, otherSources⟩ := List.forall_mem_cons.mp source
    obtain ⟨firstNamed, othersNamed⟩ := List.forall_mem_cons.mp named
    refine .bind ?_ fun _ _ => .bind (ih otherSources othersNamed) fun _ _ => .ok _
    have hooks : ∀ v ∈ entry.2.externalFunctions, ∀ name, v.text = .ok name → sources name :=
      fun v member => firstNamed v (List.mem_append_right _ member)
    exact .bind (reveals_node _ _ firstSource firstNamed) fun _ _ =>
      .bind (reveals_hooked known hooks) fun _ _ => .ok _

end Compile

end MachinePlan
