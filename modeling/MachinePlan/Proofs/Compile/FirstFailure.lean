import MachinePlan.Proofs.Compile.Nodewise
import MachinePlan.Proofs.Hook.Dispatching

/-!
# Compiling up to the first failure

The nodes of a document are compiled one after the other, and the hooks of each node run before the
next node is begun. To say what has been begun when a node fails, the compilation is written once
more with a note of every node that is begun and every hook that is started; without its notes it is
the compilation itself (`notedNodes_outcome`). What a node comes to is told by the node alone
(`Alone`), a document compiles when all of its nodes do, and otherwise it ends with the first node
that fails and begins nothing behind it (`document_nodewise`).
-/

namespace MachinePlan

inductive CompileEvent where
  /-- The compilation of a node begins. -/
  | node (name : String)
  /-- A hook is started on a node. -/
  | hook (node : String) (label : Nat)
  deriving Repr, DecidableEq

namespace Compile

/-- What a node comes to on its own: what happens, and the compiled node or the failure. -/
inductive Alone (registry : Registry) (boxes : Value) (name : String) (n : Node) :
    List CompileEvent → Except Failure CompiledNode → Prop
  | compiled {ops last : List Operation} {labels : List Nat} (own : node name n boxes = .ok ops)
      (ran : Dispatches registry n n.externalFunctions ops ⟨last, labels, none⟩) :
      Alone registry boxes name n (.node name :: labels.map (.hook name))
        (.ok ⟨name, n.autostart, last⟩)
  | refused {failure : Failure} (own : node name n boxes = .error failure) :
      Alone registry boxes name n [.node name] (.error failure)
  | stopped {ops last : List Operation} {labels : List Nat} {failure : Failure}
      (own : node name n boxes = .ok ops)
      (ran : Dispatches registry n n.externalFunctions ops ⟨last, labels, some failure⟩) :
      Alone registry boxes name n (.node name :: labels.map (.hook name)) (.error failure)

/-- Nodes that all compile, in order, each on its own. -/
inductive AllCompile (registry : Registry) (boxes : Value) :
    List (String × Node) → List CompileEvent → List CompiledNode → Prop
  | nil : AllCompile registry boxes [] [] []
  | cons {name : String} {n : Node} {ns : List (String × Node)} {own events : List CompileEvent}
      {node : CompiledNode} {compiled : List CompiledNode}
      (first : Alone registry boxes name n own (.ok node))
      (rest : AllCompile registry boxes ns events compiled) :
      AllCompile registry boxes ((name, n) :: ns) (own ++ events) (node :: compiled)

/-- Nodes of which one fails and those before it compile; what stands behind it does not matter. -/
inductive FirstFails (registry : Registry) (boxes : Value) :
    List (String × Node) → List CompileEvent → Failure → Prop
  | intro {before : List (String × Node)} {past own : List CompileEvent}
      {compiled : List CompiledNode} {name : String} {n : Node} {failure : Failure}
      (done : AllCompile registry boxes before past compiled)
      (fails : Alone registry boxes name n own (.error failure)) (after : List (String × Node)) :
      FirstFails registry boxes (before ++ (name, n) :: after) (past ++ own) failure

/-- A node that compiles and whose hooks all run. -/
def Compiles (registry : Registry) (boxes : Value) (entry : String × Node) : Prop :=
  ∃ events node, Alone registry boxes entry.1 entry.2 events (.ok node)

def notedNode (registry : Registry) (boxes : Value) (entry : String × Node) :
    Step (List CompileEvent) CompiledNode := do
  modify (· ++ [.node entry.1])
  let ops ← node entry.1 entry.2 boxes
  let dispatched := registry.dispatch entry.2 entry.2.externalFunctions ops
  modify (· ++ dispatched.started.map (.hook entry.1))
  match dispatched.failure with
  | some failure => throw failure
  | none => return ⟨entry.1, entry.2.autostart, dispatched.operations⟩

def notedNodes (registry : Registry) (boxes : Value) :
    List (String × Node) → Step (List CompileEvent) (List CompiledNode)
  | [] => return []
  | entry :: rest => do
    let compiled ← notedNode registry boxes entry
    return compiled :: (← notedNodes registry boxes rest)

variable {registry : Registry} {boxes : Value} {name : String} {n : Node} {entry : String × Node}
  {ns : List (String × Node)} {past own events : List CompileEvent} {compiled : List CompiledNode}
  {outcome : Except Failure CompiledNode} {failure : Failure}

/-! ### One node -/

theorem exists_alone (registry : Registry) (boxes : Value) (name : String) (n : Node) :
    ∃ own outcome, Alone registry boxes name n own outcome := by
  cases own : node name n boxes with
  | error failure => exact ⟨_, _, .refused own⟩
  | ok ops =>
    rcases ran : registry.dispatch n n.externalFunctions ops with ⟨last, labels, _ | failure⟩
    · exact ⟨_, _, .compiled own (dispatch_iff.mp ran)⟩
    · exact ⟨_, _, .stopped own (dispatch_iff.mp ran)⟩

theorem Alone.noted (alone : Alone registry boxes name n own outcome) (past : List CompileEvent) :
    (notedNode registry boxes (name, n)).run past = (outcome, past ++ own) := by
  cases alone with
  | refused own => simp only [notedNode, Step.run_modify_bind, Step.run_outcome_bind, own]
  | compiled own ran =>
    simp only [notedNode, Step.run_modify_bind, Step.run_outcome_bind, own, dispatch_iff.mpr ran,
      Step.run_pure, List.append_assoc, List.singleton_append]
  | stopped own ran =>
    simp only [notedNode, Step.run_modify_bind, Step.run_outcome_bind, own, dispatch_iff.mpr ran,
      Step.run_throw, List.append_assoc, List.singleton_append]

theorem notedNode_outcome (registry : Registry) (boxes : Value) (entry : String × Node)
    (past : List CompileEvent) :
    ((notedNode registry boxes entry).run past).1 = namedNode registry boxes entry := by
  obtain ⟨name, n⟩ := entry
  obtain ⟨own, outcome, alone⟩ := exists_alone registry boxes name n
  rw [alone.noted]
  cases alone with
  | refused own => simp only [namedNode, own, bind, Except.bind]
  | compiled own ran =>
    simp only [namedNode, hooked, own, dispatch_iff.mpr ran, bind, Except.bind]
    rfl
  | stopped own ran => simp only [namedNode, hooked, own, dispatch_iff.mpr ran, bind, Except.bind]

/-! ### All nodes -/

/-- Without its notes, the compilation with notes is the compilation. -/
theorem notedNodes_outcome (registry : Registry) (boxes : Value) (ns : List (String × Node))
    (past : List CompileEvent) :
    ((notedNodes registry boxes ns).run past).1 = nodes registry boxes ns := by
  induction ns generalizing past with
  | nil => rfl
  | cons entry ns ih =>
    have first := notedNode_outcome registry boxes entry past
    rw [notedNodes, nodes, Step.run_bind]
    rcases ran : (notedNode registry boxes entry).run past with ⟨failure | node, later⟩
    · rw [ran] at first
      simp only [← first, bind, Except.bind]
    · rw [ran] at first
      have others := ih later
      simp only [← first, bind, Except.bind] at others ⊢
      rw [← others]
      change ((notedNodes registry boxes ns >>= fun rest => pure (node :: rest)).run later).1 = _
      rw [Step.run_bind]
      rcases (notedNodes registry boxes ns).run later with ⟨failure | rest, last⟩ <;> rfl

theorem AllCompile.noted (all : AllCompile registry boxes ns events compiled)
    (past : List CompileEvent) :
    (notedNodes registry boxes ns).run past = (.ok compiled, past ++ events) := by
  induction all generalizing past with
  | nil => rw [List.append_nil]; rfl
  | cons first _ ih =>
    rw [notedNodes, Step.run_bind, first.noted]
    simp only [Step.run_bind, ih, Step.run_pure, List.append_assoc]

theorem FirstFails.noted (first : FirstFails registry boxes ns events failure)
    (past : List CompileEvent) :
    (notedNodes registry boxes ns).run past = (.error failure, past ++ events) := by
  obtain ⟨done, fails, after⟩ := first
  induction done generalizing past with
  | nil => rw [List.nil_append, List.nil_append, notedNodes, Step.run_bind, fails.noted]
  | cons first _ ih =>
    rw [List.cons_append, notedNodes, Step.run_bind, first.noted]
    simp only [Step.run_bind, ih, List.append_assoc]

/-- Either all nodes compile, or there is a first one that fails. -/
theorem allCompile_or_firstFails (registry : Registry) (boxes : Value) (ns : List (String × Node)) :
    (∃ events compiled, AllCompile registry boxes ns events compiled) ∨
      ∃ events failure, FirstFails registry boxes ns events failure := by
  induction ns with
  | nil => exact .inl ⟨_, _, .nil⟩
  | cons entry ns ih =>
    obtain ⟨name, n⟩ := entry
    obtain ⟨own, failure | node, alone⟩ := exists_alone registry boxes name n
    · exact .inr ⟨_, _, .intro .nil alone ns⟩
    · rcases ih with ⟨events, compiled, all⟩ | ⟨events, failure, done, fails, after⟩
      · exact .inl ⟨_, _, .cons alone all⟩
      · exact .inr ⟨_, _, .intro (.cons alone done) fails after⟩

theorem AllCompile.compiles (all : AllCompile registry boxes ns events compiled) :
    ∀ entry ∈ ns, Compiles registry boxes entry := by
  induction all with
  | nil => exact List.forall_mem_nil _
  | cons first _ ih => exact List.forall_mem_cons.mpr ⟨⟨_, _, first⟩, ih⟩

theorem FirstFails.not_compiles (first : FirstFails registry boxes ns events failure) :
    ¬ ∀ entry ∈ ns, Compiles registry boxes entry := by
  obtain ⟨done, fails, after⟩ := first
  intro all
  obtain ⟨events, node, compiles⟩ := all _ (List.mem_append_right _ List.mem_cons_self)
  have same := (fails.noted []).symm.trans (compiles.noted [])
  cases congrArg Prod.fst same

/-! ### Documents -/

/-- The compilation of a document, with what happens in it, treats every node on its own. -/
structure Nodewise (registry : Registry) (d : Document) (events : List CompileEvent)
    (outcome : Except Failure (List CompiledNode)) : Prop where
  /-- There is a result exactly when every node compiles and its hooks run. -/
  succeeds_iff : (∃ compiled, outcome = .ok compiled) ↔
    ∀ entry ∈ d.nodes, Compiles registry d.boxes entry
  /-- The result has in order what each node comes to on its own. -/
  result : ∀ compiled, outcome = .ok compiled →
    AllCompile registry d.boxes d.nodes events compiled
  /-- A failure is that of the first node that fails, and nothing happens after it. -/
  failure : ∀ failure, outcome = .error failure →
    FirstFails registry d.boxes d.nodes events failure
  /-- The nodes can be compiled in two parts. -/
  append : ∀ first second, d.nodes = first ++ second → outcome = do
    let compiled ← document { d with nodes := first } registry
    let rest ← document { d with nodes := second } registry
    return compiled ++ rest

/-- Every document is compiled node by node, up to the first failure. -/
theorem document_nodewise (d : Document) (registry : Registry) :
    ∃ events, (notedNodes registry d.boxes d.nodes).run [] = (document d registry, events) ∧
      Nodewise registry d events (document d registry) := by
  have outcome : ∀ {result events},
      (notedNodes registry d.boxes d.nodes).run [] = (result, [] ++ events) →
      document d registry = result := by
    intro result events ran
    rw [document, ← notedNodes_outcome registry d.boxes d.nodes [], ran]
  have append : ∀ first second, d.nodes = first ++ second → document d registry = do
      let compiled ← document { d with nodes := first } registry
      let rest ← document { d with nodes := second } registry
      return compiled ++ rest := by
    intro first second split
    rw [document, split, nodes_append]
    rfl
  rcases allCompile_or_firstFails registry d.boxes d.nodes with
    ⟨events, compiled, all⟩ | ⟨events, failure, first⟩
  · have ran := outcome (all.noted [])
    refine ⟨events, ran ▸ all.noted [], ⟨⟨fun _ => all.compiles, fun _ => ⟨compiled, ran⟩⟩, ?_, ?_,
      append⟩⟩
    · intro other same
      obtain rfl := Except.ok.inj (ran.symm.trans same)
      exact all
    · intro failure same
      cases ran.symm.trans same
  · have ran := outcome (first.noted [])
    refine ⟨events, ran ▸ first.noted [], ⟨⟨?_, fun all => absurd all first.not_compiles⟩, ?_, ?_,
      append⟩⟩
    · rintro ⟨compiled, same⟩
      cases ran.symm.trans same
    · intro compiled same
      cases ran.symm.trans same
    · intro other same
      obtain rfl := Except.error.inj (ran.symm.trans same)
      exact first

end Compile

end MachinePlan
