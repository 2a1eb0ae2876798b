import Mathlib.Control.Monad.Basic
import MachinePlan.CommandLine.Basic
import MachinePlan.Proofs.Outcome

/-!
# Asking for one node

Behind the equals sign of `--node` every text is a name to ask for, whatever it begins with
(`ofWords_node`), with two exceptions: without a text all nodes are meant, and so they are with two
hyphens, which are no value of an option. A node that is asked for is found by its name, as long as
names are distinct (`selectNodes_of_mem`).
-/

namespace MachinePlan.CommandLine

variable {α : Type} {name : String}

/-! ### The option -/

def nodeRule : OptionRule OptionKey := ⟨.node, ["--node", "-n"], some "NODE"⟩

def nodeOption (name : String) : GivenOption OptionKey := ⟨nodeRule, "--node", some name⟩

def jsonOption : GivenOption OptionKey := ⟨⟨.jsonOutput, ["--json-output"], none⟩, "--json-output", none⟩

theorem splitEquals_node (name : String) :
    splitEquals ("--node=" ++ name) = some ("--node", name) := by
  have parts : ("--node=" ++ name).toList.span (· != '=') =
      ("--node".toList, '=' :: name.toList) := by
    rw [String.toList_append]
    rfl
  rw [splitEquals, parts]
  simp

theorem exactForm?_node {rules : List (OptionRule α)}
    (plain : ∀ entry ∈ namesOf rules, '=' ∉ entry.1.toList) (name : String) :
    exactForm? rules ("--node=" ++ name) =
      ((namesOf rules).lookup "--node").map fun rule => ⟨rule, "--node", some name⟩ := by
  have whole : (namesOf rules).lookup ("--node=" ++ name) = none := by
    rw [List.lookup_eq_none_iff]
    intro entry member
    rw [bne_iff_ne]
    intro same
    exact plain entry member (by simp [← same])
  simp only [exactForm?, whole, splitEquals_node]

/-! ### The words -/

theorem node_ne_separator (name : String) : "--node=" ++ name ≠ "--" :=
  fun same => by simpa using congrArg String.toList same

/-- In front of a command the option is unknown, or a plain word if there is a blank in it. -/
theorem wordsOf_front (name : String) : ∃ word,
    wordsOf Request.frontRules ["compile", "--json-output", "--node=" ++ name] =
      .ok [("compile", .plain), ("--json-output", .unknownOption), ("--node=" ++ name, word)] := by
  have short : shortForms Request.frontRules ("--node=" ++ name) = [] := by
    have other : ∀ entry ∈ namesOf Request.frontRules, entry.1.startsWith "--node" = false := by
      decide +kernel
    rw [shortForms, if_pos (by simp), splitEquals_node, List.filterMap_eq_nil_iff]
    intro entry member
    simp [other entry member]
  have read : ∃ word, Word.ofText Request.frontRules ("--node=" ++ name) = .ok word := by
    have unknown : (namesOf Request.frontRules).lookup "--node" = none := by decide
    rw [Word.ofText, exactForm?_node (by decide), short, unknown]
    simp only [Option.map_none]
    split
    · exact ⟨_, rfl⟩
    · split <;> exact ⟨_, rfl⟩
  obtain ⟨word, read⟩ := read
  have first : Word.ofText Request.frontRules "compile" = .ok .plain := by decide +kernel
  have second : Word.ofText Request.frontRules "--json-output" = .ok .unknownOption := by
    decide +kernel
  refine ⟨word, ?_⟩
  simp only [wordsOf, first, second, read, if_neg (node_ne_separator name)]
  rfl

theorem wordsOf_node (name : String) :
    wordsOf Command.compile.rules ["--json-output", "--node=" ++ name] =
      .ok [("--json-output", .option jsonOption), ("--node=" ++ name, .option (nodeOption name))] := by
  have json : Word.ofText Command.compile.rules "--json-output" = .ok (.option jsonOption) := by
    decide +kernel
  have node : Word.ofText Command.compile.rules ("--node=" ++ name) =
      .ok (.option (nodeOption name)) := by
    have more : "--node=" ++ name ≠ "-" := fun same => by simpa using congrArg String.toList same
    have found : (namesOf Command.compile.rules).lookup "--node" = some nodeRule := rfl
    rw [Word.ofText, if_neg (by simp [more]), exactForm?_node (by decide), found]
    rfl
  simp only [wordsOf, json, node, if_neg (node_ne_separator name)]
  rfl

section
variable (nonempty : name ≠ "") (value : name ≠ "--")
include nonempty value

theorem cluster_node :
    cluster Command.compile.rules (nodeOption name) = .ok { complete := [(.node, name)] } := by
  have whole : name.toList ≠ ['-', '-'] := fun same => value (String.ext same)
  simp only [cluster, nodeOption]
  cases read : name.toList with
  | nil => exact absurd (String.toList_eq_nil_iff.mp read) nonempty
  | cons letter rest =>
    rw [read] at whole
    have same : String.ofList (letter :: rest) = name := by rw [← read, String.ofList_toList]
    unfold clusterFrom
    simp [nodeRule, OptionRule.takesValue, givenValue, whole, same]

/-- Every text but the empty one and two hyphens is a name to ask for. -/
theorem ofWords_node : Request.ofWords ["compile", "--json-output", "--node=" ++ name] =
    .ok (.run { command := .compile, node := name, jsonOutput := true }) := by
  obtain ⟨word, front⟩ := wordsOf_front name
  have reading : readWords Command.compile.rules Request.halts false none
      [("--json-output", .option jsonOption), ("--node=" ++ name, .option (nodeOption name))] =
        .ok (⟨[(.jsonOutput, ""), (.node, name)], [], none⟩, []) := by
    simp only [readWords, cluster_node nonempty value]
    rfl
  have command : Request.ofCommand .compile [] ["--json-output", "--node=" ++ name] =
      .ok (.run { command := .compile, node := name, jsonOutput := true }) := by
    rw [Request.ofCommand, wordsOf_node]
    simp only [Request.within, ok_bind, reading]
    rfl
  rw [Request.ofWords, front]
  exact command

end

/-! ### The nodes -/

variable {d : Document} {nodes : List CompiledNode} {n : CompiledNode}

theorem selectNodes_of_mem (asked : name ≠ "") (distinct : (nodes.map CompiledNode.name).Nodup)
    (member : n ∈ nodes) (named : n.name = name) : selectNodes name d nodes = .ok [n] := by
  have alone : nodes.filter (fun m => m.name == name) = [n] := by
    induction nodes with
    | nil => cases member
    | cons m nodes ih =>
      rw [List.map_cons, List.nodup_cons] at distinct
      rcases List.mem_cons.mp member with rfl | later
      · have others : nodes.filter (fun m => m.name == name) = [] := by
          rw [List.filter_eq_nil_iff]
          intro other there same
          have shared : other.name = n.name := (beq_iff_eq.mp same).trans named.symm
          exact distinct.1 (shared ▸ List.mem_map_of_mem there)
        rw [List.filter_cons_of_pos (by simpa using named), others]
      · have different : m.name ≠ name := fun same =>
          distinct.1 (same.trans named.symm ▸ List.mem_map_of_mem later)
        rw [List.filter_cons_of_neg (by simpa using different), ih distinct.2 later]
  rw [selectNodes, if_neg (by simpa using asked), alone]

theorem selectNodes_of_not_mem (asked : name ≠ "") (unknown : name ∉ nodes.map CompiledNode.name) :
    selectNodes name d nodes = .error (.problem (.unknownNode name d.nodeNames)) := by
  have nobody : nodes.filter (fun m => m.name == name) = [] := by
    rw [List.filter_eq_nil_iff]
    intro other there same
    exact unknown (beq_iff_eq.mp same ▸ List.mem_map_of_mem there)
  rw [selectNodes, if_neg (by simpa using asked), nobody]

end MachinePlan.CommandLine
