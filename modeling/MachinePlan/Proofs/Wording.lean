import MachinePlan.Failure
import MachinePlan.Proofs.Text.Breaks

/-!
# The wording of problems

A message is made of fixed words and of the texts that it quotes as they are. The words have no line
breaks, so those of a message are the ones of its quotes (`breaks_message`).
-/

namespace MachinePlan

open Text

variable {s : String}

/-- The texts that stand in a message as they are, from left to right. -/
def ConfigProblem.quotes : ConfigProblem → List String
  | .missingFile path => [path]
  | .emptyFile path => [path]
  | .invalidMarkup path reason => [path, reason]
  | .fileNotMapping path => [path]
  | .nodesNotMapping => []
  | .nodeNotMapping node got => [node, got]
  | .attributeShape node attr _ got => [node, attr, got]
  | .partNotMapping node part got => [node, part, got]
  | .badClause clause => [clause]
  | .noNodes sources => [sources]

def VersionProblem.quotes : VersionProblem → List String
  | .unknown backend output constraint => [backend, output, constraint]
  | .unsupported backend version constraint => [backend, version, constraint]

def PluginProblem.quotes : PluginProblem → List String
  | .refused message => [message]
  | .failed plugin reason => [plugin, reason]

def Problem.quotes : Problem → List String
  | .config problem => problem.quotes
  | .version problem => problem.quotes
  | .plugin problem => problem.quotes
  | .unknownHook name known => name :: known
  | .hookFile path reason => [path, reason]
  | .hookFailed message => [message]
  | .unknownNode name known => name :: known

/-! ### Words and quotes -/

theorem breaks_words (plain : (s.toList.all fun c => !isBreak c) = true) : breaks s = [] := by
  rw [breaks_eq_nil_iff]
  intro c member
  rw [← Bool.not_eq_true']
  exact List.all_eq_true.mp plain c member

theorem breaks_namesOr (plain : breaks s = []) (names : List String) :
    breaks (namesOr s names) = names.flatMap breaks := by
  have row : breaks (", ".intercalate names) = names.flatMap breaks :=
    breaks_intercalate (by decide +kernel) names
  rw [namesOr, ← row]
  split
  case isTrue empty => rw [plain, String.isEmpty_iff.mp empty]; rfl
  case isFalse => rfl

theorem Shape.breaks_name (shape : Shape) : breaks shape.name = [] := by
  cases shape <;> decide +kernel

theorem ConfigProblem.breaks_message (p : ConfigProblem) :
    breaks p.message = p.quotes.flatMap breaks := by
  cases p
  all_goals
    delta ConfigProblem.message
    dsimp only [toString, quotes]
    simp (disch := decide +kernel) only [breaks_append, breaks_words, Shape.breaks_name,
      List.flatMap_cons, List.flatMap_nil, List.nil_append, List.append_nil, List.append_assoc]

theorem VersionProblem.breaks_message (p : VersionProblem) :
    breaks p.message = p.quotes.flatMap breaks := by
  cases p
  all_goals
    delta VersionProblem.message
    dsimp only [toString, quotes]
    simp (disch := decide +kernel) only [breaks_append, breaks_words, List.flatMap_cons,
      List.flatMap_nil, List.nil_append, List.append_nil, List.append_assoc]

theorem PluginProblem.breaks_message (p : PluginProblem) :
    breaks p.message = p.quotes.flatMap breaks := by
  cases p
  all_goals
    delta PluginProblem.message
    dsimp only [toString, quotes]
    simp (disch := decide +kernel) only [breaks_append, breaks_words, List.flatMap_cons,
      List.flatMap_nil, List.nil_append, List.append_nil]

/-- A message has the line breaks of what it quotes, in this order. -/
theorem Problem.breaks_message (p : Problem) : breaks p.message = p.quotes.flatMap breaks := by
  cases p with
  | config problem => exact problem.breaks_message
  | version problem => exact problem.breaks_message
  | plugin problem => exact problem.breaks_message
  | _ =>
    delta Problem.message
    dsimp only [toString, quotes]
    simp (disch := decide +kernel) only [breaks_append, breaks_words, breaks_namesOr,
      breaks_intercalate, List.flatMap_cons, List.flatMap_nil, List.nil_append, List.append_nil]

/-! ### Where line breaks come from -/

/-- The line breaks in what a problem quotes stand in its sources. -/
def Problem.Traced (sources : String → Prop) (p : Problem) : Prop :=
  ∀ text ∈ p.quotes, BreaksFrom sources text

theorem Problem.Traced.message {sources : String → Prop} {p : Problem} (traced : p.Traced sources) :
    BreaksFrom sources p.message :=
  breaksFrom_of_breaks p.breaks_message traced

/-- A message is one line if and only if everything is that it quotes. -/
theorem Problem.unbroken_message_iff (p : Problem) :
    Unbroken p.message.toList ↔ ∀ text ∈ p.quotes, Unbroken text.toList :=
  unbroken_iff_of_breaks p.breaks_message

end MachinePlan
