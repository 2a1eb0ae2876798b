import MachinePlan.Hook.Source
import MachinePlan.Text.Line

/-!
# Readers

What is read by other programs. A file of hooks is run by the interpreter of its language, and a
document that is not well-formed is explained by the reader of the markup. Neither is part of the
library, so what they say is a parameter.
-/

namespace MachinePlan

/-- The readers of foreign texts. -/
structure Readers where
  /-- What a file of hooks with a path and bytes does, or the reason why it cannot be read. -/
  program : String → List UInt8 → Except String (List HookStatement)
  /-- The names that a file lists that has bound the name of the listing, `Bindings.listing`. -/
  names : Bindings → Except Fault (List String)
  /-- What is wrong with a document that is not well-formed. -/
  complaint : String → List UInt8 → String

namespace Readers

/-- A text that means nothing: empty lines and comments. -/
def isIdle (text : List Char) : Bool :=
  (Text.splitAt '\n' text).all fun line =>
    let line := Text.trim line
    line.isEmpty || line.head? = some '#'

/-- The statements of a file that can only be idle. -/
def idleProgram (bytes : List UInt8) : Except String (List HookStatement) :=
  match String.fromUTF8? ⟨bytes.toArray⟩ with
  | some s => if isIdle (Text.plainNewlines s.toList) then .ok [] else .error "invalid syntax"
  | none => .error "invalid text"

/-- Readers without knowledge of any language. -/
def plain : Readers where
  program _ bytes := idleProgram bytes
  names _ := .error .type
  complaint _ _ := "syntax"

end Readers

/-- The name under which a file can bind a function that lists its names. -/
def Bindings.listing : String := "__dir__"

/-- The hooks of a file that are listed. -/
def Bindings.listed (bindings : Bindings) (standing : Standing) (readers : Readers) :
    Except Fault (List (String × Hook)) :=
  if (bindings.lookup listing).isSome then do
    let names ← readers.names bindings
    return (bindings.hooks standing).filter fun (name, _) => name ∈ names
  else .ok (bindings.hooks standing)

end MachinePlan
