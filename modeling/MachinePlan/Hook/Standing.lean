import MachinePlan.Hook.Source
import MachinePlan.Text.Line

/-!
# Standing names

The names that mean something in a hook file before its first statement: what the file knows about
itself, and what is there in every file. None of them stands for a function of the file. A few of
them are plain values, and two stand for the same thing as a third.
-/

namespace MachinePlan.Standing

/-- The names that mean something before the first statement, in ascending order. -/
def names : List String :=
  ["ArithmeticError", "AssertionError", "AttributeError", "BaseException", "BaseExceptionGroup",
    "BlockingIOError", "BrokenPipeError", "BufferError", "BytesWarning", "ChildProcessError",
    "ConnectionAbortedError", "ConnectionError", "ConnectionRefusedError", "ConnectionResetError",
    "DeprecationWarning", "EOFError", "Ellipsis", "EncodingWarning", "EnvironmentError",
    "Exception", "ExceptionGroup", "False", "FileExistsError", "FileNotFoundError",
    "FloatingPointError", "FutureWarning", "GeneratorExit", "IOError", "ImportError",
    "ImportWarning", "IndentationError", "IndexError", "InterruptedError", "IsADirectoryError",
    "KeyError", "KeyboardInterrupt", "LookupError", "MemoryError", "ModuleNotFoundError",
    "NameError", "None", "NotADirectoryError", "NotImplemented", "NotImplementedError", "OSError",
    "OverflowError", "PendingDeprecationWarning", "PermissionError", "ProcessLookupError",
    "RecursionError", "ReferenceError", "ResourceWarning", "RuntimeError", "RuntimeWarning",
    "StopAsyncIteration", "StopIteration", "SyntaxError", "SyntaxWarning", "SystemError",
    "SystemExit", "TabError", "TimeoutError", "True", "TypeError", "UnboundLocalError",
    "UnicodeDecodeError", "UnicodeEncodeError", "UnicodeError", "UnicodeTranslateError",
    "UnicodeWarning", "UserWarning", "ValueError", "Warning", "ZeroDivisionError",
    "__build_class__", "__builtins__", "__cached__", "__debug__", "__doc__", "__file__",
    "__import__", "__loader__", "__name__", "__package__", "__spec__", "abs", "aiter", "all",
    "anext", "any", "ascii", "bin", "bool", "breakpoint", "bytearray", "bytes", "callable", "chr",
    "classmethod", "compile", "complex", "copyright", "credits", "delattr", "dict", "dir", "divmod",
    "enumerate", "eval", "exec", "exit", "filter", "float", "format", "frozenset", "getattr",
    "globals", "hasattr", "hash", "help", "hex", "id", "input", "int", "isinstance", "issubclass",
    "iter", "len", "license", "list", "locals", "map", "max", "memoryview", "min", "next", "object",
    "oct", "open", "ord", "pow", "print", "property", "quit", "range", "repr", "reversed", "round",
    "set", "setattr", "slice", "sorted", "staticmethod", "str", "sum", "super", "tuple", "type",
    "vars", "zip"]

def package (name : String) : String :=
  ".".intercalate (Text.splitString '.' name).dropLast

/-- What stands for a plain value, or for what is also known by another name, in a file that is
called so and lies at a path with the given text. -/
def known (called file : String) : List (String × Thing) :=
  [(selfName, .value (.str called)), ("__package__", .value (.str (package called))),
    ("__file__", .value (.str file)), ("__doc__", .value .null), ("None", .value .null),
    ("True", .value (.bool true)), ("__debug__", .value (.bool true)),
    ("False", .value (.bool false)), ("EnvironmentError", .standing "OSError"),
    ("IOError", .standing "OSError")]

theorem unmade_known (called file : String) :
    ∀ entry ∈ known called file, ∀ k, entry.2 ≠ .made k := by
  simp [known]

/-- What names stand for at the beginning of a file. -/
def ofFile (called file : String) : Standing where
  find? name :=
    match (known called file).find? fun entry => entry.1 == name with
    | some (_, thing) => some thing
    | none => if name ∈ names then some (.standing name) else none
  unmade name k := by
    split
    · next entry thing found =>
      have member := List.mem_of_find?_eq_some found
      intro same
      exact unmade_known called file _ member k (Option.some.inj same)
    · split <;> rintro ⟨⟩

end MachinePlan.Standing
