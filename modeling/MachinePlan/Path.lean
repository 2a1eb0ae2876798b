import MachinePlan.Text.Line

/-!
# Paths

Paths in normal form: a root marker and the parts behind it. Empty parts and parts that are a
single dot are dropped, parts that are two dots are kept; exactly two slashes at the front are a
marker of their own, and three or more count as one.
-/

namespace MachinePlan

/-- The slashes at the front of a path. -/
inductive PathRoot where
  /-- A path that starts at the current directory. -/
  | none
  | single
  | double
  deriving Inhabited, Repr, DecidableEq

/-- A path in normal form. -/
structure Path where
  root : PathRoot
  parts : List String
  deriving Inhabited, Repr, DecidableEq

namespace Path

def rootOf : List Char → PathRoot
  | '/' :: '/' :: '/' :: _ => .single
  | '/' :: '/' :: _ => .double
  | '/' :: _ => .single
  | _ => .none

/-- A part that a path keeps. -/
def isPart (s : String) : Bool :=
  s != "" && s != "."

def ofString (s : String) : Path :=
  ⟨rootOf s.toList, (Text.splitString '/' s).filter isPart⟩

def PathRoot.text : PathRoot → String
  | .none => ""
  | .single => "/"
  | .double => "//"

/-- The text of a path; the path without parts is a single dot. -/
def text (p : Path) : String :=
  match p.root, p.parts with
  | .none, [] => "."
  | root, parts => PathRoot.text root ++ "/".intercalate parts

def isAbsolute (p : Path) : Bool :=
  p.root != .none

/-- A path read from a directory: itself when it is absolute. -/
def join (directory p : Path) : Path :=
  if p.isAbsolute then p else ⟨directory.root, directory.parts ++ p.parts⟩

/-- The directory that holds a path; the path without parts is its own. -/
def parent (p : Path) : Path :=
  ⟨p.root, p.parts.dropLast⟩

def name (p : Path) : String :=
  p.parts.getLastD ""

def child (p : Path) (part : String) : Path :=
  ⟨p.root, p.parts ++ [part]⟩

end Path

end MachinePlan
