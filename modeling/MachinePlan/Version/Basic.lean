import MachinePlan.Text.Line
import MachinePlan.Text.Numeral

/-!
# Versions

Dotted version numbers: finding one in the output of a tool, reading its components, and comparing
two of them component by component, where a missing component counts as zero.
-/

namespace MachinePlan.Version

/-- The longest text at the front that consists of digits and of points with a digit behind. -/
def takeDotted : List Char → List Char
  | [] => []
  | c :: rest =>
    if Text.isDigit c then c :: takeDotted rest
    else if c = '.' && rest.head?.any Text.isDigit then c :: takeDotted rest
    else []

/-- The first dotted number with at least two components. -/
def findIn : List Char → Option (List Char)
  | [] => none
  | c :: rest =>
    let dotted := takeDotted (c :: rest)
    if Text.isDigit c && dotted.contains '.' then some dotted else findIn rest

/-- The version that the output of a tool names. -/
def ofOutput? (output : String) : Option String :=
  (findIn output.toList).map String.ofList

/-- The components of a version, if every one of them is a numeral. -/
def components? (version : String) : Option (List Int) :=
  (Text.splitAt '.' version.toList).mapM (Text.readInt? 10)

/-- The order of a version and the version whose components are all zero. -/
def compareZero : List Int → Ordering
  | [] => .eq
  | a :: as => (Ord.compare a 0).then (compareZero as)

/-- The order of two versions; the shorter one is continued with zeros. -/
def compare : List Int → List Int → Ordering
  | [], bs => (compareZero bs).swap
  | a :: as, [] => (Ord.compare a 0).then (compareZero as)
  | a :: as, b :: bs => (Ord.compare a b).then (compare as bs)

end MachinePlan.Version
