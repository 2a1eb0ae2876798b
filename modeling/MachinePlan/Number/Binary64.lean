import MachinePlan.Origin

/-!
# Double-precision numbers

The numbers of the 64-bit binary format as exact values: a sign, a significand and a power of two.
Every number the format can hold has one representation, and all arithmetic is done on the exact
values and rounded once, so equality and order are those of the rationals.
-/

namespace MachinePlan

/-- A double-precision number. A finite number is `significand * 2 ^ exponent`; its significand is
below `2 ^ 53`, and below `2 ^ 52` only at the least exponent. A NaN is identical to those of its
own origin; one without an origin is identical to none. -/
inductive Binary64 where
  | nan (origin : Option Origin)
  | infinite (negative : Bool)
  | finite (negative : Bool) (significand : Nat) (exponent : Int)
  deriving Inhabited, Repr, DecidableEq

namespace Binary64

def twoTo (n : Nat) : Nat := Nat.pow 2 n

/-- The exponent of the smallest numbers. -/
def minExponent : Int := -1074

/-- The exponent of the largest numbers. -/
def maxExponent : Int := 971

def zero (negative : Bool) : Binary64 := .finite negative 0 minExponent

/-- The natural number nearest to `num / den`; a half goes to the even neighbour. -/
def roundHalfEven (num den : Nat) : Nat :=
  let quotient := num / den
  let twice := 2 * (num % den)
  if twice < den then quotient
  else if den < twice then quotient + 1
  else quotient + quotient % 2

/-- `num / den` in units of `2 ^ e`, as a fraction. -/
def inUnits (num den : Nat) (e : Int) : Nat × Nat :=
  if 0 ≤ e then (num, den * twoTo e.toNat) else (num * twoTo (-e).toNat, den)

/-- The double-precision number nearest to `num / den`, with the given sign; a half goes to the
even significand, and what lies beyond the largest number is infinite. -/
def ofRatio (negative : Bool) (num den : Nat) : Binary64 :=
  if num = 0 then zero negative
  else
    let guess : Int := max ((Nat.log2 num : Int) - Nat.log2 den - 52) minExponent
    let (n, d) := inUnits num den guess
    let e := if n / d < twoTo 52 && minExponent < guess then guess - 1 else guess
    let (n, d) := inUnits num den e
    let s := roundHalfEven n d
    let (s, e) := if s = twoTo 53 then (twoTo 52, e + 1) else (s, e)
    if maxExponent < e then .infinite negative else .finite negative s e

def ofInt (i : Int) : Binary64 :=
  ofRatio (i < 0) i.natAbs 1

def ofScaled (negative : Bool) (significand : Nat) (exponent : Int) : Binary64 :=
  if 0 ≤ exponent then ofRatio negative (significand * twoTo exponent.toNat) 1
  else ofRatio negative significand (twoTo (-exponent).toNat)

/-- Neither zero nor missing: every number but the two zeros counts as true. -/
def isNonzero : Binary64 → Bool
  | .finite _ s _ => s != 0
  | _ => true

def neg : Binary64 → Binary64
  | .nan _ => .nan none
  | .infinite negative => .infinite !negative
  | .finite negative s e => .finite (!negative) s e

/-- A signed significand as an integer. -/
def signed (negative : Bool) (s : Nat) : Int :=
  if negative then -(s : Int) else s

def add : Binary64 → Binary64 → Binary64
  | .nan _, _ => .nan none
  | _, .nan _ => .nan none
  | .infinite a, .infinite b => if a = b then .infinite a else .nan none
  | .infinite a, _ => .infinite a
  | _, .infinite b => .infinite b
  | .finite na sa ea, .finite nb sb eb =>
    let e := min ea eb
    let total := signed na sa * twoTo (ea - e).toNat + signed nb sb * twoTo (eb - e).toNat
    if total = 0 then zero (na && nb) else ofScaled (total < 0) total.natAbs e

def mul : Binary64 → Binary64 → Binary64
  | .nan _, _ => .nan none
  | _, .nan _ => .nan none
  | .infinite a, .infinite b => .infinite (a != b)
  | .infinite a, .finite b s _ => if s = 0 then .nan none else .infinite (a != b)
  | .finite a s _, .infinite b => if s = 0 then .nan none else .infinite (a != b)
  | .finite na sa ea, .finite nb sb eb => ofScaled (na != nb) (sa * sb) (ea + eb)

/-- The number as it is made at a place: a NaN that has no origin yet gets it from there. -/
def madeAt (origin : Origin) : Binary64 → Binary64
  | .nan none => .nan (some origin)
  | x => x

/-- Equality of values: the two zeros are equal, and a NaN equals only itself. -/
def same : Binary64 → Binary64 → Bool
  | .nan a, .nan b => a.isSome && a == b
  | .infinite a, .infinite b => a == b
  | .finite na sa ea, .finite nb sb eb =>
    let e := min ea eb
    signed na sa * twoTo (ea - e).toNat == signed nb sb * twoTo (eb - e).toNat
  | _, _ => false

/-- Equality with a whole number, without rounding. -/
def sameInt : Binary64 → Int → Bool
  | .finite negative s e, i =>
    if 0 ≤ e then signed negative s * twoTo e.toNat == i
    else signed negative s == i * twoTo (-e).toNat
  | _, _ => false

end Binary64

end MachinePlan
