/-!
# Double-precision numbers

Magnitudes of the double-precision format as exact values, a whole number
times a power of two. `Binary64.round` is the format's nearest value to a
fraction, ties going to the even neighbour.
-/
namespace ScriptAnalysis

/-- The magnitude `mantissa * 2 ^ exponent`. -/
structure Binary64 where
  mantissa : Nat
  exponent : Int
  deriving DecidableEq, Repr, Inhabited

namespace Binary64

/-- Every mantissa is below this; only the smallest magnitudes have one
below half of it. -/
def mantissaLimit : Nat := Nat.pow 2 53

def minExponent : Int := -1074

def maxExponent : Int := 971

/-- `2 ^ e` as a factor of the numerator. -/
def scaleUp (e : Int) : Nat := Nat.pow 2 e.toNat

/-- `2 ^ e` as a factor of the denominator. -/
def scaleDown (e : Int) : Nat := Nat.pow 2 (-e).toNat

/-- The whole number nearest to a fraction; halfway it is the even one. -/
def divideRounding (num den : Nat) : Nat :=
  let q := num / den
  let r := num % den
  if 2 * r < den then q
  else if den < 2 * r then q + 1
  else if q % 2 = 0 then q else q + 1

/-- The exponent of the greatest power of two that is not above a positive
fraction. -/
def log2Fraction (num den : Nat) : Int :=
  let guess : Int := Int.ofNat num.log2 - Int.ofNat den.log2
  if den * scaleUp guess ≤ num * scaleDown guess then guess else guess - 1

/-- The magnitude nearest to a fraction; absent when it is too large for the
format. -/
def round (num den : Nat) : Option Binary64 :=
  if num = 0 then some ⟨0, minExponent⟩
  else
    let e := max (log2Fraction num den - 52) minExponent
    let m := divideRounding (num * scaleDown e) (den * scaleUp e)
    let (m, e) := if m = mantissaLimit then (m / 2, e + 1) else (m, e)
    if e ≤ maxExponent then some ⟨m, e⟩ else none

/-- The magnitude as a whole number, when it is one. -/
def toNat? (x : Binary64) : Option Nat :=
  let n := x.mantissa * scaleUp x.exponent
  let d := scaleDown x.exponent
  if n % d = 0 then some (n / d) else none

end Binary64

end ScriptAnalysis
