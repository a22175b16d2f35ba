import ScriptAnalysis.Numeral.Binary64

/-!
# Shortest decimals

The decimal with the fewest digits that still rounds to a given
double-precision magnitude; of those with equally many digits the nearest,
and halfway the greater. A magnitude stands for all fractions of an
interval around it, whose ends belong to it when its mantissa is even.

All comparisons are exact, on whole numbers.
-/
namespace ScriptAnalysis.Numeral

/-- The decimal `digits * 10 ^ exponent`. -/
structure Decimal where
  digits : Nat
  exponent : Int
  deriving DecidableEq, Repr, Inhabited

/-- The fractions that round to a magnitude lie between `(value - below) / den`
and `(value + above) / den`. -/
structure Interval where
  value : Nat
  below : Nat
  above : Nat
  den : Nat
  closed : Bool

/-- The interval of a magnitude in quarters of its last binary place. The
neighbour below is nearer when the mantissa is the smallest of its size. -/
def Interval.around (x : Binary64) : Interval :=
  let e := x.exponent - 2
  let up := Binary64.scaleUp e
  { value := 4 * x.mantissa * up
    below := (if 2 * x.mantissa = Binary64.mantissaLimit then 1 else 2) * up
    above := 2 * up
    den := Binary64.scaleDown e
    closed := x.mantissa % 2 = 0 }

/-- Whether `n * unit` is not below the interval. Here `unit` has been
brought to the denominator of the interval. -/
def Interval.reachesDown (i : Interval) (n unit : Nat) : Bool :=
  if i.closed then i.value ≤ n * unit + i.below else i.value < n * unit + i.below

/-- Whether `n * unit` is not above the interval. -/
def Interval.reachesUp (i : Interval) (n unit : Nat) : Bool :=
  if i.closed then n * unit ≤ i.value + i.above else n * unit < i.value + i.above

/-- The interval with all its numbers multiplied by `k`. -/
def Interval.scale (i : Interval) (k : Nat) : Interval :=
  { i with value := i.value * k, below := i.below * k, above := i.above * k, den := i.den }

/-- The better of the two multiples of `10 ^ exponent` next to the value, if
one of them lies in the interval. -/
def Interval.onGrid (i : Interval) (exponent : Int) : Option Decimal :=
  let i := i.scale (Nat.pow 10 (-exponent).toNat)
  let unit := i.den * Nat.pow 10 exponent.toNat
  let n := i.value / unit
  let r := i.value % unit
  let down := i.reachesDown n unit
  let up := i.reachesUp (n + 1) unit
  if up && (!down || unit ≤ 2 * r) then some ⟨n + 1, exponent⟩
  else if down then some ⟨n, exponent⟩
  else none

/-- The number of digits of a number, by repeated division. -/
def digitCount (n : Nat) : Nat := (Nat.toDigits 10 n).length

/-- The place of the first digit of a positive fraction: `k` when it is at
least `10 ^ (k - 1)` and less than `10 ^ k`. -/
def leadingPlace (num den : Nat) : Int :=
  if den ≤ num then digitCount (num / den)
  else
    -- the fraction times the power of ten that makes it at least one
    let shift := digitCount (den / num)
    let shift := if den ≤ num * Nat.pow 10 (shift - 1) then shift - 1 else shift
    1 - (shift : Int)

/-- The first grid with a multiple in the interval, of at most `fuel` grids
that start with unit `10 ^ exponent` and get finer. -/
def Interval.search (i : Interval) : Nat → Int → Option Decimal
  | 0, _ => none
  | fuel + 1, exponent =>
    match i.onGrid exponent with
    | some d => some d
    | none => i.search fuel (exponent - 1)

/-- Seventeen digits tell all magnitudes apart. -/
def maxDigits : Nat := 17

/-- The shortest decimal that rounds to a magnitude. -/
def shortest (x : Binary64) : Decimal :=
  if x.mantissa = 0 then ⟨0, 0⟩
  else
    let i := Interval.around x
    (i.search maxDigits (leadingPlace i.value i.den - 1)).getD ⟨0, 0⟩

/-! ## Positional notation -/

/-- Zeros at the end of a fraction say nothing. -/
def trimZeros (cs : List Char) : List Char :=
  (cs.reverse.dropWhile (· == '0')).reverse

/-- A decimal without an exponent: all its digits, with zeros up to the
point and no zeros at the end of the fraction. -/
def Decimal.positional (d : Decimal) : List Char :=
  let ds := Nat.toDigits 10 d.digits
  if 0 ≤ d.exponent then ds ++ List.replicate d.exponent.toNat '0'
  else
    let places := (-d.exponent).toNat
    let padded := List.replicate (places + 1 - ds.length) '0' ++ ds
    let whole := padded.take (padded.length - places)
    match trimZeros (padded.drop (padded.length - places)) with
    | [] => whole
    | fraction => whole ++ '.' :: fraction

end ScriptAnalysis.Numeral
