import ScriptAnalysis.Numeral.Shortest
import ScriptAnalysis.Text.CharClass

/-!
# Numerals

Two spellings of one number are one literal type, so a numeral is brought
to a canonical text before it is used: separators go, the number is read as
a double-precision value, and that value is written back. A spelling that
is no number, or one too large for the format, stays as it is.
-/
namespace ScriptAnalysis.Numeral

/-- A number as it is read: sign and magnitude. -/
structure Reading where
  negative : Bool
  magnitude : Binary64
  deriving DecidableEq, Repr

/-! ## Reading -/

/-- The value of decimal digits. -/
def digitsValue (cs : List Char) : Nat :=
  cs.foldl (fun n c => 10 * n + (c.toNat - 48)) 0

/-- The value of an exponent. It stops growing once it is beyond anything
that the format can hold. -/
def exponentValue (cs : List Char) : Nat :=
  cs.foldl (fun n c => if n < 0x10000 then 10 * n + (c.toNat - 48) else n) 0

/-- An optional sign and what follows it. -/
def readSign : List Char → Bool × List Char
  | '-' :: cs => (true, cs)
  | '+' :: cs => (false, cs)
  | cs => (false, cs)

/-- The exponent at the end of a numeral: none, or `e`, an optional sign and
digits. -/
def readExponent : List Char → Option Int
  | [] => some 0
  | c :: cs =>
    let (negative, ds) := readSign cs
    if (c == 'e' || c == 'E') && !ds.isEmpty && ds.all Char.isDigit then
      let n : Int := exponentValue ds
      some (if negative then -n else n)
    else none

/-- Digits with an optional point, at least one digit in all, and an
optional exponent. -/
def readDecimal (cs : List Char) : Option Decimal :=
  let whole := cs.takeWhile Char.isDigit
  let rest := cs.dropWhile Char.isDigit
  let (fraction, rest) := match rest with
    | '.' :: more => (more.takeWhile Char.isDigit, more.dropWhile Char.isDigit)
    | other => ([], other)
  if whole.isEmpty && fraction.isEmpty then none
  else (readExponent rest).map fun e =>
    ⟨digitsValue (whole ++ fraction), e - fraction.length⟩

/-- Decimals from `10 ^ largestPlace` on are too large for the format. -/
def largestPlace : Int := 310

/-- Decimals below `10 ^ smallestPlace` round to zero. -/
def smallestPlace : Int := -330

/-- The double-precision value of a decimal; absent when it is too large. -/
def Decimal.round (d : Decimal) : Option Binary64 :=
  let place := (digitCount d.digits : Int) + d.exponent
  if d.digits = 0 || place < smallestPlace then some ⟨0, Binary64.minExponent⟩
  else if largestPlace < place then none
  else Binary64.round (d.digits * Nat.pow 10 d.exponent.toNat) (Nat.pow 10 (-d.exponent).toNat)

/-- What follows the mark of a hexadecimal numeral. -/
def hexadecimal? : List Char → Option (List Char)
  | '0' :: 'x' :: cs => some cs
  | '0' :: 'X' :: cs => some cs
  | _ => none

/-- Hexadecimal digits after an optional plus sign, as a number of at most
64 bits. -/
def readHexadecimal (cs : List Char) : Option Nat :=
  let ds := match cs with
    | '+' :: more => more
    | other => other
  if ds.isEmpty || !ds.all Text.isHexDigit then none
  else
    let n := Text.hexNumber ds
    if n < Nat.pow 2 64 then some n else none

/-- The number that a text without separators spells. -/
def read (cs : List Char) : Option Reading :=
  match hexadecimal? cs with
  | some ds => do
    let n ← readHexadecimal ds
    let magnitude ← Binary64.round n 1
    return ⟨false, magnitude⟩
  | none => do
    let (negative, rest) := readSign cs
    let magnitude ← (← readDecimal rest).round
    return ⟨negative, magnitude⟩

/-! ## Writing -/

/-- Whole numbers below this are written as words of 64 bits. -/
def wholeLimit : Nat := Nat.pow 10 21

/-- A whole number as a signed word: one that does not fit becomes the
nearest that does. -/
def wholeText (negative : Bool) (n : Nat) : List Char :=
  if negative then
    match min n (Nat.pow 2 63) with
    | 0 => ['0']
    | k => '-' :: Nat.toDigits 10 k
  else Nat.toDigits 10 (min n (Nat.pow 2 63 - 1))

/-- The canonical text of a number. -/
def write (r : Reading) : List Char :=
  let exact := (if r.negative then ['-'] else []) ++ (shortest r.magnitude).positional
  match r.magnitude.toNat? with
  | some n => if n < wholeLimit then wholeText r.negative n else exact
  | none => exact

/-- The canonical text of a numeral. -/
def canonical (text : String) : String :=
  let cs := text.toList.filter (· ≠ '_')
  String.ofList (((read cs).map write).getD cs)

end ScriptAnalysis.Numeral
