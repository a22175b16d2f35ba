import ScriptAnalysis.Proofs.Types.Unions

/-!
# The canonical text of whole numbers

Number literals are told apart by their canonical text. For whole numbers
below `10 ^ 21` that is the text of a word of 64 bits with a sign, and such a
word is shorter than the limit: from `2 ^ 63` on every number has the text of
the greatest word.

**Specification.** `Binary64.Exact` numbers are those that the format holds
without rounding. `Spelling` lists the numerals of a number: decimal digits, or
hexadecimal digits behind their mark. `ExactNumeral` is a text that is such a
numeral once its separators are left out.

**Results.**
* `Binary64.round_exact`: an exact number is read without a loss.
* `ExactNumeral.canonical_eq`: its canonical text.
* `TypeTable.InUse.exact_numerals`: what a table keeps of a numeral, and which
  two have one index.
* `ExactNumeral.canonical_of_word`: the first number that has another one's text.
-/
namespace ScriptAnalysis

/-! ## Exact numbers -/

namespace Binary64

/-- A mantissa and an exponent that the format has. -/
structure Valid (x : Binary64) : Prop where
  mantissa : x.mantissa < mantissaLimit
  exponent : minExponent ≤ x.exponent ∧ x.exponent ≤ maxExponent

/-- The format holds the number. -/
def Exact (n : Nat) : Prop :=
  ∃ x : Binary64, x.Valid ∧ x.toNat? = some n

theorem toNat?_eq {m n : Nat} {e : Int} (h : toNat? ⟨m, e⟩ = some n) :
    n * scaleDown e = m * scaleUp e := by
  simp only [toNat?] at h
  split at h
  · rename_i hwhole
    rw [← Option.some.inj h]
    exact Nat.div_mul_cancel (Nat.dvd_of_mod_eq_zero hwhole)
  · cases h

/-- An exact number is below the limit of the mantissas, or a multiple of each
power of two that brings it there. -/
theorem Exact.dvd {n : Nat} (h : Exact n) {k : Nat} (hk : Nat.pow 2 (52 + k) ≤ n) :
    Nat.pow 2 k ∣ n := by
  obtain ⟨⟨m, e⟩, hvalid, hn⟩ := h
  have hm : m < Nat.pow 2 53 := hvalid.mantissa
  have hscaled := toNat?_eq hn
  unfold scaleUp scaleDown at hscaled
  rcases Int.le_total e 0 with he | he
  · -- a fraction of the mantissa is less than the limit
    have hup : e.toNat = 0 := by omega
    have hpos : 1 ≤ Nat.pow 2 (-e).toNat := Nat.one_le_two_pow
    have hle : n * 1 ≤ n * Nat.pow 2 (-e).toNat := Nat.mul_le_mul_left n hpos
    rw [hup] at hscaled
    have hone : m * Nat.pow 2 0 = m := Nat.mul_one m
    have hlt : Nat.pow 2 (52 + k) < Nat.pow 2 53 := by omega
    have hzero : k = 0 := by
      have := (Nat.pow_lt_pow_iff_right (by decide : 1 < 2)).1 hlt
      omega
    rw [hzero]
    exact Nat.one_dvd n
  · have hdown : (-e).toNat = 0 := by omega
    rw [hdown] at hscaled
    have hone : n * Nat.pow 2 0 = n := Nat.mul_one n
    have hlt : Nat.pow 2 (52 + k) < Nat.pow 2 (53 + e.toNat) :=
      calc Nat.pow 2 (52 + k) ≤ n := hk
        _ = m * Nat.pow 2 e.toNat := by omega
        _ < Nat.pow 2 53 * Nat.pow 2 e.toNat := Nat.mul_lt_mul_of_pos_right hm Nat.one_le_two_pow
        _ = Nat.pow 2 (53 + e.toNat) := (Nat.pow_add 2 53 e.toNat).symm
    have hexponents := (Nat.pow_lt_pow_iff_right (by decide : 1 < 2)).1 hlt
    have hpowers : Nat.pow 2 k ∣ Nat.pow 2 e.toNat := Nat.pow_dvd_pow 2 (by omega)
    have hn : n = m * Nat.pow 2 e.toNat := by omega
    rw [hn]
    exact Nat.dvd_trans hpowers (Nat.dvd_mul_left _ m)

theorem divideRounding_of_dvd {num den : Nat} (hden : 0 < den) (h : den ∣ num) :
    divideRounding num den = num / den := by
  have hrest : num % den = 0 := Nat.mod_eq_zero_of_dvd h
  simp only [divideRounding, hrest]
  rw [if_pos (by omega)]

theorem log2Fraction_one {n : Nat} (h : n ≠ 0) : log2Fraction n 1 = n.log2 := by
  have hpow : 2 ^ n.log2 ≤ n := Nat.log2_self_le h
  have hguess : (Int.ofNat n.log2 - Int.ofNat (Nat.log2 1)) = (n.log2 : Int) := by
    show (n.log2 : Int) - ((Nat.log2 1 : Nat) : Int) = n.log2
    rw [show Nat.log2 1 = 0 from by decide]
    omega
  simp only [log2Fraction, hguess, scaleUp, scaleDown]
  rw [if_pos]
  have hdown : (-(n.log2 : Int)).toNat = 0 := by omega
  rw [hdown, Int.toNat_natCast]
  show 1 * 2 ^ n.log2 ≤ n * 1
  omega

theorem scale_neg (d : Nat) : scaleUp (-(d : Int)) = 1 ∧ scaleDown (-(d : Int)) = Nat.pow 2 d := by
  have hup : (-(d : Int)).toNat = 0 := by omega
  constructor
  · rw [scaleUp, hup]
  · rw [scaleDown, Int.neg_neg, Int.toNat_natCast]

theorem scale_natCast (k : Nat) : scaleUp (k : Int) = Nat.pow 2 k ∧ scaleDown (k : Int) = 1 := by
  have hdown : (-(k : Int)).toNat = 0 := by omega
  constructor
  · rw [scaleUp, Int.toNat_natCast]
  · rw [scaleDown, hdown]

/-- The mantissa of a small number is a multiple of the number. -/
theorem round_small {n : Nat} (hzero : n ≠ 0) (hsmall : n.log2 < 53) :
    ∃ x, round n 1 = some x ∧ x.toNat? = some n := by
  have hhigh : n < 2 ^ (n.log2 + 1) := Nat.lt_log2_self
  obtain ⟨d, hd⟩ := Nat.le.dest (Nat.le_of_lt_succ hsmall)
  have hexponent : max (log2Fraction n 1 - 52) minExponent = -(d : Int) := by
    rw [log2Fraction_one hzero, minExponent]
    omega
  have hmax : -(d : Int) ≤ maxExponent := by
    rw [maxExponent]
    omega
  have hmantissa : n * Nat.pow 2 d < mantissaLimit :=
    calc n * Nat.pow 2 d < 2 ^ (n.log2 + 1) * 2 ^ d :=
          Nat.mul_lt_mul_of_pos_right hhigh Nat.one_le_two_pow
      _ = 2 ^ 53 := by rw [← Nat.pow_add]; congr 1; omega
  obtain ⟨hup, hdown⟩ := scale_neg d
  have hdivided : divideRounding (n * scaleDown (-(d : Int))) (1 * scaleUp (-(d : Int))) =
      n * Nat.pow 2 d := by
    rw [hup, hdown, divideRounding_of_dvd (by omega) (Nat.one_dvd _), Nat.div_one]
  refine ⟨⟨n * Nat.pow 2 d, -(d : Int)⟩, ?_, ?_⟩
  · simp only [round, hzero, if_false, hexponent, hdivided, Nat.ne_of_lt hmantissa, hmax, if_true]
  · have hcancel : n * Nat.pow 2 d / Nat.pow 2 d = n := Nat.mul_div_cancel n Nat.one_le_two_pow
    simp only [toNat?, hup, hdown, Nat.mul_one, Nat.mul_mod_left, if_true, hcancel]

/-- A large number that is exact is a multiple of its mantissa. -/
theorem round_large {n : Nat} (h : Exact n) (hlarge : 53 ≤ n.log2) (hn : n.log2 < 1024) :
    ∃ x, round n 1 = some x ∧ x.toNat? = some n := by
  have hzero : n ≠ 0 := by
    rintro rfl
    exact absurd hlarge (by decide)
  have hlow : 2 ^ n.log2 ≤ n := Nat.log2_self_le hzero
  have hhigh : n < 2 ^ (n.log2 + 1) := Nat.lt_log2_self
  obtain ⟨k, hk⟩ := Nat.le.dest (show 52 ≤ n.log2 by omega)
  have hexponent : max (log2Fraction n 1 - 52) minExponent = (k : Int) := by
    rw [log2Fraction_one hzero, minExponent]
    omega
  have hmax : (k : Int) ≤ maxExponent := by
    rw [maxExponent]
    omega
  have hdvd : Nat.pow 2 k ∣ n := h.dvd (by rw [hk]; exact hlow)
  have hmantissa : n / Nat.pow 2 k < mantissaLimit := by
    apply Nat.div_lt_of_lt_mul
    calc n < 2 ^ (n.log2 + 1) := hhigh
      _ = 2 ^ k * 2 ^ 53 := by rw [← Nat.pow_add]; congr 1; omega
  obtain ⟨hup, hdown⟩ := scale_natCast k
  have hdivided : divideRounding (n * scaleDown (k : Int)) (1 * scaleUp (k : Int)) =
      n / Nat.pow 2 k := by
    rw [hup, hdown, Nat.mul_one, Nat.one_mul]
    exact divideRounding_of_dvd Nat.one_le_two_pow hdvd
  refine ⟨⟨n / Nat.pow 2 k, k⟩, ?_, ?_⟩
  · simp only [round, hzero, if_false, hexponent, hdivided, Nat.ne_of_lt hmantissa, hmax, if_true]
  · simp only [toNat?, hup, hdown, Nat.mod_one, Nat.div_one, if_true, Nat.div_mul_cancel hdvd]

/-- What the format holds is not rounded. -/
theorem round_exact {n : Nat} (h : Exact n) (hn : n.log2 < 1024) :
    ∃ x, round n 1 = some x ∧ x.toNat? = some n := by
  by_cases hzero : n = 0
  · subst hzero
    exact ⟨_, rfl, by decide +kernel⟩
  · rcases Nat.lt_or_ge n.log2 53 with hsmall | hlarge
    · exact round_small hzero hsmall
    · exact round_large h hlarge hn

end Binary64

/-! ## Numerals -/

namespace Numeral

/-- The numerals of a number. -/
inductive Spelling : List Char → Nat → Prop
  | decimal (digits : List Char) (some : digits ≠ []) (all : ∀ c ∈ digits, c.isDigit = true) :
      Spelling digits (digitsValue digits)
  | hexadecimal (mark : Char) (digits : List Char) (marked : mark = 'x' ∨ mark = 'X')
      (some : digits ≠ []) (all : ∀ c ∈ digits, Text.isHexDigit c = true)
      (fits : Text.hexNumber digits < Nat.pow 2 64) :
      Spelling ('0' :: mark :: digits) (Text.hexNumber digits)

/-- The decimal numeral is one of a number. -/
theorem Spelling.toString (n : Nat) : Spelling (toString n).toList n := by
  have hvalue : digitsValue (Nat.toDigits 10 n) = n :=
    Nat.ofDigitChars_toDigits (by decide) (by decide)
  have hdigits := Spelling.decimal (Nat.toDigits 10 n) Nat.toDigits_ne_nil fun c hc =>
    Nat.isDigit_of_mem_toDigits (by decide) (by decide) hc
  rw [hvalue] at hdigits
  exact Nat.toList_repr (n := n) ▸ hdigits

theorem hexNumber_concat (cs : List Char) (c : Char) :
    Text.hexNumber (cs ++ [c]) = 16 * Text.hexNumber cs + Text.hexValue c := by
  simp [Text.hexNumber, List.foldl_append]

theorem hexDigit_digitChar {d : Nat} (h : d < 16) :
    Text.isHexDigit d.digitChar = true ∧ Text.hexValue d.digitChar = d := by
  have hall : ∀ d < 16, Text.isHexDigit d.digitChar = true ∧ Text.hexValue d.digitChar = d := by
    decide
  exact hall d h

theorem hexNumber_toDigits (n : Nat) :
    (∀ c ∈ Nat.toDigits 16 n, Text.isHexDigit c = true) ∧
      Text.hexNumber (Nat.toDigits 16 n) = n := by
  induction n using Nat.strongRecOn with
  | ind n ih =>
    rcases Nat.lt_or_ge n 16 with hdigit | hmore
    · have hone := hexDigit_digitChar hdigit
      rw [Nat.toDigits_of_lt_base hdigit]
      simpa [Text.hexNumber] using hone
    · have hlast := hexDigit_digitChar (Nat.mod_lt n (by decide : 0 < 16))
      obtain ⟨hfront, hvalue⟩ := ih (n / 16) (by omega)
      have hsplit : Nat.toDigits 16 n = Nat.toDigits 16 (n / 16) ++ [(n % 16).digitChar] := by
        rw [← Nat.toDigits_of_lt_base (Nat.mod_lt n (by decide : 0 < 16)),
          Nat.toDigits_append_toDigits (by decide) (by omega) (Nat.mod_lt n (by decide)),
          Nat.div_add_mod]
      rw [hsplit]
      constructor
      · intro c hc
        rcases List.mem_append.1 hc with hc | hc
        · exact hfront c hc
        · rw [List.mem_singleton.1 hc]
          exact hlast.1
      · rw [hexNumber_concat, hvalue, hlast.2, Nat.div_add_mod]

/-- The hexadecimal numeral is one of a number that fits 64 bits. -/
theorem Spelling.toHexadecimal {n : Nat} (h : n < Nat.pow 2 64) :
    Spelling ('0' :: 'x' :: Nat.toDigits 16 n) n := by
  obtain ⟨hdigits, hvalue⟩ := hexNumber_toDigits n
  have hspelled := Spelling.hexadecimal 'x' (Nat.toDigits 16 n) (.inl rfl) Nat.toDigits_ne_nil
    hdigits (by rwa [hvalue])
  rwa [hvalue] at hspelled

/-! ## Reading and writing -/

variable {cs : List Char} {n : Nat}

theorem log2_lt_of_wholeLimit (h : n < wholeLimit) : n.log2 < 70 := by
  by_cases hzero : n = 0
  · subst hzero
    decide
  · rw [Nat.log2_lt hzero]
    exact Nat.lt_trans h (by decide)

theorem readHexadecimal_eq (hsome : cs ≠ []) (hall : ∀ c ∈ cs, Text.isHexDigit c = true)
    (hfits : Text.hexNumber cs < Nat.pow 2 64) : readHexadecimal cs = some (Text.hexNumber cs) := by
  have hdigits : cs.all Text.isHexDigit = true := List.all_eq_true.2 hall
  have hempty : cs.isEmpty = false := by simpa using hsome
  unfold readHexadecimal
  split
  · exact absurd (hall '+' List.mem_cons_self) (by decide)
  · simp [hempty, hdigits, hfits]

theorem hexadecimal?_digits (hall : ∀ c ∈ cs, c.isDigit = true) : hexadecimal? cs = none := by
  unfold hexadecimal?
  split
  · exact absurd (hall 'x' (List.mem_cons_of_mem _ List.mem_cons_self)) (by decide)
  · exact absurd (hall 'X' (List.mem_cons_of_mem _ List.mem_cons_self)) (by decide)
  · rfl

theorem readSign_digits (hall : ∀ c ∈ cs, c.isDigit = true) : readSign cs = (false, cs) := by
  unfold readSign
  split
  · exact absurd (hall '-' List.mem_cons_self) (by decide)
  · exact absurd (hall '+' List.mem_cons_self) (by decide)
  · rfl

theorem readDecimal_digits (hsome : cs ≠ []) (hall : ∀ c ∈ cs, c.isDigit = true) :
    readDecimal cs = some ⟨digitsValue cs, 0⟩ := by
  have hwhole : cs.takeWhile Char.isDigit = cs := by
    simpa using @List.takeWhile_append_of_pos _ Char.isDigit cs [] hall
  have hrest : cs.dropWhile Char.isDigit = [] := by
    simpa using @List.dropWhile_append_of_pos _ Char.isDigit cs [] hall
  have hempty : cs.isEmpty = false := by simpa using hsome
  simp [readDecimal, hwhole, hrest, hempty, readExponent]

/-- A whole number below the limit has a place that the format has. -/
theorem digitCount_le (h : n < wholeLimit) : digitCount n ≤ 21 :=
  (Nat.length_toDigits_le_iff (by decide) (by decide)).2 h

theorem round_whole (h : Binary64.Exact n) (hn : n < wholeLimit) :
    ∃ x, Decimal.round ⟨n, 0⟩ = some x ∧ x.toNat? = some n := by
  have hlog := log2_lt_of_wholeLimit hn
  have hcount := digitCount_le hn
  obtain ⟨x, hround, hx⟩ := Binary64.round_exact h (by omega)
  by_cases hzero : n = 0
  · subst hzero
    exact ⟨_, rfl, by decide +kernel⟩
  · refine ⟨x, ?_, hx⟩
    have hlow : ¬ (digitCount n : Int) + 0 < smallestPlace := by
      rw [smallestPlace]
      omega
    have hhigh : ¬ largestPlace < (digitCount n : Int) + 0 := by
      rw [largestPlace]
      omega
    have hnum : n * Nat.pow 10 (0 : Int).toNat = n := Nat.mul_one n
    have hden : Nat.pow 10 (-(0 : Int)).toNat = 1 := rfl
    simp only [Decimal.round, hlow, hhigh, hzero, hnum, hden, decide_false, Bool.or_self,
      Bool.false_eq_true, if_false]
    exact hround

theorem read_spelling (h : Spelling cs n) (hexact : Binary64.Exact n) (hn : n < wholeLimit) :
    ∃ x, read cs = some ⟨false, x⟩ ∧ x.toNat? = some n := by
  cases h with
  | decimal _ hsome hall =>
    obtain ⟨x, hround, hx⟩ := round_whole hexact hn
    refine ⟨x, ?_, hx⟩
    simp [read, hexadecimal?_digits hall, readSign_digits hall, readDecimal_digits hsome hall,
      hround]
  | hexadecimal mark digits hmark hsome hall hfits =>
    have hlog := log2_lt_of_wholeLimit hn
    obtain ⟨x, hround, hx⟩ := Binary64.round_exact hexact (by omega)
    have hmarked : hexadecimal? ('0' :: mark :: digits) = some digits := by
      rcases hmark with rfl | rfl <;> rfl
    refine ⟨x, ?_, hx⟩
    simp [read, hmarked, readHexadecimal_eq hsome hall hfits, hround]

/-- The greatest word of 64 bits with a sign. -/
def greatestWord : Nat := Nat.pow 2 63 - 1

theorem canonical_of_read {text : String} {x : Binary64}
    (hread : read (text.toList.filter (· ≠ '_')) = some ⟨false, x⟩) (hx : x.toNat? = some n)
    (hn : n < wholeLimit) : canonical text = toString (min n greatestWord) := by
  have hwrite : write ⟨false, x⟩ = Nat.toDigits 10 (min n greatestWord) := by
    simp only [write, hx, hn, if_true, wholeText, Bool.false_eq_true, if_false]
    rfl
  rw [canonical, hread]
  simp only [Option.map_some, Option.getD_some, hwrite]
  exact Nat.repr_eq_ofList_toDigits.symm

theorem toString_inj {m n : Nat} : toString m = toString n ↔ m = n := by
  constructor
  · intro h
    have hlists := congrArg String.toList h
    rw [show (toString m).toList = Nat.toDigits 10 m from Nat.toList_repr,
      show (toString n).toList = Nat.toDigits 10 n from Nat.toList_repr] at hlists
    have hvalues := congrArg digitsValue hlists
    have hread : ∀ k, digitsValue (Nat.toDigits 10 k) = k := fun k =>
      Nat.ofDigitChars_toDigits (by decide) (by decide)
    rwa [hread, hread] at hvalues
  · exact congrArg toString

end Numeral

/-- A text that is a numeral of an exact number below the limit once its
separators are left out. -/
structure ExactNumeral where
  text : String
  value : Nat
  spelled : Numeral.Spelling (text.toList.filter (· ≠ '_')) value
  exact : Binary64.Exact value
  small : value < Numeral.wholeLimit

namespace ExactNumeral

open Numeral

/-- A numeral without separators. -/
def plain {cs : List Char} {n : Nat} (spelled : Spelling cs n) (separators : '_' ∉ cs)
    (exact : Binary64.Exact n) (small : n < wholeLimit) : ExactNumeral where
  text := String.ofList cs
  value := n
  spelled := by
    rw [String.toList_ofList, List.filter_eq_self.2]
    · exact spelled
    · intro c hc
      have hne : c ≠ '_' := fun heq => separators (heq ▸ hc)
      exact decide_eq_true hne
  exact := exact
  small := small

/-- The decimal numeral of a number. -/
def decimal (n : Nat) (exact : Binary64.Exact n) (small : n < wholeLimit) : ExactNumeral :=
  plain (Spelling.toString n)
    (by
      rw [show (toString n).toList = Nat.toDigits 10 n from Nat.toList_repr]
      exact Nat.underscore_not_in_toDigits)
    exact small

/-- The hexadecimal numeral of a number that fits 64 bits. -/
def hexadecimal (n : Nat) (exact : Binary64.Exact n) (fits : n < Nat.pow 2 64) : ExactNumeral :=
  plain (Spelling.toHexadecimal fits)
    (by
      intro hmem
      have hdigit := (hexNumber_toDigits n).1 '_' (by simpa using hmem)
      exact absurd hdigit (by decide))
    exact (Nat.lt_trans fits (by decide))

/-- The number is read exactly and written as the nearest word. -/
theorem canonical_eq (a : ExactNumeral) :
    canonical a.text = toString (min a.value greatestWord) := by
  obtain ⟨x, hread, hx⟩ := read_spelling a.spelled a.exact a.small
  exact canonical_of_read hread hx a.small

/-- The greatest word itself is no exact number. -/
theorem value_ne_greatestWord (a : ExactNumeral) : a.value ≠ greatestWord := by
  intro h
  have hexact := a.exact
  rw [h] at hexact
  have hdvd := hexact.dvd (show Nat.pow 2 (52 + 1) ≤ greatestWord by decide)
  exact absurd hdvd (by decide)

theorem written_eq_iff (a b : ExactNumeral) :
    toString (min a.value greatestWord) = toString (min b.value greatestWord) ↔
      a.value = b.value ∨ greatestWord < a.value ∧ greatestWord < b.value := by
  have ha := a.value_ne_greatestWord
  have hb := b.value_ne_greatestWord
  rw [toString_inj]
  omega

theorem written_eq_value_iff (a : ExactNumeral) :
    toString (min a.value greatestWord) = toString a.value ↔ a.value ≤ greatestWord := by
  rw [toString_inj]
  omega

/-- The first exact number that does not fit a word is written as the greatest
word, which is another number. -/
theorem canonical_of_word :
    ¬ ∀ a : ExactNumeral, canonical a.text = toString a.value := by
  intro h
  have hexact : Binary64.Exact (greatestWord + 1) :=
    ⟨⟨1, 63⟩, ⟨by decide, by decide⟩, by decide +kernel⟩
  have hsmall : greatestWord + 1 < wholeLimit := by decide
  have hwritten := h (decimal (greatestWord + 1) hexact hsmall)
  rw [canonical_eq, written_eq_value_iff] at hwritten
  exact Nat.not_succ_le_self greatestWord hwritten

end ExactNumeral

/-! ## The index of a number -/

namespace TypeTable

open Numeral

variable {t t' : TypeTable}

/-- A structure that is interned later has the index of one that was before if
and only if it is the same structure. -/
theorem Indexed.intern_eq_iff (h : Indexed t) (h' : Indexed t') (data data' : TypeData)
    (hdata : data.isObject = false) (hparts : data.parts = [])
    (hdata' : data'.isObject = false) (hparts' : data'.parts = [])
    (hk : Kept (intern data t).2 t') :
    (intern data' t').1 = (intern data t).1 ↔ data' = data := by
  have hlater := hk.structures _ _ (h.getElem?_intern data) hdata
  constructor
  · intro hsame
    have hallots := h'.allots_intern hdata' (by simp [hparts'])
    have hthen := hallots.change.kept.structures _ _ hlater hdata
    rw [← hsame, h'.getElem?_intern data'] at hthen
    exact Option.some.inj hthen
  · rintro rfl
    have hknown := (h'.known data' _).2 ⟨hlater, hdata⟩
    rw [intern_known hknown]

theorem InUse.after_append (u : InUse) (ops more : List Operation) :
    u.after (ops ++ more) = (u.after ops).after more :=
  List.foldl_append

theorem InUse.Allows.split {u : InUse} {ops more : List Operation} (h : u.Allows (ops ++ more)) :
    u.Allows ops ∧ (u.after ops).Allows more := by
  induction ops generalizing u with
  | nil => exact ⟨trivial, h⟩
  | cons op ops ih =>
    obtain ⟨hops, hmore⟩ := ih h.2
    exact ⟨⟨h.1, hops⟩, hmore⟩

theorem InUse.Sound.kept_after {u : InUse} (h : u.Sound) {ops : List Operation}
    (hops : u.Allows ops) : Kept u.table (u.after ops).table := by
  induction ops generalizing u with
  | nil => exact .refl _
  | cons op ops ih => exact (h.change hops.1).kept.trans (ih (h.perform hops.1) hops.2)

/-- The numeral of an exact number below the limit, asked of a table after any
operations, is kept with the text of the number, as long as that fits a word.
A numeral asked for later has the same index if and only if it is one of the
same number, or both numbers are too large for a word. -/
theorem InUse.exact_numerals (ops more : List Operation) (a b : ExactNumeral)
    (h : new.Allows (ops ++ .numberLiteral a.text :: more)) :
    let first := numberLiteral a.text (new.after ops).table
    let later := (new.after (ops ++ .numberLiteral a.text :: more)).table
    first.2.dataOf first.1 = .literal (.number (toString (min a.value greatestWord))) ∧
    (canonical a.text = toString a.value ↔ a.value ≤ greatestWord) ∧
    ((numberLiteral b.text later).1 = first.1 ↔
      a.value = b.value ∨ greatestWord < a.value ∧ greatestWord < b.value) := by
  intro first later
  obtain ⟨hops, hmore⟩ := h.split
  have hbefore : (new.after ops).Sound := sound_new.after hops
  have hasked := hbefore.perform hmore.1
  have hafter : (new.after (ops ++ .numberLiteral a.text :: more)).Sound := sound_new.after h
  have hkept : Kept first.2 later := by
    have := hasked.kept_after hmore.2
    rwa [show later = _ from congrArg InUse.table (after_append new ops _)]
  have hstored : first.2.dataOf first.1 = .literal (.number (canonical a.text)) :=
    dataOf_of_getElem? (hbefore.indexed.getElem?_intern _)
  have hsame := hbefore.indexed.intern_eq_iff hafter.indexed
    (.literal (.number (canonical a.text))) (.literal (.number (canonical b.text)))
    rfl rfl rfl rfl hkept
  refine ⟨?_, ?_, hsame.trans ?_⟩
  · rw [hstored, a.canonical_eq]
  · rw [a.canonical_eq]
    exact a.written_eq_value_iff
  · rw [a.canonical_eq, b.canonical_eq, ← a.written_eq_iff b]
    simp [eq_comm]

/-- The last number up to which the format holds all, with separators. -/
def InUse.separated : ExactNumeral where
  text := "9_007_199_254_740_992"
  value := 9007199254740992
  spelled := by
    have hdigits := Spelling.decimal "9007199254740992".toList (by decide +kernel)
      (Text.forall_mem_of_all (by decide +kernel))
    have hvalue : digitsValue "9007199254740992".toList = 9007199254740992 := by
      decide +kernel
    have hplain : "9_007_199_254_740_992".toList.filter (· ≠ '_') =
        "9007199254740992".toList := by decide +kernel
    rwa [hplain, ← hvalue]
  exact := ⟨⟨1, 53⟩, ⟨by decide, by decide⟩, by decide +kernel⟩
  small := by decide

/-- The same number behind the hexadecimal mark. -/
def InUse.marked : ExactNumeral :=
  .hexadecimal separated.value separated.exact (by decide)

/-- Both numerals have one index, also with another literal between them. -/
theorem InUse.exact_numerals_shared :
    new.Allows ([] ++ .numberLiteral separated.text :: [.stringLiteral "a"]) ∧
    (numberLiteral marked.text
      (new.after ([] ++ .numberLiteral separated.text :: [.stringLiteral "a"])).table).1 = 12 := by
  have hallows : new.Allows ([] ++ .numberLiteral separated.text :: [.stringLiteral "a"]) := by
    decide +kernel
  have hfirst : (numberLiteral separated.text (new.after []).table).1 = 12 := by decide +kernel
  obtain ⟨-, -, hsame⟩ := exact_numerals [] [.stringLiteral "a"] separated marked hallows
  exact ⟨hallows, (hsame.2 (.inl rfl)).trans hfirst⟩

end TypeTable

end ScriptAnalysis
