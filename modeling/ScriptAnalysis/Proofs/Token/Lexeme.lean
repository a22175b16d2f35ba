import Mathlib.Data.List.TakeWhile
import ScriptAnalysis.Proofs.Token.Gap

/-!
# One token by itself

What `lexeme` recognises at the front of a text is a word of the text, and
the word decides what is recognised: without what follows it in the text it
is read the same.

**Scope.** This is about the four sorts of tokens one after the other. What
a sort looks at beyond its word (a digit after a point, the digits of an
exponent, four characters after a backslash, the character after a mark) is
where the word could depend on what follows.

**Results.**
* `exists_quoted_body`: the body of a string literal, closed or not.
* `numeral_numeral`: a numeral is its own numeral.
* `mark?_text`: a mark that is found in a text is found in its own spelling.
* `exists_tail`: what is recognised, for every first character.
-/
namespace ScriptAnalysis.Lexer

open Text

/-! ## Strings -/

theorem size_one_of_le {c : Char} (h : c.toNat ≤ 127) : c.utf8Size = 1 := by
  unfold Char.utf8Size
  rw [if_pos]
  exact UInt32.le_iff_toNat_le.2 h

theorem isHexDigit_size {c : Char} (h : isHexDigit c = true) : c.utf8Size = 1 := by
  refine size_one_of_le ?_
  simp only [isHexDigit, Char.isDigit, Bool.or_eq_true, Bool.and_eq_true, decide_eq_true_eq,
    Char.le_def, UInt32.le_iff_toNat_le] at h
  rcases h with (⟨-, h⟩ | ⟨-, h⟩) | ⟨-, h⟩ <;> exact Nat.le_trans h (by decide)

theorem unicodeEscape?_size {a b c d u : Char} (h : unicodeEscape? a b c d = some u) :
    size [a, b, c, d] = 4 := by
  unfold unicodeEscape? at h
  split at h
  · rename_i hdigits
    simp only [Bool.and_eq_true, Bool.or_eq_true, beq_iff_eq] at hdigits
    obtain ⟨⟨⟨ha, hb⟩, hc⟩, hd⟩ := hdigits
    have ha : a.utf8Size = 1 := by
      rcases ha with ha | rfl
      · exact isHexDigit_size ha
      · decide
    show a.utf8Size + (b.utf8Size + (c.utf8Size + (d.utf8Size + 0))) = 4
    rw [ha, isHexDigit_size hb, isHexDigit_size hc, isHexDigit_size hd]
  · cases h

/-- A character that starts no escape. -/
theorem quoted_cons {quote c : Char} (hc : c ≠ '\\') (cs : List Char) :
    quoted quote (c :: cs) =
      if c = quote then ⟨[], 1, cs, true⟩
      else if c = '\n' ∨ c = '\r' then ⟨[], 0, c :: cs, false⟩
      else (quoted quote cs).after [c] c.utf8Size := by
  rw [quoted] <;> intros <;> contradiction

/-- An escape of one character. -/
theorem quoted_escape {quote c : Char} {cs : List Char}
    (hu : ∀ a b x d rest, c = 'u' → cs ≠ a :: b :: x :: d :: rest)
    (hr : ∀ rest, c = '\r' → cs ≠ '\n' :: rest) :
    quoted quote ('\\' :: c :: cs) =
      if c = '\n' ∨ c = '\r' then (quoted quote cs).after [] 2
      else (quoted quote cs).after [escaped c] (1 + c.utf8Size) := by
  rw [quoted]
  · intro a b x d rest hc hcs
    exact hu a b x d rest hc hcs
  · intro rest hc hcs
    exact hr rest hc hcs

/-- The body of a string literal, its closing quote included, is what is read
of the text; without what follows it is read the same. -/
structure IsBody (quote : Char) (cs body : List Char) : Prop where
  text : cs = body ++ (quoted quote cs).rest
  width : (quoted quote cs).width = size body
  alone : quoted quote body = { quoted quote cs with rest := [] }

/-- An escape without a number stands for the letter after the backslash. -/
theorem quoted_letter_u {quote : Char} {cs : List Char}
    (h : ∀ a b c d rest, cs = a :: b :: c :: d :: rest → unicodeEscape? a b c d = none) :
    quoted quote ('\\' :: 'u' :: cs) = (quoted quote cs).after ['u'] 2 := by
  by_cases hlong : ∃ a b c d rest, cs = a :: b :: c :: d :: rest
  · obtain ⟨a, b, c, d, rest, rfl⟩ := hlong
    rw [quoted, h a b c d rest rfl]
  · rw [quoted_escape (fun a b c d rest _ hcs => hlong ⟨a, b, c, d, rest, hcs⟩) (by simp)]
    rfl

/-- The characters `read` stand for `meant`, whatever follows them. -/
theorem IsBody.after {quote : Char} {cs body : List Char} (h : IsBody quote cs body)
    (read meant : List Char) (n : Nat) (hn : n = size read)
    (hcs : quoted quote (read ++ cs) = (quoted quote cs).after meant n)
    (hbody : quoted quote (read ++ body) = (quoted quote body).after meant n) :
    IsBody quote (read ++ cs) (read ++ body) where
  text := by
    rw [hcs, List.append_assoc]
    exact congrArg (read ++ ·) h.text
  width := by
    rw [hcs, size_append, ← h.width, ← hn]
    rfl
  alone := by
    rw [hbody, hcs, h.alone]
    rfl

theorem IsBody.front {quote : Char} {cs body : List Char} (h : IsBody quote cs body) :
    ∃ rest, body ++ rest = cs :=
  ⟨_, h.text.symm⟩

/-- What starts no escape of more characters still starts none in a text
that is cut off. -/
theorem IsBody.escape {quote c : Char} {cs body : List Char} (h : IsBody quote cs body)
    (hu : ∀ a b x d rest, c = 'u' → cs ≠ a :: b :: x :: d :: rest)
    (hr : ∀ rest, c = '\r' → cs ≠ '\n' :: rest) :
    IsBody quote ('\\' :: c :: cs) ('\\' :: c :: body) := by
  obtain ⟨tail, htail⟩ := h.front
  have hcs : quoted quote ('\\' :: c :: cs) = _ := quoted_escape hu hr
  have hbody : quoted quote ('\\' :: c :: body) = _ := quoted_escape
    (fun a b x d rest hc hcut => hu a b x d (rest ++ tail) hc (by rw [← htail, hcut]; rfl))
    (fun rest hc hcut => hr (rest ++ tail) hc (by rw [← htail, hcut]; rfl))
  by_cases hbreak : c = '\n' ∨ c = '\r'
  · rw [if_pos hbreak] at hcs hbody
    have hsize : 2 = size ['\\', c] := by rcases hbreak with rfl | rfl <;> rfl
    exact h.after ['\\', c] [] 2 hsize hcs hbody
  · rw [if_neg hbreak] at hcs hbody
    exact h.after ['\\', c] [escaped c] (1 + c.utf8Size) rfl hcs hbody

theorem exists_quoted_body {quote : Char} (hquote : quote = '"' ∨ quote = '\'')
    (cs : List Char) : ∃ body, IsBody quote cs body := by
  have hescape : '\\' ≠ quote := by rcases hquote with rfl | rfl <;> decide
  fun_induction quoted quote cs with
  | case1 => exact ⟨[], rfl, rfl, rfl⟩
  | case2 => exact ⟨['\\'], rfl, rfl, rfl⟩
  | case3 a b c d cs u hu ih =>
    obtain ⟨body, hbody⟩ := ih
    have hsize : 6 = size ['\\', 'u', a, b, c, d] := by
      show 6 = 1 + (1 + size [a, b, c, d])
      rw [unicodeEscape?_size hu]
    exact ⟨_, hbody.after ['\\', 'u', a, b, c, d] [u] 6 hsize (by simp [quoted, hu])
      (by simp [quoted, hu])⟩
  | case4 a b c d cs hnone ih =>
    obtain ⟨body, hbody⟩ := ih
    refine ⟨_, hbody.after ['\\', 'u'] ['u'] 2 rfl ?_ ?_⟩
    · refine quoted_letter_u ?_
      rintro _ _ _ _ _ ⟨⟩
      exact hnone
    · refine quoted_letter_u ?_
      rintro a' b' c' d' rest rfl
      obtain ⟨tail, htail⟩ := hbody.front
      cases htail
      exact hnone
  | case5 cs ih =>
    obtain ⟨body, hbody⟩ := ih
    exact ⟨_, hbody.after ['\\', '\r', '\n'] [] 3 rfl (by rw [← quoted]; rfl)
      (by rw [← quoted]; rfl)⟩
  | case6 c cs hu hr hbreak ih =>
    obtain ⟨body, hbody⟩ := ih
    exact ⟨_, hbody.escape hu hr⟩
  | case7 c cs hu hr hbreak ih =>
    obtain ⟨body, hbody⟩ := ih
    exact ⟨_, hbody.escape hu hr⟩
  | case8 cs _ _ _ _ =>
    have hread (rest : List Char) : quoted quote (quote :: rest) = ⟨[], 1, rest, true⟩ := by
      rw [quoted_cons hescape.symm, if_pos rfl]
    refine ⟨[quote], ?_, ?_, ?_⟩
    · rw [hread]
      rfl
    · rw [hread]
      rcases hquote with rfl | rfl <;> rfl
    · rw [hread, hread]
  | case9 c cs _ _ _ hplain hquote' hbreak =>
    have hc : c ≠ '\\' := by rcases hbreak with rfl | rfl <;> decide
    have hread : quoted quote (c :: cs) = ⟨[], 0, c :: cs, false⟩ := by
      rw [quoted_cons hc, if_neg hquote', if_pos hbreak]
    refine ⟨[], ?_, ?_, ?_⟩
    · rw [hread]
      rfl
    · rw [hread]
      rfl
    · rw [hread]
      rfl
  | case10 c cs hlast _ _ hlong hquote' hbreak ih =>
    obtain ⟨body, hbody⟩ := ih
    have hc : c ≠ '\\' := by
      intro hc
      cases cs with
      | nil => exact hlast hc rfl
      | cons c' cs => exact hlong c' cs hc rfl
    have hread (rest : List Char) :
        quoted quote (c :: rest) = (quoted quote rest).after [c] c.utf8Size := by
      rw [quoted_cons hc, if_neg hquote', if_neg hbreak]
    exact ⟨_, hbody.after [c] [c] c.utf8Size rfl (hread cs) (hread body)⟩

/-! ## Numbers -/

theorem takeWhile_append_stop {p : Char → Bool} {a b : List Char} (ha : ∀ c ∈ a, p c = true)
    (hb : ∀ c ∈ b.head?, p c = false) : (a ++ b).takeWhile p = a := by
  rw [List.takeWhile_append_of_pos ha]
  cases b with
  | nil => simp
  | cons c b => simp [hb c (by simp)]

theorem exponent_digits {e digit : Char} {sign : List Char} (he : e = 'e' ∨ e = 'E')
    (hsign : sign = [] ∨ sign = ['+'] ∨ sign = ['-']) (hdigit : digit.isDigit = true)
    (rest : List Char) :
    exponent (e :: (sign ++ digit :: rest)) =
      e :: (sign ++ digit :: rest.takeWhile isDigitOrUnderscore) := by
  have hwide : isDigitOrUnderscore digit = true := by simp [isDigitOrUnderscore, hdigit]
  rcases hsign with rfl | rfl | rfl
  · have hplus : digit ≠ '+' := by rintro rfl; exact absurd hdigit (by decide)
    have hminus : digit ≠ '-' := by rintro rfl; exact absurd hdigit (by decide)
    simp [exponent, he, hdigit, hwide, hplus, hminus]
  · simp [exponent, he, hdigit, hwide]
  · simp [exponent, he, hdigit, hwide]

theorem exists_digit {cs : List Char} (h : cs.head?.any Char.isDigit = true) :
    ∃ digit rest, cs = digit :: rest ∧ digit.isDigit = true := by
  cases cs with
  | nil => cases h
  | cons digit rest => exact ⟨digit, rest, rfl, h⟩

/-- There is an exponent where a mark, perhaps a sign, and a digit stand. -/
theorem exponent_cases (cs : List Char) :
    exponent cs = [] ∨ ∃ e sign digit rest, (e = 'e' ∨ e = 'E') ∧
      (sign = [] ∨ sign = ['+'] ∨ sign = ['-']) ∧ digit.isDigit = true ∧
      cs = e :: (sign ++ digit :: rest) := by
  cases cs with
  | nil => exact .inl rfl
  | cons c cs =>
    by_cases he : c = 'e' ∨ c = 'E'
    · have htail (sign tail e' : List Char) (hsign : sign = [] ∨ sign = ['+'] ∨ sign = ['-'])
          (hcs : cs = sign ++ tail) :
          (if tail.head?.any Char.isDigit then e' else []) = [] ∨ ∃ e sign digit rest,
            (e = 'e' ∨ e = 'E') ∧ (sign = [] ∨ sign = ['+'] ∨ sign = ['-']) ∧
            digit.isDigit = true ∧ c :: cs = e :: (sign ++ digit :: rest) := by
        split
        · rename_i hdigits
          obtain ⟨digit, rest, rfl, hdigit⟩ := exists_digit hdigits
          exact .inr ⟨c, sign, digit, rest, he, hsign, hdigit, by rw [hcs]⟩
        · exact .inl rfl
      unfold exponent
      dsimp only
      rw [if_pos he]
      split
      · exact htail ['+'] _ _ (.inr (.inl rfl)) rfl
      · exact htail ['-'] _ _ (.inr (.inr rfl)) rfl
      · exact htail [] _ _ (.inl rfl) rfl
    · exact .inl (by simp [exponent, he])

theorem head_exponent (cs : List Char) : ∀ c ∈ (exponent cs).head?, c = 'e' ∨ c = 'E' := by
  rcases exponent_cases cs with hcs | ⟨e, sign, digit, rest, he, hsign, hdigit, rfl⟩
  · rw [hcs]
    rintro c ⟨⟩
  · rw [exponent_digits he hsign hdigit]
    rintro c ⟨⟩
    exact he

theorem exponent_exponent (cs : List Char) : exponent (exponent cs) = exponent cs := by
  rcases exponent_cases cs with hcs | ⟨e, sign, digit, rest, he, hsign, hdigit, rfl⟩
  · rw [hcs]
    rfl
  · rw [exponent_digits he hsign hdigit, exponent_digits he hsign hdigit, List.takeWhile_idem]

theorem exists_exponent_rest (cs : List Char) : ∃ rest, exponent cs ++ rest = cs := by
  rcases exponent_cases cs with hcs | ⟨e, sign, digit, rest, he, hsign, hdigit, rfl⟩
  · exact ⟨cs, by rw [hcs]; rfl⟩
  · rw [exponent_digits he hsign hdigit]
    refine ⟨rest.dropWhile isDigitOrUnderscore, ?_⟩
    rw [List.cons_append, List.append_assoc, List.cons_append, List.takeWhile_append_dropWhile]

/-- A point and digits, or nothing. -/
def IsFraction (p : List Char) : Prop :=
  p = [] ∨ ∃ digits, p = '.' :: digits ∧ ∀ c ∈ digits, isDigitOrUnderscore c = true

theorem exists_fraction (cs : List Char) :
    ∃ rest, fraction cs ++ rest = cs ∧ IsFraction (fraction cs) := by
  unfold fraction
  split
  · rename_i cs
    refine ⟨cs.dropWhile isDigitOrUnderscore, ?_, .inr ⟨_, rfl, fun c => List.mem_takeWhile_imp⟩⟩
    rw [List.cons_append, List.takeWhile_append_dropWhile]
  · exact ⟨cs, rfl, .inl rfl⟩

theorem head_exponent_stop (cs : List Char) :
    ∀ c ∈ (exponent cs).head?, isDigitOrUnderscore c = false := by
  intro c hc
  rcases head_exponent cs c hc with rfl | rfl <;> decide

theorem fraction_append_exponent {p : List Char} (hp : IsFraction p) (cs : List Char) :
    fraction (p ++ exponent cs) = p := by
  have hstop := head_exponent_stop cs
  rcases hp with rfl | ⟨digits, rfl, hdigits⟩
  · rcases exponent_cases cs with hcs | ⟨e, sign, digit, rest, he, hsign, hdigit, rfl⟩
    · rw [hcs]
      rfl
    · rw [exponent_digits he hsign hdigit]
      rcases he with rfl | rfl <;> rfl
  · show '.' :: (digits ++ exponent cs).takeWhile isDigitOrUnderscore = _
    rw [takeWhile_append_stop hdigits hstop]

theorem decimal_parts {digits p : List Char} (hdigits : ∀ c ∈ digits, isDigitOrUnderscore c = true)
    (hp : IsFraction p) (cs : List Char) :
    decimal (digits ++ (p ++ exponent cs)) = digits ++ p ++ exponent cs := by
  have hstop : ∀ c ∈ (p ++ exponent cs).head?, isDigitOrUnderscore c = false := by
    rcases hp with rfl | ⟨places, rfl, _⟩
    · exact head_exponent_stop cs
    · rintro c ⟨⟩
      decide
  have hplaces : (digits ++ (p ++ exponent cs)).drop (digits.length + p.length) = exponent cs := by
    rw [← List.append_assoc, ← List.length_append, List.drop_left]
  unfold decimal
  dsimp only
  rw [takeWhile_append_stop hdigits hstop, List.drop_left, fraction_append_exponent hp, hplaces,
    exponent_exponent]

/-- A decimal numeral and its three parts. -/
theorem decimal_cases (cs : List Char) : ∃ digits p tail rest,
    (∀ c ∈ digits, isDigitOrUnderscore c = true) ∧ IsFraction p ∧
      decimal cs = digits ++ p ++ exponent tail ∧ cs = digits ++ p ++ exponent tail ++ rest := by
  obtain ⟨digits, hdigits⟩ : ∃ digits, digits = cs.takeWhile isDigitOrUnderscore := ⟨_, rfl⟩
  obtain ⟨after, hafter⟩ : ∃ after, digits ++ after = cs := by
    rw [hdigits]
    exact List.takeWhile_prefix isDigitOrUnderscore
  obtain ⟨tail, htail, hp⟩ := exists_fraction after
  obtain ⟨rest, hrest⟩ := exists_exponent_rest tail
  have hcs : cs = digits ++ fraction after ++ tail := by rw [← hafter, List.append_assoc, htail]
  refine ⟨digits, fraction after, tail, rest, ?_, hp, ?_, ?_⟩
  · rw [hdigits]
    exact fun c => List.mem_takeWhile_imp
  · have hdrop : cs.drop (digits.length + (fraction after).length) = tail := by
      rw [hcs, ← List.length_append, List.drop_left]
    have hdrop' : cs.drop digits.length = after := by rw [← hafter, List.drop_left]
    unfold decimal
    dsimp only
    rw [← hdigits, hdrop', hdrop]
  · rw [hcs, List.append_assoc _ _ rest, hrest]

theorem decimal_decimal (cs : List Char) : decimal (decimal cs) = decimal cs := by
  obtain ⟨digits, p, tail, rest, hdigits, hp, hdecimal, -⟩ := decimal_cases cs
  rw [hdecimal, List.append_assoc, decimal_parts hdigits hp, List.append_assoc]

theorem exists_decimal_rest (cs : List Char) : ∃ rest, decimal cs ++ rest = cs := by
  obtain ⟨digits, p, tail, rest, -, -, hdecimal, hcs⟩ := decimal_cases cs
  exact ⟨rest, by rw [hdecimal, ← hcs]⟩

theorem numeral_eq_decimal {cs : List Char}
    (h : ∀ x rest, cs = '0' :: x :: rest → ¬(x = 'x' ∨ x = 'X')) : numeral cs = decimal cs := by
  unfold numeral
  split
  · rename_i x rest
    rw [if_neg (h x rest rfl)]
  · rfl

theorem numeral_hex {x : Char} (hx : x = 'x' ∨ x = 'X') (cs : List Char) :
    numeral ('0' :: x :: cs) = '0' :: x :: cs.takeWhile isHexDigit := by
  rw [numeral, if_pos hx]

/-- A numeral is hexadecimal or decimal, and a part of it says which. -/
theorem numeral_cases (cs : List Char) :
    (∃ x rest, cs = '0' :: x :: rest ∧ (x = 'x' ∨ x = 'X')) ∨
      ∀ x rest, cs = '0' :: x :: rest → ¬(x = 'x' ∨ x = 'X') := by
  by_cases h : ∃ x rest, cs = '0' :: x :: rest ∧ (x = 'x' ∨ x = 'X')
  · exact .inl h
  · exact .inr fun x rest hcs hx => h ⟨x, rest, hcs, hx⟩

theorem exists_numeral_rest (cs : List Char) : ∃ rest, numeral cs ++ rest = cs := by
  rcases numeral_cases cs with ⟨x, rest, rfl, hx⟩ | hcs
  · rw [numeral_hex hx]
    exact ⟨rest.dropWhile isHexDigit, by simp⟩
  · rw [numeral_eq_decimal hcs]
    exact exists_decimal_rest cs

theorem numeral_numeral (cs : List Char) : numeral (numeral cs) = numeral cs := by
  rcases numeral_cases cs with ⟨x, rest, rfl, hx⟩ | hcs
  · rw [numeral_hex hx, numeral_hex hx, List.takeWhile_idem]
  · obtain ⟨rest, hrest⟩ := exists_decimal_rest cs
    have hpart : ∀ x tail, decimal cs = '0' :: x :: tail → ¬(x = 'x' ∨ x = 'X') := by
      intro x tail htail
      exact hcs x (tail ++ rest) (by rw [← hrest, htail]; rfl)
    rw [numeral_eq_decimal hcs, numeral_eq_decimal hpart, decimal_decimal]

theorem startsNumber_iff (c : Char) (cs : List Char) : startsNumber (c :: cs) = true ↔
    c.isDigit = true ∨ c = '.' ∧ cs.head?.any Char.isDigit = true := by
  have hpoint : ('.').isDigit = false := by decide
  unfold startsNumber
  split
  · rename_i heq
    cases heq
    simp [hpoint]
  · rename_i hcs heq
    cases heq
    constructor
    · exact .inl
    · rintro (hc | ⟨rfl, hc⟩)
      · exact hc
      · obtain ⟨digit, rest, rfl, -⟩ := exists_digit hc
        exact (hcs digit rest rfl rfl).elim
  · rename_i heq
    cases heq

/-- What starts a number starts its numeral. -/
theorem exists_numeral_tail {c : Char} {cs : List Char} (h : startsNumber (c :: cs) = true) :
    ∃ tail, numeral (c :: cs) = c :: tail ∧ startsNumber (c :: tail) = true := by
  rcases (startsNumber_iff c cs).1 h with hc | ⟨rfl, hcs⟩
  · have hwide : isDigitOrUnderscore c = true := by simp [isDigitOrUnderscore, hc]
    obtain ⟨tail, htail⟩ : ∃ tail, numeral (c :: cs) = c :: tail := by
      rcases numeral_cases (c :: cs) with ⟨x, rest, hcs, hx⟩ | hcs
      · cases hcs
        exact ⟨_, numeral_hex hx rest⟩
      · rw [numeral_eq_decimal hcs]
        exact ⟨_, by simp [decimal, hwide]; rfl⟩
    exact ⟨tail, htail, (startsNumber_iff c tail).2 (.inl hc)⟩
  · obtain ⟨digit, rest, rfl, hdigit⟩ := exists_digit hcs
    have hwide : isDigitOrUnderscore digit = true := by simp [isDigitOrUnderscore, hdigit]
    have hpoint : isDigitOrUnderscore '.' = false := by decide
    obtain ⟨tail, htail⟩ : ∃ tail, numeral ('.' :: digit :: rest) = '.' :: digit :: tail := by
      rw [numeral_eq_decimal (by rintro x tail ⟨⟩)]
      exact ⟨_, by simp [decimal, fraction, hwide, hpoint]; rfl⟩
    exact ⟨_, htail, (startsNumber_iff _ _).2 (.inr ⟨rfl, hdigit⟩)⟩

theorem startsNumber_append {c : Char} {cs : List Char} (rest : List Char)
    (h : startsNumber (c :: cs) = true) : startsNumber (c :: (cs ++ rest)) = true := by
  rw [startsNumber_iff] at h ⊢
  refine h.imp_right (And.imp_right fun hcs => ?_)
  obtain ⟨digit, tail, rfl, hdigit⟩ := exists_digit hcs
  exact hdigit

/-! ## Words and marks -/

theorem drop_length_takeWhile (p : Char → Bool) (cs : List Char) :
    cs.drop (cs.takeWhile p).length = cs.dropWhile p := by
  induction cs with
  | nil => rfl
  | cons c cs ih =>
    by_cases hc : p c = true
    · rw [List.takeWhile_cons_of_pos hc, List.dropWhile_cons_of_pos hc]
      exact ih
    · rw [List.takeWhile_cons_of_neg hc, List.dropWhile_cons_of_neg hc]
      rfl

/-- A word is a keyword or an identifier. -/
theorem isWord_wordToken (word : List Char) : (wordToken word).1.isWord = true := by
  have hkeywords : ∀ k ∈ TokenKind.reservedWords ++ TokenKind.contextualWords, k.isWord = true := by decide
  unfold wordToken
  split
  · rename_i k hk
    exact hkeywords k (List.mem_of_find?_eq_some hk)
  · rfl

theorem wordToken_ne (word : List Char) {k : TokenKind} (hk : k.isWord = false) :
    (wordToken word).1 ≠ k := by
  rintro rfl
  exact absurd ((isWord_wordToken word).symm.trans hk) (by decide)

theorem mark_text_size {k : TokenKind} (hk : k ∈ TokenKind.marks) :
    k ≠ .endOfFile ∧ k.text.toList ≠ [] ∧ k.text.length = size k.text.toList ∧
      k.text.length = k.text.toList.length := by
  revert k
  decide

/-- A mark that is found in a text is found in its own spelling. -/
theorem mark?_text {cs : List Char} {k : TokenKind} (h : mark? cs = some k) :
    mark? k.text.toList = some k := by
  unfold mark? at h ⊢
  obtain ⟨hk, earlier, later, hmarks, hearlier⟩ := List.find?_eq_some_iff_append.1 h
  have hfront := List.isPrefixOf_iff_prefix.1 hk
  refine List.find?_eq_some_iff_append.2
    ⟨List.isPrefixOf_iff_prefix.2 (List.prefix_refl _), earlier, later, hmarks, fun j hj => ?_⟩
  have hj := hearlier j hj
  rw [Bool.not_eq_true', ← Bool.not_eq_true, List.isPrefixOf_iff_prefix] at hj ⊢
  exact fun hspelling => hj (hspelling.trans hfront)

/-- No mark in a text, no mark in the front of it. -/
theorem mark?_front {cs : List Char} (rest : List Char) (h : mark? (cs ++ rest) = none) :
    mark? cs = none := by
  unfold mark? at h ⊢
  rw [List.find?_eq_none] at h ⊢
  intro k hk hfront
  refine h k hk ?_
  rw [List.isPrefixOf_iff_prefix] at hfront ⊢
  exact hfront.trans (List.prefix_append cs rest)

/-! ## One token -/

/-- The word `c :: tail` of the text is what is recognised, and without what
follows it is recognised as the same. -/
structure IsWord (c : Char) (cs tail : List Char) : Prop where
  text : cs = tail ++ (lexeme c cs).rest
  width : (lexeme c cs).width = size (c :: tail)
  kind : (lexeme c cs).kind ≠ .endOfFile
  alone : lexeme c tail = { lexeme c cs with rest := [] }

theorem exists_string_tail {c : Char} (hc : c = '"' ∨ c = '\'') (cs : List Char) :
    ∃ tail, IsWord c cs tail := by
  obtain ⟨body, hbody⟩ := exists_quoted_body hc cs
  have hlexeme (cs : List Char) : lexeme c cs = ⟨.string, some (String.ofList (quoted c cs).value),
      1 + (quoted c cs).width, (quoted c cs).rest,
      if (quoted c cs).closed then none else some .unterminatedString⟩ := by
    rw [lexeme, if_pos hc]
  have hsize : c.utf8Size = 1 := by rcases hc with rfl | rfl <;> rfl
  refine ⟨body, ?_, ?_, ?_, ?_⟩
  · rw [hlexeme]
    exact hbody.text
  · rw [hlexeme, size_cons, hsize, ← hbody.width]
  · rw [hlexeme]
    exact TokenKind.noConfusion
  · rw [hlexeme, hlexeme, hbody.alone]

theorem exists_number_tail {c : Char} {cs : List Char} (hc : ¬(c = '"' ∨ c = '\''))
    (h : startsNumber (c :: cs) = true) : ∃ tail, IsWord c cs tail := by
  have hlexeme (cs : List Char) (h : startsNumber (c :: cs) = true) : lexeme c cs =
      ⟨.number, some (String.ofList ((numeral (c :: cs)).filter (· ≠ '_'))),
        size (numeral (c :: cs)), (c :: cs).drop (numeral (c :: cs)).length, none⟩ := by
    rw [lexeme, if_neg hc, if_pos h]
  obtain ⟨tail, htail, hstarts⟩ := exists_numeral_tail h
  obtain ⟨rest, hrest⟩ := exists_numeral_rest (c :: cs)
  have halone : numeral (c :: tail) = c :: tail := by rw [← htail, numeral_numeral]
  rw [htail] at hrest
  refine ⟨tail, ?_, ?_, ?_, ?_⟩
  · rw [hlexeme cs h, htail, ← hrest, List.drop_left]
    exact (List.cons.inj hrest).2.symm
  · rw [hlexeme cs h, htail]
  · rw [hlexeme cs h]
    exact TokenKind.noConfusion
  · rw [hlexeme cs h, hlexeme tail hstarts, htail, halone, List.drop_length]

theorem exists_name_tail {c : Char} {cs : List Char} (hc : ¬(c = '"' ∨ c = '\''))
    (hnumber : ¬startsNumber (c :: cs) = true) (h : isNameStart c = true) :
    ∃ tail, IsWord c cs tail := by
  have hpart : isNamePart c = true := by
    unfold isNameStart at h
    simp [isNamePart, h]
  have hlexeme (cs : List Char) (hnumber : ¬startsNumber (c :: cs) = true) : lexeme c cs =
      ⟨(wordToken (c :: cs.takeWhile isNamePart)).1, (wordToken (c :: cs.takeWhile isNamePart)).2,
        size (c :: cs.takeWhile isNamePart), cs.dropWhile isNamePart, none⟩ := by
    rw [lexeme, if_neg hc, if_neg hnumber, if_pos h, ← drop_length_takeWhile]
    simp only [List.takeWhile_cons_of_pos hpart, List.length_cons, List.drop_succ_cons]
  have hfront := List.takeWhile_append_dropWhile (p := isNamePart) (l := cs)
  have hnumber' : ¬startsNumber (c :: cs.takeWhile isNamePart) = true := fun hstarts =>
    hnumber (by rw [← hfront]; exact startsNumber_append _ hstarts)
  refine ⟨cs.takeWhile isNamePart, ?_, ?_, ?_, ?_⟩
  · rw [hlexeme cs hnumber]
    exact hfront.symm
  · rw [hlexeme cs hnumber]
  · rw [hlexeme cs hnumber]
    exact wordToken_ne _ rfl
  · have hrest : (cs.takeWhile isNamePart).dropWhile isNamePart = [] :=
      List.dropWhile_eq_nil_iff.2 fun c => List.mem_takeWhile_imp
    rw [hlexeme cs hnumber, hlexeme _ hnumber', List.takeWhile_idem, hrest]

theorem exists_mark_tail {c : Char} {cs : List Char} {k : TokenKind} (hc : ¬(c = '"' ∨ c = '\''))
    (hnumber : ¬startsNumber (c :: cs) = true) (hname : ¬isNameStart c = true)
    (h : mark? (c :: cs) = some k) : ∃ tail, IsWord c cs tail := by
  have hlexeme (cs : List Char) (hnumber : ¬startsNumber (c :: cs) = true)
      (h : mark? (c :: cs) = some k) : lexeme c cs =
      ⟨k, none, k.text.length, (c :: cs).drop k.text.length, none⟩ := by
    rw [lexeme, if_neg hc, if_neg hnumber, if_neg hname, h]
  obtain ⟨hk, hne, hsize, hlength⟩ := mark_text_size (List.mem_of_find?_eq_some h)
  obtain ⟨rest, hrest⟩ : k.text.toList <+: c :: cs := by
    have hfront := List.find?_some h
    exact List.isPrefixOf_iff_prefix.1 hfront
  obtain ⟨tail, htail⟩ : ∃ tail, k.text.toList = c :: tail := by
    cases hspelling : k.text.toList with
    | nil => exact absurd hspelling hne
    | cons c' tail =>
      rw [hspelling] at hrest
      exact ⟨tail, by rw [(List.cons.inj hrest).1]⟩
  have halone : mark? (c :: tail) = some k := by rw [← htail, mark?_text h]
  rw [htail] at hrest hsize hlength
  have hcs := (List.cons.inj hrest).2
  have hnumber' : ¬startsNumber (c :: tail) = true := fun hstarts =>
    hnumber (by rw [← hcs]; exact startsNumber_append _ hstarts)
  refine ⟨tail, ?_, ?_, ?_, ?_⟩
  · rw [hlexeme cs hnumber h, hlength, ← hrest, List.drop_left]
    exact hcs.symm
  · rw [hlexeme cs hnumber h]
    exact hsize
  · rw [hlexeme cs hnumber h]
    exact hk
  · rw [hlexeme cs hnumber h, hlexeme tail hnumber' halone, hlength, List.drop_length]

theorem exists_unknown_tail {c : Char} {cs : List Char} (hc : ¬(c = '"' ∨ c = '\''))
    (hnumber : ¬startsNumber (c :: cs) = true) (hname : ¬isNameStart c = true)
    (h : mark? (c :: cs) = none) : ∃ tail, IsWord c cs tail := by
  have hlexeme (cs : List Char) (hnumber : ¬startsNumber (c :: cs) = true)
      (h : mark? (c :: cs) = none) : lexeme c cs =
      ⟨.unknown, none, c.utf8Size, cs, some .invalidCharacter⟩ := by
    rw [lexeme, if_neg hc, if_neg hnumber, if_neg hname, h]
  have hnumber' : ¬startsNumber [c] = true := fun hstarts =>
    hnumber (startsNumber_append cs hstarts)
  have halone : mark? [c] = none := mark?_front cs h
  refine ⟨[], ?_, ?_, ?_, ?_⟩
  · rw [hlexeme cs hnumber h]
    rfl
  · rw [hlexeme cs hnumber h]
    rfl
  · rw [hlexeme cs hnumber h]
    exact TokenKind.noConfusion
  · rw [hlexeme cs hnumber h, hlexeme [] hnumber' halone]

/-- Whatever stands at the front of a text, a word of it is recognised. -/
theorem exists_tail (c : Char) (cs : List Char) : ∃ tail, IsWord c cs tail := by
  by_cases hc : c = '"' ∨ c = '\''
  · exact exists_string_tail hc cs
  · by_cases hnumber : startsNumber (c :: cs) = true
    · exact exists_number_tail hc hnumber
    · by_cases hname : isNameStart c = true
      · exact exists_name_tail hc hnumber hname
      · cases hmark : mark? (c :: cs) with
        | some k => exact exists_mark_tail hc hnumber hname hmark
        | none => exact exists_unknown_tail hc hnumber hname hmark

end ScriptAnalysis.Lexer
