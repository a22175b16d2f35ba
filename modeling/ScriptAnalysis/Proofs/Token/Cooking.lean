import ScriptAnalysis.Proofs.Token.Found

/-!
# What string literals stand for

The value of a string literal is its body with every escape replaced by what it means,
from left to right. `cookWith` does this to a body that stands by itself: it knows no
closing quote and no line break that ends a literal, and leaves open which four
characters behind `\u` are a number. With `codePoint?`, four hexadecimal digits, it is
`cook`, the grammar of escapes as it is meant. The scanner also takes a plus sign for the
first of the four (`signedCodePoint?`) and reads it as a zero.

**Specification.** `Signed` says where this shows, without reading the body: a backslash
with an even number of backslashes in front of it, and then `u+` and three digits.

**Results.**
* `exists_content`: a literal is cut into its body and its closing quote, and its value
  is the body cooked, by induction on the scanner's way through the literal.
* `cookWith_signed_eq_iff`: the sign matters in every body that has one.
* `scan_string`: what the string literals of a text stand for, and in which of them an
  escape is taken for a number that is none (`sign_for_digit`).
-/
namespace ScriptAnalysis.Lexer

open Text

/-! ## Escapes -/

/-- The value of a hexadecimal digit. -/
def digit? (c : Char) : Option Nat :=
  "0123456789abcdef".toList.idxOf? c <|> "0123456789ABCDEF".toList.idxOf? c

/-- The character whose number is written with four hexadecimal digits. -/
def codePoint? (a b c d : Char) : Option Char := do
  let n := 4096 * (← digit? a) + 256 * (← digit? b) + 16 * (← digit? c) + (← digit? d)
  if n.isValidChar then some (Char.ofNat n) else none

/-- The same, with a plus sign in the place of a first digit that is zero. -/
def signedCodePoint? (a b c d : Char) : Option Char :=
  codePoint? (if a = '+' then '0' else a) b c d

/-- What a single character behind a backslash stands for. -/
def meant (c : Char) : Char :=
  ([('n', '\n'), ('t', '\t'), ('r', '\r'), ('0', '\x00'), ('b', '\x08'), ('f', '\x0c'),
    ('v', '\x0b')].lookup c).getD c

/-- A body with its escapes replaced. `\u` and a number stand for a character, and
without a number for the letter; a line break goes with the backslash in front of it,
and so does the end of the body. -/
def cookWith (number? : Char → Char → Char → Char → Option Char) : List Char → List Char
  | [] => []
  | ['\\'] => []
  | '\\' :: 'u' :: a :: b :: c :: d :: cs =>
    match number? a b c d with
    | some u => u :: cookWith number? cs
    | none => 'u' :: cookWith number? (a :: b :: c :: d :: cs)
  | '\\' :: '\r' :: '\n' :: cs => cookWith number? cs
  | '\\' :: c :: cs =>
    if c = '\n' ∨ c = '\r' then cookWith number? cs else meant c :: cookWith number? cs
  | c :: cs => c :: cookWith number? cs

/-- A body with its escapes replaced, numbers being four hexadecimal digits. -/
def cook : List Char → List Char :=
  cookWith codePoint?

/-- How many backslashes stand at the end of a text. -/
def backslashes (cs : List Char) : Nat :=
  (cs.reverse.takeWhile (· == '\\')).length

/-- An escape with a sign in front of three digits. Its backslash is not itself
escaped. -/
def Signed (body : List Char) : Prop :=
  ∃ before a b c after, body = before ++ '\\' :: 'u' :: '+' :: a :: b :: c :: after ∧
    backslashes before % 2 = 0 ∧ (digit? a).isSome ∧ (digit? b).isSome ∧ (digit? c).isSome

example : cook "a\\'b\\nA\\u00e9\\uD800\\\r\nc".toList = "a'b\nA\u00e9uD800c".toList := by
  repeat rw [String.toList_ofList]
  decide +kernel

/-! ## Digits and numbers -/

theorem digit?_ascii : ∀ n : Fin 128, digit? (Char.ofNat n) =
    if isHexDigit (Char.ofNat n) then some (hexValue (Char.ofNat n)) else none := by
  decide +kernel

theorem toNat_le_of_isHexDigit {c : Char} (h : isHexDigit c = true) : c.toNat ≤ 127 := by
  simp only [isHexDigit, Char.isDigit, Bool.or_eq_true, Bool.and_eq_true, decide_eq_true_eq,
    Char.le_def, UInt32.le_iff_toNat_le] at h
  rcases h with (⟨-, h⟩ | ⟨-, h⟩) | ⟨-, h⟩ <;> exact Nat.le_trans h (by decide)

theorem digit?_eq (c : Char) : digit? c = if isHexDigit c then some (hexValue c) else none := by
  by_cases hc : c.toNat < 128
  · have hascii := digit?_ascii ⟨c.toNat, hc⟩
    rwa [Char.ofNat_toNat] at hascii
  · have hdigit : isHexDigit c = false :=
      Bool.eq_false_iff.2 fun h => hc (Nat.lt_succ_of_le (toNat_le_of_isHexDigit h))
    have hascii (digits : List Char) (h : digits.all (·.toNat < 128) = true) : c ∉ digits :=
      fun hmem => hc (of_decide_eq_true (List.all_eq_true.1 h c hmem))
    have hlower : c ∉ "0123456789abcdef".toList := hascii _ (by decide)
    have hupper : c ∉ "0123456789ABCDEF".toList := hascii _ (by decide)
    unfold digit?
    rw [hdigit, List.idxOf?_eq_none_iff.2 hlower, List.idxOf?_eq_none_iff.2 hupper]
    rfl

theorem isSome_digit? (c : Char) : (digit? c).isSome = isHexDigit c := by
  rw [digit?_eq]
  cases isHexDigit c <;> rfl

theorem ne_backslash_of_digit {c : Char} (h : isHexDigit c = true) : c ≠ '\\' := by
  rintro rfl
  exact absurd h (by decide)

/-- A number, if all four characters are digits. -/
theorem codePoint?_eq (a b c d : Char) : codePoint? a b c d =
    if isHexDigit a && isHexDigit b && isHexDigit c && isHexDigit d then
      scalar? (hexNumber [a, b, c, d]) else none := by
  have hnumber : hexNumber [a, b, c, d] =
      4096 * hexValue a + 256 * hexValue b + 16 * hexValue c + hexValue d := by
    simp only [hexNumber, List.foldl_cons, List.foldl_nil]
    omega
  have hscalar (n : Nat) : scalar? n = if n.isValidChar then some (Char.ofNat n) else none := by
    unfold scalar?
    by_cases h : n.isValidChar
    · rw [dif_pos h, if_pos h]
      exact congrArg some (dif_pos h).symm
    · rw [dif_neg h, if_neg h]
  simp only [codePoint?, digit?_eq]
  rw [hnumber, hscalar]
  cases isHexDigit a <;> cases isHexDigit b <;> cases isHexDigit c <;> cases isHexDigit d <;> rfl

/-- The scanner takes the numbers that may have a sign. -/
theorem unicodeEscape?_eq (a b c d : Char) : unicodeEscape? a b c d = signedCodePoint? a b c d := by
  unfold unicodeEscape? signedCodePoint?
  rw [codePoint?_eq]
  by_cases ha : a = '+'
  · subst ha
    rfl
  · rw [if_neg ha, beq_false_of_ne ha, Bool.or_false]

theorem hexValue_le (c : Char) : hexValue c ≤ 15 := by
  simp only [hexValue, Char.isDigit, Bool.and_eq_true, decide_eq_true_eq, Char.le_def,
    UInt32.le_iff_toNat_le, Char.toNat]
  split_ifs with h h h
  · have : c.val.toNat ≤ 57 := h.2
    omega
  · have : c.val.toNat ≤ 102 := h.2
    omega
  · have : c.val.toNat ≤ 70 := h.2
    omega
  · exact Nat.zero_le 15

/-- Three digits behind a zero are the number of a character. -/
theorem isSome_codePoint?_zero {b c d : Char} (hb : isHexDigit b = true)
    (hc : isHexDigit c = true) (hd : isHexDigit d = true) : (codePoint? '0' b c d).isSome := by
  have hvalid : (4096 * 0 + 256 * hexValue b + 16 * hexValue c + hexValue d).isValidChar := by
    have := hexValue_le b
    have := hexValue_le c
    have := hexValue_le d
    exact .inl (by omega)
  have hzero : digit? '0' = some 0 := by decide
  simp only [codePoint?, digit?_eq b, digit?_eq c, digit?_eq d, hb, hc, hd, hzero, if_true,
    Option.bind_eq_bind, Option.bind_some, if_pos hvalid, Option.isSome_some]

theorem codePoint?_plus (b c d : Char) : codePoint? '+' b c d = none := by
  rw [codePoint?_eq]
  rfl

/-- The four characters of a number, with or without a sign, start no escape. -/
theorem ne_backslash_of_signedCodePoint? {a b c d u : Char}
    (h : signedCodePoint? a b c d = some u) :
    (a ≠ '\\' ∧ b ≠ '\\' ∧ c ≠ '\\' ∧ d ≠ '\\') ∧
      isHexDigit b = true ∧ isHexDigit c = true ∧ isHexDigit d = true := by
  unfold signedCodePoint? at h
  rw [codePoint?_eq] at h
  have hdigits := (Option.ite_none_right_eq_some.1 h).1
  simp only [Bool.and_eq_true] at hdigits
  obtain ⟨⟨⟨ha, hb⟩, hc⟩, hd⟩ := hdigits
  refine ⟨⟨?_, ne_backslash_of_digit hb, ne_backslash_of_digit hc, ne_backslash_of_digit hd⟩,
    hb, hc, hd⟩
  rintro rfl
  exact absurd ha (by decide)

/-! ## One step of cooking -/

section

variable {number? : Char → Char → Char → Char → Option Char} {a b c d u : Char} {cs : List Char}

theorem cookWith_plain (hc : c ≠ '\\') (cs : List Char) :
    cookWith number? (c :: cs) = c :: cookWith number? cs := by
  rw [cookWith] <;> intros <;> contradiction

theorem cookWith_number (h : number? a b c d = some u) (cs : List Char) :
    cookWith number? ('\\' :: 'u' :: a :: b :: c :: d :: cs) = u :: cookWith number? cs := by
  rw [cookWith, h]

/-- An escape of one character. -/
theorem cookWith_escape (hu : ∀ a b x d rest, c = 'u' → cs ≠ a :: b :: x :: d :: rest)
    (hr : ∀ rest, c = '\r' → cs ≠ '\n' :: rest) : cookWith number? ('\\' :: c :: cs) =
      if c = '\n' ∨ c = '\r' then cookWith number? cs else meant c :: cookWith number? cs := by
  rw [cookWith]
  · intro a b x d rest hc hcs
    exact hu a b x d rest hc hcs
  · intro rest hc hcs
    exact hr rest hc hcs

/-- An escape without a number stands for the letter. -/
theorem cookWith_letter
    (h : ∀ a b c d rest, cs = a :: b :: c :: d :: rest → number? a b c d = none) :
    cookWith number? ('\\' :: 'u' :: cs) = 'u' :: cookWith number? cs := by
  by_cases hlong : ∃ a b c d rest, cs = a :: b :: c :: d :: rest
  · obtain ⟨a, b, c, d, rest, rfl⟩ := hlong
    rw [cookWith, h a b c d rest rfl]
  · rw [cookWith_escape (fun a b c d rest _ hcs => hlong ⟨a, b, c, d, rest, hcs⟩) (by simp)]
    rfl

end

/-! ## The body of a literal -/

theorem escaped_eq (c : Char) : escaped c = meant c := by
  unfold escaped meant
  split
  · rfl
  · rfl
  · rfl
  · rfl
  · rfl
  · rfl
  · rfl
  · rename_i hn ht hr h0 hb hf hv
    have hnone : ∀ p ∈ [('n', '\n'), ('t', '\t'), ('r', '\r'), ('0', '\x00'), ('b', '\x08'),
        ('f', '\x0c'), ('v', '\x0b')], (c != p.1) = true := by
      simp only [List.forall_mem_cons, bne_iff_ne]
      exact ⟨hn, ht, hr, h0, hb, hf, hv, by simp⟩
    rw [List.lookup_eq_none_iff.2 hnone]
    rfl

/-- The quote behind the body, if there is one. -/
def Quoted.closing (quote : Char) (q : Quoted) : List Char :=
  if q.closed then [quote] else []

/-- A literal is read as the body and the quote that closes it, and its value is the body
cooked. -/
structure Content (quote : Char) (cs body : List Char) : Prop where
  text : cs = body ++ ((quoted quote cs).closing quote ++ (quoted quote cs).rest)
  value : (quoted quote cs).value = cookWith signedCodePoint? body

/-- The characters `read` stand for `meaning`, whatever follows them. -/
theorem Content.after {quote : Char} {cs body : List Char} (h : Content quote cs body)
    (read meaning : List Char) (n : Nat)
    (hcs : quoted quote (read ++ cs) = (quoted quote cs).after meaning n)
    (hbody : cookWith signedCodePoint? (read ++ body) =
      meaning ++ cookWith signedCodePoint? body) :
    Content quote (read ++ cs) (read ++ body) where
  text := by
    rw [hcs, List.append_assoc]
    exact congrArg (read ++ ·) h.text
  value := by
    rw [hcs, hbody, ← h.value]
    rfl

theorem Content.front {quote : Char} {cs body : List Char} (h : Content quote cs body) :
    ∃ rest, body ++ rest = cs :=
  ⟨_, h.text.symm⟩

/-- What starts no escape of more characters still starts none in a body that ends. -/
theorem Content.escape {quote c : Char} {cs body : List Char} (h : Content quote cs body)
    (hu : ∀ a b x d rest, c = 'u' → cs ≠ a :: b :: x :: d :: rest)
    (hr : ∀ rest, c = '\r' → cs ≠ '\n' :: rest) :
    Content quote ('\\' :: c :: cs) ('\\' :: c :: body) := by
  obtain ⟨tail, htail⟩ := h.front
  have hcs : quoted quote ('\\' :: c :: cs) = _ := quoted_escape hu hr
  have hbody : cookWith signedCodePoint? ('\\' :: c :: body) = _ := cookWith_escape
    (fun a b x d rest hc hcut => hu a b x d (rest ++ tail) hc (by rw [← htail, hcut]; rfl))
    (fun rest hc hcut => hr (rest ++ tail) hc (by rw [← htail, hcut]; rfl))
  by_cases hbreak : c = '\n' ∨ c = '\r'
  · rw [if_pos hbreak] at hcs hbody
    exact h.after ['\\', c] [] 2 hcs hbody
  · rw [if_neg hbreak] at hcs hbody
    rw [escaped_eq] at hcs
    exact h.after ['\\', c] [meant c] (1 + c.utf8Size) hcs hbody

theorem exists_content {quote : Char} (hquote : quote = '"' ∨ quote = '\'') (cs : List Char) :
    ∃ body, Content quote cs body := by
  have hescape : '\\' ≠ quote := by rcases hquote with rfl | rfl <;> decide
  fun_induction quoted quote cs with
  | case1 => exact ⟨[], rfl, rfl⟩
  | case2 => exact ⟨['\\'], rfl, rfl⟩
  | case3 a b c d cs u hu ih =>
    obtain ⟨body, hbody⟩ := ih
    have hnumber : signedCodePoint? a b c d = some u := by rw [← unicodeEscape?_eq, hu]
    exact ⟨_, hbody.after ['\\', 'u', a, b, c, d] [u] 6 (by simp [quoted, hu])
      (cookWith_number hnumber body)⟩
  | case4 a b c d cs hnone ih =>
    obtain ⟨body, hbody⟩ := ih
    refine ⟨_, hbody.after ['\\', 'u'] ['u'] 2 ?_ ?_⟩
    · refine quoted_letter_u ?_
      rintro _ _ _ _ _ ⟨⟩
      exact hnone
    · refine cookWith_letter ?_
      rintro a' b' c' d' rest rfl
      obtain ⟨tail, htail⟩ := hbody.front
      cases htail
      rw [← unicodeEscape?_eq, hnone]
  | case5 cs ih =>
    obtain ⟨body, hbody⟩ := ih
    exact ⟨_, hbody.after ['\\', '\r', '\n'] [] 3 (by rw [← quoted]; rfl)
      (by simp [cookWith])⟩
  | case6 c cs hu hr hbreak ih =>
    obtain ⟨body, hbody⟩ := ih
    exact ⟨_, hbody.escape hu hr⟩
  | case7 c cs hu hr hbreak ih =>
    obtain ⟨body, hbody⟩ := ih
    exact ⟨_, hbody.escape hu hr⟩
  | case8 cs _ _ _ _ =>
    have hread : quoted quote (quote :: cs) = ⟨[], 1, cs, true⟩ := by
      rw [quoted_cons hescape.symm, if_pos rfl]
    refine ⟨[], ?_, ?_⟩
    · rw [hread]
      rfl
    · rw [hread]
      rfl
  | case9 c cs _ _ _ hplain hquote' hbreak =>
    have hc : c ≠ '\\' := by rcases hbreak with rfl | rfl <;> decide
    have hread : quoted quote (c :: cs) = ⟨[], 0, c :: cs, false⟩ := by
      rw [quoted_cons hc, if_neg hquote', if_pos hbreak]
    refine ⟨[], ?_, ?_⟩
    · rw [hread]
      rfl
    · rw [hread]
      rfl
  | case10 c cs hlast _ _ hlong hquote' hbreak ih =>
    obtain ⟨body, hbody⟩ := ih
    have hc : c ≠ '\\' := by
      intro hc
      cases cs with
      | nil => exact hlast hc rfl
      | cons c' cs => exact hlong c' cs hc rfl
    have hread : quoted quote (c :: cs) = (quoted quote cs).after [c] c.utf8Size := by
      rw [quoted_cons hc, if_neg hquote', if_neg hbreak]
    exact ⟨_, hbody.after [c] [c] c.utf8Size hread (cookWith_plain hc body)⟩

/-! ## Signs -/

theorem backslashes_cons (c : Char) (cs : List Char) : backslashes (c :: cs) =
    if backslashes cs = cs.length ∧ c = '\\' then cs.length + 1 else backslashes cs := by
  unfold backslashes
  rw [List.reverse_cons, List.takeWhile_append, List.length_reverse]
  by_cases hall : (cs.reverse.takeWhile (· == '\\')).length = cs.length
  · by_cases hc : c = '\\'
    · simp [hall, hc]
    · simp [hall, hc]
  · simp [hall]

theorem backslashes_le (cs : List Char) : backslashes cs ≤ cs.length := by
  unfold backslashes
  have := (List.takeWhile_sublist (l := cs.reverse) (· == '\\')).length_le
  rwa [List.length_reverse] at this

theorem backslashes_plain {c : Char} (hc : c ≠ '\\') (cs : List Char) :
    backslashes (c :: cs) = backslashes cs := by
  rw [backslashes_cons, if_neg fun h => hc h.2]

/-- An escape in front leaves the number of backslashes even or odd. -/
theorem backslashes_escape (c : Char) (cs : List Char) :
    backslashes ('\\' :: c :: cs) % 2 = backslashes cs % 2 := by
  have hle := backslashes_le cs
  rw [backslashes_cons, List.length_cons]
  by_cases hc : c = '\\'
  · rw [backslashes_cons]
    simp only [hc, and_true]
    split_ifs <;> omega
  · rw [backslashes_plain hc, if_neg (by omega)]

/-- A character that starts no escape has no sign behind it. -/
theorem signed_plain {c : Char} (hc : c ≠ '\\') (cs : List Char) :
    Signed (c :: cs) ↔ Signed cs := by
  constructor
  · rintro ⟨before, x, y, z, after, hbody, heven, hdigits⟩
    cases before with
    | nil => exact absurd (List.cons.inj hbody).1 hc
    | cons d before =>
      obtain ⟨rfl, rfl⟩ := List.cons.inj hbody
      rw [backslashes_plain hc] at heven
      exact ⟨before, x, y, z, after, rfl, heven, hdigits⟩
  · rintro ⟨before, x, y, z, after, rfl, heven, hdigits⟩
    exact ⟨c :: before, x, y, z, after, rfl, by rwa [backslashes_plain hc], hdigits⟩

/-- An escape that has no sign itself. -/
theorem signed_escape {c : Char} {cs : List Char}
    (h : ∀ x y z after, c = 'u' → cs = '+' :: x :: y :: z :: after →
      ¬((digit? x).isSome ∧ (digit? y).isSome ∧ (digit? z).isSome)) :
    Signed ('\\' :: c :: cs) ↔ Signed cs := by
  constructor
  · rintro ⟨before, x, y, z, after, hbody, heven, hdigits⟩
    match before with
    | [] =>
      obtain ⟨hc, hcs⟩ := List.cons.inj (List.cons.inj hbody).2
      exact absurd hdigits (h x y z after hc hcs)
    | [d] =>
      rw [← (List.cons.inj hbody).1] at heven
      exact absurd heven (by decide)
    | d :: e :: before =>
      obtain ⟨rfl, htail⟩ := List.cons.inj hbody
      obtain ⟨rfl, rfl⟩ := List.cons.inj htail
      rw [backslashes_escape] at heven
      exact ⟨before, x, y, z, after, rfl, heven, hdigits⟩
  · rintro ⟨before, x, y, z, after, rfl, heven, hdigits⟩
    exact ⟨'\\' :: c :: before, x, y, z, after, rfl, by rwa [backslashes_escape], hdigits⟩

/-- What a sign does to a body: with one, it stands for fewer characters than it should;
without one, for those that it should. -/
structure Reading (body : List Char) : Prop where
  shorter : Signed body → (cookWith signedCodePoint? body).length < (cook body).length
  same : ¬ Signed body → cookWith signedCodePoint? body = cook body

theorem Reading.length_le {body : List Char} (h : Reading body) :
    (cookWith signedCodePoint? body).length ≤ (cook body).length := by
  by_cases hsigned : Signed body
  · exact Nat.le_of_lt (h.shorter hsigned)
  · rw [h.same hsigned]

/-- A part in front that has no sign and the same meaning in both readings. -/
theorem Reading.prepend {cs body : List Char} (h : Reading cs) (meaning : List Char)
    (hsigned : Signed body ↔ Signed cs)
    (hfirst : cookWith signedCodePoint? body = meaning ++ cookWith signedCodePoint? cs)
    (hsecond : cook body = meaning ++ cook cs) : Reading body where
  shorter hbody := by
    have := h.shorter (hsigned.1 hbody)
    rw [hfirst, hsecond, List.length_append, List.length_append]
    omega
  same hbody := by
    rw [hfirst, hsecond, h.same fun hcs => hbody (hsigned.2 hcs)]

theorem not_signed_nil : ¬ Signed [] := by
  rintro ⟨before, x, y, z, after, hbody, -⟩
  cases before <;> cases hbody

theorem reading (body : List Char) : Reading body := by
  fun_induction cookWith signedCodePoint? body with
  | case1 => exact ⟨fun h => absurd h not_signed_nil, fun _ => rfl⟩
  | case2 =>
    refine ⟨?_, fun _ => rfl⟩
    rintro ⟨before, x, y, z, after, hbody, -⟩
    have hlength := congrArg List.length hbody
    simp only [List.length_append, List.length_cons, List.length_nil] at hlength
    omega
  | case3 a b c d cs u hu ih =>
    obtain ⟨⟨ha, hb, hc, hd⟩, hdigits⟩ := ne_backslash_of_signedCodePoint? hu
    have hfirst := cookWith_number hu cs
    by_cases hplus : a = '+'
    · -- the sign is read as a letter and four characters, not as one
      subst hplus
      have hsigned : Signed ('\\' :: 'u' :: '+' :: b :: c :: d :: cs) := by
        simp only [← isSome_digit?] at hdigits
        exact ⟨[], b, c, d, cs, rfl, rfl, hdigits⟩
      have hsecond : cook ('\\' :: 'u' :: '+' :: b :: c :: d :: cs) =
          'u' :: '+' :: b :: c :: d :: cook cs := by
        unfold cook
        rw [cookWith_letter (by rintro _ _ _ _ _ ⟨⟩; exact codePoint?_plus b c d),
          cookWith_plain ha, cookWith_plain hb, cookWith_plain hc, cookWith_plain hd]
      refine ⟨fun _ => ?_, fun hnot => absurd hsigned hnot⟩
      have := ih.length_le
      rw [hfirst, hsecond]
      simp only [List.length_cons]
      omega
    · have hsecond : cook ('\\' :: 'u' :: a :: b :: c :: d :: cs) = u :: cook cs := by
        unfold signedCodePoint? at hu
        rw [if_neg hplus] at hu
        exact cookWith_number hu cs
      refine ih.prepend [u] ?_ hfirst hsecond
      rw [signed_escape (by rintro x y z after - ⟨⟩; exact absurd rfl hplus), signed_plain ha,
        signed_plain hb, signed_plain hc, signed_plain hd]
  | case4 a b c d cs hnone ih =>
    have hletter (number? : Char → Char → Char → Char → Option Char)
        (h : number? a b c d = none) : cookWith number? ('\\' :: 'u' :: a :: b :: c :: d :: cs) =
          ['u'] ++ cookWith number? (a :: b :: c :: d :: cs) :=
      cookWith_letter (by rintro _ _ _ _ _ ⟨⟩; exact h)
    refine ih.prepend ['u'] (signed_escape ?_) (hletter _ hnone) (hletter _ ?_)
    · -- three digits behind a sign would be a number
      rintro x y z after - ⟨⟩ hdigits
      simp only [isSome_digit?] at hdigits
      obtain ⟨hx, hy, hz⟩ := hdigits
      have hzero : signedCodePoint? '+' b c d = codePoint? '0' b c d := rfl
      have hsome := isSome_codePoint?_zero hx hy hz
      rw [← hzero, hnone] at hsome
      cases hsome
    · by_cases hplus : a = '+'
      · rw [hplus, codePoint?_plus]
      · unfold signedCodePoint? at hnone
        rwa [if_neg hplus] at hnone
  | case5 cs ih =>
    refine ih.prepend [] ?_ (by simp [cookWith]) (by simp [cook, cookWith])
    rw [signed_escape (by rintro x y z after ⟨⟩), signed_plain (by decide)]
  | case6 c cs hu hr hbreak ih =>
    refine ih.prepend [] (signed_escape ?_) ?_ ?_
    · rintro x y z after hc hcs
      exact absurd hcs (hu _ _ _ _ _ hc)
    · rw [cookWith_escape hu hr, if_pos hbreak]
      rfl
    · unfold cook
      rw [cookWith_escape hu hr, if_pos hbreak]
      rfl
  | case7 c cs hu hr hbreak ih =>
    refine ih.prepend [meant c] (signed_escape ?_) ?_ ?_
    · rintro x y z after hc hcs
      exact absurd hcs (hu _ _ _ _ _ hc)
    · rw [cookWith_escape hu hr, if_neg hbreak]
      rfl
    · unfold cook
      rw [cookWith_escape hu hr, if_neg hbreak]
      rfl
  | case8 c cs hlast _ _ hlong ih =>
    have hc : c ≠ '\\' := by
      intro hc
      cases cs with
      | nil => exact hlast hc rfl
      | cons c' cs => exact hlong c' cs hc rfl
    exact ih.prepend [c] (signed_plain hc cs) (cookWith_plain hc cs) (cookWith_plain hc cs)

/-- The sign matters in every body that has one. -/
theorem cookWith_signed_eq_iff (body : List Char) :
    cookWith signedCodePoint? body = cook body ↔ ¬ Signed body := by
  refine ⟨fun hsame hsigned => ?_, (reading body).same⟩
  have := (reading body).shorter hsigned
  rw [hsame] at this
  exact absurd this (Nat.lt_irrefl _)

/-! ## String literals -/

theorem not_string_of_mem_marks {k : TokenKind} (hk : k ∈ TokenKind.marks) : k ≠ .string := by
  revert k
  decide

/-- A string literal starts with a quote. -/
theorem quote_of_lexeme {c : Char} {cs : List Char} (h : (lexeme c cs).kind = .string) :
    c = '"' ∨ c = '\'' := by
  by_contra hquote
  unfold lexeme at h
  rw [if_neg hquote] at h
  split at h
  · cases h
  · split at h
    · exact wordToken_ne _ rfl h
    · split at h
      · rename_i hmark
        exact not_string_of_mem_marks (List.mem_of_find?_eq_some hmark) h
      · cases h

/-- A string literal that is recognised: the quote in front, the body, and the quote
behind it if the literal is in order. -/
theorem lexeme_string {c : Char} {cs : List Char} (h : (lexeme c cs).kind = .string) :
    ∃ body closing, closing = (if (lexeme c cs).problem = some .unterminatedString then []
        else [c]) ∧
      c :: cs = (c :: (body ++ closing)) ++ (lexeme c cs).rest ∧
      (lexeme c cs).width = size (c :: (body ++ closing)) ∧
      (lexeme c cs).value = some (String.ofList (cookWith signedCodePoint? body)) := by
  have hquote := quote_of_lexeme h
  obtain ⟨body, hbody⟩ := exists_content hquote cs
  obtain ⟨read, hread⟩ := exists_quoted_body hquote cs
  have hsame : read = body ++ (quoted c cs).closing c := by
    have htext := hread.text.symm.trans hbody.text
    rw [← List.append_assoc] at htext
    exact List.append_cancel_right htext
  have hlexeme : lexeme c cs = ⟨.string, some (String.ofList (quoted c cs).value),
      1 + (quoted c cs).width, (quoted c cs).rest,
      if (quoted c cs).closed then none else some .unterminatedString⟩ := by
    rw [lexeme, if_pos hquote]
  have hone : c.utf8Size = 1 := by rcases hquote with rfl | rfl <;> rfl
  refine ⟨body, (quoted c cs).closing c, ?_, ?_, ?_, ?_⟩
  · rw [hlexeme]
    unfold Quoted.closing
    cases (quoted c cs).closed <;> rfl
  · rw [hlexeme, List.cons_append, List.append_assoc]
    exact congrArg (c :: ·) hbody.text
  · rw [hlexeme, size_cons, hone, ← hsame, ← hread.width]
  · rw [hlexeme, ← hbody.value]

/-- A string literal is a quote, a body, and the quote again unless the literal is
reported as unterminated. Its value is the body with the escapes replaced, a sign being
taken for a first digit; it is the value that the grammar of escapes gives if and only if
no escape has a sign. -/
theorem scan_string {text : List Char} {t : Token} (ht : t ∈ (scan text).tokens)
    (hkind : t.kind = .string) :
    ∃ quote body, (quote = '"' ∨ quote = '\'') ∧
      slice? text t.start t.stop = some (quote :: (body ++
        if ⟨t.start, t.stop - t.start, .unterminatedString⟩ ∈ (scan text).errors then []
        else [quote])) ∧
      t.value = some (String.ofList (cookWith signedCodePoint? body)) ∧
      (t.value = some (String.ofList (cook body)) ↔ ¬ Signed body) := by
  obtain ⟨before, after, htokens⟩ := List.append_of_mem ht
  obtain ⟨front, cs, rfl, hfront, ⟨-, rfl⟩ | ⟨c, rest, hrest, htoken, herrors⟩⟩ :=
    scan_found htokens
  · cases hkind
  · obtain ⟨gap, hgap⟩ := exists_skipped (stopAfter 0 before) false cs
    have hstart : t.start = size (front ++ gap) := by
      rw [htoken, size_append, hfront, ← hgap.offset]
      rfl
    have hstop : t.stop = t.start + (lexeme c rest).width := by
      rw [htoken]
      rfl
    have hstring : (lexeme c rest).kind = .string := by
      rw [← hkind, htoken]
      rfl
    obtain ⟨body, closing, hclosing, hrest', hwidth, hvalue⟩ := lexeme_string hstring
    have hvalue' : t.value = some (String.ofList (cookWith signedCodePoint? body)) := by
      rw [htoken, ← hvalue]
      rfl
    refine ⟨c, body, quote_of_lexeme hstring, ?_, hvalue', ?_⟩
    · rw [if_congr (herrors .unterminatedString (by decide)) rfl rfl, ← hclosing, hstop, hwidth,
        hstart, hgap.text, hrest, hrest', ← List.append_assoc]
      exact slice?_size (front ++ gap) _ _
    · rw [hvalue', Option.some.injEq, String.ofList_inj]
      exact cookWith_signed_eq_iff body

/-- A literal that a line feed cuts off, behind an escape. -/
theorem scan_string_unterminated :
    ⟨.string, 0, 3, false, some "\""⟩ ∈ (scan "'\\\"\n".toList).tokens ∧
      TokenKind.string = .string ∧
      ∃ quote body, (quote = '"' ∨ quote = '\'') ∧
        slice? "'\\\"\n".toList 0 3 = some (quote :: (body ++
          if ⟨0, 3, .unterminatedString⟩ ∈ (scan "'\\\"\n".toList).errors then []
          else [quote])) ∧
        some "\"" = some (String.ofList (cookWith signedCodePoint? body)) ∧
        (some "\"" = some (String.ofList (cook body)) ↔ ¬ Signed body) :=
  ⟨by decide +kernel, rfl, scan_string
    (by decide +kernel : ⟨.string, 0, 3, false, some "\""⟩ ∈ (scan "'\\\"\n".toList).tokens) rfl⟩

/-- The scanner takes the sign and three digits for the number of a letter. -/
theorem sign_for_digit :
    (scan "'\\u+041'".toList).tokens =
        [⟨.string, 0, 8, false, some "A"⟩, ⟨.endOfFile, 8, 8, false, none⟩] ∧
      (scan "'\\u+041'".toList).errors = [] ∧
      String.ofList (cook "\\u+041".toList) = "u+041" := by
  repeat rw [String.toList_ofList]
  decide +kernel

end ScriptAnalysis.Lexer
