import Mathlib.Data.List.Find
import ScriptAnalysis.Proofs.Token.Scan

/-!
# Comments as blanks

`blankComments` replaces the comments of a text by spaces, byte for byte, and
keeps their line feeds and carriage returns. It walks over the text by the
region that a place belongs to: code, a string literal, or a comment of one of
the two sorts (`Region`).

**Specification.** `Blanked` says what the tokens of the two texts have to do
with each other. They are the same (`SameTokens`), but for whether a line ends
before the last one: a comment at the end of a file may hold a line feed where
the scanner notes none. And all of them start and stop at places that are code
in the one text and the same code in the other (`Outside`).

**Results.**
* `sameGap`: what separates two tokens ends at the same place.
* `Steady.append`, `steady_numeral`, `steady_word`: functions that read a token
  off the front of a text do not see the comments behind it.
* `exists_lexeme_blanked`: a token that is in order is recognised in the same way.
* `scan_blanked`: a text that is scanned without errors, by induction on the
  rounds of the scanner.
* `scan_spelled`: words in a text have characters.
-/
namespace ScriptAnalysis.Lexer

open Text

/-! ## Texts without comments -/

/-- What a place of a text belongs to. -/
inductive Region where
  | code
  | literal (quote : Char)
  | lineComment
  | blockComment
  deriving DecidableEq, Repr

/-- As many spaces as a character takes bytes. Line feeds and carriage
returns stay. -/
def blank (c : Char) : List Char :=
  if c = '\n' ∨ c = '\r' then [c] else List.replicate c.utf8Size ' '

/-- The text with blanks for the comments in it, from a place in `region` on.
A backslash keeps the character behind it from ending a string. -/
def blankFrom : Region → List Char → List Char
  | .code, '/' :: '/' :: cs => ' ' :: ' ' :: blankFrom .lineComment cs
  | .code, '/' :: '*' :: cs => ' ' :: ' ' :: blankFrom .blockComment cs
  | .code, c :: cs => c :: blankFrom (if c = '"' ∨ c = '\'' then .literal c else .code) cs
  | .literal quote, '\\' :: c :: cs => '\\' :: c :: blankFrom (.literal quote) cs
  | .literal quote, c :: cs => c :: blankFrom (if c = quote then .code else .literal quote) cs
  | .lineComment, '\n' :: cs => '\n' :: blankFrom .code cs
  | .lineComment, c :: cs => blank c ++ blankFrom .lineComment cs
  | .blockComment, '*' :: '/' :: cs => ' ' :: ' ' :: blankFrom .code cs
  | .blockComment, c :: cs => blank c ++ blankFrom .blockComment cs
  | _, [] => []

/-- The text with every comment replaced by spaces, byte for byte; its line
feeds and carriage returns stay. -/
def blankComments (text : List Char) : List Char :=
  blankFrom .code text

/-- A comment starts here. -/
def opensComment : List Char → Bool
  | '/' :: '/' :: _ => true
  | '/' :: '*' :: _ => true
  | _ => false

example : blankComments "a // b\n'//' /*\r*/ c".toList = "a     \n'//'   \r   c".toList := by
  decide

/-! ## One character -/

section

attribute [local simp] blankFrom

theorem blankFrom_nil (region : Region) : blankFrom region [] = [] := by
  cases region <;> simp

theorem blankFrom_escape (quote c : Char) (cs : List Char) :
    blankFrom (.literal quote) ('\\' :: c :: cs) = '\\' :: c :: blankFrom (.literal quote) cs := by
  simp

end

theorem opensComment_iff {cs : List Char} : opensComment cs = true ↔
    ∃ rest, cs = '/' :: '/' :: rest ∨ cs = '/' :: '*' :: rest := by
  unfold opensComment
  split <;> simp_all

theorem blankFrom_code {c : Char} {cs : List Char} (h : opensComment (c :: cs) = false) :
    blankFrom .code (c :: cs) =
      c :: blankFrom (if c = '"' ∨ c = '\'' then .literal c else .code) cs := by
  rw [blankFrom]
  · rintro rest rfl rfl
    cases h
  · rintro rest rfl rfl
    cases h

theorem blankFrom_literal {quote c : Char} (hc : c ≠ '\\') (cs : List Char) :
    blankFrom (.literal quote) (c :: cs) =
      c :: blankFrom (if c = quote then .code else .literal quote) cs := by
  rw [blankFrom]
  rintro c' rest h
  exact absurd h hc

theorem blankFrom_lineComment {c : Char} (hc : c ≠ '\n') (cs : List Char) :
    blankFrom .lineComment (c :: cs) = blank c ++ blankFrom .lineComment cs := by
  rw [blankFrom]
  exact fun h => absurd h hc

theorem blankFrom_blockComment {c : Char} {cs : List Char}
    (h : ∀ rest, c = '*' → cs ≠ '/' :: rest) :
    blankFrom .blockComment (c :: cs) = blank c ++ blankFrom .blockComment cs := by
  rw [blankFrom]
  exact h

theorem ne_slash_of_isGapChar {c : Char} (hc : isGapChar c = true) : c ≠ '/' := by
  rintro rfl
  exact absurd hc (by decide)

theorem blankFrom_plain {c : Char} {cs : List Char} (h : opensComment (c :: cs) = false)
    (hc : ¬(c = '"' ∨ c = '\'')) : blankFrom .code (c :: cs) = c :: blankFrom .code cs := by
  rw [blankFrom_code h, if_neg hc]

theorem opensComment_of_ne {c : Char} (hc : c ≠ '/') (cs : List Char) :
    opensComment (c :: cs) = false := by
  rw [Bool.eq_false_iff, ne_eq, opensComment_iff]
  rintro ⟨rest, h | h⟩ <;> exact hc (List.cons.inj h).1

theorem blankFrom_gapChar {c : Char} (hc : isGapChar c = true) (cs : List Char) :
    blankFrom .code (c :: cs) = c :: blankFrom .code cs := by
  refine blankFrom_plain (opensComment_of_ne (ne_slash_of_isGapChar hc) cs) ?_
  rintro (rfl | rfl) <;> exact absurd hc (by decide)

/-- A character that is no space stands in the text too. -/
theorem exists_of_blankFrom_code {d : Char} {cs rest' : List Char}
    (h : blankFrom .code cs = d :: rest') (hd : d ≠ ' ') :
    ∃ rest, cs = d :: rest ∧
      rest' = blankFrom (if d = '"' ∨ d = '\'' then .literal d else .code) rest := by
  by_cases hopens : opensComment cs = true
  · obtain ⟨rest, rfl | rfl⟩ := opensComment_iff.1 hopens
    all_goals
      rw [blankFrom] at h
      exact absurd (List.cons.inj h).1.symm hd
  · cases cs with
    | nil =>
      rw [blankFrom_nil] at h
      cases h
    | cons c cs =>
      rw [blankFrom_code (Bool.eq_false_iff.2 hopens)] at h
      obtain ⟨rfl, rfl⟩ := List.cons.inj h
      exact ⟨cs, rfl, rfl⟩

/-- Where no comment starts, none starts when the comments behind are
blanks. -/
theorem opensComment_blankFrom {cs : List Char} (h : opensComment cs = false) :
    opensComment (blankFrom .code cs) = false := by
  rw [Bool.eq_false_iff, ne_eq, opensComment_iff] at h ⊢
  rintro ⟨rest, hrest⟩
  refine h ?_
  have hslash : ∀ d, d ≠ ' ' → blankFrom .code cs = '/' :: d :: rest →
      ∃ rest, cs = '/' :: d :: rest := by
    intro d hd hcs
    obtain ⟨tail, rfl, htail⟩ := exists_of_blankFrom_code hcs (by decide)
    obtain ⟨rest, rfl, -⟩ := exists_of_blankFrom_code htail.symm hd
    exact ⟨rest, rfl⟩
  rcases hrest with hrest | hrest
  · obtain ⟨rest, hcs⟩ := hslash '/' (by decide) hrest
    exact ⟨rest, .inl hcs⟩
  · obtain ⟨rest, hcs⟩ := hslash '*' (by decide) hrest
    exact ⟨rest, .inr hcs⟩

/-! ## Gaps -/

theorem skipGap_blank_cons {c : Char} (hc : c ≠ '/') (n : Nat) (crossed : Bool) (cs : List Char) :
    skipGap .blank n crossed (c :: cs) =
      if c = '\n' ∨ c = '\r' ∨ isLineSeparator c then skipGap .blank (n + c.utf8Size) true cs
      else if isBlank c then skipGap .blank (n + c.utf8Size) crossed cs
      else ⟨c :: cs, n, crossed, none⟩ := by
  rw [skipGap]
  · rintro rest h
    exact absurd h hc
  · rintro rest h
    exact absurd h hc

theorem skipGap_spaces (k n : Nat) (crossed : Bool) (cs : List Char) :
    skipGap .blank n crossed (List.replicate k ' ' ++ cs) = skipGap .blank (n + k) crossed cs := by
  induction k generalizing n with
  | zero => rfl
  | succ k ih =>
    rw [List.replicate_succ, List.cons_append, skipGap_blank_cons (by decide), if_neg (by decide),
      if_pos (by decide), ih]
    congr 1
    show n + 1 + k = n + (k + 1)
    omega

theorem skipGap_two_spaces (n : Nat) (crossed : Bool) (cs : List Char) :
    skipGap .blank n crossed (' ' :: ' ' :: cs) = skipGap .blank (n + 2) crossed cs :=
  skipGap_spaces 2 n crossed cs

/-- What a blanked character leaves of a gap. -/
theorem skipGap_blank (c : Char) (n : Nat) (crossed : Bool) (cs : List Char) :
    skipGap .blank n crossed (blank c ++ cs) =
      skipGap .blank (n + c.utf8Size) (crossed || c == '\n' || c == '\r') cs := by
  unfold blank
  split
  · rename_i hc
    rw [List.singleton_append, skipGap_blank_cons (by rcases hc with rfl | rfl <;> decide)]
    rcases hc with rfl | rfl <;> simp
  · rename_i hc
    rw [not_or] at hc
    rw [skipGap_spaces, beq_false_of_ne hc.1, beq_false_of_ne hc.2, Bool.or_false, Bool.or_false]

/-- What follows a gap, in a text and in the text with its comments replaced.
Only at the end of the text may the second have crossed a line where the first
has not. -/
structure SameGap (g g' : AfterGap) : Prop where
  rest : g'.rest = blankFrom .code g.rest
  offset : g'.offset = g.offset
  unclosed : g'.unclosed = none
  crossed : g.rest ≠ [] → g'.crossed = g.crossed
  crossed_of : g.crossed = true → g'.crossed = true

/-- The region that a walk over a gap is in. -/
def Gap.region : Gap → Region
  | .blank => .code
  | .lineComment => .lineComment
  | .blockComment _ _ => .blockComment

/-- Whether the walks over a gap, with its comments and without, agree on the
lines that they have crossed. A line comment that goes on will cross one. -/
def Gap.Agree (crossed crossed' : Bool) : Gap → Prop
  | .blank => crossed' = crossed
  | .lineComment => crossed = true → crossed' = true
  | .blockComment _ inner => crossed' = (crossed || inner)

/-- A comment is passed over like the blanks that replace it. -/
theorem sameGap {gap : Gap} {n : Nat} {crossed crossed' : Bool} {cs : List Char}
    (hclosed : (skipGap gap n crossed cs).unclosed = none) (hcrossed : gap.Agree crossed crossed') :
    SameGap (skipGap gap n crossed cs)
      (skipGap .blank n crossed' (blankFrom gap.region cs)) := by
  fun_induction skipGap gap n crossed cs generalizing crossed' with
  | case1 => cases hclosed
  | case2 opened inner n crossed cs ih =>
    rw [Gap.region, blankFrom, skipGap_two_spaces]
    exact ih hclosed hcrossed
  | case3 opened inner n crossed c cs hend ih =>
    rw [Gap.region, blankFrom_blockComment hend, skipGap_blank]
    refine ih hclosed ?_
    show _ = _
    rw [show crossed' = (crossed || inner) from hcrossed]
    simp only [Bool.or_assoc]
  | case4 n crossed =>
    rw [blankFrom_nil]
    exact ⟨(blankFrom_nil _).symm, rfl, rfl, fun h => absurd rfl h, hcrossed⟩
  | case5 n crossed cs ih =>
    rw [Gap.region, blankFrom, skipGap_blank_cons (by decide), if_pos (.inl rfl)]
    exact ih hclosed rfl
  | case6 n crossed c cs hc ih =>
    rw [Gap.region, blankFrom_lineComment hc, skipGap_blank]
    refine ih hclosed fun h => ?_
    rw [show crossed' = true from hcrossed h]
    rfl
  | case7 n crossed =>
    rw [blankFrom_nil]
    exact ⟨(blankFrom_nil _).symm, rfl, rfl, fun h => absurd rfl h, fun h => hcrossed.trans h⟩
  | case8 n crossed cs ih =>
    rw [Gap.region, blankFrom, skipGap_two_spaces]
    exact ih hclosed fun h => (hcrossed : crossed' = crossed).trans h
  | case9 n crossed cs ih =>
    rw [Gap.region, blankFrom, skipGap_two_spaces]
    refine ih hclosed ?_
    rw [show crossed' = crossed from hcrossed]
    exact (Bool.or_false crossed).symm
  | case10 n crossed c cs hline hblock hbreak ih =>
    have hgap : isGapChar c = true := by simp [isGapChar, ← or_assoc] at hbreak ⊢; exact .inl hbreak
    rw [Gap.region, blankFrom_gapChar hgap, skipGap_blank_cons (ne_slash_of_isGapChar hgap),
      if_pos hbreak]
    exact ih hclosed rfl
  | case11 n crossed c cs hline hblock hbreak hblank ih =>
    have hgap : isGapChar c = true := by simp [isGapChar, hblank]
    rw [Gap.region, blankFrom_gapChar hgap, skipGap_blank_cons (ne_slash_of_isGapChar hgap),
      if_neg hbreak, if_pos hblank]
    exact ih hclosed hcrossed
  | case12 n crossed c cs hline hblock hbreak hblank =>
    have hopens : opensComment (c :: cs) = false := by
      rw [Bool.eq_false_iff, ne_eq, opensComment_iff]
      rintro ⟨rest, h | h⟩
      · exact hline rest (List.cons.inj h).1 (List.cons.inj h).2
      · exact hblock rest (List.cons.inj h).1 (List.cons.inj h).2
    obtain ⟨cs', hcs'⟩ : ∃ cs', blankFrom .code (c :: cs) = c :: cs' := ⟨_, blankFrom_code hopens⟩
    have hopens' := opensComment_blankFrom hopens
    have hstay : skipGap .blank n crossed' (c :: cs') = ⟨c :: cs', n, crossed', none⟩ := by
      rw [hcs'] at hopens'
      rw [skipGap]
      · rw [if_neg hbreak, if_neg hblank]
      · rintro rest rfl rfl
        cases hopens'
      · rintro rest rfl rfl
        cases hopens'
    rw [Gap.region, hcs', hstay]
    exact ⟨hcs'.symm, rfl, rfl, fun _ => hcrossed, fun h => hcrossed.trans h⟩

/-! ## Strings -/

/-- A character that neither ends a string nor starts an escape in it. -/
theorem blankFrom_inside {quote c : Char} (hc : c ≠ '\\') (hquote : c ≠ quote) (cs : List Char) :
    blankFrom (.literal quote) (c :: cs) = c :: blankFrom (.literal quote) cs := by
  rw [blankFrom_literal hc, if_neg hquote]

/-- Inside of a string the next character stays. -/
theorem exists_of_blankFrom_literal {quote d : Char} {cs rest' : List Char}
    (h : blankFrom (.literal quote) cs = d :: rest') (hd : d ≠ '\\') (hquote : d ≠ quote) :
    ∃ rest, cs = d :: rest ∧ rest' = blankFrom (.literal quote) rest := by
  cases cs with
  | nil =>
    rw [blankFrom_nil] at h
    cases h
  | cons c cs =>
    have hc : c = d := by
      by_cases hc : c = '\\'
      · subst hc
        cases cs <;> exact (List.cons.inj h).1
      · rw [blankFrom_literal hc] at h
        exact (List.cons.inj h).1
    subst hc
    rw [blankFrom_inside hd hquote] at h
    exact ⟨cs, rfl, (List.cons.inj h).2.symm⟩

/-- Characters that stand for a number in an escape. -/
def isEscapeDigit (c : Char) : Bool :=
  isHexDigit c || c == '+'

theorem isEscapeDigit_ne {quote c : Char} (hquote : quote = '"' ∨ quote = '\'')
    (h : isEscapeDigit c = true) : c ≠ '\\' ∧ c ≠ quote := by
  constructor
  · rintro rfl
    exact absurd h (by decide)
  · rintro rfl
    rcases hquote with rfl | rfl <;> exact absurd h (by decide)

theorem unicodeEscape?_digits {a b c d u : Char} (h : unicodeEscape? a b c d = some u) :
    isEscapeDigit a = true ∧ isEscapeDigit b = true ∧ isEscapeDigit c = true ∧
      isEscapeDigit d = true := by
  unfold unicodeEscape? at h
  split at h
  · rename_i hdigits
    simp only [Bool.and_eq_true] at hdigits
    obtain ⟨⟨⟨ha, hb⟩, hc⟩, hd⟩ := hdigits
    simp [isEscapeDigit, ha, hb, hc, hd]
  · cases h

/-- The digits of an escape are in the string as well. -/
theorem unicodeEscape?_blankFrom {quote : Char} (hquote : quote = '"' ∨ quote = '\'')
    {cs : List Char}
    (h : ∀ a b c d rest, cs = a :: b :: c :: d :: rest → unicodeEscape? a b c d = none) :
    ∀ a b c d rest, blankFrom (.literal quote) cs = a :: b :: c :: d :: rest →
      unicodeEscape? a b c d = none := by
  intro a b c d rest hcs
  rw [Option.eq_none_iff_forall_ne_some]
  intro u hu
  obtain ⟨ha, hb, hc, hd⟩ := unicodeEscape?_digits hu
  have hne {x : Char} := isEscapeDigit_ne (c := x) hquote
  obtain ⟨cs₁, hcs₁, hrest₁⟩ := exists_of_blankFrom_literal hcs (hne ha).1 (hne ha).2
  obtain ⟨cs₂, hcs₂, hrest₂⟩ := exists_of_blankFrom_literal hrest₁.symm (hne hb).1 (hne hb).2
  obtain ⟨cs₃, hcs₃, hrest₃⟩ := exists_of_blankFrom_literal hrest₂.symm (hne hc).1 (hne hc).2
  obtain ⟨cs₄, hcs₄, -⟩ := exists_of_blankFrom_literal hrest₃.symm (hne hd).1 (hne hd).2
  rw [h a b c d cs₄ (by rw [hcs₁, hcs₂, hcs₃, hcs₄])] at hu
  cases hu

/-- The text behind a string with blanks for the comments in it. -/
def Quoted.blanked (q : Quoted) : Quoted :=
  { q with rest := blankFrom .code q.rest }

/-- A string that is closed is read the same when the comments behind it are
blanks. -/
theorem quoted_blankFrom {quote : Char} (hquote : quote = '"' ∨ quote = '\'') (cs : List Char)
    (hclosed : (quoted quote cs).closed = true) :
    quoted quote (blankFrom (.literal quote) cs) = (quoted quote cs).blanked := by
  have hescape : '\\' ≠ quote := by rcases hquote with rfl | rfl <;> decide
  fun_induction quoted quote cs with
  | case1 => cases hclosed
  | case2 => cases hclosed
  | case3 a b c d cs u hu ih =>
    have hne {x : Char} := isEscapeDigit_ne (c := x) hquote
    obtain ⟨ha, hb, hc, hd⟩ := unicodeEscape?_digits hu
    rw [blankFrom_escape, blankFrom_inside (hne ha).1 (hne ha).2,
      blankFrom_inside (hne hb).1 (hne hb).2, blankFrom_inside (hne hc).1 (hne hc).2,
      blankFrom_inside (hne hd).1 (hne hd).2, quoted, hu, ih hclosed]
    rfl
  | case4 a b c d cs hnone ih =>
    rw [blankFrom_escape, quoted_letter_u, ih hclosed]
    · rfl
    · refine unicodeEscape?_blankFrom hquote ?_
      rintro _ _ _ _ _ ⟨⟩
      exact hnone
  | case5 cs ih =>
    have hbreak : '\n' ≠ quote := by rcases hquote with rfl | rfl <;> decide
    rw [blankFrom_escape, blankFrom_inside (by decide) hbreak, quoted, ih hclosed]
    rfl
  | case6 c cs hu hr hbreak ih =>
    rw [blankFrom_escape, quoted_escape, if_pos hbreak, ih hclosed]
    · rfl
    · rintro a b x d rest rfl
      exact absurd hbreak (by decide)
    · rintro rest rfl hrest
      have hne : '\n' ≠ quote := by rcases hquote with rfl | rfl <;> decide
      obtain ⟨tail, rfl, -⟩ := exists_of_blankFrom_literal hrest (by decide) hne
      exact hr tail rfl rfl
  | case7 c cs hu hr hbreak ih =>
    rw [blankFrom_escape]
    by_cases hletter : c = 'u'
    · subst hletter
      rw [quoted_letter_u, ih hclosed]
      · rfl
      · exact unicodeEscape?_blankFrom hquote fun a b c d rest hcs =>
          (hu a b c d rest rfl hcs).elim
    · rw [quoted_escape, if_neg hbreak, ih hclosed]
      · rfl
      · exact fun a b x d rest hc => absurd hc hletter
      · exact fun rest hc => absurd (.inr hc) hbreak
  | case8 cs _ _ _ _ =>
    rw [blankFrom_literal hescape.symm, if_pos rfl, quoted_cons hescape.symm, if_pos rfl]
    rfl
  | case9 => cases hclosed
  | case10 c cs hlast _ _ hlong hquote' hbreak ih =>
    have hc : c ≠ '\\' := by
      intro hc
      cases cs with
      | nil => exact hlast hc rfl
      | cons c' cs => exact hlong c' cs hc rfl
    rw [blankFrom_inside hc hquote', quoted_cons hc, if_neg hquote', if_neg hbreak, ih hclosed]
    rfl

/-! ## Numbers, words and marks -/

/-- Characters that stand for themselves wherever they are: no part of a
comment starts with them, no string, and no blank is one of them. -/
def isPlain (c : Char) : Bool :=
  c != '/' && c != ' ' && c != '"' && c != '\''

theorem isPlain_iff {c : Char} :
    isPlain c = true ↔ c ≠ '/' ∧ c ≠ ' ' ∧ ¬(c = '"' ∨ c = '\'') := by
  simp [isPlain, and_assoc]

theorem blankFrom_append {word : List Char} (hword : ∀ c ∈ word, isPlain c = true)
    (cs : List Char) : blankFrom .code (word ++ cs) = word ++ blankFrom .code cs := by
  induction word with
  | nil => rfl
  | cons c word ih =>
    obtain ⟨hc, hword⟩ := List.forall_mem_cons.1 hword
    obtain ⟨hslash, -, hquote⟩ := isPlain_iff.1 hc
    rw [List.cons_append, blankFrom_plain (opensComment_of_ne hslash _) hquote, ih hword]
    rfl

/-- Plain characters in front are in the text as well. -/
theorem exists_of_blankFrom_append {word cs rest' : List Char}
    (hword : ∀ c ∈ word, isPlain c = true) (h : blankFrom .code cs = word ++ rest') :
    ∃ rest, cs = word ++ rest ∧ rest' = blankFrom .code rest := by
  induction word generalizing cs with
  | nil => exact ⟨cs, rfl, h.symm⟩
  | cons c word ih =>
    obtain ⟨hc, hword⟩ := List.forall_mem_cons.1 hword
    obtain ⟨-, hspace, hquote⟩ := isPlain_iff.1 hc
    obtain ⟨tail, rfl, htail⟩ := exists_of_blankFrom_code h hspace
    rw [if_neg hquote] at htail
    obtain ⟨rest, rfl, hrest⟩ := ih hword htail.symm
    exact ⟨rest, rfl, hrest⟩

/-- `f` finds the same at the front of a text when its comments are blanks, and
leaves the same behind it. -/
def Steady (f : List Char → List Char) : Prop :=
  ∀ cs, f (blankFrom .code cs) = f cs ∧
    (blankFrom .code cs).drop (f cs).length = blankFrom .code (cs.drop (f cs).length)

/-- What is found is a plain word in front. -/
theorem Steady.of_word {f : List Char → List Char}
    (h : ∀ cs, ∃ word rest, cs = word ++ rest ∧ f cs = word ∧ (∀ c ∈ word, isPlain c = true) ∧
      f (word ++ blankFrom .code rest) = word) : Steady f := by
  intro cs
  obtain ⟨word, rest, rfl, hword, hplain, hsame⟩ := h cs
  rw [hword, blankFrom_append hplain, List.drop_left, List.drop_left]
  exact ⟨hsame, rfl⟩

/-- One after the other. -/
theorem Steady.append {f g : List Char → List Char} (hf : Steady f) (hg : Steady g) :
    Steady fun cs => f cs ++ g (cs.drop (f cs).length) := by
  intro cs
  obtain ⟨hfirst, hrest⟩ := hf cs
  obtain ⟨hsecond, hlast⟩ := hg (cs.drop (f cs).length)
  dsimp only
  rw [hfirst, hrest, hsecond, List.length_append, ← List.drop_drop, ← List.drop_drop, hrest, hlast]
  exact ⟨rfl, rfl⟩

theorem head?_blankFrom {p : Char → Bool} (hp : ∀ c, p c = true → isPlain c = true)
    (cs : List Char) : (blankFrom .code cs).head?.any p = cs.head?.any p := by
  rw [Bool.eq_iff_iff]
  constructor
  · intro h
    cases hcs : blankFrom .code cs with
    | nil =>
      rw [hcs] at h
      cases h
    | cons d rest' =>
      rw [hcs] at h
      obtain ⟨rest, rfl, -⟩ := exists_of_blankFrom_code hcs (isPlain_iff.1 (hp d h)).2.1
      exact h
  · intro h
    cases cs with
    | nil => cases h
    | cons c cs =>
      rw [blankFrom_code (opensComment_of_ne (isPlain_iff.1 (hp c h)).1 cs)]
      exact h

theorem steady_takeWhile {p : Char → Bool} (hp : ∀ c, p c = true → isPlain c = true) :
    Steady (List.takeWhile p) := by
  refine .of_word fun cs => ⟨cs.takeWhile p, cs.dropWhile p, ?_, rfl, ?_, ?_⟩
  · exact List.takeWhile_append_dropWhile.symm
  · exact fun c hc => hp c (List.mem_takeWhile_imp hc)
  · refine takeWhile_append_stop (fun c => List.mem_takeWhile_imp) fun c hc => ?_
    have hstop := head?_blankFrom hp (cs.dropWhile p)
    have hnone : (cs.dropWhile p).head?.any p = false := by
      have := List.head?_dropWhile_not p cs
      cases hd : (cs.dropWhile p).head? with
      | none => rfl
      | some d => simpa [hd] using this
    rw [hnone, Option.mem_def.1 hc] at hstop
    exact hstop

/-- Four characters are not plain. -/
theorem isPlain_of {p : Char → Bool} (hp : ['/', ' ', '"', '\''].any p = false) :
    ∀ c, p c = true → isPlain c = true := by
  intro c hc
  have hne : ∀ d ∈ ['/', ' ', '"', '\''], c ≠ d := by
    rintro d hd rfl
    exact List.any_eq_false.1 hp c hd hc
  simpa [isPlain_iff] using hne

theorem isPlain_of_digit : ∀ c, isDigitOrUnderscore c = true → isPlain c = true :=
  isPlain_of (by decide)

theorem steady_fraction : Steady fraction := by
  intro cs
  by_cases hcs : ∃ rest, cs = '.' :: rest
  · obtain ⟨rest, rfl⟩ := hcs
    obtain ⟨hsame, hrest⟩ := steady_takeWhile isPlain_of_digit rest
    rw [blankFrom_plain (opensComment_of_ne (by decide) rest) (by decide)]
    exact ⟨congrArg ('.' :: ·) hsame, hrest⟩
  · have hnone (cs : List Char) (hcs : ¬∃ rest, cs = '.' :: rest) : fraction cs = [] := by
      unfold fraction
      split
      · exact absurd ⟨_, rfl⟩ hcs
      · rfl
    have hcs' : ¬∃ rest, blankFrom .code cs = '.' :: rest := by
      rintro ⟨rest', h⟩
      obtain ⟨rest, hrest, -⟩ := exists_of_blankFrom_code h (by decide)
      exact hcs ⟨rest, hrest⟩
    rw [hnone cs hcs, hnone _ hcs']
    exact ⟨rfl, rfl⟩

theorem isPlain_exponent {e digit : Char} {sign : List Char} (he : e = 'e' ∨ e = 'E')
    (hsign : sign = [] ∨ sign = ['+'] ∨ sign = ['-']) (hdigit : digit.isDigit = true) :
    ∀ c ∈ e :: (sign ++ [digit]), isPlain c = true := by
  have hplain : isPlain digit = true := isPlain_of_digit _ (by simp [isDigitOrUnderscore, hdigit])
  rcases he with rfl | rfl <;> rcases hsign with rfl | rfl | rfl <;> simp [hplain] <;> decide

theorem steady_exponent : Steady exponent := by
  intro cs
  rcases exponent_cases cs with hnone | ⟨e, sign, digit, rest, he, hsign, hdigit, rfl⟩
  · have hnone' : exponent (blankFrom .code cs) = [] := by
      rcases exponent_cases (blankFrom .code cs) with
        h | ⟨e, sign, digit, rest, he, hsign, hdigit, h⟩
      · exact h
      · have hfront : blankFrom .code cs = e :: (sign ++ [digit]) ++ rest := by
          rw [h]
          simp
        obtain ⟨tail, rfl, -⟩ :=
          exists_of_blankFrom_append (isPlain_exponent he hsign hdigit) hfront
        rw [List.cons_append, List.append_assoc, List.singleton_append,
          exponent_digits he hsign hdigit] at hnone
        cases hnone
    rw [hnone, hnone']
    exact ⟨rfl, rfl⟩
  · obtain ⟨hsame, hrest⟩ := steady_takeWhile isPlain_of_digit rest
    have hfront := blankFrom_append (isPlain_exponent he hsign hdigit) rest
    simp only [List.cons_append, List.append_assoc, List.nil_append] at hfront
    rw [hfront, exponent_digits he hsign hdigit, exponent_digits he hsign hdigit, hsame]
    refine ⟨rfl, ?_⟩
    have hdrop (cs : List Char) (n : Nat) :
        (e :: (sign ++ digit :: cs)).drop (sign.length + (n + 1) + 1) = cs.drop n := by
      rw [List.drop_succ_cons, ← List.drop_drop, List.drop_left, List.drop_succ_cons]
    simp only [List.length_cons, List.length_append, hdrop]
    exact hrest

theorem decimal_eq (cs : List Char) : decimal cs =
    cs.takeWhile isDigitOrUnderscore ++
      (fun cs => fraction cs ++ exponent (cs.drop (fraction cs).length))
      (cs.drop (cs.takeWhile isDigitOrUnderscore).length) := by
  unfold decimal
  simp only [List.append_assoc, List.drop_drop]

theorem steady_decimal : Steady decimal := by
  rw [funext decimal_eq]
  exact (steady_takeWhile isPlain_of_digit).append (steady_fraction.append steady_exponent)

theorem steady_numeral : Steady numeral := by
  intro cs
  rcases numeral_cases cs with ⟨x, rest, rfl, hx⟩ | hcs
  · have hhex : ∀ c, isHexDigit c = true → isPlain c = true := isPlain_of (by decide)
    have hplain : ∀ c ∈ ['0', x], isPlain c = true := by
      rcases hx with rfl | rfl <;> exact forall_mem_of_all (by decide)
    obtain ⟨hsame, hrest⟩ := steady_takeWhile hhex rest
    have hfront := blankFrom_append hplain rest
    rw [List.cons_append, List.singleton_append] at hfront
    rw [hfront]
    simp only [List.cons_append, List.nil_append]
    rw [numeral_hex hx, numeral_hex hx, hsame]
    exact ⟨rfl, hrest⟩
  · have hcs' : ∀ x rest, blankFrom .code cs = '0' :: x :: rest → ¬(x = 'x' ∨ x = 'X') := by
      intro x rest' h hx
      have hplain : ∀ c ∈ ['0', x], isPlain c = true := by
        rcases hx with rfl | rfl <;> exact forall_mem_of_all (by decide)
      obtain ⟨rest, rfl, -⟩ := exists_of_blankFrom_append hplain h
      exact hcs x rest rfl hx
    rw [numeral_eq_decimal hcs, numeral_eq_decimal hcs']
    exact steady_decimal cs

theorem steady_word : Steady (List.takeWhile isNamePart) :=
  steady_takeWhile (isPlain_of (by decide))

/-! ### Marks -/

/-- Behind its first character, a mark has only plain ones. -/
theorem mark_text_plain {k : TokenKind} (hk : k ∈ TokenKind.marks) :
    ∃ m ms, k.text.toList = m :: ms ∧ ¬(m = '"' ∨ m = '\'') ∧ ∀ c ∈ ms, isPlain c = true := by
  have hall : ∀ k ∈ TokenKind.marks, k.text.toList.head?.all (fun m => !(m == '"' || m == '\'')) &&
      k.text.toList.tail.all isPlain && !k.text.toList.isEmpty := by
    decide
  have := hall k hk
  cases hspelling : k.text.toList with
  | nil => simp [hspelling] at this
  | cons m ms =>
    rw [hspelling] at this
    simp at this
    exact ⟨m, ms, rfl, by simpa using this.1, this.2⟩

variable {c : Char} {cs : List Char}

theorem prefix_blankFrom_iff (hopens : opensComment (c :: cs) = false)
    (hc : ¬(c = '"' ∨ c = '\'')) {k : TokenKind} (hk : k ∈ TokenKind.marks) :
    k.text.toList <+: blankFrom .code (c :: cs) ↔ k.text.toList <+: c :: cs := by
  obtain ⟨m, ms, hspelling, -, hplain⟩ := mark_text_plain hk
  rw [hspelling, blankFrom_plain hopens hc, List.cons_prefix_cons, List.cons_prefix_cons]
  refine and_congr_right fun _ => ⟨?_, ?_⟩
  · rintro ⟨rest', h⟩
    obtain ⟨rest, rfl, -⟩ := exists_of_blankFrom_append hplain h.symm
    exact List.prefix_append ms rest
  · rintro ⟨rest, rfl⟩
    rw [blankFrom_append hplain]
    exact List.prefix_append ms _

theorem mark?_blankFrom (hopens : opensComment (c :: cs) = false)
    (hc : ¬(c = '"' ∨ c = '\'')) : mark? (blankFrom .code (c :: cs)) = mark? (c :: cs) := by
  refine List.find?_congr fun k hk => ?_
  rw [Bool.eq_iff_iff, List.isPrefixOf_iff_prefix, List.isPrefixOf_iff_prefix]
  exact prefix_blankFrom_iff hopens hc hk

theorem drop_mark_blankFrom (hopens : opensComment (c :: cs) = false)
    (hc : ¬(c = '"' ∨ c = '\'')) {k : TokenKind} (h : mark? (c :: cs) = some k) :
    (blankFrom .code (c :: cs)).drop k.text.length =
      blankFrom .code ((c :: cs).drop k.text.length) := by
  have hk := List.mem_of_find?_eq_some h
  obtain ⟨m, ms, hspelling, -, hplain⟩ := mark_text_plain hk
  obtain ⟨rest, hrest⟩ : k.text.toList <+: c :: cs := by
    have hfront := List.find?_some h
    exact List.isPrefixOf_iff_prefix.1 hfront
  rw [hspelling] at hrest
  obtain ⟨rfl, hcs⟩ := List.cons.inj hrest
  rw [(mark_text_size hk).2.2.2, hspelling, blankFrom_plain hopens hc,
    show cs = ms ++ rest from hcs.symm, blankFrom_append hplain]
  simp

/-! ## One token -/

/-- A lexeme with blanks for the comments behind it. -/
def Lexeme.blanked (l : Lexeme) : Lexeme :=
  { l with rest := blankFrom .code l.rest }

theorem startsNumber_blankFrom (c : Char) (cs : List Char) :
    startsNumber (c :: blankFrom .code cs) = startsNumber (c :: cs) := by
  have hplain : ∀ d, Char.isDigit d = true → isPlain d = true := isPlain_of (by decide)
  rw [Bool.eq_iff_iff, startsNumber_iff, startsNumber_iff, head?_blankFrom hplain]

/-- A token that is in order is recognised in the same way when the comments
behind it are blanks. -/
theorem exists_lexeme_blanked (hopens : opensComment (c :: cs) = false)
    (hproblem : (lexeme c cs).problem = none) :
    ∃ cs', blankFrom .code (c :: cs) = c :: cs' ∧ lexeme c cs' = (lexeme c cs).blanked := by
  by_cases hc : c = '"' ∨ c = '\''
  · refine ⟨blankFrom (.literal c) cs, by rw [blankFrom_code hopens, if_pos hc], ?_⟩
    have hclosed : (quoted c cs).closed = true := by
      rw [lexeme, if_pos hc] at hproblem
      by_contra hopen
      simp [hopen] at hproblem
    rw [lexeme, if_pos hc, lexeme, if_pos hc, quoted_blankFrom hc cs hclosed]
    rfl
  · refine ⟨blankFrom .code cs, blankFrom_plain hopens hc, ?_⟩
    have hfront := blankFrom_plain hopens hc
    have hstarts := startsNumber_blankFrom c cs
    by_cases hnumber : startsNumber (c :: cs) = true
    · obtain ⟨hsame, hrest⟩ := steady_numeral (c :: cs)
      rw [hfront] at hsame hrest
      rw [lexeme, if_neg hc, if_pos (hstarts.trans hnumber), lexeme, if_neg hc, if_pos hnumber]
      simp only [hsame, hrest]
      rfl
    · have hnumber' : ¬startsNumber (c :: blankFrom .code cs) = true := by rwa [hstarts]
      by_cases hname : isNameStart c = true
      · obtain ⟨hsame, hrest⟩ := steady_word (c :: cs)
        rw [hfront] at hsame hrest
        rw [lexeme, if_neg hc, if_neg hnumber', if_pos hname, lexeme, if_neg hc, if_neg hnumber,
          if_pos hname]
        simp only [hsame, hrest]
        rfl
      · have hmark := mark?_blankFrom hopens hc
        rw [hfront] at hmark
        rw [lexeme, if_neg hc, if_neg hnumber', if_neg hname, lexeme, if_neg hc, if_neg hnumber,
          if_neg hname, hmark]
        cases hk : mark? (c :: cs) with
        | none =>
          rw [lexeme, if_neg hc, if_neg hnumber, if_neg hname, hk] at hproblem
          cases hproblem
        | some k =>
          have hrest := drop_mark_blankFrom hopens hc hk
          rw [hfront] at hrest
          dsimp only
          rw [hrest]
          rfl

/-! ## The whole text -/

/-- The same tokens, but a line may end before the last one where none has
ended. -/
inductive SameTokens : List Token → List Token → Prop
  | last {t : Token} {crossed : Bool} (h : t.kind = .endOfFile)
      (hcrossed : t.afterBreak = true → crossed = true) :
      SameTokens [t] [{ t with afterBreak := crossed }]
  | cons {ts ts' : List Token} (t : Token) (h : SameTokens ts ts') :
      SameTokens (t :: ts) (t :: ts')

theorem dropBytes?_eq_some {text rest : List Char} {n : Nat} :
    dropBytes? n text = some rest ↔ ∃ front, text = front ++ rest ∧ size front = n := by
  constructor
  · intro h
    induction text generalizing n with
    | nil =>
      cases n with
      | zero => exact ⟨[], Option.some.inj h, rfl⟩
      | succ n => cases h
    | cons c text ih =>
      cases n with
      | zero => exact ⟨[], Option.some.inj h, rfl⟩
      | succ n =>
        rw [dropBytes?] at h
        split at h
        · obtain ⟨front, hfront, hsize⟩ := ih h
          refine ⟨c :: front, by rw [hfront]; rfl, ?_⟩
          rw [size_cons, hsize]
          omega
        · cases h
  · rintro ⟨front, rfl, rfl⟩
    exact dropBytes?_size front rest

theorem dropBytes?_add {a b text : List Char} {n : Nat} (h : dropBytes? n text = some (a ++ b)) :
    dropBytes? (n + size a) text = some b := by
  obtain ⟨front, rfl, rfl⟩ := dropBytes?_eq_some.1 h
  rw [← List.append_assoc, ← size_append]
  exact dropBytes?_size (front ++ a) b

theorem opensComment_of_opensGap {cs : List Char} (h : opensGap cs = false) :
    opensComment cs = false := by
  rw [Bool.eq_false_iff, ne_eq, opensComment_iff]
  rintro ⟨rest, rfl | rfl⟩ <;> cases h

/-- Only the end of the text leaves a comment open. -/
theorem skipGap_unclosed (gap : Gap) (n : Nat) (crossed : Bool) (cs : List Char)
    (h : (skipGap gap n crossed cs).rest ≠ []) : (skipGap gap n crossed cs).unclosed = none := by
  fun_induction skipGap gap n crossed cs with
  | case1 => exact absurd rfl h
  | case2 opened inner n crossed cs ih => exact ih h
  | case3 opened inner n crossed c cs hend ih => exact ih h
  | case4 => rfl
  | case5 n crossed cs ih => exact ih h
  | case6 n crossed c cs hc ih => exact ih h
  | case7 => rfl
  | case8 n crossed cs ih => exact ih h
  | case9 n crossed cs ih => exact ih h
  | case10 n crossed c cs hline hblock hbreak ih => exact ih h
  | case11 n crossed c cs hline hblock hbreak hblank ih => exact ih h
  | case12 => rfl

/-- At byte offset `n` of a text, outside of comments and strings, stands
`rest`, and the same with its comments replaced. -/
structure At (text : List Char) (n : Nat) (rest : List Char) : Prop where
  before : dropBytes? n text = some rest
  after : dropBytes? n (blankComments text) = some (blankFrom .code rest)

/-- The offset is outside of comments and strings. -/
def Outside (text : List Char) (n : Nat) : Prop :=
  ∃ rest, At text n rest

theorem At.add {text : List Char} {n m : Nat} {a d b : List Char} (h : At text n (a ++ b))
    (hblank : blankFrom .code (a ++ b) = d ++ blankFrom .code b) (hm : m = n + size a)
    (hm' : m = n + size d) : At text m b where
  before := hm ▸ dropBytes?_add h.before
  after := by
    have hafter := h.after
    rw [hblank] at hafter
    exact hm' ▸ dropBytes?_add hafter

section

variable {n fuel : Nat} {cs rest : List Char} {c : Char}

theorem scanFrom_end (h : (skipGap .blank n false cs).rest = []) :
    scanFrom (fuel + 1) n cs =
      ⟨[⟨.endOfFile, (skipGap .blank n false cs).offset, (skipGap .blank n false cs).offset,
        (skipGap .blank n false cs).crossed, none⟩], (skipGap .blank n false cs).errors⟩ := by
  rw [scanFrom]
  dsimp only
  rw [h]

/-- The token that is recognised behind a gap. -/
def AfterGap.token (g : AfterGap) (l : Lexeme) : Token :=
  ⟨l.kind, g.offset, g.offset + l.width, g.crossed, l.value⟩

theorem scanFrom_token (h : (skipGap .blank n false cs).rest = c :: rest) :
    scanFrom (fuel + 1) n cs =
      (scanFrom fuel ((skipGap .blank n false cs).offset + (lexeme c rest).width)
        (lexeme c rest).rest).push ((skipGap .blank n false cs).token (lexeme c rest))
        (match (lexeme c rest).problem with
          | none => []
          | some p => [⟨(skipGap .blank n false cs).offset, (lexeme c rest).width, p⟩]) := by
  rw [scanFrom]
  dsimp only
  rw [h]
  rfl

/-- A gap of a text without errors leaves no comment open. -/
theorem unclosed_of_scanFrom (h : (scanFrom (fuel + 1) n cs).errors = []) :
    (skipGap .blank n false cs).unclosed = none := by
  cases hrest : (skipGap .blank n false cs).rest with
  | nil =>
    rw [scanFrom_end hrest] at h
    cases hopen : (skipGap .blank n false cs).unclosed with
    | none => rfl
    | some opened =>
      unfold AfterGap.errors at h
      rw [hopen] at h
      cases h
  | cons c rest => exact skipGap_unclosed _ _ _ _ (by rw [hrest]; exact List.cons_ne_nil c rest)

end

/-- What the tokens from a place on, in a text and in the text with its
comments replaced, have to do with each other. -/
structure Blanked (text : List Char) (ts ts' : List Token) : Prop where
  same : SameTokens ts ts'
  outside : ∀ t ∈ ts, Outside text t.start ∧ Outside text t.stop

theorem Blanked.cons {text : List Char} {ts ts' : List Token} {t : Token}
    (h : Blanked text ts ts') (hstart : Outside text t.start) (hstop : Outside text t.stop) :
    Blanked text (t :: ts) (t :: ts') where
  same := .cons t h.same
  outside := List.forall_mem_cons.2 ⟨⟨hstart, hstop⟩, h.outside⟩

theorem scanFrom_blanked {text : List Char} {fuel fuel' n : Nat} {cs : List Char}
    (hfuel : cs.length < fuel) (hfuel' : (blankFrom .code cs).length < fuel')
    (hat : At text n cs) (herrors : (scanFrom fuel n cs).errors = []) :
    Blanked text (scanFrom fuel n cs).tokens (scanFrom fuel' n (blankFrom .code cs)).tokens := by
  induction fuel generalizing fuel' n cs with
  | zero => exact absurd hfuel (Nat.not_lt_zero _)
  | succ fuel ih =>
    obtain ⟨fuel', rfl⟩ := Nat.exists_eq_succ_of_ne_zero (Nat.ne_zero_of_lt hfuel')
    have hclosed := unclosed_of_scanFrom herrors
    have hsame : SameGap (skipGap .blank n false cs)
        (skipGap .blank n false (blankFrom .code cs)) :=
      sameGap hclosed (show Gap.blank.Agree false false from rfl)
    obtain ⟨gap, hgap⟩ := exists_skipped n false cs
    obtain ⟨gap', hgap'⟩ := exists_skipped n false (blankFrom .code cs)
    have htext' := hgap'.text
    rw [hsame.rest] at htext'
    have hafter : At text (skipGap .blank n false cs).offset (skipGap .blank n false cs).rest := by
      refine At.add (a := gap) (d := gap') ?_ ?_ hgap.offset (hsame.offset ▸ hgap'.offset)
      · rw [← hgap.text]
        exact hat
      · rw [← hgap.text, ← htext']
    cases hrest : (skipGap .blank n false cs).rest with
    | nil =>
      have hrest' : (skipGap .blank n false (blankFrom .code cs)).rest = [] := by
        rw [hsame.rest, hrest, blankFrom_nil]
      rw [scanFrom_end hrest, scanFrom_end hrest', hsame.offset]
      refine ⟨.last rfl hsame.crossed_of, fun t ht => ?_⟩
      cases List.mem_singleton.1 ht
      exact ⟨⟨_, hafter⟩, ⟨_, hafter⟩⟩
    | cons c rest =>
      have hne : (skipGap .blank n false cs).rest ≠ [] := by
        rw [hrest]
        exact List.cons_ne_nil c rest
      have hopens : opensComment (c :: rest) = false :=
        hrest ▸ opensComment_of_opensGap (hgap.inner hne).2
      rw [scanFrom_token hrest] at herrors ⊢
      obtain ⟨hproblem, hlater⟩ := List.append_eq_nil_iff.1 herrors
      have hproblem : (lexeme c rest).problem = none := by
        cases hp : (lexeme c rest).problem with
        | none => rfl
        | some p =>
          rw [hp] at hproblem
          cases hproblem
      obtain ⟨rest', hfront, hlexeme⟩ := exists_lexeme_blanked hopens hproblem
      have hrest' : (skipGap .blank n false (blankFrom .code cs)).rest = c :: rest' := by
        rw [hsame.rest, hrest, hfront]
      have htoken : (skipGap .blank n false (blankFrom .code cs)).token (lexeme c rest') =
          (skipGap .blank n false cs).token (lexeme c rest) := by
        rw [hlexeme]
        unfold AfterGap.token
        rw [hsame.offset, hsame.crossed hne]
        rfl
      obtain ⟨tail, hword⟩ := exists_tail c rest
      obtain ⟨tail', hword'⟩ := exists_tail c rest'
      have hcs : c :: rest = c :: tail ++ (lexeme c rest).rest := congrArg (c :: ·) hword.text
      have hcs' : c :: rest' = c :: tail' ++ blankFrom .code (lexeme c rest).rest := by
        have htail := hword'.text
        rw [hlexeme] at htail
        exact congrArg (c :: ·) htail
      have hwidth' : (lexeme c rest).width = size (c :: tail') := by
        have hwidth := hword'.width
        rwa [hlexeme] at hwidth
      have hstop : At text ((skipGap .blank n false cs).offset + (lexeme c rest).width)
          (lexeme c rest).rest := by
        rw [hrest, hcs] at hafter
        refine hafter.add ?_ (congrArg _ hword.width) (congrArg _ hwidth')
        rw [← hcs, hfront, hcs']
      rw [scanFrom_token hrest', htoken, hsame.offset, hlexeme]
      refine Blanked.cons (ih ?_ ?_ hstop hlater) ⟨_, hafter⟩ ⟨_, hstop⟩
      · rw [hgap.text, hrest, hcs] at hfuel
        simp only [List.length_append, List.length_cons] at hfuel
        omega
      · rw [htext', hrest, hfront, hcs'] at hfuel'
        simp only [List.length_append, List.length_cons] at hfuel'
        omega

/-- **Comments are blanks to the scanner.** A text that is scanned without
errors has the same tokens when its comments are replaced by blanks, at the
same places, and all of them start and stop outside of comments. -/
theorem scan_blanked {text : List Char} (herrors : (scan text).errors = []) :
    Blanked text (scan text).tokens (scan (blankComments text)).tokens :=
  scanFrom_blanked (Nat.lt_succ_self _) (Nat.lt_succ_self _)
    ⟨by rw [dropBytes?], by rw [dropBytes?]; rfl⟩ herrors

/-! ## Words -/

theorem isWord_of_isName {k : TokenKind} (h : k.isName = true) : k.isWord = true := by
  unfold TokenKind.isName at h
  unfold TokenKind.isWord
  rcases Bool.or_eq_true_iff.1 h with h | h <;> simp [h]

theorem text_ne_empty (k : TokenKind) : k.text ≠ "" := by
  cases k <;> decide

theorem wordToken_spelled {word : List Char} (h : word ≠ []) :
    (wordToken word).2.getD (wordToken word).1.text ≠ "" := by
  unfold wordToken
  split
  · exact text_ne_empty _
  · exact fun hempty => h (String.ofList_eq_empty_iff.1 hempty)

/-- A token that can be a name has characters. -/
theorem lexeme_spelled (c : Char) (cs : List Char) (h : (lexeme c cs).kind.isWord = true) :
    (lexeme c cs).value.getD (lexeme c cs).kind.text ≠ "" := by
  unfold lexeme at h ⊢
  split at h
  · cases h
  · rename_i hquote
    rw [if_neg hquote]
    split at h
    · cases h
    · rename_i hnumber
      rw [if_neg hnumber]
      split at h
      · rename_i hname
        rw [if_pos hname]
        refine wordToken_spelled ?_
        rw [List.takeWhile_cons_of_pos (by unfold isNameStart at hname; simp [isNamePart, hname])]
        exact List.cons_ne_nil _ _
      · rename_i hname
        rw [if_neg hname]
        split at h
        · exact text_ne_empty _
        · cases h

theorem scanFrom_spelled (fuel n : Nat) (cs : List Char) :
    ∀ t ∈ (scanFrom fuel n cs).tokens, t.kind.isWord = true → t.value.getD t.kind.text ≠ "" := by
  induction fuel generalizing n cs with
  | zero =>
    intro t ht hname
    cases List.mem_singleton.1 ht
    cases hname
  | succ fuel ih =>
    intro t ht hname
    cases hrest : (skipGap .blank n false cs).rest with
    | nil =>
      rw [scanFrom_end hrest] at ht
      cases List.mem_singleton.1 ht
      cases hname
    | cons c rest =>
      rw [scanFrom_token hrest] at ht
      rcases List.mem_cons.1 ht with rfl | ht
      · exact lexeme_spelled c rest hname
      · exact ih _ _ t ht hname

/-- Words in a text have characters. -/
theorem scan_spelled (text : List Char) :
    ∀ t ∈ (scan text).tokens, t.kind.isWord = true → t.value.getD t.kind.text ≠ "" :=
  scanFrom_spelled _ _ _

end ScriptAnalysis.Lexer
