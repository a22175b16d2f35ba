import ScriptAnalysis.Proofs.Token.Found

/-!
# Line ends between two tokens

A token knows whether a line ends in the gap in front of it, and the parser lets a
statement end there. Four characters end a line, but comments hide some of them.

**Specification.** `Counts` says which line ends of a gap count, by what stands around
them: outside of comments all four; behind `//` the line feed alone, up to which such a
comment lasts; in a block comment a line feed or a carriage return, if the comment is
closed. A line end that is not noted may be the only one of its gap
(`return_in_lineComment`).

**Steps.** `skipGap_trivia` for blanks and comments in front, `skipGap_lineFeed` and
`skipGap_close` for the way through a comment, `crossed_of_crossed`: what was noted
stays so.

**Results.**
* `crossed_iff`: a gap counts as a line break if and only if it has a line end that is
  noted.
* `scan_afterBreak`: the same for every token of a text but the first.
-/
namespace ScriptAnalysis.Lexer

open Text

/-! ## What ends a line -/

/-- Line feed, carriage return, and the two separators. -/
def isLineEnd (c : Char) : Bool :=
  c == '\n' || c == '\r' || c == '\u2028' || c == '\u2029'

/-- In a gap, the line end `c` between `front` and `rest` counts. -/
inductive Counts : List Char → Char → List Char → Prop
  | outside {front rest : List Char} {c : Char} (hfront : Trivia front)
      (hc : isLineEnd c = true) : Counts front c rest
  | lineComment {front body rest : List Char} (hfront : Trivia front) (hbody : '\n' ∉ body) :
      Counts (front ++ '/' :: '/' :: body) '\n' rest
  | blockComment {front body inner rest : List Char} {c : Char} (hfront : Trivia front)
      (hbody : ¬ ['*', '/'] <:+: body ++ c :: inner) (hc : c = '\n' ∨ c = '\r') :
      Counts (front ++ '/' :: '*' :: body) c (inner ++ '*' :: '/' :: rest)

/-- A gap with a line end that counts. -/
def Crosses (gap : List Char) : Prop :=
  ∃ front c rest, gap = front ++ c :: rest ∧ Counts front c rest

theorem isLineEnd_iff (c : Char) :
    isLineEnd c = true ↔ c = '\n' ∨ c = '\r' ∨ isLineSeparator c = true := by
  have hseparator : isLineSeparator c = true ↔ c = '\u2028' ∨ c = '\u2029' := by
    simp only [isLineSeparator, Bool.or_eq_true, beq_iff_eq, ← Char.toNat_inj]
    rfl
  simp only [isLineEnd, Bool.or_eq_true, beq_iff_eq, hseparator, or_assoc]

theorem Counts.isLineEnd {front rest : List Char} {c : Char} (h : Counts front c rest) :
    Lexer.isLineEnd c = true := by
  cases h with
  | outside _ hc => exact hc
  | lineComment => rfl
  | blockComment _ _ hc => rcases hc with rfl | rfl <;> rfl

theorem isGapChar_of_isLineEnd {c : Char} (h : isLineEnd c = true) : isGapChar c = true := by
  rw [isLineEnd_iff] at h
  unfold isGapChar
  rcases h with rfl | rfl | h
  · rfl
  · rfl
  · simp [h]

theorem Trivia.append {a b : List Char} (ha : Trivia a) (hb : Trivia b) : Trivia (a ++ b) := by
  induction ha with
  | nil => exact hb
  | blank hc _ ih => exact .blank hc ih
  | lineComment hbody _ ih =>
    simpa only [List.cons_append, List.append_assoc] using Trivia.lineComment hbody ih
  | blockComment hbody _ ih =>
    simpa only [List.cons_append, List.append_assoc] using Trivia.blockComment hbody ih

/-- What counts in a gap counts behind blanks and comments too. -/
theorem Crosses.prepend {gap : List Char} (h : Crosses gap) {p : List Char} (hp : Trivia p) :
    Crosses (p ++ gap) := by
  obtain ⟨front, c, rest, rfl, hnoted⟩ := h
  refine ⟨p ++ front, c, rest, (List.append_assoc ..).symm, ?_⟩
  cases hnoted with
  | outside hfront hc => exact .outside (hp.append hfront) hc
  | lineComment hfront hbody =>
    rw [← List.append_assoc]
    exact .lineComment (hp.append hfront) hbody
  | blockComment hfront hbody hc =>
    rw [← List.append_assoc]
    exact .blockComment (hp.append hfront) hbody hc

/-- What counts in a gap counts whatever stands behind it. -/
theorem Crosses.append {gap : List Char} (h : Crosses gap) (more : List Char) :
    Crosses (gap ++ more) := by
  obtain ⟨front, c, rest, rfl, hnoted⟩ := h
  refine ⟨front, c, rest ++ more, by simp, ?_⟩
  cases hnoted with
  | outside hfront hc => exact .outside hfront hc
  | lineComment hfront hbody => exact .lineComment hfront hbody
  | blockComment hfront hbody hc =>
    rw [List.append_assoc]
    exact .blockComment hfront hbody hc

/-! ## The walk over line ends -/

/-- What was noted stays so. -/
theorem crossed_of_crossed (g : Gap) (n : Nat) {crossed : Bool} (h : crossed = true)
    (cs : List Char) : (skipGap g n crossed cs).crossed = true := by
  fun_induction skipGap g n crossed cs with
  | case1 | case4 | case7 | case12 => exact h
  | case2 opened inner n crossed cs ih => exact ih (by rw [h, Bool.true_or])
  | case3 opened inner n crossed c cs hend ih => exact ih h
  | case5 n crossed cs ih => exact ih rfl
  | case6 n crossed c cs hc ih => exact ih h
  | case8 n crossed cs ih => exact ih h
  | case9 n crossed cs ih => exact ih h
  | case10 n crossed c cs hline hblock hbreak ih => exact ih rfl
  | case11 n crossed c cs hline hblock hbreak hblank ih => exact ih h

theorem skipGap_gapChar_eq {c : Char} (hc : isGapChar c = true) (n : Nat) (crossed : Bool)
    (cs : List Char) : skipGap .blank n crossed (c :: cs) =
      skipGap .blank (n + c.utf8Size) (crossed || isLineEnd c) cs := by
  have hslash : c ≠ '/' := ne_slash_of_isGapChar hc
  rw [skipGap]
  · by_cases hend : isLineEnd c = true
    · rw [if_pos ((isLineEnd_iff c).1 hend), hend, Bool.or_true]
    · have hblank : isBlank c = true := by
        rw [isLineEnd_iff] at hend
        simp only [not_or] at hend
        unfold isGapChar at hc
        simpa [hend] using hc
      rw [if_neg (fun h => hend ((isLineEnd_iff c).2 h)), if_pos hblank,
        Bool.eq_false_iff.2 hend, Bool.or_false]
  · rintro rest h
    exact absurd h hslash
  · rintro rest h
    exact absurd h hslash

/-- A line comment lasts to the first line feed, which counts. -/
theorem skipGap_lineFeed {body : List Char} (hbody : '\n' ∉ body) (n : Nat) (crossed : Bool)
    (rest : List Char) : skipGap .lineComment n crossed (body ++ '\n' :: rest) =
      skipGap .blank (n + size body + 1) true rest := by
  induction body generalizing n with
  | nil => rw [List.nil_append, skipGap, if_pos rfl, size_nil, Nat.add_zero]
  | cons c body ih =>
    rw [List.mem_cons, not_or] at hbody
    rw [List.cons_append, skipGap, if_neg (Ne.symm hbody.1), ih hbody.2, size_cons, Nat.add_assoc n]

/-- A block comment lasts to the first mark that closes it, and its line feeds and
carriage returns count. -/
theorem skipGap_close {body : List Char} (hbody : ¬ ['*', '/'] <:+: body) (opened n : Nat)
    (inner crossed : Bool) (rest : List Char) :
    skipGap (.blockComment opened inner) n crossed (body ++ '*' :: '/' :: rest) =
      skipGap .blank (n + size body + 2)
        (crossed || (inner || body.any fun c => c == '\n' || c == '\r')) rest := by
  induction body generalizing n inner with
  | nil => simp [skipGap]
  | cons c body ih =>
    have hrest : ¬ ['*', '/'] <:+: body := fun h => hbody (List.infix_cons h)
    have hstep : skipGap (.blockComment opened inner) n crossed
        (c :: (body ++ '*' :: '/' :: rest)) =
          skipGap (.blockComment opened (inner || c == '\n' || c == '\r')) (n + c.utf8Size) crossed
            (body ++ '*' :: '/' :: rest) := by
      rw [skipGap]
      rintro tail rfl htail
      cases body with
      | nil => cases htail
      | cons d body =>
        cases htail
        exact hbody ⟨[], body, rfl⟩
    rw [List.cons_append, hstep, ih hrest, size_cons, Nat.add_assoc n, List.any_cons]
    simp only [Bool.or_assoc]

/-- Blanks and comments are passed over, and what they count for is in them. -/
theorem skipGap_trivia {front : List Char} (h : Trivia front) (n : Nat) (crossed : Bool)
    (rest : List Char) : ∃ crossed', skipGap .blank n crossed (front ++ rest) =
        skipGap .blank (n + size front) crossed' rest ∧
      (crossed' = true → crossed = true ∨ Crosses front) := by
  induction h generalizing n crossed with
  | nil => exact ⟨crossed, rfl, .inl⟩
  | @blank c front hc hfront ih =>
    obtain ⟨crossed', hskip, hcrossed⟩ := ih (n + c.utf8Size) (crossed || isLineEnd c)
    refine ⟨crossed', ?_, fun h => ?_⟩
    · rw [List.cons_append, skipGap_gapChar_eq hc, hskip, size_cons, Nat.add_assoc]
    · rcases hcrossed h with h | h
      · rcases Bool.or_eq_true_iff.1 h with h | h
        · exact .inl h
        · exact .inr ⟨[], c, front, rfl, .outside .nil h⟩
      · exact .inr (h.prepend (.blank hc .nil))
  | @lineComment body front hbody hfront ih =>
    obtain ⟨crossed', hskip, -⟩ := ih (n + 2 + size body + 1) true
    have hsize : n + size ('/' :: '/' :: (body ++ '\n' :: front)) =
        n + 2 + size body + 1 + size front := by
      show n + (1 + (1 + size (body ++ '\n' :: front))) = _
      rw [size_append]
      show n + (1 + (1 + (size body + (1 + size front)))) = _
      omega
    refine ⟨crossed', ?_, fun _ => .inr ⟨'/' :: '/' :: body, '\n', front, rfl,
      @Counts.lineComment [] body front .nil hbody⟩⟩
    rw [List.cons_append, List.cons_append, List.append_assoc, List.cons_append, skipGap,
      skipGap_lineFeed hbody, hskip, hsize]
  | @blockComment body front hbody hfront ih =>
    obtain ⟨crossed', hskip, hcrossed⟩ := ih (n + 2 + size body + 2)
      (crossed || (false || body.any fun c => c == '\n' || c == '\r'))
    have hsize : n + size ('/' :: '*' :: (body ++ '*' :: '/' :: front)) =
        n + 2 + size body + 2 + size front := by
      show n + (1 + (1 + size (body ++ '*' :: '/' :: front))) = _
      rw [size_append]
      show n + (1 + (1 + (size body + (1 + (1 + size front))))) = _
      omega
    refine ⟨crossed', ?_, fun h => ?_⟩
    · rw [List.cons_append, List.cons_append, List.append_assoc, List.cons_append,
        List.cons_append, skipGap, skipGap_close hbody, hskip, hsize]
    · rcases hcrossed h with h | h
      · rcases Bool.or_eq_true_iff.1 h with h | h
        · exact .inl h
        · rw [Bool.false_or, List.any_eq_true] at h
          obtain ⟨c, hmem, hc⟩ := h
          simp only [Bool.or_eq_true, beq_iff_eq] at hc
          obtain ⟨before, inner, rfl⟩ := List.append_of_mem hmem
          exact .inr ⟨'/' :: '*' :: before, c, inner ++ '*' :: '/' :: front, by simp,
            @Counts.blockComment [] before inner front c .nil hbody hc⟩
      · have hcomment := h.prepend (.blockComment hbody .nil)
        exact .inr (by simpa using hcomment)

/-- A comment that the end of the text cuts off counts for nothing. -/
theorem crossed_openComment {comment : List Char} (h : OpenComment comment) (n : Nat)
    (crossed : Bool) : (skipGap .blank n crossed comment).crossed = crossed := by
  cases h with
  | nil => rfl
  | @lineComment body hbody =>
    rw [skipGap]
    rcases skipGap_lineComment (n + 2) crossed body with ⟨-, hskip⟩ | ⟨body', rest, rfl, -, -⟩
    · rw [hskip]
    · exact absurd (by simp) hbody
  | @blockComment body hbody =>
    rw [skipGap]
    rcases skipGap_blockComment n (n + 2) false crossed body with
      ⟨-, hskip⟩ | ⟨body', rest, crossed', rfl, -, -⟩
    · rw [hskip]
    · exact absurd ⟨body', rest, by simp⟩ hbody

/-! ## Gaps and tokens -/

/-- What counts in a gap is noted. -/
theorem crossed_of_crosses {gap : List Char} (h : Crosses gap) (n : Nat) (rest : List Char) :
    (skipGap .blank n false (gap ++ rest)).crossed = true := by
  obtain ⟨front, c, behind, rfl, hcounts⟩ := h
  cases hcounts with
  | outside hfront hc =>
    obtain ⟨crossed, hskip, -⟩ := skipGap_trivia hfront n false (c :: (behind ++ rest))
    rw [List.append_assoc, List.cons_append, hskip,
      skipGap_gapChar_eq (isGapChar_of_isLineEnd hc), hc, Bool.or_true]
    exact crossed_of_crossed _ _ rfl _
  | @lineComment front body behind hfront hbody =>
    obtain ⟨crossed, hskip, -⟩ := skipGap_trivia hfront n false
      ('/' :: '/' :: (body ++ '\n' :: (behind ++ rest)))
    have htext : front ++ '/' :: '/' :: body ++ '\n' :: behind ++ rest =
        front ++ '/' :: '/' :: (body ++ '\n' :: (behind ++ rest)) := by simp
    rw [htext, hskip, skipGap, skipGap_lineFeed hbody]
    exact crossed_of_crossed _ _ rfl _
  | @blockComment front body inner behind _ hfront hbody hc =>
    obtain ⟨crossed, hskip, -⟩ := skipGap_trivia hfront n false
      ('/' :: '*' :: (body ++ c :: inner ++ '*' :: '/' :: (behind ++ rest)))
    have htext : front ++ '/' :: '*' :: body ++ c :: (inner ++ '*' :: '/' :: behind) ++ rest =
        front ++ '/' :: '*' :: (body ++ c :: inner ++ '*' :: '/' :: (behind ++ rest)) := by simp
    have hany : (body ++ c :: inner).any (fun c => c == '\n' || c == '\r') = true := by
      rw [List.any_eq_true]
      exact ⟨c, by simp, by simpa using hc⟩
    rw [htext, hskip, skipGap, skipGap_close hbody, hany, Bool.or_true, Bool.or_true]
    exact crossed_of_crossed _ _ rfl _

/-- A gap that is passed over counts as a line break if and only if it has a line end
that counts. -/
theorem crossed_iff {n : Nat} {cs gap : List Char}
    (h : Skipped n cs (skipGap .blank n false cs) gap) :
    (skipGap .blank n false cs).crossed = true ↔ Crosses gap := by
  refine ⟨fun hcrossed => ?_, fun hcrosses => ?_⟩
  · by_cases hrest : (skipGap .blank n false cs).rest = []
    · obtain ⟨before, comment, rfl, hbefore, hcomment⟩ := h.last hrest
      have hcs : cs = before ++ comment := by rw [h.text, hrest, List.append_nil]
      obtain ⟨crossed, hskip, hback⟩ := skipGap_trivia hbefore n false comment
      rw [hcs, hskip, crossed_openComment hcomment] at hcrossed
      exact ((hback hcrossed).resolve_left Bool.false_ne_true).append comment
    · obtain ⟨htrivia, hopens⟩ := h.inner hrest
      obtain ⟨crossed, hskip, hback⟩ :=
        skipGap_trivia htrivia n false (skipGap .blank n false cs).rest
      rw [← h.text, skipGap_of_not_opensGap hrest hopens] at hskip
      have hsame : (skipGap .blank n false cs).crossed = crossed := congrArg AfterGap.crossed hskip
      exact (hback (hsame ▸ hcrossed)).resolve_left Bool.false_ne_true
  · have htext := h.text
    generalize (skipGap .blank n false cs).rest = rest at htext
    rw [htext]
    exact crossed_of_crosses hcrosses n rest

/-- Between a token and the one in front of it stand blanks and comments, of which only
the end of the text cuts one off. A line break is noted there if and only if there is a
line end that counts; so it is noted only where there is a line end. -/
theorem scan_afterBreak {text : List Char} {before after : List Token} {prev t : Token}
    (h : (scan text).tokens = before ++ prev :: t :: after) :
    ∃ gap, slice? text prev.stop t.start = some gap ∧
      (∃ comments cut, gap = comments ++ cut ∧ Trivia comments ∧ OpenComment cut ∧
        (t.kind ≠ .endOfFile → cut = [])) ∧
      (t.afterBreak = true ↔ ∃ front c rest, gap = front ++ c :: rest ∧ Counts front c rest) ∧
      (t.afterBreak = true → ∃ c ∈ gap, isLineEnd c = true) := by
  have hsplit : (scan text).tokens = (before ++ [prev]) ++ t :: after := by simp [h]
  have hstop : stopAfter 0 (before ++ [prev]) = prev.stop := by simp [stopAfter]
  obtain ⟨front, cs, rfl, hfront, hround⟩ := hstop ▸ scan_found hsplit
  obtain ⟨gap, hgap⟩ := exists_skipped prev.stop false cs
  have hcut : slice? (front ++ cs) prev.stop (skipGap .blank prev.stop false cs).offset =
      some gap := by
    rw [hgap.offset]
    conv => lhs; rw [hgap.text, ← hfront]
    exact slice?_size front gap _
  have hcrossed := crossed_iff hgap
  have hlineEnd (h : (skipGap .blank prev.stop false cs).crossed = true) :
      ∃ c ∈ gap, isLineEnd c = true := by
    obtain ⟨before, c, behind, rfl, hcounts⟩ := hcrossed.1 h
    exact ⟨c, by simp, hcounts.isLineEnd⟩
  rcases hround with ⟨hrest, rfl⟩ | ⟨c, rest, hrest, rfl, -⟩
  · refine ⟨gap, hcut, ?_, hcrossed, hlineEnd⟩
    obtain ⟨comments, cut, hsplit, hcomments, hopen⟩ := hgap.last hrest
    exact ⟨comments, cut, hsplit, hcomments, hopen, fun hkind => absurd rfl hkind⟩
  · refine ⟨gap, hcut, ⟨gap, [], by simp, ?_, .nil, fun _ => rfl⟩, hcrossed, hlineEnd⟩
    exact (hgap.inner (by rw [hrest]; exact List.cons_ne_nil c rest)).1

theorem scan_afterBreak_feed :
    (scan "a\nb".toList).tokens = [] ++ ⟨.identifier, 0, 1, false, some "a"⟩ ::
        ⟨.identifier, 2, 3, true, some "b"⟩ :: [⟨.endOfFile, 3, 3, false, none⟩] ∧
      ∃ gap, slice? "a\nb".toList 1 2 = some gap ∧
        (∃ comments cut, gap = comments ++ cut ∧ Trivia comments ∧ OpenComment cut ∧
          (TokenKind.identifier ≠ .endOfFile → cut = [])) ∧
        (true = true ↔ ∃ front c rest, gap = front ++ c :: rest ∧ Counts front c rest) ∧
        (true = true → ∃ c ∈ gap, isLineEnd c = true) := by
  have htokens : (scan "a\nb".toList).tokens = [] ++ ⟨.identifier, 0, 1, false, some "a"⟩ ::
      ⟨.identifier, 2, 3, true, some "b"⟩ :: [⟨.endOfFile, 3, 3, false, none⟩] := by
    rw [String.toList_ofList]
    decide +kernel
  exact ⟨htokens, scan_afterBreak htokens⟩

/-- A line comment passes over a carriage return, takes the next line with it, and the
end of the text has no line break in front of it. -/
theorem return_in_lineComment :
    (scan "a // c\rb".toList).tokens =
        [⟨.identifier, 0, 1, false, some "a"⟩, ⟨.endOfFile, 8, 8, false, none⟩] ∧
      slice? "a // c\rb".toList 1 8 = some " // c\rb".toList ∧
      ∃ c ∈ " // c\rb".toList, isLineEnd c = true :=
  ⟨by decide +kernel, by decide +kernel, '\r', by decide, rfl⟩

end ScriptAnalysis.Lexer
