import ScriptAnalysis.Token.Lexer

/-!
# What stands between tokens

Between two tokens of a text stand blanks and comments and nothing else.

**Specification.** `Trivia` are the texts made of blanks and comments that
are ended; `OpenComment` is a comment that the end of the text cuts off, or
nothing. Neither says how the characters are walked through.

**Results.**
* `skipGap_lineComment`, `skipGap_blockComment`: the walk through a comment
  stops behind the first end of it.
* `exists_skipped`: the walk over a gap passes blanks and comments only, and
  as many as there are.
* `skipGap_of_not_opensGap`: where none starts it stays.
-/
namespace ScriptAnalysis.Lexer

open Text

/-! ## Blanks and comments -/

/-- Blanks and line ends. -/
def isGapChar (c : Char) : Bool :=
  c == '\n' || c == '\r' || isLineSeparator c || isBlank c

/-- A blank or a comment starts here. -/
def opensGap : List Char → Bool
  | '/' :: '/' :: _ => true
  | '/' :: '*' :: _ => true
  | c :: _ => isGapChar c
  | [] => false

/-- Blanks and comments, all of which are ended. A line comment ends with a
line feed, a block comment with the first mark for it. -/
inductive Trivia : List Char → Prop
  | nil : Trivia []
  | blank {c : Char} {rest : List Char} (hc : isGapChar c = true) (h : Trivia rest) :
      Trivia (c :: rest)
  | lineComment {body rest : List Char} (hbody : '\n' ∉ body) (h : Trivia rest) :
      Trivia ('/' :: '/' :: (body ++ '\n' :: rest))
  | blockComment {body rest : List Char} (hbody : ¬ ['*', '/'] <:+: body) (h : Trivia rest) :
      Trivia ('/' :: '*' :: (body ++ '*' :: '/' :: rest))

/-- A comment up to the end of the text without an end of its own, or
nothing. -/
inductive OpenComment : List Char → Prop
  | nil : OpenComment []
  | lineComment {body : List Char} (hbody : '\n' ∉ body) : OpenComment ('/' :: '/' :: body)
  | blockComment {body : List Char} (hbody : ¬ ['*', '/'] <:+: body) :
      OpenComment ('/' :: '*' :: body)

theorem opensGap_append {cs : List Char} (rest : List Char) (h : opensGap cs = true) :
    opensGap (cs ++ rest) = true := by
  unfold opensGap at h
  split at h
  · rfl
  · rfl
  · rename_i c cs _ _
    show opensGap (c :: (cs ++ rest)) = true
    unfold opensGap
    split
    · rfl
    · rfl
    · rename_i heq
      rw [← (List.cons.inj heq).1]
      exact h
    · rename_i heq
      cases heq
  · cases h

/-! ## The walk through a comment -/

theorem skipGap_lineComment (n : Nat) (crossed : Bool) (cs : List Char) :
    ('\n' ∉ cs ∧ skipGap .lineComment n crossed cs = ⟨[], n + size cs, crossed, none⟩) ∨
    ∃ body rest, cs = body ++ '\n' :: rest ∧ '\n' ∉ body ∧
      skipGap .lineComment n crossed cs = skipGap .blank (n + size body + 1) true rest := by
  induction cs generalizing n with
  | nil => exact .inl ⟨List.not_mem_nil, rfl⟩
  | cons c cs ih =>
    rw [skipGap]
    by_cases hc : c = '\n'
    · rw [if_pos hc]
      exact .inr ⟨[], cs, by rw [hc]; rfl, List.not_mem_nil, rfl⟩
    · rw [if_neg hc]
      rcases ih (n + c.utf8Size) with ⟨hcs, hskip⟩ | ⟨body, rest, hcs, hbody, hskip⟩
      · refine .inl ⟨fun hmem => ?_, ?_⟩
        · rcases List.mem_cons.1 hmem with h | h
          · exact hc h.symm
          · exact hcs h
        · rw [hskip, size_cons, Nat.add_assoc]
      · refine .inr ⟨c :: body, rest, by rw [hcs]; rfl, fun hmem => ?_, ?_⟩
        · rcases List.mem_cons.1 hmem with h | h
          · exact hc h.symm
          · exact hbody h
        · rw [hskip, size_cons, ← Nat.add_assoc]

/-- The end of a comment does not start at a character that is followed by
none. -/
theorem not_end_infix_cons {c : Char} {body : List Char} (after : List Char)
    (hbody : ¬ ['*', '/'] <:+: body) (hfirst : ∀ rest, c = '*' → body ++ after ≠ '/' :: rest) :
    ¬ ['*', '/'] <:+: c :: body := by
  intro h
  rcases List.infix_cons_iff.1 h with ⟨rest, hrest⟩ | h
  · obtain ⟨hc, hrest⟩ := List.cons.inj hrest
    exact hfirst (rest ++ after) hc.symm (by rw [← hrest]; rfl)
  · exact hbody h

theorem skipGap_blockComment (opened n : Nat) (inner crossed : Bool) (cs : List Char) :
    (¬ ['*', '/'] <:+: cs ∧ skipGap (.blockComment opened inner) n crossed cs =
      ⟨[], n + size cs, crossed, some opened⟩) ∨
    ∃ body rest crossed', cs = body ++ '*' :: '/' :: rest ∧ ¬ ['*', '/'] <:+: body ∧
      skipGap (.blockComment opened inner) n crossed cs =
        skipGap .blank (n + size body + 2) crossed' rest := by
  induction cs generalizing n inner with
  | nil => exact .inl ⟨by simp, rfl⟩
  | cons c cs ih =>
    by_cases hend : ∃ rest, c = '*' ∧ cs = '/' :: rest
    · obtain ⟨rest, rfl, rfl⟩ := hend
      exact .inr ⟨[], rest, crossed || inner, rfl, by simp, by rw [skipGap]; rfl⟩
    · have hstep : skipGap (.blockComment opened inner) n crossed (c :: cs) =
          skipGap (.blockComment opened (inner || c == '\n' || c == '\r')) (n + c.utf8Size)
            crossed cs := by
        rw [skipGap]
        rintro rest ⟨⟩ rfl
        exact hend ⟨rest, rfl, rfl⟩
      rw [hstep]
      rcases ih (n + c.utf8Size) _ with ⟨hcs, hskip⟩ | ⟨body, rest, crossed', hcs, hbody, hskip⟩
      · refine .inl ⟨not_end_infix_cons [] hcs fun rest hc hrest => ?_, ?_⟩
        · rw [List.append_nil] at hrest
          exact hend ⟨rest, hc, hrest⟩
        · rw [hskip, size_cons, Nat.add_assoc]
      · refine .inr ⟨c :: body, rest, crossed', by rw [hcs]; rfl,
          not_end_infix_cons ('*' :: '/' :: rest) hbody fun rest' hc hrest => ?_, ?_⟩
        · exact hend ⟨rest', hc, hcs.trans hrest⟩
        · rw [hskip, size_cons, ← Nat.add_assoc]

/-! ## The walk over a gap -/

/-- From offset `n` on, `gap` is passed over: blanks and comments, up to
where none starts or up to the end of the text. -/
structure Skipped (n : Nat) (cs : List Char) (g : AfterGap) (gap : List Char) : Prop where
  text : cs = gap ++ g.rest
  offset : g.offset = n + size gap
  inner : g.rest ≠ [] → Trivia gap ∧ opensGap g.rest = false
  last : g.rest = [] → ∃ before comment, gap = before ++ comment ∧ Trivia before ∧
    OpenComment comment

/-- A blank or a comment in front. -/
theorem Skipped.prepend {n : Nat} {cs gap : List Char} {g : AfterGap} (p : List Char)
    (h : Skipped (n + size p) cs g gap) (hp : ∀ t, Trivia t → Trivia (p ++ t)) :
    Skipped n (p ++ cs) g (p ++ gap) where
  text := by rw [List.append_assoc, ← h.text]
  offset := by rw [h.offset, size_append, Nat.add_assoc]
  inner hrest := (h.inner hrest).imp_left (hp gap)
  last hrest := by
    obtain ⟨before, comment, rfl, hbefore, hcomment⟩ := h.last hrest
    exact ⟨p ++ before, comment, (List.append_assoc ..).symm, hp before hbefore, hcomment⟩

/-- A comment that the end of the text cuts off. -/
theorem Skipped.cut {n : Nat} {cs : List Char} {g : AfterGap} (hcs : OpenComment cs)
    (hrest : g.rest = []) (hoffset : g.offset = n + size cs) : Skipped n cs g cs where
  text := by rw [hrest, List.append_nil]
  offset := hoffset
  inner h := absurd hrest h
  last _ := ⟨[], cs, rfl, .nil, hcs⟩

theorem skipGap_of_not_opensGap {cs : List Char} (hcs : cs ≠ []) (h : opensGap cs = false)
    (n : Nat) (crossed : Bool) : skipGap .blank n crossed cs = ⟨cs, n, crossed, none⟩ := by
  unfold opensGap at h
  split at h
  · cases h
  · cases h
  · rename_i c cs hline hblock
    unfold isGapChar at h
    simp only [Bool.or_eq_false_iff, beq_eq_false_iff_ne, ne_eq] at h
    obtain ⟨⟨⟨hfeed, hreturn⟩, hseparator⟩, hblank⟩ := h
    rw [skipGap]
    · simp [hfeed, hreturn, hseparator, hblank]
    · rintro rest rfl rfl
      exact hline rest rfl rfl
    · rintro rest rfl rfl
      exact hblock rest rfl rfl
  · exact absurd rfl hcs

theorem skipGap_gapChar {c : Char} (hc : isGapChar c = true) (n : Nat) (crossed : Bool)
    (cs : List Char) :
    ∃ crossed', skipGap .blank n crossed (c :: cs) =
      skipGap .blank (n + c.utf8Size) crossed' cs := by
  have hslash : c ≠ '/' := by
    rintro rfl
    exact absurd hc (by decide)
  rw [skipGap]
  · unfold isGapChar at hc
    split
    · exact ⟨true, rfl⟩
    · rename_i hbreak
      have hblank : isBlank c = true := by
        simp only [not_or] at hbreak
        simpa [hbreak] using hc
      rw [if_pos hblank]
      exact ⟨crossed, rfl⟩
  · rintro rest h
    exact absurd h hslash
  · rintro rest h
    exact absurd h hslash

theorem size_lineComment (body : List Char) :
    size ('/' :: '/' :: (body ++ ['\n'])) = 2 + size body + 1 := by
  show 1 + (1 + size (body ++ ['\n'])) = _
  rw [size_append]
  show 1 + (1 + (size body + 1)) = _
  omega

theorem size_blockComment (body : List Char) :
    size ('/' :: '*' :: (body ++ ['*', '/'])) = 2 + size body + 2 := by
  show 1 + (1 + size (body ++ ['*', '/'])) = _
  rw [size_append]
  show 1 + (1 + (size body + 2)) = _
  omega

theorem Skipped.after_lineComment {n : Nat} {body rest gap : List Char} {g : AfterGap}
    (hbody : '\n' ∉ body) (h : Skipped (n + 2 + size body + 1) rest g gap) :
    ∃ gap, Skipped n ('/' :: '/' :: (body ++ '\n' :: rest)) g gap := by
  have hn : n + 2 + size body + 1 = n + size ('/' :: '/' :: (body ++ ['\n'])) := by
    rw [size_lineComment]
    omega
  rw [hn] at h
  have hgap := h.prepend _ fun t ht => by
    simpa only [List.cons_append, List.append_assoc, List.nil_append]
      using Trivia.lineComment hbody ht
  exact ⟨_, by simpa only [List.cons_append, List.append_assoc, List.nil_append] using hgap⟩

theorem Skipped.after_blockComment {n : Nat} {body rest gap : List Char} {g : AfterGap}
    (hbody : ¬ ['*', '/'] <:+: body) (h : Skipped (n + 2 + size body + 2) rest g gap) :
    ∃ gap, Skipped n ('/' :: '*' :: (body ++ '*' :: '/' :: rest)) g gap := by
  have hn : n + 2 + size body + 2 = n + size ('/' :: '*' :: (body ++ ['*', '/'])) := by
    rw [size_blockComment]
    omega
  rw [hn] at h
  have hgap := h.prepend _ fun t ht => by
    simpa only [List.cons_append, List.append_assoc, List.nil_append]
      using Trivia.blockComment hbody ht
  exact ⟨_, by simpa only [List.cons_append, List.append_assoc, List.nil_append] using hgap⟩

/-- Blanks and comments are passed over, as many as there are. -/
theorem exists_skipped (n : Nat) (crossed : Bool) (cs : List Char) :
    ∃ gap, Skipped n cs (skipGap .blank n crossed cs) gap := by
  -- A comment is passed over as a whole, so the induction is on the length.
  induction hlength : cs.length using Nat.strongRecOn generalizing n crossed cs with
  | ind length ih =>
    subst hlength
    by_cases hopen : opensGap cs = true
    · unfold opensGap at hopen
      split at hopen
      · rename_i cs
        rw [skipGap]
        rcases skipGap_lineComment (n + 2) crossed cs with
          ⟨hcs, hskip⟩ | ⟨body, rest, rfl, hbody, hskip⟩
        · rw [hskip]
          refine ⟨_, .cut (.lineComment hcs) rfl ?_⟩
          show n + 2 + size cs = n + (1 + (1 + size cs))
          omega
        · rw [hskip]
          have hshort : rest.length < ('/' :: '/' :: (body ++ '\n' :: rest)).length := by
            simp only [List.length_cons, List.length_append]
            omega
          obtain ⟨gap, hgap⟩ := ih rest.length hshort (n + 2 + size body + 1) true rest rfl
          exact hgap.after_lineComment hbody
      · rename_i cs
        rw [skipGap]
        rcases skipGap_blockComment n (n + 2) false crossed cs with
          ⟨hcs, hskip⟩ | ⟨body, rest, crossed', rfl, hbody, hskip⟩
        · rw [hskip]
          refine ⟨_, .cut (.blockComment hcs) rfl ?_⟩
          show n + 2 + size cs = n + (1 + (1 + size cs))
          omega
        · rw [hskip]
          have hshort : rest.length < ('/' :: '*' :: (body ++ '*' :: '/' :: rest)).length := by
            simp only [List.length_cons, List.length_append]
            omega
          obtain ⟨gap, hgap⟩ := ih rest.length hshort (n + 2 + size body + 2) crossed' rest rfl
          exact hgap.after_blockComment hbody
      · rename_i c cs _ _
        obtain ⟨crossed', hskip⟩ := skipGap_gapChar hopen n crossed cs
        rw [hskip]
        obtain ⟨gap, hgap⟩ := ih cs.length (by simp) (n + c.utf8Size) crossed' cs rfl
        exact ⟨_, hgap.prepend [c] fun t ht => .blank hopen ht⟩
      · cases hopen
    · by_cases hcs : cs = []
      · subst hcs
        exact ⟨[], .cut .nil rfl rfl⟩
      · have hclosed : opensGap cs = false := Bool.eq_false_iff.2 hopen
        rw [skipGap_of_not_opensGap hcs hclosed]
        exact ⟨[], rfl, rfl, fun _ => ⟨.nil, hclosed⟩, fun h => absurd h hcs⟩

end ScriptAnalysis.Lexer
