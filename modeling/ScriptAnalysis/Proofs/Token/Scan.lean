import ScriptAnalysis.Proofs.Token.Lexeme

/-!
# The whole of a text is scanned

`scan` cuts a text into words and what stands between them, and loses
nothing of it.

**Specification.** `Cut` says what a list of tokens has to do with a text:
by turns a gap of blanks and comments and a word that is one token, then the
last gap and the end. `Accounted` says the same from the outside, with the
offsets that the tokens hold.

**Model.** One round of `scanFrom` is one `Cut.token`; each takes at least
one character, so the fuel of `scan` lasts.

**Results.**
* `scan_word`: a word is scanned as one token when nothing follows it.
* `Cut.scanFrom`: the tokens from an offset on cut the text from there.
* `scan_accounted`: every character of every text stands in one token or in
  the gap before one, and every token is what its own text is scanned as.
-/
namespace ScriptAnalysis.Lexer

open Text

/-! ## A word by itself -/

/-- The tokens of a text that is the token `t` and nothing else. -/
def alone (t : Token) (word : List Char) : List Token :=
  [⟨t.kind, 0, size word, false, t.value⟩, ⟨.endOfFile, size word, size word, false, none⟩]

theorem scan_word {c : Char} {cs tail : List Char} (h : IsWord c cs tail)
    (hopens : opensGap (c :: tail) = false) :
    (scan (c :: tail)).tokens =
      [⟨(lexeme c cs).kind, 0, size (c :: tail), false, (lexeme c cs).value⟩,
        ⟨.endOfFile, size (c :: tail), size (c :: tail), false, none⟩] := by
  have hgap : skipGap .blank 0 false (c :: tail) = ⟨c :: tail, 0, false, none⟩ :=
    skipGap_of_not_opensGap (List.cons_ne_nil c tail) hopens 0 false
  unfold scan scanFrom
  rw [hgap]
  dsimp only
  rw [h.alone]
  dsimp only [Scanned.push]
  rw [h.width, Nat.zero_add]
  rfl

/-! ## Words and gaps by turns -/

/-- From offset `n` on, the tokens cut the text `cs` into gaps and words.
After a gap no further blank or comment starts. -/
inductive Cut : Nat → List Char → List Token → Prop
  | last {n : Nat} {before comment : List Char} {crossed : Bool} (hbefore : Trivia before)
      (hcomment : OpenComment comment) :
      Cut n (before ++ comment) [⟨.endOfFile, n + size (before ++ comment),
        n + size (before ++ comment), crossed, none⟩]
  | token {n : Nat} {gap word rest : List Char} {t : Token} {ts : List Token}
      (hgap : Trivia gap) (hopens : opensGap (word ++ rest) = false) (hword : word ≠ [])
      (hstart : t.start = n + size gap) (hstop : t.stop = t.start + size word)
      (hkind : t.kind ≠ .endOfFile) (halone : (scan word).tokens = alone t word)
      (h : Cut t.stop rest ts) : Cut n (gap ++ (word ++ rest)) (t :: ts)

theorem Cut.scanFrom {fuel n : Nat} {cs : List Char} (hfuel : cs.length < fuel) :
    Cut n cs (scanFrom fuel n cs).tokens := by
  induction fuel generalizing n cs with
  | zero => exact absurd hfuel (Nat.not_lt_zero _)
  | succ fuel ih =>
    obtain ⟨gap, hgap⟩ := exists_skipped n false cs
    unfold Lexer.scanFrom
    dsimp only
    split
    · rename_i hrest
      obtain ⟨before, comment, rfl, hbefore, hcomment⟩ := hgap.last hrest
      have hcs := hgap.text
      rw [hrest, List.append_nil] at hcs
      subst hcs
      rw [hgap.offset]
      exact .last hbefore hcomment
    · rename_i c rest hrest
      obtain ⟨htrivia, hopens⟩ := hgap.inner (by rw [hrest]; exact List.cons_ne_nil c rest)
      obtain ⟨tail, hword⟩ := exists_tail c rest
      have hrest' : rest = tail ++ (lexeme c rest).rest := hword.text
      have hcs : cs = gap ++ (c :: tail ++ (lexeme c rest).rest) := by
        rw [hgap.text, hrest, List.cons_append, ← hrest']
      rw [hrest, hrest', ← List.cons_append] at hopens
      have hopens' : opensGap (c :: tail) = false :=
        Bool.eq_false_iff.2 fun h => Bool.eq_false_iff.1 hopens (opensGap_append _ h)
      have hshort : (lexeme c rest).rest.length < fuel := by
        rw [hcs] at hfuel
        simp only [List.length_append, List.length_cons] at hfuel
        omega
      rw [congrArg (Cut n) hcs]
      exact .token htrivia hopens (List.cons_ne_nil c tail) hgap.offset
        (congrArg _ hword.width) hword.kind (scan_word hword hopens') (ih hshort)

/-! ## What the offsets of the tokens say -/

/-- Where the text before the next token starts, when `ts` are the tokens so
far and the first of them was searched from offset `n` on. -/
def stopAfter (n : Nat) (ts : List Token) : Nat :=
  ts.foldl (fun _ t => t.stop) n

/-- The tokens from offset `n` of the text `cs` on account for all of it
there.

* Before the last token, which is the end of the text, each takes some
  characters and none starts before the one before it has stopped.
* Each token covers a word of the text, and that word alone is scanned as
  this token.
* Between two tokens stand blanks and comments, as many as there are. The
  last of the comments may be cut off by the end of the text. -/
structure Accounted (cs : List Char) (n : Nat) (ts : List Token) : Prop where
  last : ∃ words crossed, ts = words ++ [⟨.endOfFile, size cs, size cs, crossed, none⟩] ∧
    ∀ t ∈ words, t.kind ≠ .endOfFile ∧ t.start < t.stop
  ordered : ts.Pairwise fun t u => t.stop ≤ u.start
  word : ∀ t ∈ ts, ∃ word, slice? cs t.start t.stop = some word ∧
    (scan word).tokens =
      if t.kind = .endOfFile then [⟨.endOfFile, 0, 0, false, none⟩] else alone t word
  gap : ∀ before t after, ts = before ++ t :: after →
    ∃ gap rest, slice? cs (stopAfter n before) t.start = some gap ∧
      dropBytes? t.start cs = some rest ∧
      if t.kind = .endOfFile then ∃ comments cut, gap = comments ++ cut ∧ Trivia comments ∧
        OpenComment cut
      else Trivia gap ∧ opensGap rest = false

theorem Cut.start_le {n : Nat} {cs : List Char} {ts : List Token} (h : Cut n cs ts) :
    ∀ t ∈ ts, n ≤ t.start := by
  induction h with
  | last hbefore hcomment =>
    rintro t ht
    cases List.mem_singleton.1 ht
    exact Nat.le_add_right _ _
  | token hgap hopens hword hstart hstop hkind halone h ih =>
    intro t ht
    rcases List.mem_cons.1 ht with rfl | ht
    · rw [hstart]
      exact Nat.le_add_right _ _
    · have := ih t ht
      omega

/-- One more gap and word in front. -/
theorem Accounted.cons {front gap word rest : List Char} {t : Token} {ts : List Token}
    (hgap : Trivia gap) (hopens : opensGap (word ++ rest) = false) (hword : word ≠ [])
    (hstart : t.start = size (front ++ gap)) (hstop : t.stop = size (front ++ gap ++ word))
    (hkind : t.kind ≠ .endOfFile) (halone : (scan word).tokens = alone t word)
    (hlater : ∀ u ∈ ts, t.stop ≤ u.start)
    (h : Accounted (front ++ (gap ++ (word ++ rest))) t.stop ts) :
    Accounted (front ++ (gap ++ (word ++ rest))) (size front) (t :: ts) where
  last := by
    obtain ⟨words, crossed, rfl, hwords⟩ := h.last
    refine ⟨t :: words, crossed, rfl, fun u hu => ?_⟩
    rcases List.mem_cons.1 hu with rfl | hu
    · have hsize : 0 < size word :=
        Nat.lt_of_lt_of_le (List.length_pos_iff.2 hword) (length_le_size word)
      refine ⟨hkind, ?_⟩
      rw [hstart, hstop, size_append _ word]
      omega
    · exact hwords u hu
  ordered := List.pairwise_cons.2 ⟨hlater, h.ordered⟩
  word u hu := by
    rcases List.mem_cons.1 hu with rfl | hu
    · refine ⟨word, ?_, by rw [if_neg hkind, halone]⟩
      rw [hstart, hstop, size_append _ word, ← List.append_assoc]
      exact slice?_size (front ++ gap) word rest
    · exact h.word u hu
  gap before u after hts := by
    cases before with
    | nil =>
      cases hts
      refine ⟨gap, word ++ rest, ?_, ?_, by rw [if_neg hkind]; exact ⟨hgap, hopens⟩⟩
      · rw [hstart, size_append]
        exact slice?_size front gap (word ++ rest)
      · rw [hstart, ← List.append_assoc]
        exact dropBytes?_size (front ++ gap) (word ++ rest)
    | cons t' before =>
      cases hts
      exact h.gap before u after rfl

theorem accounted_last {front before comment : List Char} {crossed : Bool}
    (hbefore : Trivia before) (hcomment : OpenComment comment) :
    Accounted (front ++ (before ++ comment)) (size front) [⟨.endOfFile,
      size front + size (before ++ comment), size front + size (before ++ comment), crossed, none⟩]
    where
  last := ⟨[], crossed, by rw [size_append front]; rfl, by simp⟩
  ordered := List.pairwise_singleton _ _
  word t ht := by
    cases List.mem_singleton.1 ht
    refine ⟨[], ?_, rfl⟩
    have := slice?_size (front ++ (before ++ comment)) [] []
    simpa [size_append] using this
  gap front' t after hts := by
    obtain ⟨rfl, rfl⟩ : front' = [] ∧ after = [] := by
      cases front' <;> simp_all
    cases hts
    refine ⟨before ++ comment, [], ?_, ?_, ⟨before, comment, rfl, hbefore, hcomment⟩⟩
    · have := slice?_size front (before ++ comment) []
      rwa [List.append_nil] at this
    · have := dropBytes?_size (front ++ (before ++ comment)) []
      rwa [List.append_nil, size_append front] at this

theorem Cut.accounted {n : Nat} {cs : List Char} {ts : List Token} (h : Cut n cs ts)
    (front : List Char) (hn : n = size front) : Accounted (front ++ cs) n ts := by
  induction h generalizing front with
  | last hbefore hcomment =>
    subst hn
    exact accounted_last hbefore hcomment
  | @token n gap word rest t ts hgap hopens hword hstart hstop hkind halone h ih =>
    subst hn
    have hstart' : t.start = size (front ++ gap) := by rw [hstart, size_append]
    have hstop' : t.stop = size (front ++ gap ++ word) := by rw [hstop, hstart', ← size_append]
    have hlater := ih (front ++ gap ++ word) hstop'
    rw [List.append_assoc, List.append_assoc] at hlater
    exact hlater.cons hgap hopens hword hstart' hstop' hkind halone h.start_le

/-- Every text is accounted for by its tokens. -/
theorem scan_accounted (cs : List Char) : Accounted cs 0 (scan cs).tokens := by
  have h : Cut 0 cs (scan cs).tokens := Cut.scanFrom (Nat.lt_succ_self _)
  exact h.accounted [] rfl

end ScriptAnalysis.Lexer
