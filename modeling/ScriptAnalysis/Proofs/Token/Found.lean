import ScriptAnalysis.Proofs.Token.Blanking

/-!
# How a token is found

Each token of a text is found in one round of the scanner: a gap is passed over and
what stands behind it is recognised. `Found` says this of a single token, with the
offset at which its round starts and with the errors that the round leaves, so that
what holds of `skipGap` and `lexeme` can be carried to the tokens of a whole text
without one more induction over the rounds.

**Results.**
* `le_start_of_mem_errors`: a round reports nothing that stands in front of it.
* `scan_found`: the round of each token of a text, by induction on the rounds.
* `scan_lexeme`: what is recognised where a token stands.
-/
namespace ScriptAnalysis.Lexer

open Text

/-- The round that starts at the offset `n` of a text finds the token `t`: the end of
the text behind the last gap, or what is recognised behind a gap, with the problem
that is reported for it. -/
def Found (text : List Char) (errors : List SyntaxError) (n : Nat) (t : Token) : Prop :=
  ∃ front cs, front ++ cs = text ∧ size front = n ∧
    (((skipGap .blank n false cs).rest = [] ∧ t = ⟨.endOfFile, (skipGap .blank n false cs).offset,
        (skipGap .blank n false cs).offset, (skipGap .blank n false cs).crossed, none⟩) ∨
      ∃ c rest, (skipGap .blank n false cs).rest = c :: rest ∧
        t = (skipGap .blank n false cs).token (lexeme c rest) ∧
        ∀ p, p ≠ .unterminatedComment →
          (⟨t.start, t.stop - t.start, p⟩ ∈ errors ↔ (lexeme c rest).problem = some p))

/-- The errors of a round that finds a token, and of the rounds behind it. -/
theorem mem_errors_scanFrom {fuel n : Nat} {cs rest : List Char} {c : Char}
    (h : (skipGap .blank n false cs).rest = c :: rest) {e : SyntaxError} :
    e ∈ (scanFrom (fuel + 1) n cs).errors ↔
      (e.start = (skipGap .blank n false cs).offset ∧ e.length = (lexeme c rest).width ∧
        (lexeme c rest).problem = some e.problem) ∨
      e ∈ (scanFrom fuel ((skipGap .blank n false cs).offset + (lexeme c rest).width)
        (lexeme c rest).rest).errors := by
  rw [scanFrom_token h]
  dsimp only [Scanned.push]
  rw [List.mem_append]
  refine or_congr_left ?_
  cases (lexeme c rest).problem with
  | none => simp
  | some p =>
    obtain ⟨start, length, q⟩ := e
    simp only [List.mem_singleton, SyntaxError.mk.injEq, Option.some.injEq]
    exact and_congr_right fun _ => and_congr_right fun _ => eq_comm

/-- An error that is no open comment starts where its token does. -/
theorem le_start_of_mem_errors {fuel n : Nat} {cs : List Char} {e : SyntaxError}
    (he : e ∈ (scanFrom fuel n cs).errors) (hp : e.problem ≠ .unterminatedComment) :
    n ≤ e.start := by
  induction fuel generalizing n cs with
  | zero => cases he
  | succ fuel ih =>
    obtain ⟨gap, hgap⟩ := exists_skipped n false cs
    have hoffset := hgap.offset
    cases hrest : (skipGap .blank n false cs).rest with
    | nil =>
      rw [scanFrom_end hrest] at he
      unfold AfterGap.errors at he
      cases hopen : (skipGap .blank n false cs).unclosed with
      | none =>
        rw [hopen] at he
        cases he
      | some opened =>
        rw [hopen] at he
        cases List.mem_singleton.1 he
        exact absurd rfl hp
    | cons c rest =>
      rcases (mem_errors_scanFrom hrest).1 he with ⟨hstart, -⟩ | he
      · omega
      · have := ih he
        omega

theorem scanFrom_found (front : List Char) {fuel n : Nat} {cs : List Char}
    (hfuel : cs.length < fuel) (hfront : size front = n) {before after : List Token} {t : Token}
    (h : (scanFrom fuel n cs).tokens = before ++ t :: after) :
    Found (front ++ cs) (scanFrom fuel n cs).errors (stopAfter n before) t := by
  induction fuel generalizing front n cs before with
  | zero => exact absurd hfuel (Nat.not_lt_zero _)
  | succ fuel ih =>
    obtain ⟨gap, hgap⟩ := exists_skipped n false cs
    cases hrest : (skipGap .blank n false cs).rest with
    | nil =>
      rw [scanFrom_end hrest] at h
      cases before with
      | nil => exact ⟨front, cs, rfl, hfront, .inl ⟨hrest, (List.cons.inj h).1.symm⟩⟩
      | cons u before => exact absurd (List.cons.inj h).2 (by simp)
    | cons c rest =>
      obtain ⟨tail, hword⟩ := exists_tail c rest
      have hwidth : (lexeme c rest).width = size (c :: tail) := hword.width
      have htake : 0 < (lexeme c rest).width := by
        have := length_le_size (c :: tail)
        rw [List.length_cons] at this
        omega
      have hcs : cs = gap ++ (c :: tail) ++ (lexeme c rest).rest := by
        rw [hgap.text, hrest, List.append_assoc, List.cons_append, ← hword.text]
      have hshort : (lexeme c rest).rest.length < fuel := by
        have hlength := congrArg List.length hcs
        simp only [List.length_append, List.length_cons] at hlength
        omega
      rw [scanFrom_token hrest] at h
      cases before with
      | nil =>
        obtain ⟨rfl, rfl⟩ := List.cons.inj h
        refine ⟨front, cs, rfl, hfront, .inr ⟨c, rest, hrest, rfl, fun p hp => ?_⟩⟩
        have hlength : (skipGap .blank n false cs).offset + (lexeme c rest).width -
            (skipGap .blank n false cs).offset = (lexeme c rest).width := by omega
        dsimp only [AfterGap.token]
        rw [hlength, mem_errors_scanFrom hrest]
        constructor
        · rintro (⟨-, -, hproblem⟩ | hlater)
          · exact hproblem
          · have hle := le_start_of_mem_errors hlater hp
            dsimp only at hle
            omega
        · exact fun hproblem => .inl ⟨rfl, rfl, hproblem⟩
      | cons u before =>
        obtain ⟨rfl, hts⟩ := List.cons.inj h
        have hsize : size (front ++ (gap ++ (c :: tail))) =
            (skipGap .blank n false cs).offset + (lexeme c rest).width := by
          rw [size_append, size_append, hfront, hgap.offset, hwidth, Nat.add_assoc]
        have hlater : t.start ≥ (skipGap .blank n false cs).offset + (lexeme c rest).width :=
          (Cut.scanFrom hshort).start_le t (by rw [hts]; simp)
        obtain ⟨front', cs', htext, hfront', hfound⟩ := ih _ hshort hsize hts
        refine ⟨front', cs', ?_, hfront', ?_⟩
        · rw [htext]
          conv => rhs; rw [hcs]
          simp only [List.append_assoc]
        · refine hfound.imp_right ?_
          rintro ⟨c', rest', hrest', ht, herrors⟩
          refine ⟨c', rest', hrest', ht, fun p hp => ?_⟩
          rw [← herrors p hp, mem_errors_scanFrom hrest]
          refine or_iff_right ?_
          rintro ⟨hstart, -⟩
          dsimp only at hstart
          omega

/-- The tokens of a text are found one after the other, each from where the one in
front of it stops. -/
theorem scan_found {text : List Char} {before after : List Token} {t : Token}
    (h : (scan text).tokens = before ++ t :: after) :
    Found text (scan text).errors (stopAfter 0 before) t :=
  scanFrom_found [] (Nat.lt_succ_self _) rfl h

/-- Where a token that is not the end of the text stands, what starts there is
recognised as this token. -/
theorem scan_lexeme {text : List Char} {t : Token} (ht : t ∈ (scan text).tokens)
    (hkind : t.kind ≠ .endOfFile) :
    ∃ front c rest, front ++ c :: rest = text ∧ t.start = size front ∧
      t.stop = t.start + (lexeme c rest).width ∧ t.kind = (lexeme c rest).kind ∧
      t.value = (lexeme c rest).value := by
  obtain ⟨before, after, htokens⟩ := List.append_of_mem ht
  obtain ⟨front, cs, rfl, hfront, ⟨-, rfl⟩ | ⟨c, rest, hrest, rfl, -⟩⟩ := scan_found htokens
  · exact absurd rfl hkind
  · obtain ⟨gap, hgap⟩ := exists_skipped (stopAfter 0 before) false cs
    refine ⟨front ++ gap, c, rest, ?_, ?_, rfl, rfl, rfl⟩
    · rw [List.append_assoc, ← hrest, ← hgap.text]
    · rw [size_append, hfront, ← hgap.offset]
      rfl

end ScriptAnalysis.Lexer
