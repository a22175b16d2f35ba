import ScriptAnalysis.Proofs.Parsing.Traced

/-!
# The parser comes to the end of the text

Rules of the grammar may pass no token at all: a reserved word is no name, a bracket
closes what is around it, at the deepest level nothing is parsed any more, and an attempt
that is given up goes back to where it began. What keeps the parser going is that no loop
goes on over such a rule.

**Turns.** `Loop` says of the turns of a loop that they go forward, and that one with
another behind it has passed a token. The number of tokens left is then a measure of the
loop, and a turn leaves it before that number is used up. `Loops` says so of every loop of
the grammar, however many nested uses of the rules are left, from every state in which the
tokens left are counted right; `Trace.counted` says that this is every state of a run.

**Result.** `SourceFile.parse_finishes`.
-/
namespace ScriptAnalysis

namespace Parsing

/-- The turns of the loop go forward. The loop goes on only behind a turn that has passed
a token, and is left by a turn that is done. -/
structure Loop {β : Type} (turn : β → Parser (Turn β)) : Prop where
  forward : ∀ b s, s.Counted → Forward s (turn b s).2
  moves : ∀ b s, s.Counted → ∀ b', (turn b s).1 = .again b' → (turn b s).2.remaining < s.remaining
  leaves : ∀ b s, s.Counted → ∃ last t, Forward s t ∧
    turn last t = (.done (iterate b turn s).1, (iterate b turn s).2)

/-- The loops of the grammar. -/
structure Loops (rules : Productions) : Prop where
  statements : ∀ stops, stops .endOfFile = true → Loop (statementsTurn rules stops)
  parameters : Loop (commaTurn closesParens (parameter rules))
  arguments : Loop (commaTurn closesParens rules.assignment)
  elements : Loop (commaTurn closesBrackets rules.assignment)
  properties : Loop (commaTurn closesBraces (propertyAssignment rules))
  specifiers : Loop (commaTurn closesBraces importSpecifier)
  declarations : ∀ kind inHead, Loop (variablesTurn rules kind inHead)
  heritage : Loop heritageTurn
  memberModifiers : Loop memberModifiersTurn
  declarationModifiers : Loop declarationModifiersTurn
  dots : Loop dotTurn
  brackets : ∀ start, Loop (arrayTurn start)
  bars : Loop (unionTurn rules)
  suffixes : ∀ start allowCalls, Loop (suffixTurn rules start allowCalls)
  operators : ∀ least start, Loop (binaryTurn rules least start)
  classMembers : Loop (classMembersTurn rules)
  typeMembers : Loop (typeMembersTurn rules)

theorem loop_of_moves {β : Type} {turn : β → Parser (Turn β)} (h : ∀ b, Moves (turn b)) :
    Loop turn where
  forward b s hs := (h b s hs trivial).1.forward
  moves b s hs := (h b s hs trivial).2
  leaves b s hs := by
    obtain ⟨last, t, htrace, hlast⟩ := iterate_leaves h b hs
    exact ⟨last, t, htrace.forward, hlast⟩

theorem Tracers.loops {self : Productions} (h : Tracers self) : Loops self where
  statements _ hstops := loop_of_moves (h.moves_statementsTurn hstops)
  parameters := loop_of_moves (moves_commaTurn _ h.traced_parameter)
  arguments := loop_of_moves (moves_commaTurn _ h.assignment)
  elements := loop_of_moves (moves_commaTurn _ h.assignment)
  properties := loop_of_moves (moves_commaTurn _ h.traced_propertyAssignment)
  specifiers := loop_of_moves (moves_commaTurn _ traced_importSpecifier)
  declarations kind inHead := loop_of_moves (h.moves_variablesTurn kind inHead)
  heritage := loop_of_moves moves_heritageTurn
  memberModifiers := loop_of_moves moves_memberModifiersTurn
  declarationModifiers := loop_of_moves moves_declarationModifiersTurn
  dots := loop_of_moves moves_dotTurn
  brackets start := loop_of_moves (moves_arrayTurn start)
  bars := loop_of_moves h.moves_unionTurn
  suffixes start allowCalls := loop_of_moves (h.moves_suffixTurn start allowCalls)
  operators least start := loop_of_moves (h.moves_binaryTurn least start)
  classMembers := loop_of_moves h.moves_classMembersTurn
  typeMembers := loop_of_moves h.moves_typeMembersTurn

/-! ## The end of the text -/

section

variable {self : Productions} {stops : TokenKind → Bool} {s t : State}

/-- The loop over statements is left only where it stops. -/
theorem statementsTurn_done {last r : List NodeId}
    (h : statementsTurn self stops last s = (.done r, t)) : stops (t.kindAt 0) = true := by
  by_cases hstops : stops (s.kindAt 0) = true
  · have hdone : statementsTurn self stops last s = (.done last, s) := by
      unfold statementsTurn
      rw [kind_bind, if_pos hstops]
      rfl
    cases hdone.symm.trans h
    exact hstops
  · -- with a statement the loop goes on, whether a token was passed or not
    unfold statementsTurn at h
    rw [kind_bind, if_neg hstops, progress_ite] at h
    split at h <;> cases h

theorem Loops.stops_statementsUntil (h : Loops self) (stops : TokenKind → Bool)
    (hstops : stops .endOfFile = true) (hs : s.Counted) :
    stops ((statementsUntil self stops s).2.kindAt 0) = true := by
  obtain ⟨last, t, -, hlast⟩ := (h.statements stops hstops).leaves [] s hs
  exact statementsTurn_done hlast

theorem kindAt_parseTokens (tokens : List Token) :
    (parseTokens tokens).2.kindAt 0 = .endOfFile := by
  have hcounted : (State.start tokens).Counted := rfl
  have hloops := (trace_productions (nestingBound tokens.length)).loops
  exact eq_of_beq (hloops.stops_statementsUntil (· == .endOfFile) rfl hcounted)

/-- At the end of the text nothing but it is left. -/
theorem Seated.rest_eq {words : List Token} {last : Token} (h : Seated (words ++ [last]) s)
    (hwords : ∀ t ∈ words, t.kind ≠ .endOfFile) (hlast : last.kind = .endOfFile)
    (hend : s.kindAt 0 = .endOfFile) : s.rest = [last] := by
  obtain ⟨passed, htokens, -, hpassed⟩ := h.words
  have hmem : last ∈ s.rest := by
    have hall : last ∈ passed ++ s.rest := htokens ▸ List.mem_append_right _ (by simp)
    exact (List.mem_append.1 hall).resolve_left fun hfirst => hpassed last hfirst hlast
  revert hend
  unfold State.kindAt State.tokenAt
  cases hrest : s.rest with
  | nil =>
    rw [hrest] at hmem
    cases hmem
  | cons t rest =>
    intro hend
    -- the token at hand is not among the words
    rcases List.eq_nil_or_concat rest with rfl | ⟨rest, u, rfl⟩
    · rw [hrest] at hmem
      rw [List.mem_singleton.1 hmem]
    · rw [hrest, List.concat_eq_append, ← List.cons_append, ← List.append_assoc] at htokens
      obtain ⟨hsame, -⟩ := List.append_inj' htokens rfl
      exact absurd hend (hwords t (hsame ▸ by simp))

end

/-- Of the tokens of a text only the last one is left, which is its end. -/
theorem rest_parseTokens (text : List Char) : ∃ words last,
    (Lexer.scan text).tokens = words ++ [last] ∧ last.kind = .endOfFile ∧
      (parseTokens (Lexer.scan text).tokens).2.rest = [last] := by
  obtain ⟨⟨words, crossed, htokens, hwords⟩, -, -⟩ := (cut_scan text).accounted [] rfl
  have hseated := (trace_parseTokens (Lexer.scan text).tokens).seated (sequence_scan text)
    (seated_start _)
  have hend := kindAt_parseTokens (Lexer.scan text).tokens
  refine ⟨words, _, htokens, rfl, ?_⟩
  rw [htokens] at hseated hend ⊢
  exact hseated.rest_eq (fun t ht => (hwords t ht).1) rfl hend

end Parsing

namespace SourceFile

open Parsing

/-- The parser comes to the end of every text, and stands there at the level at which it
started; no bound of its own on nested uses of the rules or on turns was reached on the
way. That is so because every loop of the grammar is either left or goes on behind a turn
that has passed a token, wherever and at whatever level it runs. -/
theorem parse_finishes (text : List Char) :
    ∃ words last, (Lexer.scan text).tokens = words ++ [last] ∧ last.kind = .endOfFile ∧
      (parseTokens (Lexer.scan text).tokens).2.rest = [last] ∧
      (parseTokens (Lexer.scan text).tokens).2.depth = 0 ∧
      (parseTokens (Lexer.scan text).tokens).2.exhausted = false ∧
      (∀ n, Repeats (productions n) ∧ Loops (productions n)) ∧
      ∀ s, Trace (.start (Lexer.scan text).tokens) s → s.Counted := by
  obtain ⟨words, last, htokens, hlast, hrest⟩ := rest_parseTokens text
  obtain ⟨b, hable⟩ := able_parseTokens allows_true (sequence_scan text).ends trivial
  have htrace := trace_parseTokens (Lexer.scan text).tokens
  refine ⟨words, last, htokens, hlast, hrest, htrace.forward.depth, hable.spare, fun n => ?_, ?_⟩
  · exact ⟨repeats _, (trace_productions n).loops⟩
  · exact fun s hs => hs.counted rfl

end SourceFile

end ScriptAnalysis
