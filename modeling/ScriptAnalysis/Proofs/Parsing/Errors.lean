import ScriptAnalysis.Proofs.Parsing.Traced
import ScriptAnalysis.Proofs.Parsing.Upheld

/-!
# The order of the errors

An error is reported where the token at hand starts, and not twice in a row at one
place. Since the parser only goes forward, and forgets what it has reported where it
goes back, that is enough for every error to start behind all that were reported
before it.

**Steps.** `Ascending` says this of a state, with what the next report needs: no error
starts behind the last one, and the last one does not start behind the token at hand.
Every step keeps it (`Trace.ascending`). A step back is none for the errors
(`errors_rewind`): they are again those that there were where the attempt began, and
so is the place of the last one.

**Result.** `SourceFile.parse_errors_ascend`.
-/
namespace ScriptAnalysis

namespace Parsing

/-- Every error was reported at one of `tokens`, each behind the one before, and none
behind the token at hand. -/
structure Ascending (tokens : List Token) (s : State) : Prop where
  ordered : s.errors.toList.Pairwise fun e f => e.start < f.start
  placed : ∀ e ∈ s.errors.toList, ∃ t ∈ tokens, e.start = t.start ∧ e.length = t.stop - t.start
  latest : ∀ e ∈ s.errors.toList, ∃ n ∈ s.lastError, e.start ≤ n
  last : ∀ n ∈ s.lastError, ∃ e ∈ s.errors.toList, e.start = n
  behind : ∀ n ∈ s.lastError, n ≤ s.here

section

variable {tokens : List Token} {s t : State}

theorem ascending_start (tokens : List Token) : Ascending tokens (.start tokens) where
  ordered := .nil
  placed _ h := absurd h List.not_mem_nil
  latest _ h := absurd h List.not_mem_nil
  last _ h := by cases h
  behind _ h := by cases h

theorem Ascending.same (h : Ascending tokens s) (herrors : t.errors = s.errors)
    (hlast : t.lastError = s.lastError) (hrest : t.rest = s.rest) : Ascending tokens t where
  ordered := herrors ▸ h.ordered
  placed := herrors ▸ h.placed
  latest := by
    rw [herrors, hlast]
    exact h.latest
  last := by
    rw [herrors, hlast]
    exact h.last
  behind := by
    unfold State.here State.tokenAt
    rw [hlast, hrest]
    exact h.behind

variable (hT : Sequence tokens)

include hT

/-- The token behind the one at hand does not start in front of it. -/
theorem Seated.here_le_advance (h : Seated tokens s) : s.here ≤ s.advance.here :=
  (Orderly.later h (h.advance hT) hT (appends_advance s).remaining).2

theorem Ascending.advance (h : Ascending tokens s) (hs : Seated tokens s) :
    Ascending tokens s.advance where
  ordered := advance_errors s ▸ h.ordered
  placed := advance_errors s ▸ h.placed
  latest := by
    rw [advance_errors, (advance_faults s).1]
    exact h.latest
  last := by
    rw [advance_errors, (advance_faults s).1]
    exact h.last
  behind n hn := by
    rw [(advance_faults s).1] at hn
    exact (h.behind n hn).trans (hs.here_le_advance hT)

/-- An error at the token at hand is the last one, or it starts behind that. -/
theorem Ascending.report (h : Ascending tokens s) (hs : Seated tokens s) (p : Problem) :
    Ascending tokens (s.report s.here ((s.tokenAt 0).stop - (s.tokenAt 0).start) p) := by
  unfold State.report
  split
  · exact h
  · rename_i hnew
    have hbefore : ∀ e ∈ s.errors.toList, e.start < s.here := by
      intro e he
      obtain ⟨n, hn, hle⟩ := h.latest e he
      have hlast := h.behind n hn
      have hne : n ≠ s.here := fun hsame => hnew (hsame ▸ hn)
      omega
    have hpush : (s.errors.push ⟨s.here, (s.tokenAt 0).stop - (s.tokenAt 0).start, p⟩).toList =
        s.errors.toList ++ [⟨s.here, (s.tokenAt 0).stop - (s.tokenAt 0).start, p⟩] :=
      Array.toList_push
    constructor
    · show (s.errors.push _).toList.Pairwise _
      rw [hpush]
      refine List.pairwise_append.2 ⟨h.ordered, List.pairwise_singleton _ _, fun e he f hf => ?_⟩
      cases List.mem_singleton.1 hf
      exact hbefore e he
    · intro e he
      rw [hpush] at he
      rcases List.mem_append.1 he with he | he
      · exact h.placed e he
      · cases List.mem_singleton.1 he
        exact ⟨s.tokenAt 0, hs.tokenAt_mem hT, rfl, rfl⟩
    · intro e he
      rw [hpush] at he
      refine ⟨s.here, rfl, ?_⟩
      rcases List.mem_append.1 he with he | he
      · exact Nat.le_of_lt (hbefore e he)
      · cases List.mem_singleton.1 he
        exact Nat.le_refl _
    · rintro n ⟨⟩
      exact ⟨_, hpush ▸ List.mem_append_right _ (List.mem_singleton_self _), rfl⟩
    · rintro n ⟨⟩
      exact Nat.le_refl _

theorem Trace.ascending (h : Trace s t) (hs : Seated tokens s) (ha : Ascending tokens s) :
    Ascending tokens t := by
  induction h with
  | refl => exact ha
  | trans first _ ih ih' => exact ih' (first.seated hT hs) (ih hs ha)
  | pass _ | skip _ => exact ha.advance hT hs
  | word => exact (ha.advance hT hs).same rfl rfl rfl
  | report s p => exact ha.report hT hs p
  | note | exhaust | missing | node | closed => exact ha.same rfl rfl rfl
  | operator _ _ _ _ _ ih => exact (ih (hs.advance hT) (ha.advance hT hs)).same rfl rfl rfl
  | otherwise _ _ _ _ _ _ _ ih =>
    exact (ih (hs.advance hT) (ha.advance hT hs)).same rfl rfl rfl
  | nested _ ih => exact (ih (hs.same rfl rfl rfl) (ha.same rfl rfl rfl)).same rfl rfl rfl
  | abandoned attempt _ => exact ha.same (errors_rewind attempt.errors) rfl rfl

end

/-- Whether it is kept or given up, an attempt adds no error. -/
theorem errors_attempt {α : Type} {x : Parser (Option α)} {s : State} (h : Trace s (x s).2) :
    (attempt x s).2.errors = s.errors := by
  rw [attempt_eq]
  split
  · rename_i hkept
    have hsize := beq_iff_eq.1 (Bool.and_eq_true_iff.1 hkept).2
    apply Array.toList_inj.1
    exact (h.errors.eq_of_length (by simpa using hsize.symm)).symm
  · exact errors_rewind h.errors

/-- Where an arrow function may start, its head leaves a trace. -/
theorem trace_arrowHead (n : Nat) {s : State} {simple : Bool} (hs : s.Counted)
    (hopens : s.OpensArrow simple) : Trace s (arrowHead (productions n) simple s).2 := by
  refine (trace_productions n).traced_arrowHead s hs fun hsimple => Lexer.isWord_of_isName ?_
  rw [hopens.1] at hsimple
  exact (Bool.and_eq_true_iff.1 hsimple).1

end Parsing

namespace SourceFile

open Parsing

/-- The errors of the parser itself, in the order in which they were reported. -/
def reported (text : List Char) : List SyntaxError :=
  (parseTokens (Lexer.scan text).tokens).2.errors.toList

/-- The errors of a file are those of the scanner and those of the parser. Each of the
parser starts behind the one reported before it, and each is about a token. The same
holds wherever the parser stands on its way, also at the end of an attempt at the head
of an arrow function, with the errors that this has reported; whether the attempt is
kept or given up, the errors are then those that there were in front of it. -/
theorem parse_errors_ascend (name : String) (text : List Char) :
    (parse name text).errors = Order.sort (fun a b => a.start ≤ b.start)
        ((Lexer.scan text).errors ++ reported text) ∧
      (reported text).Pairwise (fun e f => e.start < f.start) ∧
      (∀ e ∈ reported text, ∃ t ∈ (Lexer.scan text).tokens,
        e.start = t.start ∧ e.length = t.stop - t.start) ∧
      ∀ s, Trace (.start (Lexer.scan text).tokens) s →
        s.errors.toList.Pairwise (fun e f => e.start < f.start) ∧
        ∀ n simple, s.OpensArrow simple →
          (arrowHead (productions n) simple s).2.errors.toList.Pairwise
              (fun e f => e.start < f.start) ∧
            (attempt (arrowHead (productions n) simple) s).2.errors = s.errors := by
  have hT := sequence_scan text
  have hascending : ∀ {s}, Trace (.start (Lexer.scan text).tokens) s →
      Ascending (Lexer.scan text).tokens s := fun h =>
    h.ascending hT (seated_start _) (ascending_start _)
  have hfile := hascending (trace_parseTokens (Lexer.scan text).tokens)
  refine ⟨rfl, hfile.ordered, hfile.placed, fun s hs => ⟨(hascending hs).ordered, ?_⟩⟩
  intro n simple hopens
  have hhead := trace_arrowHead n (hs.counted rfl) hopens
  exact ⟨(hascending (hs.trans hhead)).ordered, errors_attempt hhead⟩

end SourceFile

end ScriptAnalysis
