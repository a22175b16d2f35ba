import ScriptAnalysis.Proofs.Parsing.Builds

/-!
# Single steps of the parser

What a parser does in one state, as equations. With them a run of the parser on
tokens that are known can be followed from step to step.
-/
namespace ScriptAnalysis.Parsing

/-! ## Sequences -/

theorem bind_run {α β : Type} (x : Parser α) (f : α → Parser β) (s : State) :
    (x >>= f) s = f (x s).1 (x s).2 :=
  rfl

theorem get_bind {β : Type} (f : State → Parser β) (s : State) : (get >>= f) s = f s s :=
  rfl

theorem here_bind {β : Type} (f : Nat → Parser β) (s : State) :
    (here >>= f) s = f (s.tokenAt 0).start s :=
  rfl

theorem kind_bind {β : Type} (f : TokenKind → Parser β) (s : State) :
    (kind >>= f) s = f (s.kindAt 0) s :=
  rfl

theorem remaining_bind {β : Type} (f : Nat → Parser β) (s : State) :
    (remaining >>= f) s = f s.remaining s :=
  rfl

/-! ## Tokens -/

/-- Behind a token that is not the end of the text the others stand as before. -/
theorem kindAt_advance {s : State} (h : s.kindAt 0 ≠ .endOfFile) (n : Nat) :
    s.advance.kindAt n = s.kindAt (n + 1) := by
  revert h
  unfold State.kindAt State.tokenAt State.advance
  cases s.rest with
  | nil => exact fun h => absurd rfl h
  | cons t rest =>
    intro h
    have hkind : t.kind ≠ .endOfFile := h
    simp [hkind]

theorem advance_errors (s : State) : s.advance.errors = s.errors := by
  unfold State.advance
  split
  · rfl
  · split <;> rfl

theorem accept_eq (k : TokenKind) (s : State) :
    accept k s = if s.kindAt 0 == k then (true, s.advance) else (false, s) := by
  show (if (s.kindAt 0 == k) = true then _ else _ : Parser Bool) s = _
  split <;> rfl

theorem accept_other {k : TokenKind} {s : State} (h : s.kindAt 0 ≠ k) :
    accept k s = (false, s) := by
  rw [accept_eq]
  exact if_neg fun heq => h (eq_of_beq heq)

theorem accept_ite {β : Type} (k : TokenKind) (y z : Parser β) (s : State) :
    (do if ← accept k then y else z) s = if s.kindAt 0 = k then y s.advance else z s := by
  show (if (accept k s).1 = true then y else z) (accept k s).2 = _
  rw [accept_eq]
  by_cases h : s.kindAt 0 = k
  · rw [if_pos (beq_iff_eq.2 h), if_pos h]
    rfl
  · rw [if_neg fun heq => h (beq_iff_eq.1 heq), if_neg h]
    rfl

/-- What is done behind a parser may depend on whether it has passed a token. -/
theorem progress_ite {α β : Type} (x : Parser α) (y z : α → Parser β) (s : State) :
    (do
      let before ← remaining
      let a ← x
      if (← remaining) == before then y a else z a) s =
      if (x s).2.remaining = s.remaining then y (x s).1 (x s).2 else z (x s).1 (x s).2 := by
  show (if ((x s).2.remaining == s.remaining) = true then y (x s).1 else z (x s).1) (x s).2 = _
  by_cases h : (x s).2.remaining = s.remaining
  · rw [if_pos (beq_iff_eq.2 h), if_pos h]
  · rw [if_neg fun heq => h (beq_iff_eq.1 heq), if_neg h]

/-- What stands behind a mark is left out with the mark. -/
theorem after_none {k : TokenKind} {s : State} (h : s.kindAt 0 ≠ k) (p : Parser NodeId) :
    after k p s = (none, s) := by
  unfold after
  rw [bind_run, accept_other h]
  rfl

theorem expect_at {k : TokenKind} {s : State} (h : s.kindAt 0 = k) :
    expect k s = (true, s.advance) := by
  have haccept : accept k s = (true, s.advance) := by
    rw [accept_eq, if_pos (beq_iff_eq.2 h)]
  show (if (accept k s).1 = true then _ else _ : Parser Bool) (accept k s).2 = _
  rw [haccept]
  rfl

/-! ## Levels and loops -/

/-- One level deeper. -/
def State.deeper (s : State) : State :=
  { s with depth := s.depth + 1 }

theorem nested_run {α : Type} {p fallback : Parser α} {s : State} (h : s.depth < maxDepth) :
    nested p fallback s =
      ((p s.deeper).1, { (p s.deeper).2 with depth := (p s.deeper).2.depth - 1 }) := by
  unfold nested
  change (if s.depth ≥ maxDepth then _ else _ : Parser α) s = _
  rw [if_neg (Nat.not_le_of_lt h)]
  rfl

section

variable {β : Type} {body : β → Parser (Turn β)} {b b' : β} {s s' : State}

theorem iterateUpTo_again (h : body b s = (.again b', s')) (k : Nat) :
    iterateUpTo body (k + 1) b s = iterateUpTo body k b' s' := by
  rw [iterateUpTo, bind_run, h]

theorem iterateUpTo_done (h : body b s = (.done b', s')) (k : Nat) :
    iterateUpTo body (k + 1) b s = (b', s') := by
  rw [iterateUpTo, bind_run, h]
  rfl

theorem iterate_done (h : body b s = (.done b', s')) : iterate b body s = (b', s') :=
  iterateUpTo_done h s.remaining

end

end ScriptAnalysis.Parsing
