import ScriptAnalysis.Proofs.Parsing.Spans
import ScriptAnalysis.Proofs.Parsing.Steps

/-!
# Reading words

What a parser does with tokens that spell known words, from its first step to its
last, without a report.

**Words.** A `Word` is what the grammar sees of a token. `Spells ws l l'`: the
tokens `l` are the words `ws` in front of the tokens `l'`.

**Runs.** `Reads x s l Q`: in the state `s` the parser `x` passes all tokens up to
`l`, reports nothing and ends with a result and an arena that satisfy `Q`. A loop
is followed turn by turn: `ComesTo x body s l Q` says that the run of `x` comes to
where a loop with the turn `body` is about to look at `l`.
-/
namespace ScriptAnalysis

/-! ## Words -/

/-- What the grammar sees of a token. -/
structure Word where
  kind : TokenKind
  value : Option String
  deriving DecidableEq, Repr

def Token.word (t : Token) : Word :=
  ⟨t.kind, t.value⟩

namespace Word

/-- A mark, or a keyword. -/
def ofKind (k : TokenKind) : Word :=
  ⟨k, none⟩

/-- The name that a word spells. -/
def text (w : Word) : String :=
  w.value.getD w.kind.text

end Word

namespace Parsing

/-! ## Words in front of tokens -/

/-- The tokens `l` are the words, in front of the tokens `l'`. Brackets stand on
the line of what is in front of them. -/
def Spells : List Word → List Token → List Token → Prop
  | [], l, l' => l = l'
  | w :: ws, l, l' => ∃ t m, l = t :: m ∧ t.word = w ∧
    (t.kind = .openBracket → t.afterBreak = false) ∧ Spells ws m l'

theorem spells_append {ws ws' : List Word} {l l' : List Token} :
    Spells (ws ++ ws') l l' ↔ ∃ m, Spells ws l m ∧ Spells ws' m l' := by
  induction ws generalizing l with
  | nil => simp [Spells]
  | cons w ws ih =>
    constructor
    · rintro ⟨t, m, hl, hw, hline, hrest⟩
      obtain ⟨m', hm, hm'⟩ := ih.1 hrest
      exact ⟨m', ⟨t, m, hl, hw, hline, hm⟩, hm'⟩
    · rintro ⟨m', ⟨t, m, hl, hw, hline, hm⟩, hm'⟩
      exact ⟨t, m, hl, hw, hline, ih.2 ⟨m', hm, hm'⟩⟩

theorem spells_of_map {ts : List Token} {ws : List Word} (h : ts.map Token.word = ws)
    (hline : ∀ t ∈ ts, t.kind = .openBracket → t.afterBreak = false) (l : List Token) :
    Spells ws (ts ++ l) l := by
  subst h
  induction ts with
  | nil => rfl
  | cons t ts ih =>
    exact ⟨t, ts ++ l, rfl, rfl, hline t List.mem_cons_self,
      ih fun u hu => hline u (List.mem_cons_of_mem _ hu)⟩

theorem Spells.length_le {ws : List Word} {l l' : List Token} (h : Spells ws l l') :
    l'.length ≤ l.length := by
  induction ws generalizing l with
  | nil => exact Nat.le_of_eq (congrArg List.length h.symm)
  | cons w ws ih =>
    obtain ⟨t, m, rfl, -, -, hrest⟩ := h
    exact (ih hrest).trans (Nat.le_succ _)

/-- The kind of the first token. -/
def nextKind (l : List Token) : TokenKind :=
  (l.getD 0 noToken).kind

/-! ## Runs -/

/-- The state has the tokens `l` left. -/
structure At (s : State) (l : List Token) : Prop where
  rest : s.rest = l
  counted : s.remaining = l.length

/-- From `s` the parser has come to `t` with the tokens `l` left, without a report. -/
structure Passed (s : State) (l : List Token) (t : State) : Prop extends At t l where
  errors : t.errors = s.errors
  depth : t.depth = s.depth
  arena : s.arena.toList <+: t.arena.toList

/-- The parser passes all tokens up to `l`. -/
def Reads {α : Type} (x : Parser α) (s : State) (l : List Token) (Q : α → Arena → Prop) : Prop :=
  Passed s l (x s).2 ∧ Q (x s).1 (x s).2.arena

/-- The run of the parser comes to a loop, which is to look at `l` next. -/
def ComesTo {β : Type} (x : Parser β) (body : β → Parser (Turn β)) (s : State) (l : List Token)
    (Q : β → Arena → Prop) : Prop :=
  ∃ n b t, x s = iterateUpTo body n b t ∧ l.length < n ∧ Passed s l t ∧ Q b t.arena

section

variable {α β : Type} {x : Parser α} {f : α → Parser β} {s t u : State} {l l' : List Token}
  {Q Q' : α → Arena → Prop} {R : β → Arena → Prop}

theorem At.passed (h : At s l) : Passed s l s :=
  ⟨h, rfl, rfl, List.prefix_refl _⟩

theorem Passed.trans (h : Passed s l t) (h' : Passed t l' u) : Passed s l' u :=
  ⟨h'.toAt, h'.errors.trans h.errors, h'.depth.trans h.depth, h.arena.trans h'.arena⟩

theorem At.kindAt (h : At s l) (n : Nat) : s.kindAt n = (l.getD n noToken).kind := by
  unfold State.kindAt State.tokenAt
  rw [h.rest]

theorem At.kind (h : At s l) : s.kindAt 0 = nextKind l :=
  h.kindAt 0

theorem Reads.imp (h : Reads x s l Q) (hQ : ∀ a b, Q a b → Q' a b) : Reads x s l Q' :=
  ⟨h.1, hQ _ _ h.2⟩

theorem Reads.congr {y : Parser α} (h : Reads y s l Q) (hxy : x s = y s) : Reads x s l Q := by
  unfold Reads
  rw [hxy]
  exact h

theorem Reads.pure {a : α} (hs : At s l) (h : Q a s.arena) : Reads (Pure.pure a) s l Q :=
  ⟨hs.passed, h⟩

theorem Reads.bind (hx : Reads x s l Q)
    (hf : ∀ a t, Passed s l t → Q a t.arena → Reads (f a) t l' R) : Reads (x >>= f) s l' R := by
  obtain ⟨hpassed, hQ⟩ := hx
  obtain ⟨hpassed', hR⟩ := hf _ _ hpassed hQ
  exact ⟨hpassed.trans hpassed', hR⟩

/-- A parser that only looks. -/
theorem Reads.look {a : α} (hx : x s = (a, s)) (hf : Reads (f a) s l R) :
    Reads (x >>= f) s l R := by
  unfold Reads
  rw [bind_run, hx]
  exact hf

theorem passed_advance {k : Token} (hs : At s (k :: l)) (hk : k.kind ≠ .endOfFile) :
    Passed s l s.advance := by
  have hadvance : s.advance =
      { s with rest := l, remaining := s.remaining - 1, prevStop := k.stop } := by
    unfold State.advance
    rw [hs.rest]
    exact if_neg hk
  rw [hadvance]
  refine ⟨⟨rfl, ?_⟩, rfl, rfl, List.prefix_refl _⟩
  show s.remaining - 1 = l.length
  rw [hs.counted]
  rfl

/-- The token at hand is passed. -/
theorem Reads.advance {k : Token} {f : Unit → Parser β} (hs : At s (k :: l))
    (hk : k.kind ≠ .endOfFile) (hf : ∀ t, Passed s l t → Reads (f ()) t l' R) :
    Reads (Parsing.advance >>= f) s l' R :=
  Reads.bind (Q := fun _ _ => True) ⟨passed_advance hs hk, trivial⟩ fun _ t ht _ => hf t ht

/-- The token at hand is accepted. -/
theorem Reads.accept {k : TokenKind} {t : Token} {f : Bool → Parser β} (hs : At s (t :: l))
    (ht : t.kind = k) (hk : k ≠ .endOfFile) (hf : ∀ u, Passed s l u → Reads (f true) u l' R) :
    Reads (Parsing.accept k >>= f) s l' R := by
  have hkind : s.kindAt 0 = k := (hs.kindAt 0).trans ht
  refine Reads.bind (l := l) (Q := fun r _ => r = true) ?_ fun r u hu hr => ?_
  · unfold Reads
    rw [accept_eq, hkind, if_pos (beq_self_eq_true _)]
    exact ⟨passed_advance hs (ht ▸ hk), rfl⟩
  · subst hr
    exact hf u hu

theorem Reads.expect {k : TokenKind} {t : Token} {f : Bool → Parser β} (hs : At s (t :: l))
    (ht : t.kind = k) (hk : k ≠ .endOfFile) (hf : ∀ u, Passed s l u → Reads (f true) u l' R) :
    Reads (Parsing.expect k >>= f) s l' R := by
  refine Reads.bind (l := l) (Q := fun r _ => r = true) ?_ fun r u hu hr => ?_
  · unfold Reads
    rw [expect_at ((hs.kindAt 0).trans ht)]
    exact ⟨passed_advance hs (ht ▸ hk), rfl⟩
  · subst hr
    exact hf u hu

/-- A node is added. -/
theorem reads_addNode {form : Form} {P : NodeId → Arena → Prop} (hs : At s l) (pos stop : Nat)
    (h : ∀ i a, s.arena.toList <+: a.toList → a.form? i = some form → P i a) :
    Reads (addNode form pos stop) s l P := by
  have hgrows := prefix_push s ⟨form, pos, stop⟩
  have hform : Arena.form? (s.arena.push ⟨form, pos, stop⟩) s.arena.size = some form := by
    simp [Arena.form?]
  exact ⟨⟨⟨hs.rest, hs.counted⟩, rfl, rfl, hgrows⟩, h _ _ hgrows hform⟩

theorem reads_finish {form : Form} {P : NodeId → Arena → Prop} (hs : At s l) (start : Nat)
    (h : ∀ i a, s.arena.toList <+: a.toList → a.form? i = some form → P i a) :
    Reads (finish start form) s l P :=
  .look rfl (reads_addNode hs start _ h)

/-- The token at hand becomes a node. -/
theorem reads_leaf {g : Token → Form} {t : Token} (hs : At s (t :: l)) (ht : t.kind ≠ .endOfFile) :
    Reads (do
      let t ← token
      advance
      addNode (g t) t.start t.stop) s l fun i a => a.form? i = some (g t) := by
  have htoken : s.tokenAt 0 = t := by
    unfold State.tokenAt
    rw [hs.rest]
    rfl
  refine .look (a := t) (by rw [← htoken]; rfl) (.advance hs ht fun u hu => ?_)
  exact reads_addNode hu.toAt _ _ fun _ _ _ => id

/-! ### Loops -/

section

variable {x : Parser β} {body : β → Parser (Turn β)} {P P' : β → Arena → Prop}

theorem comesTo_iterate {b : β} (hs : At s l) (hb : P b s.arena) :
    ComesTo (iterate b body) body s l P :=
  ⟨s.remaining + 1, b, s, rfl, by rw [hs.counted]; exact Nat.lt_succ_self _, hs.passed, hb⟩

theorem ComesTo.bind {x : Parser α} {f : α → Parser β} (hx : Reads x s l Q)
    (hf : ∀ a t, Passed s l t → Q a t.arena → ComesTo (f a) body t l' P) :
    ComesTo (x >>= f) body s l' P := by
  obtain ⟨hpassed, hQ⟩ := hx
  obtain ⟨n, b, u, hrun, hn, hu, hP⟩ := hf _ _ hpassed hQ
  exact ⟨n, b, u, hrun, hn, hpassed.trans hu, hP⟩

/-- Another turn. -/
theorem ComesTo.again (h : ComesTo x body s l P) (hless : l'.length < l.length)
    (hbody : ∀ b t, Passed s l t → P b t.arena →
      Reads (body b) t l' fun turn a => ∃ c, turn = .again c ∧ P' c a) :
    ComesTo x body s l' P' := by
  obtain ⟨n, b, t, hrun, hn, ht, hP⟩ := h
  obtain ⟨m, rfl⟩ := Nat.exists_eq_add_of_lt (Nat.zero_lt_of_lt hn)
  obtain ⟨hu, c, hc, hP'⟩ := hbody b t ht hP
  have hturn : body b t = (.again c, (body b t).2) := Prod.ext hc rfl
  rw [iterateUpTo_again hturn] at hrun
  exact ⟨_, c, _, hrun, by omega, ht.trans hu, hP'⟩

/-- The last turn. -/
theorem ComesTo.done (h : ComesTo x body s l P)
    (hbody : ∀ b t, Passed s l t → P b t.arena →
      Reads (body b) t l' fun turn a => ∃ c, turn = .done c ∧ P' c a) :
    Reads x s l' P' := by
  obtain ⟨n, b, t, hrun, hn, ht, hP⟩ := h
  obtain ⟨m, rfl⟩ := Nat.exists_eq_add_of_lt (Nat.zero_lt_of_lt hn)
  obtain ⟨hu, c, hc, hP'⟩ := hbody b t ht hP
  have hturn : body b t = (.done c, (body b t).2) := Prod.ext hc rfl
  unfold Reads
  rw [hrun, iterateUpTo_done hturn]
  exact ⟨ht.trans hu, hP'⟩

end

end

/-! ### Levels -/

/-- One level deeper. -/
theorem Reads.nested {α : Type} {x fallback : Parser α} {s : State} {l : List Token}
    {Q : α → Arena → Prop} (h : s.depth < maxDepth) (hx : Reads x s.deeper l Q) :
    Reads (nested x fallback) s l Q := by
  unfold Reads
  rw [nested_run h]
  obtain ⟨hpassed, hQ⟩ := hx
  refine ⟨⟨⟨hpassed.rest, hpassed.counted⟩, hpassed.errors, ?_, hpassed.arena⟩, hQ⟩
  show (x s.deeper).2.depth - 1 = s.depth
  rw [hpassed.depth]
  rfl

/-! ## Leaves -/

section

variable {s : State} {l : List Token}

theorem reads_wordAsName {t : Token} (hs : At s (t :: l)) (ht : t.kind ≠ .endOfFile) :
    Reads wordAsName s l fun i a => a.form? i = some (.identifier t.word.text) :=
  reads_leaf (g := fun t => .identifier (t.value.getD t.kind.text)) hs ht

theorem reads_keywordNode {t : Token} (hs : At s (t :: l)) (ht : t.kind ≠ .endOfFile) :
    Reads keywordNode s l fun i a => a.form? i = some (.keyword t.kind) :=
  reads_leaf (g := fun t => .keyword t.kind) hs ht

theorem reads_literal {t : Token} (hs : At s (t :: l)) (ht : t.kind ≠ .endOfFile) :
    Reads literal s l fun i a => a.form? i = some (if t.kind = .number then
      .numericLiteral (t.value.getD "") else .stringLiteral (t.value.getD "")) :=
  reads_leaf (g := fun t => if t.kind = .number then .numericLiteral (t.value.getD "")
    else .stringLiteral (t.value.getD "")) hs ht

end

end Parsing

end ScriptAnalysis
