import ScriptAnalysis.Proofs.Parsing.Spans

/-!
# Runs of the parser without errors

`Cleanly b P x Q` says what a parser does when it ends without errors: from a
state that satisfies `P` it comes to one that satisfies `Q`. A run that reports
anything promises nothing, so behind a `report` there is nothing to show. Only
that no parser goes back (`Appends`) holds of all runs: it is what makes the
errors at the end those of every part.

**Budget.** Every use of a recursive rule of the grammar passes a token or goes
one level deeper. `State.budget` counts what is left of both; `b` bounds it, and
the rules are used with smaller and smaller bounds.

**Nodes.** `Gives b x gives moves` adds the nodes `gives r` of the result to
those that wait, one behind the other. A rule that starts a node with the token
at hand is shown from that token on (`Gives.of_here`).
-/
namespace ScriptAnalysis.Parsing

/-- Nodes and errors are added only, tokens are passed only, and the depth is
the same again. -/
structure Onward (s t : State) : Prop extends Grows s t where
  depth : t.depth = s.depth
  remaining : t.remaining ≤ s.remaining

/-- As `Onward`, and the errors that there were are the first ones. -/
structure Appends (s t : State) : Prop extends Onward s t where
  reports : s.errors.toList <+: t.errors.toList

/-- How many tokens can be passed and levels gone deeper. -/
def State.budget (s : State) : Nat :=
  s.remaining + (maxDepth - s.depth)

/-- Run from a state with a budget of at most `b` that satisfies `P`, the parser
ends with an error or with a result and a state that satisfy `Q`. -/
structure Cleanly {α : Type} (b : Nat) (P : State → Prop) (x : Parser α)
    (Q : α → State → Prop) : Prop where
  appends : ∀ s, Appends s (x s).2
  clean : ∀ s, s.budget ≤ b → P s → (x s).2.errors.size = 0 → Q (x s).1 (x s).2

theorem Onward.refl (s : State) : Onward s s :=
  ⟨.refl s, rfl, Nat.le_refl _⟩

theorem Onward.trans {s t u : State} (h : Onward s t) (h' : Onward t u) : Onward s u :=
  ⟨h.toGrows.trans h'.toGrows, h'.depth.trans h.depth, h'.remaining.trans h.remaining⟩

theorem Appends.refl (s : State) : Appends s s :=
  ⟨.refl s, List.prefix_refl _⟩

theorem Appends.trans {s t u : State} (h : Appends s t) (h' : Appends t u) : Appends s u :=
  ⟨h.toOnward.trans h'.toOnward, h.reports.trans h'.reports⟩

theorem Onward.budget {s t : State} (h : Onward s t) : t.budget ≤ s.budget := by
  have := h.remaining
  unfold State.budget
  rw [h.depth]
  omega

/-! ## Sequences -/

section

variable {α β : Type} {b c : Nat} {P P' : State → Prop} {Q Q' : α → State → Prop}
  {R : β → State → Prop} {x y z : Parser α} {f : α → Parser β}

theorem Cleanly.pure {a : α} (h : ∀ s, P s → Q a s) : Cleanly b P (Pure.pure a : Parser α) Q :=
  ⟨fun s => .refl s, fun s _ hs _ => h s hs⟩

theorem Cleanly.weaken (h : Cleanly b P x Q) (hP : ∀ s, P' s → P s) : Cleanly b P' x Q :=
  ⟨h.appends, fun s hb hs => h.clean s hb (hP s hs)⟩

theorem Cleanly.imp (h : Cleanly b P x Q) (hQ : ∀ a s, Q a s → Q' a s) : Cleanly b P x Q' :=
  ⟨h.appends, fun s hb hs hclean => hQ _ _ (h.clean s hb hs hclean)⟩

/-- With a smaller budget. -/
theorem Cleanly.mono (h : Cleanly b P x Q) (hc : c ≤ b) : Cleanly c P x Q :=
  ⟨h.appends, fun s hb => h.clean s (hb.trans hc)⟩

/-- What is run behind an error. -/
theorem Cleanly.behind (h : ∀ s, Appends s (x s).2) : Cleanly b (fun _ => False) x Q :=
  ⟨h, fun _ _ hs => hs.elim⟩

/-- The first parser may spend some of the budget. -/
theorem Cleanly.bind_less (hx : Cleanly b P x fun a s => Q a s ∧ s.budget ≤ c)
    (hf : ∀ a, Cleanly c (Q a) (f a) R) : Cleanly b P (x >>= f) R := by
  refine ⟨fun s => (hx.appends s).trans ((hf _).appends _), fun s hb hs hclean => ?_⟩
  have hsecond := (hf (x s).1).appends (x s).2
  have hfirst : (x s).2.errors.size = 0 := by
    have := hsecond.errors
    have hclean : (f (x s).1 (x s).2).2.errors.size = 0 := hclean
    omega
  obtain ⟨hnext, hless⟩ := hx.clean s hb hs hfirst
  exact (hf _).clean _ hless hnext hclean

theorem Cleanly.bind (hx : Cleanly b P x Q) (hf : ∀ a, Cleanly b (Q a) (f a) R) :
    Cleanly b P (x >>= f) R := by
  refine Cleanly.bind_less (Q := Q) ⟨hx.appends, fun s hb hs hclean => ?_⟩ hf
  exact ⟨hx.clean s hb hs hclean, (hx.appends s).budget.trans hb⟩

/-- What every result of the first parser has may be used. -/
theorem Cleanly.with_result (h : Cleanly b P x Q) :
    Cleanly b P x fun a s => (∃ t, (x t).1 = a) ∧ Q a s :=
  ⟨h.appends, fun s hb hs hclean => ⟨⟨s, rfl⟩, h.clean s hb hs hclean⟩⟩

theorem Cleanly.pure_bind {a : α} (h : Cleanly b P (f a) R) :
    Cleanly b P (Pure.pure a >>= f) R :=
  h

theorem Cleanly.ite {p : Prop} [Decidable p] (hy : p → Cleanly b P y Q)
    (hz : ¬p → Cleanly b P z Q) : Cleanly b P (if p then y else z) Q := by
  split
  · exact hy ‹_›
  · exact hz ‹_›

/-- A parser that only looks. -/
theorem Cleanly.look (hx : ∀ s, (x s).2 = s) (hf : ∀ a, Cleanly b P (f a) R) :
    Cleanly b P (x >>= f) R := by
  refine Cleanly.bind (Q := fun _ => P) ⟨fun s => ?_, fun s _ hs _ => ?_⟩ hf
  · rw [hx]
    exact .refl s
  · rwa [hx]

/-- What was read is the state. -/
theorem Cleanly.get {f : State → Parser β} (hf : ∀ s, Cleanly b (fun t => t = s ∧ P t) (f s) R) :
    Cleanly b P ((MonadState.get : Parser State) >>= f) R :=
  Cleanly.bind (Q := fun r s => s = r ∧ P s) ⟨fun s => .refl s, fun _ _ hs _ => ⟨rfl, hs⟩⟩ hf

/-- What was read is the kind of the token at hand. -/
theorem Cleanly.kind {f : TokenKind → Parser β}
    (hf : ∀ k, Cleanly b (fun s => P s ∧ s.kindAt 0 = k) (f k) R) :
    Cleanly b P (kind >>= f) R :=
  Cleanly.bind (Q := fun k s => P s ∧ s.kindAt 0 = k)
    ⟨fun s => .refl s, fun _ _ hs _ => ⟨hs, rfl⟩⟩ hf

theorem Cleanly.isAt {k : TokenKind} {f : Bool → Parser β}
    (hf : ∀ r, Cleanly b (fun s => P s ∧ (r = true → s.kindAt 0 = k)) (f r) R) :
    Cleanly b P (isAt k >>= f) R :=
  Cleanly.bind (Q := fun r s => P s ∧ (r = true → s.kindAt 0 = k))
    ⟨fun s => .refl s, fun _ _ hs _ => ⟨hs, eq_of_beq⟩⟩ hf

end

/-! ## Nodes that wait -/

/-- The nodes that wait stay, and no others come. -/
def Steady {α : Type} (tokens : List Token) (b : Nat) (x : Parser α) : Prop :=
  ∀ start given moved,
    Cleanly b (Stands tokens start given moved) x fun _ => Stands tokens start given moved

/-- The nodes `gives r` of the result `r` follow those that wait. A parser that
`moves` has passed a token. -/
def Gives {α : Type} (tokens : List Token) (b : Nat) (x : Parser α) (gives : α → List NodeId)
    (moves : Bool) : Prop :=
  ∀ start given moved, Cleanly b (Stands tokens start given moved) x fun r =>
    Stands tokens start (given ++ gives r) (moves || moved)

def GivesOne (tokens : List Token) (b : Nat) (x : Parser NodeId) : Prop :=
  Gives tokens b x (fun id => [id]) true

def GivesOption (tokens : List Token) (b : Nat) (x : Parser (Option NodeId)) : Prop :=
  Gives tokens b x Option.toList false

def GivesList (tokens : List Token) (b : Nat) (x : Parser (List NodeId)) : Prop :=
  Gives tokens b x id false

/-- Gives a node when the token at hand is not the end of the text. -/
def GivesNext (tokens : List Token) (b : Nat) (x : Parser NodeId) : Prop :=
  ∀ start given moved, Cleanly b (Faces tokens start given moved) x fun id =>
    Stands tokens start (given ++ [id]) true

theorem appends_advance (s : State) : Appends s s.advance := by
  unfold State.advance
  split
  · exact .refl s
  · split
    · exact .refl s
    · exact ⟨⟨⟨List.prefix_refl _, Nat.le_refl _⟩, rfl, Nat.sub_le _ _⟩, List.prefix_refl _⟩

theorem appends_report (s : State) (start length : Nat) (p : Problem) :
    Appends s (s.report start length p) := by
  unfold State.report
  split
  · exact .refl s
  · refine ⟨⟨⟨List.prefix_refl _, by simp⟩, rfl, Nat.le_refl _⟩, ?_⟩
    rw [Array.toList_push]
    exact List.prefix_append _ _

theorem appends_push (s : State) (n : Node) : Appends s { s with arena := s.arena.push n } :=
  ⟨⟨grows_push s n, rfl, Nat.le_refl _⟩, List.prefix_refl _⟩

theorem appends_note (s : State) (m e : Bool) :
    Appends s { s with moduleSyntax := m, exhausted := e } :=
  ⟨⟨.of_arena rfl (Nat.le_refl _), rfl, Nat.le_refl _⟩, List.prefix_refl _⟩

section

variable {α β : Type} {tokens : List Token} {b : Nat} {start : Nat} {given : List NodeId}
  {moved : Bool} {P : State → Prop} {x y : Parser α} {f : α → Parser β}
  {mid : α → List NodeId} {gives : β → List NodeId} {moves : Bool} {R : β → State → Prop}

/-! ### Sequences -/

theorem Steady.bind (hx : Steady tokens b x)
    (hf : ∀ a, Cleanly b (Stands tokens start given moved) (f a) R) :
    Cleanly b (Stands tokens start given moved) (x >>= f) R :=
  Cleanly.bind (hx start given moved) hf

theorem Gives.bind (hx : Gives tokens b x mid moves)
    (hf : ∀ a, Cleanly b (Stands tokens start (given ++ mid a) (moves || moved)) (f a) R) :
    Cleanly b (Stands tokens start given moved) (x >>= f) R :=
  Cleanly.bind (hx start given moved) hf

theorem GivesNext.bind {x : Parser NodeId} {f : NodeId → Parser β} (hx : GivesNext tokens b x)
    (hf : ∀ id, Cleanly b (Stands tokens start (given ++ [id]) true) (f id) R) :
    Cleanly b (Faces tokens start given moved) (x >>= f) R :=
  Cleanly.bind (hx start given moved) hf

/-- Some of the nodes that wait are the result. -/
theorem Cleanly.done {r : β} {moved' : Bool} (h : (gives r).Sublist given)
    (hmoved : moved' = true → moved = true) :
    Cleanly b (Stands tokens start given moved) (Pure.pure r : Parser β) fun r =>
      Stands tokens start (gives r) moved' :=
  .pure fun _ hs => hs.sublist h hmoved

theorem Gives.mono {c : Nat} (h : Gives tokens b x mid moves) (hc : c ≤ b) :
    Gives tokens c x mid moves :=
  fun start given moved => (h start given moved).mono hc

theorem GivesNext.mono {c : Nat} {x : Parser NodeId} (h : GivesNext tokens b x) (hc : c ≤ b) :
    GivesNext tokens c x :=
  fun start given moved => (h start given moved).mono hc

/-- With fewer nodes that wait. -/
theorem Cleanly.fewer {given' : List NodeId} {moved' : Bool} {Q : α → State → Prop}
    (h : Cleanly b (Stands tokens start given' moved') x Q) (hs : given'.Sublist given)
    (hmoved : moved' = true → moved = true) :
    Cleanly b (Stands tokens start given moved) x Q :=
  h.weaken fun _ hstands => hstands.sublist hs hmoved

/-- Where the kind of the token at hand does not matter. -/
theorem Cleanly.standing {p : State → Prop} {Q : α → State → Prop} (h : Cleanly b P x Q) :
    Cleanly b (fun s => P s ∧ p s) x Q :=
  h.weaken fun _ => And.left

/-- Where the token at hand is not the end of the text. -/
theorem Cleanly.facing {k : TokenKind} {Q : α → State → Prop} (hk : k ≠ .endOfFile)
    (h : Cleanly b (Faces tokens start given moved) x Q) :
    Cleanly b (fun s => Stands tokens start given moved s ∧ s.kindAt 0 = k) x Q := by
  refine h.weaken fun s hs => ⟨hs.1, ?_⟩
  rw [hs.2]
  exact hk

end

/-! ## Parsers that add no nodes -/

section

variable {α β : Type} {tokens : List Token} {b : Nat} {start : Nat} {given : List NodeId}
  {moved : Bool} {P : State → Prop}

theorem steady_pure (a : α) : Steady tokens b (Pure.pure a : Parser α) :=
  fun _ _ _ => .pure fun _ hs => hs

/-- A note that is not about tokens, nodes and errors. -/
theorem Cleanly.note {P : State → Prop} {f : State → State} (hsame : ∀ s, f s =
      { s with moduleSyntax := (f s).moduleSyntax, exhausted := (f s).exhausted })
    (hP : ∀ s m e, P s → P { s with moduleSyntax := m, exhausted := e }) :
    Cleanly b P (modify f) fun _ => P := by
  refine ⟨fun s => ?_, fun s _ hs _ => ?_⟩
  · show Appends s (f s)
    rw [hsame]
    exact appends_note s _ _
  · show P (f s)
    rw [hsame]
    exact hP s _ _ hs

theorem steady_note {f : State → State} (hsame : ∀ s, f s =
    { s with moduleSyntax := (f s).moduleSyntax, exhausted := (f s).exhausted }) :
    Steady tokens b (modify f) :=
  fun _ _ _ => .note hsame fun _ _ _ hs => hs.same rfl rfl

theorem steady_exhaust : Steady tokens b exhaust :=
  steady_note fun _ => rfl

/-- An error is never reported cleanly: none was reported before, so none is
held back. -/
theorem cleanly_report (p : Problem) (hP : ∀ s, P s → Orderly tokens s) :
    Cleanly b P (report p) fun _ _ => False := by
  refine ⟨fun s => appends_report s _ _ p, fun s _ hs hclean => ?_⟩
  have hnone : s.errors.size = 0 := by
    have := (appends_report s (s.tokenAt 0).start ((s.tokenAt 0).stop - (s.tokenAt 0).start)
      p).errors
    have hclean : (s.report _ _ p).errors.size = 0 := hclean
    omega
  have hlast := (hP s hs).quiet hnone
  have hclean : (s.report _ _ p).errors.size = 0 := hclean
  unfold State.report at hclean
  rw [hlast, if_neg (Option.some_ne_none _).symm] at hclean
  simp at hclean

theorem Cleanly.report {f : Unit → Parser β} {R : β → State → Prop} (p : Problem)
    (hf : Cleanly b (fun _ => False) (f ()) R) :
    Cleanly b (Stands tokens start given moved) (report p >>= f) R :=
  (cleanly_report p fun _ hs => hs.orderly).bind fun _ => hf

/-- There is nothing to keep behind an error. -/
theorem steady_report (p : Problem) : Steady tokens b (report p) := fun _ _ _ =>
  (cleanly_report p fun _ hs => hs.orderly).imp fun _ _ hs => hs.elim

section

variable (hT : Sequence tokens)

include hT

/-- The token at hand is passed, at the cost of one. -/
theorem cleanly_advance : Cleanly (b + 1) (Faces tokens start given moved) advance fun _ s =>
    Stands tokens start given true s ∧ s.budget ≤ b := by
  refine ⟨appends_advance, fun s hb hs _ => ⟨hs.advance hT, ?_⟩⟩
  obtain ⟨-, -, hremaining⟩ := hs.orderly.advance hs.next hT
  have hdepth := (appends_advance s).depth
  show s.advance.budget ≤ b
  unfold State.budget at hb ⊢
  rw [hdepth]
  omega

theorem Cleanly.advance_less {f : Unit → Parser β} {R : β → State → Prop}
    (hf : Cleanly b (Stands tokens start given true) (f ()) R) :
    Cleanly (b + 1) (Faces tokens start given moved) (advance >>= f) R :=
  Cleanly.bind_less (cleanly_advance hT) fun _ => hf

theorem Cleanly.advance {f : Unit → Parser β} {R : β → State → Prop}
    (hf : Cleanly b (Stands tokens start given true) (f ()) R) :
    Cleanly b (Faces tokens start given moved) (advance >>= f) R :=
  Cleanly.bind (((cleanly_advance hT).mono (Nat.le_succ b)).imp fun _ _ => And.left) fun _ => hf

theorem steady_advance : Steady tokens b Parsing.advance :=
  fun _ _ _ => ⟨appends_advance, fun _ _ hs _ => hs.advance hT⟩

theorem steady_accept (k : TokenKind) : Steady tokens b (accept k) := by
  intro start given moved
  refine Cleanly.look (fun _ => rfl) fun r => .ite (fun _ => ?_) fun _ => steady_pure _ _ _ _
  exact (steady_advance hT).bind fun _ => steady_pure _ _ _ _

/-- Without an error the token is there, and it is passed. -/
theorem cleanly_expect {k : TokenKind} (hk : k ≠ .endOfFile) :
    Cleanly (b + 1) (Stands tokens start given moved) (expect k) fun _ s =>
      Stands tokens start given true s ∧ s.budget ≤ b := by
  have haccept : Cleanly (b + 1) (Stands tokens start given moved) (accept k) fun r s =>
      (r = true → Stands tokens start given true s ∧ s.budget ≤ b) ∧ Orderly tokens s := by
    refine Cleanly.isAt fun r => .ite (fun hr => ?_) fun hr => ?_
    · refine Cleanly.bind ((cleanly_advance hT).weaken fun s hs => ⟨hs.1, ?_⟩) fun _ =>
        .pure fun s hs => ⟨fun _ => hs, hs.1.orderly⟩
      rw [hs.2 hr]
      exact hk
    · exact .pure fun s hs => ⟨fun hfalse => absurd hfalse Bool.false_ne_true, hs.1.orderly⟩
  refine haccept.bind fun r => .ite (fun hr => .pure fun s hs => hs.1 hr) fun _ => ?_
  exact (cleanly_report _ fun s hs => hs.2).bind fun _ => .pure fun _ hs => hs.elim

theorem Cleanly.expect_less {k : TokenKind} {f : Bool → Parser β} {R : β → State → Prop}
    (hk : k ≠ .endOfFile) (hf : ∀ r, Cleanly b (Stands tokens start given true) (f r) R) :
    Cleanly (b + 1) (Stands tokens start given moved) (expect k >>= f) R :=
  Cleanly.bind_less (cleanly_expect hT hk) hf

theorem Cleanly.expect {k : TokenKind} {f : Bool → Parser β} {R : β → State → Prop}
    (hk : k ≠ .endOfFile) (hf : ∀ r, Cleanly b (Stands tokens start given true) (f r) R) :
    Cleanly b (Stands tokens start given moved) (expect k >>= f) R :=
  Cleanly.bind (((cleanly_expect hT hk).mono (Nat.le_succ b)).imp fun _ _ => And.left) hf

omit hT in
theorem steady_look {x : Parser α} (hx : ∀ s, (x s).2 = s) : Steady tokens b x := by
  refine fun start given moved => ⟨fun s => ?_, fun s _ hs _ => ?_⟩
  · rw [hx]
    exact .refl s
  · rwa [hx]

omit hT in
theorem steady_canEndStatement : Steady tokens b canEndStatement := by
  refine fun start given moved => Cleanly.look (fun _ => rfl) fun k => ?_
  split
  · exact steady_pure _ _ _ _
  · exact steady_pure _ _ _ _
  · exact steady_pure _ _ _ _
  · exact steady_look (fun _ => rfl) _ _ _

theorem steady_endStatement : Steady tokens b endStatement := by
  intro start given moved
  refine (steady_accept hT _).bind fun _ => .ite (fun _ => steady_pure _ _ _ _) fun _ => ?_
  refine steady_canEndStatement.bind fun _ => .ite (fun _ => steady_pure _ _ _ _) fun _ => ?_
  exact steady_report _ _ _ _

end

end

/-! ## Nodes -/

section

variable {α β : Type} {tokens : List Token} {b : Nat} {start : Nat} {given : List NodeId}
  {moved : Bool} {P : State → Prop} (hT : Sequence tokens)

include hT

/-- A node that takes those that wait for its children. -/
theorem Cleanly.finish {form : Form} (hform : given = form.children) :
    Cleanly b (Stands tokens start given true) (finish start form) fun id =>
      Stands tokens start [id] true :=
  ⟨fun s => appends_push s _, fun _ _ hs _ => hs.push hT hform⟩

/-- What is shown of a parser that starts a node with the token at hand, where
`p` holds of the state, follows the nodes that wait. -/
theorem Cleanly.here {p : State → Prop} {f : Nat → Parser β} {gives : β → List NodeId}
    {moves : Bool}
    (hf : ∀ start, Cleanly b (fun s => Stands tokens start [] false s ∧ p s) (f start) fun r =>
      Stands tokens start (gives r) moves) :
    Cleanly b (fun s => Stands tokens start given moved s ∧ p s) (here >>= f) fun r =>
      Stands tokens start (given ++ gives r) (moves || moved) := by
  refine ⟨fun s => (hf s.here).appends s, fun s hb ⟨hs, hp⟩ hclean => ?_⟩
  have honward := ((hf s.here).appends s).toOnward
  exact hs.join ((hf s.here).clean s hb ⟨hs.orderly.stands hT, hp⟩ hclean) hT honward.arena
    honward.remaining

theorem Gives.of_here {f : Nat → Parser β} {gives : β → List NodeId} {moves : Bool}
    (hf : ∀ start, Cleanly b (Stands tokens start [] false) (f start) fun r =>
      Stands tokens start (gives r) moves) :
    Gives tokens b (Parsing.here >>= f) gives moves := fun _ _ _ =>
  (Cleanly.here hT fun start => (hf start).standing (p := fun _ => True)).weaken fun _ hs =>
    ⟨hs, trivial⟩

omit hT in
/-- The same in front of other parsers. -/
theorem Gives.here_bind {γ : Type} {p : Parser γ} {f : Nat → γ → Parser α} {g : α → Parser β}
    {mid : α → List NodeId} {moves : Bool} {R : β → State → Prop}
    (hf : Gives tokens b (Parsing.here >>= fun start => p >>= f start) mid moves)
    (hg : ∀ a, Cleanly b (Stands tokens start (given ++ mid a) (moves || moved)) (g a) R) :
    Cleanly b (Stands tokens start given moved)
      (Parsing.here >>= fun start => p >>= fun c => f start c >>= g) R :=
  hf.bind hg

theorem GivesNext.of_here {f : Nat → Parser NodeId}
    (hf : ∀ start, Cleanly b (Faces tokens start [] false) (f start) fun id =>
      Stands tokens start [id] true) :
    GivesNext tokens b (Parsing.here >>= f) := fun _ _ _ =>
  (Cleanly.here hT fun start => (hf start).weaken fun _ hs => ⟨hs.1, hs.2⟩).weaken fun _ hs =>
    ⟨hs.toStands, hs.next⟩

/-- The token at hand becomes a node. -/
theorem givesNext_leaf {f : Token → Form} (hform : ∀ t, (f t).children = []) :
    GivesNext tokens b (do
      let t ← token
      advance
      addNode (f t) t.start t.stop) :=
  fun _ _ _ => ⟨fun s => (appends_advance s).trans (appends_push _ _), fun _ _ hs _ =>
    hs.leaf hT (hform _)⟩

theorem givesNext_wordAsName : GivesNext tokens b wordAsName :=
  givesNext_leaf hT fun _ => rfl

theorem givesNext_keywordNode : GivesNext tokens b keywordNode :=
  givesNext_leaf hT fun _ => rfl

theorem givesNext_literal : GivesNext tokens b literal :=
  givesNext_leaf hT (f := fun t => if t.kind = .number then .numericLiteral (t.value.getD "")
    else .stringLiteral (t.value.getD "")) fun t => by split <;> rfl

omit hT in
/-- A name that is missing comes behind an error. -/
theorem appends_missingName (s : State) : Appends s (missingName s).2 :=
  appends_push s _

omit hT in
theorem ne_endOfFile_of_isName {k : TokenKind} (h : k.isName = true) : k ≠ .endOfFile := by
  rintro rfl
  exact absurd h (by decide)

omit hT in
theorem ne_endOfFile_of_isWord {k : TokenKind} (h : k.isWord = true) : k ≠ .endOfFile := by
  rintro rfl
  exact absurd h (by decide)

theorem givesOne_bindingName : GivesOne tokens b bindingName := by
  refine fun start given moved => Cleanly.kind fun k => .ite (fun hk => ?_) fun _ => ?_
  · exact .facing (ne_endOfFile_of_isName hk) (givesNext_wordAsName hT _ _ _)
  · exact .standing (.report _ (.behind appends_missingName))

theorem givesOne_propertyName : GivesOne tokens b propertyName := by
  refine fun start given moved => Cleanly.kind fun k => ?_
  split
  · exact .facing (by decide) (givesNext_literal hT _ _ _)
  · exact .facing (by decide) (givesNext_literal hT _ _ _)
  · refine .ite (fun hk => ?_) fun _ => ?_
    · exact .facing (ne_endOfFile_of_isWord hk) (givesNext_wordAsName hT _ _ _)
    · exact .standing (.report _ (.behind appends_missingName))

end

/-! ## Control -/

section

variable {α β : Type} {tokens : List Token} {b : Nat} {start : Nat} {given : List NodeId}
  {moved : Bool}

/-- An attempt that is given up leaves the errors that there were. -/
theorem errors_rewind {s t : State} (h : s.errors.toList <+: t.errors.toList) :
    (t.rewind s.mark).errors = s.errors := by
  apply Array.toList_inj.1
  show (t.errors.take s.errors.size).toList = _
  rw [Array.take_eq_extract, Array.toList_extract]
  exact (List.prefix_iff_eq_take.1 h).symm

theorem Appends.rewind {s t : State} (h : Appends s t) : Appends s (t.rewind s.mark) :=
  ⟨⟨.of_arena (rewind_arena h.toGrows) (rewind_errors h.toGrows).ge, h.depth, Nat.le_refl _⟩,
    errors_rewind h.reports ▸ List.prefix_refl _⟩

/-- Whether it is kept or given up, an attempt goes on from where it started. -/
theorem appends_attempt {x : Parser (Option α)} {s : State} (h : Appends s (x s).2) :
    Appends s (attempt x s).2 := by
  rw [attempt_eq]
  split
  · exact h
  · exact h.rewind

/-- One level deeper and back. -/
theorem Appends.up {s t : State} (h : Appends { s with depth := s.depth + 1 } t) :
    Appends s { t with depth := t.depth - 1 } := by
  obtain ⟨⟨⟨harena, herrors⟩, hdepth, hremaining⟩, hreports⟩ := h
  refine ⟨⟨⟨harena, herrors⟩, ?_, hremaining⟩, hreports⟩
  show t.depth - 1 = s.depth
  rw [hdepth]
  rfl

/-- An attempt that is given up leaves the nodes that waited. -/
theorem Cleanly.attempt {P : State → Prop} {x : Parser (Option α)} {Q : α → State → Prop}
    (hP : ∀ s, P s → Stands tokens start given moved s)
    (hx : Cleanly b P x fun r s => ∀ a ∈ r, Q a s) :
    Cleanly b P (attempt x) fun r s => r.elim (Stands tokens start given moved s) (Q · s) := by
  refine ⟨fun s => appends_attempt (hx.appends s), fun s hb hs hclean => ?_⟩
  rw [attempt_eq] at hclean ⊢
  split at hclean
  · rename_i hsome
    rw [if_pos hsome]
    have hresult := hx.clean s hb hs hclean
    cases hr : (x s).1 with
    | none =>
      rw [hr] at hsome
      exact Bool.noConfusion hsome
    | some a => exact hresult a hr
  · rename_i hfailed
    rw [if_neg hfailed]
    exact (hP s hs).rewind (hx.appends s).toGrows

theorem nested_eq (x fallback : Parser α) (s : State) :
    nested x fallback s = if maxDepth ≤ s.depth then
        (report .expressionExpected >>= fun _ => fallback) s
      else
        let deep := x { s with depth := s.depth + 1 }
        (deep.1, { deep.2 with depth := deep.2.depth - 1 }) := by
  show (if maxDepth ≤ s.depth then _ else _ : Parser α) s = _
  split <;> rfl

/-- One level deeper the budget is one less. At the deepest level there is an
error. -/
theorem Gives.nested {x fallback : Parser α} {gives : α → List NodeId} {moves : Bool}
    (hx : Gives tokens b x gives moves)
    (hfallback : ∀ s, Appends s (fallback s).2) :
    Gives tokens (b + 1) (nested x fallback) gives moves := by
  intro start given moved
  have hfail : Cleanly (b + 1) (Stands tokens start given moved)
      (Parsing.report .expressionExpected >>= fun _ => fallback) fun r =>
        Stands tokens start (given ++ gives r) (moves || moved) :=
    .report _ (.behind hfallback)
  refine ⟨fun s => ?_, fun s hb hs hclean => ?_⟩
  · rw [nested_eq]
    split
    · exact hfail.appends s
    · exact ((hx start given moved).appends { s with depth := s.depth + 1 }).up
  · rw [nested_eq] at hclean ⊢
    split at hclean
    · rename_i hdeepest
      rw [if_pos hdeepest]
      exact hfail.clean s hb hs hclean
    · rename_i hlevel
      rw [if_neg hlevel]
      have hbudget : ({ s with depth := s.depth + 1 } : State).budget ≤ b := by
        unfold State.budget at hb ⊢
        show s.remaining + (maxDepth - (s.depth + 1)) ≤ b
        omega
      have hdeep := (hx start given moved).clean { s with depth := s.depth + 1 } hbudget
        (hs.same rfl rfl) hclean
      exact hdeep.same rfl rfl

/-- What every turn keeps, a loop keeps, however many turns there are. -/
theorem cleanly_iterate (gives : β → List NodeId) {body : β → Parser (Turn β)}
    (h : ∀ r, Cleanly b (Stands tokens start (gives r) moved) (body r) fun t =>
      Stands tokens start (gives t.value) moved) (r : β) :
    Cleanly b (Stands tokens start (gives r) moved) (iterate r body) fun r =>
      Stands tokens start (gives r) moved := by
  have hloop : ∀ n r, Cleanly b (Stands tokens start (gives r) moved) (iterateUpTo body n r)
      fun r => Stands tokens start (gives r) moved := by
    intro n
    induction n with
    | zero => exact fun r => steady_exhaust.bind fun _ => .done (.refl _) id
    | succ n ih =>
      refine fun r => (h r).bind fun t => ?_
      cases t with
      | again r => exact ih r
      | done r => exact .done (.refl _) id
  exact Cleanly.get fun s => (hloop _ r).weaken fun _ => And.right

theorem steady_iterate {body : β → Parser (Turn β)} (h : ∀ r, Steady tokens b (body r)) (r : β) :
    Steady tokens b (iterate r body) :=
  fun start given moved => cleanly_iterate (fun _ => given) (fun r => h r start given moved) r

end

end ScriptAnalysis.Parsing
