import ScriptAnalysis.Parsing.Expressions
import ScriptAnalysis.Parsing.Statements
import ScriptAnalysis.Proofs.Parsing.Builds
import ScriptAnalysis.Proofs.Token.Blanking

/-!
# Two runs of the parser

Two lists of tokens that differ only in whether a line ends before the last one
are parsed side by side. Where the one run reports an error, the other does as
well, and both build the same tree.

**Invariant.** `Alike B s s'` relates the states of the two runs. With it goes
what holds of either run, as long as the tokens stop at places that satisfy `B`
and names are spelled (`Placed`): nodes stop at such places too, and without an
error every class has a name (`Sound`). Only the number of errors is compared,
since the text of an error at the end of the file may depend on the line end.

**Steps.** `Runs P x Q` is the triple for a pair of runs, with the growth of the
tree and of the errors (`Grows`). `Agrees B x` is the case where the invariant
is kept. The lemmas here are those for the parsers that all rules of the grammar
are made of.
-/
namespace ScriptAnalysis

namespace Lexer.SameTokens

variable {ts ts' : List Token}

theorem ne_nil (h : SameTokens ts ts') : ts ≠ [] := by
  cases h <;> exact List.cons_ne_nil _ _

theorem length (h : SameTokens ts ts') : ts'.length = ts.length := by
  induction h with
  | last => rfl
  | cons t h ih => exact congrArg (· + 1) ih

theorem nameFollows (h : SameTokens ts ts') :
    Parsing.nameFollows ts' = Parsing.nameFollows ts := by
  cases h <;> rfl

theorem nameFollowsOnLine (h : SameTokens ts ts') :
    Parsing.nameFollowsOnLine ts' = Parsing.nameFollowsOnLine ts := by
  cases h with
  | last h =>
    unfold Parsing.nameFollowsOnLine
    dsimp only
    rw [h]
    rfl
  | cons t h => rfl

theorem declarationWord (h : SameTokens ts ts') :
    Parsing.declarationWord ts' = Parsing.declarationWord ts := by
  induction h with
  | last h =>
    unfold Parsing.declarationWord
    rfl
  | cons t h ih =>
    unfold Parsing.declarationWord
    rw [h.nameFollows, h.nameFollowsOnLine, ih]

theorem declarationWord_drop (h : SameTokens ts ts') :
    Parsing.declarationWord (ts'.drop 1) = Parsing.declarationWord (ts.drop 1) := by
  cases h with
  | last h => rfl
  | cons t h => exact h.declarationWord

theorem startsDeclaration (h : SameTokens ts ts') :
    Parsing.startsDeclaration ts' = Parsing.startsDeclaration ts := by
  induction h with
  | last h =>
    unfold Parsing.startsDeclaration
    rw [(SameTokens.last h ‹_›).declarationWord]
  | cons t h ih =>
    unfold Parsing.startsDeclaration
    rw [h.declarationWord, (h.cons t).declarationWord, ih]

theorem arrowFollows (h : SameTokens ts ts') (depth : Nat) :
    Parsing.arrowFollows depth ts' = Parsing.arrowFollows depth ts := by
  induction h generalizing depth with
  | last h =>
    rfl
  | cons t h ih =>
    unfold Parsing.arrowFollows
    simp only [ih]
    cases h <;> rfl

/-- Where a line ends in the first list, one ends in the second. -/
theorem afterBreak (h : SameTokens ts ts') {t : Token}
    (hbreak : (ts.getD 0 t).afterBreak = true) : (ts'.getD 0 t).afterBreak = true := by
  cases h with
  | last h hcrossed => exact hcrossed hbreak
  | cons u h => exact hbreak

theorem getD (h : SameTokens ts ts') (n : Nat) (t : Token) :
    ∃ crossed, ts'.getD n t = { ts.getD n t with afterBreak := crossed } := by
  induction h generalizing n with
  | last h hcrossed =>
    cases n with
    | zero => exact ⟨_, rfl⟩
    | succ n => exact ⟨t.afterBreak, rfl⟩
  | cons u h ih =>
    cases n with
    | zero => exact ⟨u.afterBreak, rfl⟩
    | succ n => exact ih n

/-- The last token is the only one that may differ. -/
theorem head (h : SameTokens ts ts') {t : Token} (hkind : (ts.getD 0 t).kind ≠ .endOfFile) :
    ts'.getD 0 t = ts.getD 0 t := by
  cases h with
  | last h => exact absurd h hkind
  | cons u h => rfl

end Lexer.SameTokens

namespace Parsing

open Lexer

/-! ## What is kept -/

/-- The name that a declaration cannot be without to declare anything. -/
def className? : Form → Option NodeId
  | .classDeclaration p => some p.name
  | _ => none

/-- A name that has characters. -/
def Named (a : Arena) (id : NodeId) : Prop :=
  ∃ name, a.nameOf? id = some name ∧ name ≠ ""

/-- A token of a text whose places for tokens are `B`. -/
structure Placed (B : Nat → Prop) (t : Token) : Prop where
  start : B t.start
  stop : B t.stop
  word : t.kind.isName = true → t.value.getD t.kind.text ≠ ""

/-- Tokens and nodes stop where tokens do, at places that satisfy `B`, and as
long as there is no error classes have names. -/
structure Sound (B : Nat → Prop) (s : State) : Prop where
  tokens : ∀ t ∈ s.rest, Placed B t
  prevStop : B s.prevStop
  stops : ∀ n ∈ s.arena.toList, B n.stop
  reported : s.lastError ≠ none → s.errors.size ≠ 0
  named : s.errors.size = 0 → ∀ n ∈ s.arena.toList, ∀ id ∈ className? n.form, Named s.arena id

/-- The states have the same tokens left, but for a line end at the end of the
file, have done the same, and have reported as many errors. -/
structure Alike (B : Nat → Prop) (s s' : State) : Prop where
  same : s' = { s with rest := s'.rest, errors := s'.errors }
  tokens : SameTokens s.rest s'.rest
  errors : s'.errors.size = s.errors.size
  sound : Sound B s

/-- Nodes and errors are added only. -/
structure Grows (s t : State) : Prop where
  arena : s.arena.toList <+: t.arena.toList
  errors : s.errors.size ≤ t.errors.size

/-- Two runs of a parser from states that satisfy `P` give the same result `a`
and end in states that satisfy `Q a`. -/
def Runs {α : Type} (P : State → State → Prop) (x : Parser α) (Q : α → State → State → Prop) :
    Prop :=
  ∀ s s', P s s' → (x s').1 = (x s).1 ∧ Q (x s).1 (x s).2 (x s').2 ∧ Grows s (x s).2

/-- Two runs of a parser that start alike end alike. -/
def Agrees {α : Type} (B : Nat → Prop) (x : Parser α) : Prop :=
  Runs (Alike B) x fun _ => Alike B

theorem Grows.refl (s : State) : Grows s s :=
  ⟨List.prefix_refl _, Nat.le_refl _⟩

theorem Grows.of_arena {s t : State} (harena : t.arena = s.arena)
    (herrors : s.errors.size ≤ t.errors.size) : Grows s t :=
  ⟨harena ▸ List.prefix_refl _, herrors⟩

theorem Grows.trans {s t u : State} (h : Grows s t) (h' : Grows t u) : Grows s u :=
  ⟨h.arena.trans h'.arena, Nat.le_trans h.errors h'.errors⟩

/-! ## Sequences -/

section

variable {α β : Type} {B : Nat → Prop} {P P' : State → State → Prop}
  {Q : α → State → State → Prop} {R : β → State → State → Prop} {x : Parser α} {f : α → Parser β}

theorem Runs.pure {a : α} (h : ∀ s s', P s s' → Q a s s') : Runs P (Pure.pure a : Parser α) Q :=
  fun s s' hs => ⟨rfl, h s s' hs, .refl s⟩

theorem Runs.bind (hx : Runs P x Q) (hf : ∀ a, Runs (Q a) (f a) R) : Runs P (x >>= f) R := by
  intro s s' h
  obtain ⟨hresult, hnext, hgrows⟩ := hx s s' h
  obtain ⟨hresult', hlast, hgrows'⟩ := hf (x s).1 (x s).2 (x s').2 hnext
  refine ⟨?_, ?_, hgrows.trans hgrows'⟩
  · show (f (x s').1 (x s').2).1 = (f (x s).1 (x s).2).1
    rw [hresult]
    exact hresult'
  · show R (f (x s).1 (x s).2).1 (f (x s).1 (x s).2).2 (f (x s').1 (x s').2).2
    rw [hresult]
    exact hlast

theorem Runs.ite {p : Prop} [Decidable p] {y z : Parser α} (hy : p → Runs P y Q)
    (hz : ¬p → Runs P z Q) : Runs P (if p then y else z) Q := by
  split
  · exact hy ‹_›
  · exact hz ‹_›

theorem Runs.weaken (h : Runs P x Q) (hP : ∀ s s', P' s s' → P s s') : Runs P' x Q :=
  fun s s' hs => h s s' (hP s s' hs)

theorem Runs.imp {Q' : α → State → State → Prop} (h : Runs P x Q)
    (hQ : ∀ a s s', Q a s s' → Q' a s s') : Runs P x Q' := by
  intro s s' hs
  obtain ⟨hresult, hnext, hgrows⟩ := h s s' hs
  exact ⟨hresult, hQ _ _ _ hnext, hgrows⟩

/-- What is read of the states is the same in both. -/
theorem Runs.get {f : State → Parser α} (hsame : ∀ s s', P s s' → f s' = f s)
    (hf : ∀ s s', P s s' → Runs P (f s) Q) : Runs P ((MonadState.get : Parser State) >>= f) Q := by
  intro s s' h
  show (f s' s').1 = (f s s).1 ∧ Q (f s s).1 (f s s).2 (f s' s').2 ∧ Grows s (f s s).2
  rw [hsame s s' h]
  exact hf s s' h s s' h

/-- A parser that only looks. -/
theorem Runs.look (hx : ∀ s, (x s).2 = s) (h : ∀ s s', P s s' → (x s').1 = (x s).1) :
    Runs P x fun _ => P := by
  intro s s' hs
  rw [hx, hx]
  exact ⟨h s s' hs, hs, .refl s⟩

theorem Agrees.pure (a : α) : Agrees B (Pure.pure a : Parser α) :=
  Runs.pure fun _ _ h => h

theorem Agrees.bind (hx : Agrees B x) (hf : ∀ a, Agrees B (f a)) : Agrees B (x >>= f) :=
  Runs.bind hx hf

theorem Agrees.ite {p : Prop} [Decidable p] {y z : Parser α} (hy : p → Agrees B y)
    (hz : ¬p → Agrees B z) : Agrees B (if p then y else z) :=
  Runs.ite hy hz

theorem Agrees.get {f : State → Parser α} (hsame : ∀ s s', Alike B s s' → f s' = f s)
    (hf : ∀ s, Agrees B (f s)) : Agrees B ((MonadState.get : Parser State) >>= f) :=
  Runs.get hsame fun s _ _ => hf s

/-- What only grows is kept by any run. -/
theorem Agrees.keep {K : State → Prop} (hx : Agrees B x)
    (hK : ∀ s t, Grows s t → K s → K t) :
    Runs (fun s s' => Alike B s s' ∧ K s) x fun _ s s' => Alike B s s' ∧ K s := by
  rintro s s' ⟨h, hk⟩
  obtain ⟨hresult, hnext, hgrows⟩ := hx s s' h
  exact ⟨hresult, ⟨hnext, hK _ _ hgrows hk⟩, hgrows⟩

end

/-! ## The tokens at hand -/

section

variable {B : Nat → Prop} {s s' : State} (h : Alike B s s')

include h

theorem Alike.tokenAt (n : Nat) :
    ∃ crossed, s'.tokenAt n = { s.tokenAt n with afterBreak := crossed } :=
  h.tokens.getD n noToken

theorem Alike.kindAt (n : Nat) : s'.kindAt n = s.kindAt n := by
  obtain ⟨crossed, ht⟩ := h.tokenAt n
  show (s'.tokenAt n).kind = _
  rw [ht]
  rfl

/-- The last token is the only one that may differ. -/
theorem Alike.token_eq (hkind : s.kindAt 0 ≠ .endOfFile) : s'.tokenAt 0 = s.tokenAt 0 :=
  h.tokens.head hkind

theorem Alike.mem_token : s.tokenAt 0 ∈ s.rest := by
  have hne := h.tokens.ne_nil
  unfold State.tokenAt
  cases hrest : s.rest with
  | nil => exact absurd hrest hne
  | cons t ts => exact List.mem_cons_self

theorem Alike.placed : Placed B (s.tokenAt 0) :=
  h.sound.tokens _ h.mem_token

theorem Alike.variableKind? : s'.variableKind? = s.variableKind? := by
  unfold State.variableKind?
  rw [h.kindAt, h.kindAt]

theorem Alike.arena : s'.arena = s.arena := by rw [h.same]

theorem Alike.remaining : s'.remaining = s.remaining := by rw [h.same]

theorem Alike.prevStop : s'.prevStop = s.prevStop := by rw [h.same]

theorem Alike.depth : s'.depth = s.depth := by rw [h.same]

end

/-! ## Parsers that add no nodes -/

section

variable {α β : Type} {B : Nat → Prop} {x : Parser α} {f : α → Parser β} {P : State → State → Prop}

theorem agrees_kind : Agrees B kind :=
  .look (fun _ => rfl) fun _ _ h => h.kindAt 0

theorem agrees_ahead (n : Nat) : Agrees B (ahead n) :=
  .look (fun _ => rfl) fun _ _ h => h.kindAt n

theorem agrees_isAt (k : TokenKind) : Agrees B (isAt k) :=
  .look (fun _ => rfl) fun _ _ h => congrArg (· == k) (h.kindAt 0)

theorem agrees_remaining : Agrees B remaining :=
  .look (fun _ => rfl) fun _ _ h => h.remaining

theorem agrees_here : Agrees B here := by
  refine .look (fun _ => rfl) fun s s' h => ?_
  obtain ⟨crossed, ht⟩ := h.tokenAt 0
  show (s'.tokenAt 0).start = (s.tokenAt 0).start
  rw [ht]

theorem Alike.split {s s' : State} (h : Alike B s s') :
    ∃ rest errors, s' = { s with rest := rest, errors := errors } ∧ SameTokens s.rest rest ∧
      errors.size = s.errors.size :=
  ⟨_, _, h.same, h.tokens, h.errors⟩

theorem Alike.advance {s s' : State} (h : Alike B s s') : Alike B s.advance s'.advance := by
  obtain ⟨rest', errors', rfl, htokens, herrors⟩ := h.split
  have hsound := h.sound
  cases s with
  | mk rest remaining prevStop arena errors depth lastError moduleSyntax exhausted =>
    dsimp only at htokens herrors
    unfold State.advance
    cases htokens with
    | last hkind hcrossed =>
      dsimp only
      rw [if_pos hkind, if_pos hkind]
      exact h
    | cons t htokens =>
      dsimp only
      split
      · exact h
      · refine ⟨rfl, htokens, herrors, ?_⟩
        exact ⟨fun u hu => hsound.tokens u (List.mem_cons_of_mem t hu),
          (hsound.tokens t List.mem_cons_self).stop, hsound.stops, hsound.reported, hsound.named⟩

theorem agrees_advance : Agrees B advance := by
  intro s s' h
  refine ⟨rfl, h.advance, ?_⟩
  show Grows s s.advance
  refine .of_arena (advance_arena s) ?_
  unfold State.advance
  split
  · exact Nat.le_refl _
  · split <;> exact Nat.le_refl _

theorem Alike.report {s s' : State} (h : Alike B s s') (start length length' : Nat)
    (p p' : Problem) : Alike B (s.report start length p) (s'.report start length' p') := by
  obtain ⟨rest', errors', rfl, htokens, herrors⟩ := h.split
  have hsound := h.sound
  unfold State.report
  dsimp only
  split
  · exact h
  · refine ⟨rfl, htokens, by simp [herrors], ?_⟩
    exact ⟨hsound.tokens, hsound.prevStop, hsound.stops, by simp, by simp⟩

theorem grows_report (s : State) (start length : Nat) (p : Problem) :
    Grows s (s.report start length p) := by
  refine .of_arena (report_arena s start length p) ?_
  unfold State.report
  split
  · exact Nat.le_refl _
  · simp

/-- A problem is reported now or was before. -/
theorem runs_report (p : Problem) : Runs (Alike B) (report p) fun _ s s' =>
    Alike B s s' ∧ s.errors.size ≠ 0 := by
  intro s s' h
  obtain ⟨crossed, ht⟩ := h.tokenAt 0
  refine ⟨rfl, ⟨?_, ?_⟩, grows_report s _ _ p⟩
  · show Alike B (s.report (s.tokenAt 0).start _ p) (s'.report (s'.tokenAt 0).start _ p)
    rw [ht]
    exact h.report _ _ _ p p
  · show (s.report (s.tokenAt 0).start _ p).errors.size ≠ 0
    unfold State.report
    split
    · rename_i hlast
      exact h.sound.reported (by rw [hlast]; exact Option.some_ne_none _)
    · simp

theorem agrees_report (p : Problem) : Agrees B (report p) :=
  (runs_report p).imp fun _ _ _ => And.left

/-- A note that concerns neither tokens, nodes nor errors. -/
theorem agrees_note {f : State → State}
    (hsame : ∀ s rest errors, f { s with rest := rest, errors := errors } =
      { f s with rest := rest, errors := errors })
    (hkeep : ∀ s, f s = { s with
      depth := (f s).depth
      moduleSyntax := (f s).moduleSyntax
      exhausted := (f s).exhausted }) : Agrees B (modify f : Parser PUnit) := by
  intro s s' h
  obtain ⟨rest', errors', rfl, htokens, herrors⟩ := h.split
  have hsound := h.sound
  obtain ⟨depth, moduleSyntax, exhausted, hf⟩ : ∃ depth moduleSyntax exhausted, f s =
      { s with depth := depth, moduleSyntax := moduleSyntax, exhausted := exhausted } :=
    ⟨_, _, _, hkeep s⟩
  refine ⟨rfl, ?_, ?_⟩
  · show Alike B (f s) (f _)
    rw [hsame s rest' errors', hf]
    exact ⟨rfl, htokens, herrors, ⟨hsound.tokens, hsound.prevStop, hsound.stops,
      hsound.reported, hsound.named⟩⟩
  · show Grows s (f s)
    rw [hf]
    exact .of_arena rfl (Nat.le_refl _)

theorem agrees_exhaust : Agrees B exhaust :=
  agrees_note (fun _ _ _ => rfl) fun _ => rfl

theorem agrees_accept (k : TokenKind) : Agrees B (accept k) :=
  (agrees_isAt k).bind fun _ =>
    .ite (fun _ => agrees_advance.bind fun _ => .pure _) fun _ => .pure _

theorem agrees_expect (k : TokenKind) : Agrees B (expect k) :=
  (agrees_accept k).bind fun _ =>
    .ite (fun _ => .pure _) fun _ => (agrees_report _).bind fun _ => .pure _

/-- What kind of token is at hand is known afterwards. -/
theorem Runs.kind {Q : α → State → State → Prop} {f : TokenKind → Parser α}
    (hf : ∀ k, Runs (fun s s' => Alike B s s' ∧ s.kindAt 0 = k) (f k) Q) :
    Runs (Alike B) (kind >>= f) Q := by
  intro s s' h
  show (f (s'.kindAt 0) s').1 = (f (s.kindAt 0) s).1 ∧ Q (f (s.kindAt 0) s).1 (f (s.kindAt 0) s).2
    (f (s'.kindAt 0) s').2 ∧ Grows s (f (s.kindAt 0) s).2
  rw [h.kindAt 0]
  exact hf _ s s' ⟨h, rfl⟩

theorem Agrees.under {x : Parser α} (hx : Agrees B x) (K : State → Prop) :
    Runs (fun s s' => Alike B s s' ∧ K s) x fun _ => Alike B :=
  Runs.weaken hx fun _ _ => And.left

/-- Only before the end of the file a line may end in one run and not in the
other. -/
theorem runs_afterBreak {k : TokenKind} (hk : k ≠ .endOfFile) :
    Runs (fun s s' => Alike B s s' ∧ s.kindAt 0 = k) afterBreak fun _ => Alike B := by
  rintro s s' ⟨h, rfl⟩
  refine ⟨?_, h, .refl s⟩
  show (s'.tokenAt 0).afterBreak = (s.tokenAt 0).afterBreak
  rw [h.token_eq hk]

/-- What is asked only behind another token than the last. -/
theorem runs_unlessBreak {k : TokenKind} {p : Bool} (hp : p = true → k ≠ .endOfFile)
    {y z : Parser α} (hy : Agrees B y) (hz : Agrees B z) :
    Runs (fun s s' => Alike B s s' ∧ s.kindAt 0 = k) (do
      let crossed ← afterBreak
      if p && !crossed then y else z) fun _ => Alike B := by
  cases p with
  | true => exact (runs_afterBreak (hp rfl)).bind fun _ => .ite (fun _ => hy) fun _ => hz
  | false => exact Agrees.under hz _

theorem agrees_canEndStatement : Agrees B canEndStatement := by
  refine Runs.kind fun k => ?_
  split
  · exact (Agrees.pure true).under _
  · exact (Agrees.pure true).under _
  · exact (Agrees.pure true).under _
  · rename_i hend
    exact runs_afterBreak hend

theorem agrees_endStatement : Agrees B endStatement := by
  refine (agrees_accept _).bind fun _ => .ite (fun _ => .pure _) fun _ => ?_
  exact agrees_canEndStatement.bind fun _ => .ite (fun _ => .pure _) fun _ => agrees_report _

end

/-! ## Nodes -/

theorem Named.kept {a b : Arena} {id : NodeId} (h : Named a id)
    (hab : a.toList <+: b.toList) : Named b id := by
  obtain ⟨name, hname, hne⟩ := h
  refine ⟨name, ?_, hne⟩
  obtain ⟨rest, hb⟩ := hab
  have hform : a.form? id = some (.identifier name) := by
    unfold Arena.nameOf? at hname
    split at hname
    · rename_i hform
      cases hname
      exact hform
    · cases hname
  obtain ⟨node, hnode, hnodeform⟩ := Option.map_eq_some_iff.1 hform
  have hsame : b[id]? = a[id]? := by
    rw [← Array.getElem?_toList, ← Array.getElem?_toList, ← hb]
    refine List.getElem?_append_left ?_
    rw [Array.length_toList]
    exact (Array.getElem?_eq_some_iff.1 hnode).1
  unfold Arena.nameOf? Arena.form?
  rw [hsame, hnode, Option.map_some, hnodeform]

section

variable {α : Type} {B : Nat → Prop} {s s' : State} {form : Form} {pos stop : Nat}

theorem prefix_push (s : State) (n : Node) : s.arena.toList <+: (s.arena.push n).toList := by
  rw [Array.toList_push]
  exact List.prefix_append _ _

theorem Alike.push (h : Alike B s s') (hstop : B stop)
    (hname : s.errors.size = 0 → ∀ id ∈ className? form, Named s.arena id) :
    Alike B { s with arena := s.arena.push ⟨form, pos, stop⟩ }
      { s' with arena := s'.arena.push ⟨form, pos, stop⟩ } := by
  obtain ⟨rest', errors', rfl, htokens, herrors⟩ := h.split
  have hsound := h.sound
  refine ⟨rfl, htokens, herrors, ?_⟩
  refine ⟨hsound.tokens, hsound.prevStop, fun n hn => ?_, hsound.reported,
    fun hnone n hn id hid => ?_⟩
  · rw [Array.toList_push, List.mem_append, List.mem_singleton] at hn
    rcases hn with hn | rfl
    · exact hsound.stops n hn
    · exact hstop
  · rw [Array.toList_push, List.mem_append, List.mem_singleton] at hn
    refine Named.kept ?_ (prefix_push s _)
    rcases hn with hn | rfl
    · exact hsound.named hnone n hn id hid
    · exact hname hnone id hid

theorem grows_push (s : State) (n : Node) : Grows s { s with arena := s.arena.push n } :=
  ⟨prefix_push s n, Nat.le_refl _⟩

/-- A node with a name that has characters, if it has to have one. -/
theorem runs_addNode (hstop : B stop) : Runs (fun s s' => Alike B s s' ∧
    (s.errors.size = 0 → ∀ id ∈ className? form, Named s.arena id)) (addNode form pos stop)
      fun _ => Alike B :=
  fun s _ h => ⟨congrArg Array.size h.1.arena, h.1.push hstop h.2, grows_push s _⟩

theorem agrees_addNode (hstop : B stop) (hform : className? form = none) :
    Agrees B (addNode form pos stop) :=
  (runs_addNode hstop).weaken fun _ _ h => ⟨h, fun _ id hid => by rw [hform] at hid; cases hid⟩

/-- A node that ends with the last token passed. -/
theorem runs_finish : Runs (fun s s' => Alike B s s' ∧
    (s.errors.size = 0 → ∀ id ∈ className? form, Named s.arena id)) (finish pos form)
      fun _ => Alike B := by
  intro s s' h
  show (addNode form pos s'.prevStop s').1 = _ ∧ Alike B _ (addNode form pos s'.prevStop s').2 ∧ _
  rw [h.1.prevStop]
  exact runs_addNode h.1.sound.prevStop s s' h

theorem agrees_finish (hform : className? form = none) : Agrees B (finish pos form) :=
  runs_finish.weaken fun _ _ h => ⟨h, fun _ id hid => by rw [hform] at hid; cases hid⟩

/-- Where the token at hand starts is a place for tokens. -/
theorem Runs.here {Q : α → State → State → Prop} {f : Nat → Parser α}
    (hf : ∀ n, B n → Runs (Alike B) (f n) Q) : Runs (Alike B) (here >>= f) Q := by
  intro s s' h
  obtain ⟨crossed, ht⟩ := h.tokenAt 0
  show (f (s'.tokenAt 0).start s').1 = _ ∧ Q _ _ (f (s'.tokenAt 0).start s').2 ∧ _
  rw [ht]
  exact hf _ h.placed.start s s' h

theorem agrees_missingName : Agrees B missingName :=
  Runs.here fun _ hn => agrees_addNode hn rfl

/-- A parser that makes the token at hand a node. -/
theorem agrees_tokenNode {f : Token → Form}
    (hsame : ∀ t crossed, f { t with afterBreak := crossed } = f t)
    (hform : ∀ t, className? (f t) = none) : Agrees B (do
      let t ← token
      advance
      addNode (f t) t.start t.stop) := by
  intro s s' h
  obtain ⟨crossed, ht⟩ := h.tokenAt 0
  let node (t : Token) : Parser NodeId := do
    advance
    addNode (f t) t.start t.stop
  have hnode : Agrees B (node (s.tokenAt 0)) :=
    agrees_advance.bind fun _ => agrees_addNode h.placed.stop (hform _)
  have hsame : node (s'.tokenAt 0) = node (s.tokenAt 0) := by
    rw [ht]
    show (advance >>= fun _ => addNode (f _) _ _) = _
    rw [hsame]
  show (node (s'.tokenAt 0) s').1 = _ ∧ Alike B _ (node (s'.tokenAt 0) s').2 ∧ _
  rw [hsame]
  exact hnode s s' h

theorem agrees_wordAsName : Agrees B wordAsName :=
  agrees_tokenNode (fun _ _ => rfl) fun _ => rfl

theorem agrees_literal : Agrees B literal :=
  agrees_tokenNode (f := fun t => if t.kind = .number then .numericLiteral (t.value.getD "")
    else .stringLiteral (t.value.getD "")) (fun _ _ => rfl) fun t => by split <;> rfl

theorem agrees_keywordNode : Agrees B keywordNode :=
  agrees_tokenNode (fun _ _ => rfl) fun _ => rfl

theorem agrees_propertyName : Agrees B propertyName := by
  refine agrees_kind.bind fun k => ?_
  split
  · exact agrees_literal
  · exact agrees_literal
  · exact .ite (fun _ => agrees_wordAsName) fun _ =>
      (agrees_report _).bind fun _ => agrees_missingName

theorem named_push (a : Arena) (pos stop : Nat) {text : String} (h : text ≠ "") :
    Named (a.push ⟨.identifier text, pos, stop⟩) a.size := by
  refine ⟨text, ?_, h⟩
  unfold Arena.nameOf? Arena.form?
  rw [Array.getElem?_push_size]
  rfl

/-- Without errors the name of a binding has characters. -/
theorem runs_bindingName : Runs (Alike B) bindingName fun id s s' =>
    Alike B s s' ∧ (s.errors.size = 0 → Named s.arena id) := by
  refine Runs.kind fun k => .ite (fun hname => ?_) fun _ => ?_
  · rintro s s' ⟨h, hk⟩
    obtain ⟨hresult, hnext, hgrows⟩ := agrees_wordAsName s s' h
    refine ⟨hresult, ⟨hnext, fun _ => ?_⟩, hgrows⟩
    exact named_push s.advance.arena _ _ (h.placed.word (by rw [← hk] at hname; exact hname))
  · refine Runs.bind (Runs.weaken (runs_report _) fun _ _ => And.left) fun _ => ?_
    refine Runs.imp (agrees_missingName.keep fun _ t hgrows hs => ?_) ?_
    · have := hgrows.errors
      omega
    · exact fun _ s s' h => ⟨h.1, fun hnone => absurd hnone h.2⟩

theorem agrees_bindingName : Agrees B bindingName := by
  intro s s' h
  obtain ⟨hresult, hnext, hgrows⟩ := runs_bindingName s s' h
  exact ⟨hresult, hnext.1, hgrows⟩

end

/-! ## Control -/

section

variable {α β : Type} {B : Nat → Prop}

/-- After an attempt its nodes are dropped, and its errors. -/
theorem rewind_arena {s t : State} (h : Grows s t) : (t.rewind s.mark).arena = s.arena := by
  apply Array.toList_inj.1
  show (t.arena.take s.arena.size).toList = _
  rw [Array.take_eq_extract, Array.toList_extract]
  exact (List.prefix_iff_eq_take.1 h.arena).symm

theorem rewind_errors {s t : State} (h : Grows s t) :
    (t.rewind s.mark).errors.size = s.errors.size := by
  show (t.errors.take s.errors.size).size = _
  rw [Array.take_eq_extract, Array.size_extract]
  have := h.errors
  omega

theorem Alike.rewind {s s' t t' : State} (h : Alike B s s') (ht : Alike B t t')
    (hgrows : Grows s t) : Alike B (t.rewind s.mark) (t'.rewind s'.mark) := by
  have harena := rewind_arena hgrows
  have herrors := rewind_errors hgrows
  have hsound := h.sound
  refine ⟨?_, h.tokens, ?_, ?_⟩
  · obtain ⟨rest', errors', rfl, -, -⟩ := h.split
    obtain ⟨rest', errors', rfl, -, -⟩ := ht.split
    rfl
  · show (t'.errors.take s'.errors.size).size = (t.errors.take s.errors.size).size
    rw [h.errors, Array.take_eq_extract, Array.take_eq_extract, Array.size_extract,
      Array.size_extract, ht.errors]
  · refine ⟨hsound.tokens, hsound.prevStop, ?_, ?_, ?_⟩
    · rw [harena]
      exact hsound.stops
    · rw [herrors]
      exact hsound.reported
    · rw [harena, herrors]
      exact hsound.named

/-- An attempt that fails in one run fails in the other. -/
theorem agrees_attempt {x : Parser (Option α)} (hx : Agrees B x) : Agrees B (attempt x) := by
  intro s s' h
  obtain ⟨hresult, hnext, hgrows⟩ := hx s s' h
  rw [attempt_eq, attempt_eq, hresult, hnext.errors, h.errors]
  split
  · exact ⟨hresult, hnext, hgrows⟩
  · exact ⟨rfl, h.rewind hnext hgrows, .of_arena (rewind_arena hgrows)
      (Nat.le_of_eq (rewind_errors hgrows).symm)⟩

theorem agrees_nested {x fallback : Parser α} (hx : Agrees B x) (hfallback : Agrees B fallback) :
    Agrees B (nested x fallback) := by
  refine .get (fun s s' h => ?_) fun s => ?_
  · rw [h.depth]
  · refine .ite (fun _ => (agrees_report _).bind fun _ => hfallback) fun _ => ?_
    refine (agrees_note (fun _ _ _ => rfl) fun _ => rfl).bind fun _ => hx.bind fun a => ?_
    exact (agrees_note (fun _ _ _ => rfl) fun _ => rfl).bind fun _ => .pure a

/-- What every turn keeps, a loop keeps. -/
theorem runs_iterate {P : State → State → Prop} {body : β → Parser (Turn β)}
    (hremaining : ∀ s s', P s s' → s'.remaining = s.remaining)
    (hexhaust : Runs P exhaust fun _ => P)
    (h : ∀ b, Runs P (body b) fun _ => P) (b : β) : Runs P (iterate b body) fun _ => P := by
  have hloop : ∀ n b, Runs P (iterateUpTo body n b) fun _ => P := by
    intro n
    induction n with
    | zero => exact fun b => hexhaust.bind fun _ => .pure fun _ _ h => h
    | succ n ih =>
      refine fun b => (h b).bind fun t => ?_
      cases t with
      | again b => exact ih b
      | done b => exact .pure fun _ _ h => h
  refine Runs.get (fun s s' hs => ?_) fun s s' _ => hloop _ b
  rw [hremaining s s' hs]

theorem agrees_iterate {body : β → Parser (Turn β)} (h : ∀ b, Agrees B (body b)) (b : β) :
    Agrees B (iterate b body) :=
  runs_iterate (fun _ _ h => h.remaining) agrees_exhaust h b

end

end Parsing

end ScriptAnalysis
