import ScriptAnalysis.Proofs.Parsing.Lasting

/-!
# What a run of the parser is made of

`Trace s t`: the parser has come from the state `s` to the state `t` by the steps
listed as constructors. Each of them says under which condition the rules of the
grammar take it. A token is passed for what it is, an `else` only as a name or in
front of a branch, and any token behind an error; a name without characters comes
only behind an error; a loop without a body stands in front of a closing brace,
the end of the text, or behind an error.

What all runs have in common is then an induction over these steps. The modules
that use it need to know nothing of the rules of the grammar.

**Faults.** A state is faulty (`State.Faulty`) when an error was reported or a bound
of the parser itself was reached. Nothing but an abandoned attempt, which takes
all back that was done since, undoes a fault (`Trace.faulty`).

**Rules.** `TracedFrom P x`: run from a state that satisfies `P`, the parser `x`
leaves a trace. `TracedStatement` says besides what a statement comes to, and
`MovesFrom` that a turn of a loop has passed a token if the loop goes on; so a loop
never runs out of turns (`iterate_leaves`).
-/
namespace ScriptAnalysis

/-- Tokens in front of an operand or a callee. -/
def TokenKind.takesOperand : TokenKind → Bool
  | exclamation | minus | plus | plusPlus | minusMinus | kwTypeof | kwNew => true
  | _ => false

namespace Form

/-- What an operator, `typeof` or `new` stands in front of. -/
def operand? : Form → Option NodeId
  | prefixUnary _ operand => some operand
  | typeOf expression => some expression
  | newExpression callee _ => some callee
  | _ => none

/-- The statement that ends a loop, or an `if` without `else`; it may be missing. -/
def body? : Form → Option (Option NodeId)
  | ifStatement _ thenBranch none => some thenBranch
  | whileStatement _ body | forStatement _ _ _ body | forOfStatement _ _ body => some body
  | _ => none

/-- Neither a name, nor in front of an operand, nor with a statement at its end. -/
def isFree : Form → Bool
  | identifier _ | prefixUnary _ _ | typeOf _ | newExpression _ _ => false
  | ifStatement _ _ _ | whileStatement _ _ | forStatement _ _ _ _ | forOfStatement _ _ _ => false
  | _ => true

end Form

namespace Parsing

open Lexer (isWord_of_isName stopAfter)

/-- An error was reported, or a bound of the parser itself was reached. -/
def State.Faulty (s : State) : Prop :=
  s.lastError ≠ none ∨ s.exhausted = true

/-- The number of tokens left is right. -/
def State.Counted (s : State) : Prop :=
  s.remaining = s.rest.length

/-- With a new node. -/
def State.push (s : State) (form : Form) (pos stop : Nat) : State :=
  { s with arena := s.arena.push ⟨form, pos, stop⟩ }

/-- What a statement comes to: a node that starts with the token that was at hand,
or nothing in front of a closing brace or the end of the text, or a fault. -/
inductive Stated (s : State) : Option NodeId → State → Prop where
  | node {i t n} (there : t.arena[i]? = some n) (pos : n.pos = (s.tokenAt 0).start) :
    Stated s (some i) t
  | nothing {t} (closes : closesBraces (s.kindAt 0) = true) (rest : t.rest = s.rest)
    (prevStop : t.prevStop = s.prevStop) : Stated s none t
  | fault {t} (fault : t.Faulty) : Stated s none t

/-- Where the statement is missing there is a closing brace, the end of the text, or
a fault. -/
def State.Lacks (statement : Option NodeId) (s : State) : Prop :=
  statement = none → s.Faulty ∨ closesBraces (s.kindAt 0) = true

/-- The steps of the parser lead from the first state to the second. -/
inductive Trace : State → State → Prop where
  | refl (s) : Trace s s
  | trans {s t u} (first : Trace s t) (second : Trace t u) : Trace s u
  | pass {s} (next : s.kindAt 0 ≠ .kwElse) : Trace s s.advance
  | skip {s} (fault : s.Faulty) : Trace s s.advance
  /-- The token at hand is reported. -/
  | report (s problem) :
    Trace s (s.report s.here ((s.tokenAt 0).stop - (s.tokenAt 0).start) problem)
  | note (s moduleSyntax) : Trace s { s with moduleSyntax := moduleSyntax }
  | exhaust (s) : Trace s { s with exhausted := true }
  /-- The word at hand becomes a name. -/
  | word {s} (next : (s.kindAt 0).isWord = true) :
    Trace s (s.advance.push (.identifier ((s.tokenAt 0).value.getD (s.tokenAt 0).kind.text))
      (s.tokenAt 0).start (s.tokenAt 0).stop)
  | missing {s} (fault : s.Faulty) (pos) : Trace s (s.push (.identifier "") pos pos)
  | node (s) {form} (free : form.isFree = true) (pos stop) : Trace s (s.push form pos stop)
  /-- A token and its operand, which `operand` leads over, become a node. -/
  | operator {s t form} (next : (s.kindAt 0).takesOperand = true) (operand : Trace s.advance t)
    (takes : form.operand?.isSome = true) (pos stop) : Trace s (t.push form pos stop)
  | closed {s form body} (ends : form.body? = some body) (lacks : s.Lacks body) (pos) :
    Trace s (s.push form pos s.prevStop)
  /-- An `else` and its branch, which `branch` leads over, end an `if`. -/
  | otherwise {s t elseBranch} (condition thenBranch) (next : s.kindAt 0 = .kwElse)
    (lacks : s.Lacks thenBranch) (branch : Trace s.advance t)
    (stated : Stated s.advance elseBranch t) (pos) :
    Trace s (t.push (.ifStatement condition thenBranch elseBranch) pos t.prevStop)
  | nested {s t} (inner : Trace s.deeper t) : Trace s { t with depth := t.depth - 1 }
  | abandoned {s t} (attempt : Trace s t) : Trace s (t.rewind s.mark)

/-! ## What steps keep -/

section

variable {s t : State}

/-- Behind a token that is not the end of the text. -/
theorem advance_of_rest {u : Token} {rest : List Token} (hrest : s.rest = u :: rest)
    (hkind : u.kind ≠ .endOfFile) : s.advance =
      { s with rest := rest, remaining := s.remaining - 1, prevStop := u.stop } := by
  unfold State.advance
  rw [hrest]
  exact if_neg hkind

/-- Either the end of the text is at hand, or there is a token to pass. -/
theorem rest_of_next (hnext : s.kindAt 0 ≠ .endOfFile) :
    ∃ rest, s.rest = s.tokenAt 0 :: rest := by
  revert hnext
  unfold State.kindAt State.tokenAt
  cases s.rest with
  | nil => exact fun hnext => absurd rfl hnext
  | cons u rest => exact fun _ => ⟨rest, rfl⟩

theorem advance_next (hnext : s.kindAt 0 ≠ .endOfFile) : ∃ rest, s.rest = s.tokenAt 0 :: rest ∧
    s.advance = { s with
      rest := rest, remaining := s.remaining - 1, prevStop := (s.tokenAt 0).stop } := by
  obtain ⟨rest, hrest⟩ := rest_of_next hnext
  exact ⟨rest, hrest, advance_of_rest hrest hnext⟩

theorem advance_faults (s : State) :
    s.advance.lastError = s.lastError ∧ s.advance.exhausted = s.exhausted := by
  by_cases hnext : s.kindAt 0 = .endOfFile
  · rw [advance_at_end hnext]
    exact ⟨rfl, rfl⟩
  · obtain ⟨rest, -, hadvance⟩ := advance_next hnext
    rw [hadvance]
    exact ⟨rfl, rfl⟩

theorem State.Faulty.advance (h : s.Faulty) : s.advance.Faulty := by
  obtain ⟨hlast, hexhausted⟩ := advance_faults s
  unfold State.Faulty
  rwa [hlast, hexhausted]

/-- A token that is not the end of the text is one less. -/
theorem State.Counted.remaining_advance (h : s.Counted) (hnext : s.kindAt 0 ≠ .endOfFile) :
    s.advance.remaining < s.remaining := by
  obtain ⟨rest, hrest, hadvance⟩ := advance_next hnext
  unfold State.Counted at h
  rw [hrest, List.length_cons] at h
  rw [hadvance]
  show s.remaining - 1 < s.remaining
  omega

theorem State.Counted.advance (h : s.Counted) : s.advance.Counted := by
  by_cases hnext : s.kindAt 0 = .endOfFile
  · rwa [advance_at_end hnext]
  · obtain ⟨rest, hrest, hadvance⟩ := advance_next hnext
    unfold State.Counted at h
    rw [hrest, List.length_cons] at h
    rw [hadvance]
    show s.remaining - 1 = rest.length
    omega

theorem report_faulty (s : State) (start length : Nat) (p : Problem) :
    (s.report start length p).Faulty := by
  unfold State.report
  split
  · rename_i hlast
    exact .inl (hlast ▸ Option.some_ne_none _)
  · exact .inl (Option.some_ne_none _)

/-- One level deeper and back. -/
theorem Forward.up (h : Forward s.deeper t) : Forward s { t with depth := t.depth - 1 } := by
  have hdepth : t.depth - 1 = s.depth := by
    rw [h.depth]
    rfl
  exact ⟨⟨⟨h.arena, h.errors⟩, hdepth, h.remaining⟩, h.rest⟩

namespace Trace

theorem forward (h : Trace s t) : Forward s t := by
  induction h with
  | refl s => exact .refl s
  | trans _ _ ih ih' => exact ih.trans ih'
  | pass _ | skip _ => exact forward_advance _
  | report => exact forward_report _ _ _ _
  | note => exact forward_note _ _
  | exhaust s =>
    exact ⟨⟨⟨List.prefix_refl _, Nat.le_refl _⟩, rfl, Nat.le_refl _⟩, List.suffix_refl _⟩
  | word => exact (forward_advance _).trans (forward_push _ _)
  | missing | node | closed => exact forward_push _ _
  | operator _ _ _ _ _ ih => exact (forward_advance _).trans (ih.trans (forward_push _ _))
  | otherwise _ _ _ _ _ _ _ ih => exact (forward_advance _).trans (ih.trans (forward_push _ _))
  | nested _ ih => exact ih.up
  | abandoned _ ih => exact ih.rewind

theorem counted (h : Trace s t) (hs : s.Counted) : t.Counted := by
  induction h with
  | refl => exact hs
  | trans _ _ ih ih' => exact ih' (ih hs)
  | pass _ | skip _ => exact hs.advance
  | report s =>
    obtain ⟨hrest, hremaining, -⟩ := report_same s _ _ _
    unfold State.Counted
    rw [hrest, hremaining]
    exact hs
  | note | exhaust | missing | node | closed => exact hs
  | word => exact hs.advance
  | operator _ _ _ _ _ ih => exact ih hs.advance
  | otherwise _ _ _ _ _ _ _ ih => exact ih hs.advance
  | nested _ ih => exact ih hs
  | abandoned => exact hs

/-- No step takes it back that a bound of the parser itself was reached. -/
theorem exhausted (h : Trace s t) (hs : s.exhausted = true) : t.exhausted = true := by
  induction h with
  | refl => exact hs
  | trans _ _ ih ih' => exact ih' (ih hs)
  | pass _ | skip _ | word => exact (advance_faults _).2.trans hs
  | report s => exact (report_same s _ _ _).2.2.2.trans hs
  | note | missing | node | closed => exact hs
  | exhaust => rfl
  | operator _ _ _ _ _ ih => exact ih ((advance_faults _).2.trans hs)
  | otherwise _ _ _ _ _ _ _ ih => exact ih ((advance_faults _).2.trans hs)
  | nested _ ih | abandoned _ ih => exact ih hs

/-- Faults last. -/
theorem faulty (h : Trace s t) (hs : s.Faulty) : t.Faulty := by
  induction h with
  | refl => exact hs
  | trans _ _ ih ih' => exact ih' (ih hs)
  | pass _ | skip _ | word => exact hs.advance
  | report s => exact report_faulty s _ _ _
  | note | missing | node | closed => exact hs
  | exhaust => exact .inr rfl
  | operator _ _ _ _ _ ih => exact ih hs.advance
  | otherwise _ _ _ _ _ _ _ ih => exact ih hs.advance
  | nested _ ih => exact ih hs
  | abandoned h _ => exact hs.imp id h.exhausted

/-- Errors are added only. -/
theorem errors (h : Trace s t) : s.errors.toList <+: t.errors.toList := by
  induction h with
  | refl => exact List.prefix_refl _
  | trans _ _ ih ih' => exact ih.trans ih'
  | pass _ | skip _ | word => exact advance_errors _ ▸ List.prefix_refl _
  | report s =>
    unfold State.report
    split
    · exact List.prefix_refl _
    · rw [Array.toList_push]
      exact List.prefix_append _ _
  | note | exhaust | missing | node | closed => exact List.prefix_refl _
  | operator _ _ _ _ _ ih => exact advance_errors _ ▸ ih
  | otherwise _ _ _ _ _ _ _ ih => exact advance_errors _ ▸ ih
  | nested _ ih => exact ih
  | abandoned _ ih => exact (errors_rewind ih).symm ▸ List.prefix_refl _

end Trace

end

/-! ## Where the parser stands -/

/-- Without what was made of the tokens. -/
def State.bare (s : State) : State :=
  { s with arena := #[], errors := #[], lastError := none }

/-- The state has passed the first of `tokens` and has the others left. -/
def Seated (tokens : List Token) (s : State) : Prop :=
  Orderly tokens s.bare

section

variable {tokens : List Token} {s t : State}

theorem seated_start (tokens : List Token) : Seated tokens (.start tokens) :=
  orderly_start tokens

theorem Seated.words (h : Seated tokens s) : ∃ words, tokens = words ++ s.rest ∧
    s.prevStop = stopAfter 0 words ∧ ∀ t ∈ words, t.kind ≠ .endOfFile :=
  h.passed

theorem Seated.same (h : Seated tokens s) (hrest : t.rest = s.rest)
    (hremaining : t.remaining = s.remaining) (hstop : t.prevStop = s.prevStop) :
    Seated tokens t where
  passed := by
    show ∃ words, tokens = words ++ t.rest ∧ t.prevStop = stopAfter 0 words ∧ _
    rw [hrest, hstop]
    exact h.passed
  counted := by
    show t.remaining = t.rest.length
    rw [hrest, hremaining]
    exact h.counted
  quiet _ := rfl
  nodes _ h := absurd h List.not_mem_nil

theorem bare_advance (s : State) : s.bare.advance = s.advance.bare := by
  by_cases hnext : s.kindAt 0 = .endOfFile
  · rw [advance_at_end hnext, advance_at_end (s := s.bare) hnext]
  · obtain ⟨rest, hrest, hadvance⟩ := advance_next hnext
    rw [hadvance, advance_of_rest (s := s.bare) hrest hnext]
    rfl

theorem report_prevStop (s : State) (start length : Nat) (p : Problem) :
    (s.report start length p).prevStop = s.prevStop := by
  unfold State.report
  split <;> rfl

variable (hT : Sequence tokens)

include hT

theorem Seated.tokenAt_mem (h : Seated tokens s) : s.tokenAt 0 ∈ tokens :=
  h.mem_of_rest (h.mem_tokenAt hT)

theorem Seated.advance (h : Seated tokens s) : Seated tokens s.advance := by
  by_cases hnext : s.kindAt 0 = .endOfFile
  · rwa [advance_at_end hnext]
  · unfold Seated
    rw [← bare_advance]
    exact (Orderly.advance h hnext hT).1

theorem Trace.seated (h : Trace s t) (hs : Seated tokens s) : Seated tokens t := by
  induction h with
  | refl => exact hs
  | trans _ _ ih ih' => exact ih' (ih hs)
  | pass _ | skip _ => exact hs.advance hT
  | word => exact (hs.advance hT).same rfl rfl rfl
  | report s =>
    obtain ⟨hrest, hremaining, -⟩ := report_same s _ _ _
    exact hs.same hrest hremaining (report_prevStop s _ _ _)
  | note | exhaust | missing | node | closed => exact hs.same rfl rfl rfl
  | operator _ _ _ _ _ ih => exact (ih (hs.advance hT)).same rfl rfl rfl
  | otherwise _ _ _ _ _ _ _ ih => exact (ih (hs.advance hT)).same rfl rfl rfl
  | nested _ ih => exact (ih (hs.same rfl rfl rfl)).same rfl rfl rfl
  | abandoned => exact hs.same rfl rfl rfl

end

/-! ## Parsers that leave traces -/

/-- Run from a state that satisfies `P`, the parser leaves a trace. -/
def TracedFrom {α : Type} (P : State → Prop) (x : Parser α) : Prop :=
  ∀ s, s.Counted → P s → Trace s (x s).2

/-- The parser leaves a trace from every state. -/
abbrev Traced {α : Type} (x : Parser α) : Prop :=
  TracedFrom (fun _ => True) x

/-- The parser leaves a trace and comes to what a statement comes to. -/
def TracedStatement (x : Parser (Option NodeId)) : Prop :=
  ∀ s, s.Counted → Trace s (x s).2 ∧ Stated s (x s).1 (x s).2

section

variable {α β : Type} {P P' Q : State → Prop} {x y z : Parser α} {f : α → Parser β}

/-! ### Sequences -/

theorem TracedFrom.weaken (h : TracedFrom P x) (hP : ∀ s, P' s → P s) : TracedFrom P' x :=
  fun s hs hp => h s hs (hP s hp)

/-- Where it does not matter what holds of the state. -/
theorem TracedFrom.anyway (h : Traced x) : TracedFrom P x :=
  h.weaken fun _ _ => trivial

theorem traced_pure (a : α) : TracedFrom P (Pure.pure a : Parser α) :=
  fun s _ _ => .refl s

/-- What the first parser leaves the second may use. -/
theorem TracedFrom.bind_to (hx : TracedFrom P x) (hQ : ∀ s, s.Counted → P s → Q (x s).2)
    (hf : ∀ a, TracedFrom Q (f a)) : TracedFrom P (x >>= f) := fun s hs hp =>
  (hx s hs hp).trans (hf _ _ ((hx s hs hp).counted hs) (hQ s hs hp))

theorem TracedFrom.bind (hx : TracedFrom P x) (hf : ∀ a, Traced (f a)) : TracedFrom P (x >>= f) :=
  hx.bind_to (fun _ _ _ => trivial) hf

/-- Behind a fault all is faulty. -/
theorem TracedFrom.bind_faulty (hx : TracedFrom State.Faulty x)
    (hf : ∀ a, TracedFrom State.Faulty (f a)) : TracedFrom State.Faulty (x >>= f) :=
  hx.bind_to (fun s hs hp => (hx s hs hp).faulty hp) hf

theorem TracedFrom.ite {p : Prop} [Decidable p] (hy : p → TracedFrom P y)
    (hz : ¬p → TracedFrom P z) : TracedFrom P (if p then y else z) := by
  split
  · exact hy ‹_›
  · exact hz ‹_›

/-- A parser that only looks. -/
theorem TracedFrom.look (hx : ∀ s, (x s).2 = s) (hf : ∀ a, TracedFrom P (f a)) :
    TracedFrom P (x >>= f) := by
  refine TracedFrom.bind_to (Q := P) (fun s _ _ => ?_) (fun s _ hp => ?_) hf
  · rw [hx]
    exact .refl s
  · rwa [hx]

/-- What was read is the state. -/
theorem TracedFrom.get {f : State → Parser β} (hf : ∀ s, TracedFrom (fun t => t = s) (f s)) :
    TracedFrom P ((MonadState.get : Parser State) >>= f) :=
  fun s hs _ => hf s s hs rfl

/-- What was read is the kind of the token at hand. -/
theorem TracedFrom.kind {f : TokenKind → Parser β}
    (hf : ∀ k, TracedFrom (fun s => s.kindAt 0 = k) (f k)) : TracedFrom P (Parsing.kind >>= f) :=
  fun s hs _ => hf (s.kindAt 0) s hs rfl

theorem TracedFrom.isAt {k : TokenKind} {f : Bool → Parser β}
    (hf : ∀ r, TracedFrom (fun s => r = true → s.kindAt 0 = k) (f r)) :
    TracedFrom P (Parsing.isAt k >>= f) :=
  fun s hs _ => hf (s.kindAt 0 == k) s hs eq_of_beq

/-! ### Tokens -/

/-- A token other than `else` is passed. -/
theorem traced_advance (hP : ∀ s, P s → s.kindAt 0 ≠ .kwElse) : TracedFrom P advance :=
  fun s _ hp => .pass (hP s hp)

theorem TracedFrom.advance {f : Unit → Parser β} (hP : ∀ s, P s → s.kindAt 0 ≠ .kwElse)
    (hf : Traced (f ())) : TracedFrom P (Parsing.advance >>= f) :=
  (traced_advance hP).bind fun _ => hf

/-- The token at hand is known not to be an `else`. -/
theorem TracedFrom.advance_at {k : TokenKind} {f : Unit → Parser β} (hk : k ≠ .kwElse)
    (hf : Traced (f ())) :
    TracedFrom (fun s => s.kindAt 0 = k) (Parsing.advance >>= f) :=
  .advance (fun _ hs => hs ▸ hk) hf

theorem traced_skip : TracedFrom State.Faulty advance :=
  fun _ _ hs => .skip hs

theorem TracedFrom.report {p : Problem} {f : Unit → Parser β}
    (hf : TracedFrom State.Faulty (f ())) : TracedFrom P (Parsing.report p >>= f) :=
  TracedFrom.bind_to (fun s _ _ => .report s p) (fun s _ _ => report_faulty s _ _ p) fun _ => hf

theorem traced_report (p : Problem) : TracedFrom P (report p) :=
  fun s _ _ => .report s p

theorem TracedFrom.exhaust {f : Unit → Parser β} (hf : TracedFrom State.Faulty (f ())) :
    TracedFrom P (Parsing.exhaust >>= f) :=
  TracedFrom.bind_to (fun s _ _ => .exhaust s) (fun _ _ _ => .inr rfl) fun _ => hf

theorem TracedFrom.note {m : Bool} {f : Unit → Parser β} (hP : ∀ s, P s →
    Q { s with moduleSyntax := m }) (hf : TracedFrom Q (f ())) :
    TracedFrom P ((modify fun s => { s with moduleSyntax := m }) >>= f) :=
  TracedFrom.bind_to (fun s _ _ => .note s m) (fun s _ hp => hP s hp) fun _ => hf

theorem traced_accept {k : TokenKind} (hk : k ≠ .kwElse) : TracedFrom P (accept k) :=
  .isAt fun _ => .ite
    (fun hr => .advance (fun _ hs => hs hr ▸ hk) (traced_pure _)) fun _ => traced_pure _

theorem traced_expect {k : TokenKind} (hk : k ≠ .kwElse) : TracedFrom P (expect k) :=
  (traced_accept hk).bind fun _ => .ite (fun _ => traced_pure _) fun _ =>
    .report (traced_pure _)

theorem traced_look (hx : ∀ s, (x s).2 = s) : TracedFrom P x := by
  intro s _ _
  rw [hx]
  exact .refl s

theorem traced_canEndStatement : TracedFrom P canEndStatement := by
  refine .look (fun _ => rfl) fun k => ?_
  split
  · exact traced_pure _
  · exact traced_pure _
  · exact traced_pure _
  · exact traced_look fun _ => rfl

theorem traced_endStatement : TracedFrom P endStatement := by
  refine (traced_accept (by decide)).bind fun _ => .ite (fun _ => traced_pure _) fun _ => ?_
  exact traced_canEndStatement.bind fun _ =>
    .ite (fun _ => traced_pure _) fun _ => traced_report _

/-! ### Nodes -/

theorem traced_addNode {form : Form} (h : form.isFree = true) (pos stop : Nat) :
    TracedFrom P (addNode form pos stop) :=
  fun s _ _ => .node s h pos stop

theorem traced_finish {form : Form} (h : form.isFree = true) (pos : Nat) :
    TracedFrom P (finish pos form) :=
  .look (fun _ => rfl) fun _ => traced_addNode h pos _

/-- Where a statement may end, a node with it at its end may be added. -/
theorem traced_close {form : Form} {body : Option NodeId} (h : form.body? = some body)
    (pos : Nat) : TracedFrom (State.Lacks body) (finish pos form) :=
  fun _ _ hs => .closed h hs pos

theorem traced_missingName : TracedFrom State.Faulty missingName :=
  fun _ _ hs => .missing hs _

theorem traced_wordAsName : TracedFrom (fun s => (s.kindAt 0).isWord = true) wordAsName :=
  fun _ _ hs => .word hs

theorem traced_bindingName : TracedFrom P bindingName :=
  .kind fun _ => .ite (fun hk => traced_wordAsName.weaken fun _ hs => hs ▸ isWord_of_isName hk)
    fun _ => .report traced_missingName

/-- The token at hand becomes a node without parts. -/
theorem traced_leaf {F : Token → Form} (hF : ∀ t, (F t).isFree = true)
    (hP : ∀ s, P s → s.kindAt 0 ≠ .kwElse) : TracedFrom P (do
      let t ← token
      advance
      addNode (F t) t.start t.stop) :=
  .look (fun _ => rfl) fun _ => .advance hP (traced_addNode (hF _) _ _)

theorem traced_keywordNode (hP : ∀ s, P s → s.kindAt 0 ≠ .kwElse) : TracedFrom P keywordNode :=
  traced_leaf (F := fun t => .keyword t.kind) (fun _ => rfl) hP

theorem traced_literal (hP : ∀ s, P s → s.kindAt 0 ≠ .kwElse) : TracedFrom P literal :=
  traced_leaf (F := fun t => if t.kind = .number then .numericLiteral (t.value.getD "")
    else .stringLiteral (t.value.getD "")) (fun t => by split <;> rfl) hP

theorem traced_propertyName : TracedFrom P propertyName := by
  refine .kind fun k => ?_
  split
  · exact traced_literal fun _ hs => by rw [hs]; decide
  · exact traced_literal fun _ hs => by rw [hs]; decide
  · refine .ite (fun hk => traced_wordAsName.weaken fun _ hs => hs ▸ hk) fun _ => ?_
    exact .report traced_missingName

/-! ### Control -/

theorem traced_attempt {x : Parser (Option α)} (hx : TracedFrom P x) :
    TracedFrom P (attempt x) := by
  intro s hs hp
  rw [attempt_eq]
  split
  · exact hx s hs hp
  · exact .abandoned (hx s hs hp)

theorem traced_nested {x fallback : Parser α} (hx : Traced x)
    (hfallback : TracedFrom State.Faulty fallback) : TracedFrom P (nested x fallback) := by
  intro s hs hp
  rw [nested_eq]
  split
  · exact TracedFrom.report hfallback s hs hp
  · exact .nested (hx s.deeper hs trivial)

end

/-! ## Loops -/

/-- Run from a state that satisfies `P`, a turn of a loop leaves a trace, and it has
passed a token if the loop goes on. -/
def MovesFrom {β : Type} (P : State → Prop) (x : Parser (Turn β)) : Prop :=
  ∀ s, s.Counted → P s →
    Trace s (x s).2 ∧ ∀ b, (x s).1 = .again b → (x s).2.remaining < s.remaining

abbrev Moves {β : Type} (x : Parser (Turn β)) : Prop :=
  MovesFrom (fun _ => True) x

section

variable {α β : Type} {P Q : State → Prop} {x : Parser α} {f : α → Parser (Turn β)}
  {y z : Parser (Turn β)}

theorem MovesFrom.weaken (h : MovesFrom P y) (hP : ∀ s, Q s → P s) : MovesFrom Q y :=
  fun s hs hq => h s hs (hP s hq)

theorem moves_done (b : β) : MovesFrom P (Pure.pure (Turn.done b) : Parser (Turn β)) :=
  fun s _ _ => ⟨.refl s, fun _ h => by cases h⟩

theorem MovesFrom.ite {p : Prop} [Decidable p] (hy : p → MovesFrom P y)
    (hz : ¬p → MovesFrom P z) : MovesFrom P (if p then y else z) := by
  split
  · exact hy ‹_›
  · exact hz ‹_›

/-- A parser that only looks; what it has seen is known of the state. -/
theorem MovesFrom.look (hx : ∀ s, (x s).2 = s)
    (hf : ∀ a, MovesFrom (fun s => P s ∧ (x s).1 = a) (f a)) : MovesFrom P (x >>= f) := by
  intro s hs hp
  have hrest := hf (x s).1 s hs ⟨hp, rfl⟩
  show Trace s (f (x s).1 (x s).2).2 ∧ _
  rw [hx s]
  refine ⟨hrest.1, fun b hb => ?_⟩
  change (f (x s).1 (x s).2).1 = _ at hb
  show (f (x s).1 (x s).2).2.remaining < _
  rw [hx s] at hb ⊢
  exact hrest.2 b hb

theorem MovesFrom.kind {f : TokenKind → Parser (Turn β)}
    (hf : ∀ k, MovesFrom (fun s => P s ∧ s.kindAt 0 = k) (f k)) :
    MovesFrom P (Parsing.kind >>= f) :=
  .look (fun _ => rfl) hf

/-- What is passed in front of a turn is passed too. -/
theorem TracedFrom.bind_moves (hx : TracedFrom P x) (hf : ∀ a, Moves (f a)) :
    MovesFrom P (x >>= f) := by
  intro s hs hp
  have hfirst := hx s hs hp
  obtain ⟨hsecond, hmoves⟩ := hf (x s).1 (x s).2 (hfirst.counted hs) trivial
  exact ⟨hfirst.trans hsecond, fun b hb => (hmoves b hb).trans_le hfirst.forward.remaining⟩

/-- A turn that begins with what passes a token. -/
theorem TracedFrom.bind_less (hx : TracedFrom P x)
    (hless : ∀ s, s.Counted → P s → (x s).2.remaining < s.remaining) (hf : ∀ a, Traced (f a)) :
    MovesFrom P (x >>= f) := by
  intro s hs hp
  have hfirst := hx s hs hp
  have hsecond := hf (x s).1 (x s).2 (hfirst.counted hs) trivial
  exact ⟨hfirst.trans hsecond, fun _ _ => hsecond.forward.remaining.trans_lt (hless s hs hp)⟩

/-- A turn that begins with a token that is neither an `else` nor the end of the text. -/
theorem moves_advance {f : Unit → Parser (Turn β)} (hnext : ∀ s, P s → s.kindAt 0 ≠ .endOfFile)
    (hP : ∀ s, P s → s.Faulty ∨ s.kindAt 0 ≠ .kwElse) (hf : Traced (f ())) :
    MovesFrom P (Parsing.advance >>= f) :=
  TracedFrom.bind_less (fun s _ hp => (hP s hp).elim .skip .pass)
    (fun s hs hp => hs.remaining_advance (hnext s hp)) fun _ => hf

theorem moves_advance_at {k : TokenKind} {f : Unit → Parser (Turn β)} (hk : k ≠ .endOfFile)
    (hk' : k ≠ .kwElse) (hf : Traced (f ())) :
    MovesFrom (fun s => P s ∧ s.kindAt 0 = k) (Parsing.advance >>= f) :=
  moves_advance (fun _ h => h.2 ▸ hk) (fun _ h => .inr (h.2 ▸ hk')) hf

/-- The token at hand is reported, and passed whatever it is. -/
theorem moves_report {p : Problem} {b : β} (hP : ∀ s, P s → s.kindAt 0 ≠ .endOfFile) :
    MovesFrom P (do
      report p
      Parsing.advance
      return .again b) := by
  intro s hs hp
  have hfirst : Trace s (Parsing.report p s).2 := .report s p
  have hrest := (report_same s s.here ((s.tokenAt 0).stop - (s.tokenAt 0).start) p).1
  obtain ⟨hsecond, hmoves⟩ := moves_advance
    (P := fun t => t.Faulty ∧ t.kindAt 0 ≠ .endOfFile) (f := fun _ => return .again b)
    (fun _ h => h.2) (fun _ h => .inl h.1) (traced_pure _) (Parsing.report p s).2
    (hfirst.counted hs) ⟨report_faulty s _ _ p, kindAt_congr hrest 0 ▸ hP s hp⟩
  exact ⟨hfirst.trans hsecond, fun c hc => (hmoves c hc).trans_le hfirst.forward.remaining⟩

/-- A turn behind an accepted token, or another one. -/
theorem moves_accept {k : TokenKind} (hk : k ≠ .endOfFile) (hk' : k ≠ .kwElse)
    (hy : Traced y) (hz : MovesFrom P z) : MovesFrom P (do
      if ← accept k then y else z) := by
  intro s hs hp
  rw [accept_ite]
  split
  · rename_i hnext
    exact moves_advance_at (P := P) (f := fun _ => y) hk hk' hy s hs ⟨hp, hnext⟩
  · exact hz s hs hp

/-- A turn that does one thing when a parser has passed no token, and another when it
has. If none was passed, the token at hand is still the same. -/
theorem moves_progress {y z : α → Parser (Turn β)} (hx : Traced x)
    (hQ : ∀ s, s.Counted → (x s).2.remaining = s.remaining → Q (x s).2)
    (hy : ∀ a, MovesFrom (fun s => Q s ∧ s.kindAt 0 ≠ .endOfFile) (y a))
    (hz : ∀ a, Traced (z a)) : MovesFrom (fun s => s.kindAt 0 ≠ .endOfFile) (do
      let before ← remaining
      let a ← x
      if (← remaining) == before then y a else z a) := by
  intro s hs hnext
  have hfirst := hx s hs trivial
  have hcounted := hfirst.counted hs
  rw [progress_ite]
  split
  · rename_i hsame
    have hrest : (x s).2.rest = s.rest :=
      hfirst.forward.rest.eq_of_length (by rw [← hcounted, ← hs, hsame])
    obtain ⟨hsecond, hmoves⟩ := hy (x s).1 (x s).2 hcounted
      ⟨hQ s hs hsame, kindAt_congr hrest 0 ▸ hnext⟩
    exact ⟨hfirst.trans hsecond, fun b hb => hsame ▸ hmoves b hb⟩
  · rename_i hpassed
    have hsecond := hz (x s).1 (x s).2 hcounted trivial
    have hless := Nat.lt_of_le_of_ne hfirst.forward.remaining hpassed
    exact ⟨hfirst.trans hsecond, fun _ _ => hsecond.forward.remaining.trans_lt hless⟩

/-- A loop ends because a turn leaves it: each of the others has passed a token, so it
never runs out of turns. -/
theorem iterate_leaves {body : β → Parser (Turn β)} (h : ∀ b, Moves (body b)) (b : β) {s : State}
    (hs : s.Counted) : ∃ last t, Trace s t ∧
      body last t = (.done (iterate b body s).1, (iterate b body s).2) := by
  have hloop : ∀ n b s, s.Counted → s.remaining < n → ∃ last t, Trace s t ∧
      body last t = (.done (iterateUpTo body n b s).1, (iterateUpTo body n b s).2) := by
    intro n
    induction n with
    | zero => exact fun _ s _ hn => absurd hn (Nat.not_lt_zero _)
    | succ n ih =>
      intro b s hs hn
      obtain ⟨htrace, hmoves⟩ := h b s hs trivial
      generalize hrun : body b s = run at htrace hmoves
      obtain ⟨turn, u⟩ := run
      cases turn with
      | done r =>
        rw [iterateUpTo_done hrun]
        exact ⟨b, s, .refl s, hrun⟩
      | again r =>
        rw [iterateUpTo_again hrun]
        have hless : u.remaining < s.remaining := hmoves r rfl
        obtain ⟨last, t, hlater, hlast⟩ := ih r u (htrace.counted hs) (by omega)
        exact ⟨last, t, htrace.trans hlater, hlast⟩
  exact hloop (s.remaining + 1) b s hs (Nat.lt_succ_self _)

theorem traced_iterate {body : β → Parser (Turn β)} (h : ∀ b, Moves (body b)) (b : β) :
    TracedFrom P (iterate b body) := by
  intro s hs _
  obtain ⟨last, t, htrace, hlast⟩ := iterate_leaves h b hs
  have hturn := (h last t (htrace.counted hs) trivial).1
  rw [hlast] at hturn
  exact htrace.trans hturn

end

/-! ## Operands -/

/-- The parser leaves a trace and then adds a node that takes an operand. -/
def Operates (x : Parser NodeId) : Prop :=
  ∀ s, s.Counted → ∃ t form pos stop, Trace s t ∧ form.operand?.isSome = true ∧
    (x s).2 = t.push form pos stop

section

variable {α : Type}

theorem Operates.bind {x : Parser α} {f : α → Parser NodeId} (hx : Traced x)
    (hf : ∀ a, Operates (f a)) : Operates (x >>= f) := by
  intro s hs
  have hfirst := hx s hs trivial
  obtain ⟨t, form, pos, stop, hsecond, htakes, hend⟩ := hf _ _ (hfirst.counted hs)
  exact ⟨t, form, pos, stop, hfirst.trans hsecond, htakes, hend⟩

theorem Operates.ite {p : Prop} [Decidable p] {y z : Parser NodeId} (hy : Operates y)
    (hz : Operates z) : Operates (if p then y else z) := by
  split
  · exact hy
  · exact hz

theorem operates_finish {form : Form} (h : form.operand?.isSome = true) (pos : Nat) :
    Operates (finish pos form) :=
  fun s _ => ⟨s, form, pos, s.prevStop, .refl s, h, rfl⟩

/-- The token in front of the operand goes with the node. -/
theorem TracedFrom.advance_operator {k : TokenKind} {f : Unit → Parser NodeId}
    (hk : k.takesOperand = true) (hf : Operates (f ())) :
    TracedFrom (fun s => s.kindAt 0 = k) (Parsing.advance >>= f) := by
  intro s hs hnext
  obtain ⟨t, form, pos, stop, htrace, htakes, hend⟩ := hf s.advance hs.advance
  show Trace s (f () s.advance).2
  rw [hend]
  exact .operator (hnext ▸ hk) htrace htakes pos stop

end

/-! ## Statements -/

/-- The node that the parser gives starts at `start`. -/
def FinishesAt (start : Nat) (x : Parser NodeId) : Prop :=
  ∀ s, ∃ n, (x s).2.arena[(x s).1]? = some n ∧ n.pos = start

/-- The node that the parser gives starts with the token at hand. -/
def Begins (x : Parser NodeId) : Prop :=
  ∀ s, ∃ n, (x s).2.arena[(x s).1]? = some n ∧ n.pos = (s.tokenAt 0).start

/-- From a state that satisfies `P` the parser comes to what a statement comes to. -/
def StatesFrom (P : State → Prop) (x : Parser (Option NodeId)) : Prop :=
  ∀ s, P s → Stated s (x s).1 (x s).2

/-- The parser, from wherever it goes on, comes to what a statement comes to that
starts at `start`. -/
def StatesAt (start : Nat) (x : Parser (Option NodeId)) : Prop :=
  ∀ s t, (s.tokenAt 0).start = start → Stated s (x t).1 (x t).2

section

variable {α : Type} {start : Nat}

theorem FinishesAt.bind {x : Parser α} {f : α → Parser NodeId}
    (hf : ∀ a, FinishesAt start (f a)) : FinishesAt start (x >>= f) :=
  fun _ => hf _ _

theorem FinishesAt.ite {p : Prop} [Decidable p] {y z : Parser NodeId}
    (hy : FinishesAt start y) (hz : FinishesAt start z) :
    FinishesAt start (if p then y else z) := by
  split
  · exact hy
  · exact hz

theorem finishesAt_finish (form : Form) : FinishesAt start (finish start form) :=
  fun s => ⟨⟨form, start, s.prevStop⟩, Array.getElem?_push_size, rfl⟩

/-- What a statement comes to is about the tokens that were left. -/
theorem Stated.same {s s' t : State} {r : Option NodeId} (h : Stated s' r t)
    (hrest : s'.rest = s.rest) (hstop : s'.prevStop = s.prevStop) : Stated s r t := by
  cases h with
  | node hthere hpos =>
    unfold State.tokenAt at hpos
    rw [hrest] at hpos
    exact .node hthere hpos
  | nothing hcloses hrest' hstop' =>
    exact .nothing (kindAt_congr hrest 0 ▸ hcloses) (hrest'.trans hrest) (hstop'.trans hstop)
  | fault hfault => exact .fault hfault

/-- One level deeper and back. -/
theorem Stated.up {s t : State} {r : Option NodeId} (h : Stated s.deeper r t) :
    Stated s r { t with depth := t.depth - 1 } := by
  cases h with
  | node hthere hpos => exact .node hthere hpos
  | nothing hcloses hrest hstop => exact .nothing hcloses hrest hstop
  | fault hfault => exact .fault hfault

theorem Begins.of_here {f : Nat → Parser NodeId} (hf : ∀ start, FinishesAt start (f start)) :
    Begins (here >>= f) :=
  fun s => hf _ s

theorem StatesAt.bind {x : Parser α} {f : α → Parser (Option NodeId)}
    (hf : ∀ a, StatesAt start (f a)) : StatesAt start (x >>= f) :=
  fun s _ hs => hf _ s _ hs

theorem StatesAt.some {x : Parser NodeId} (hx : FinishesAt start x) :
    StatesAt start (do return some (← x)) := by
  rintro s t rfl
  obtain ⟨n, hthere, hpos⟩ := hx t
  exact .node hthere hpos

theorem statesAt_report (p : Problem) : StatesAt start (do
    report p
    return none) :=
  fun _ t _ => .fault (report_faulty t _ _ p)

theorem StatesFrom.kind {P : State → Prop} {f : TokenKind → Parser (Option NodeId)}
    (hf : ∀ k, StatesFrom (fun s => s.kindAt 0 = k) (f k)) :
    StatesFrom P (Parsing.kind >>= f) :=
  fun s _ => hf (s.kindAt 0) s rfl

theorem StatesFrom.of_here {P : State → Prop} {f : Nat → Parser (Option NodeId)}
    (hf : ∀ start, StatesAt start (f start)) : StatesFrom P (here >>= f) :=
  fun s _ => hf _ s s rfl

theorem StatesFrom.get {P : State → Prop} {f : State → Parser (Option NodeId)}
    (hf : ∀ s, StatesFrom (fun t => t = s) (f s)) :
    StatesFrom P ((MonadState.get : Parser State) >>= f) :=
  fun s _ => hf s s rfl

/-- A note that is not about tokens. -/
theorem StatesFrom.note {P : State → Prop} {m : Bool} {f : Unit → Parser (Option NodeId)}
    (hf : StatesFrom (fun _ => True) (f ())) :
    StatesFrom P ((modify fun s => { s with moduleSyntax := m }) >>= f) := by
  intro s _
  exact (hf { s with moduleSyntax := m } trivial).same rfl rfl

theorem StatesFrom.some {P : State → Prop} {x : Parser NodeId} (hx : Begins x) :
    StatesFrom P (do return some (← x)) := by
  intro s _
  obtain ⟨n, hthere, hpos⟩ := hx s
  exact .node hthere hpos

/-- What a statement lacks is lacking where it was left. -/
theorem Stated.lacks {s t : State} {r : Option NodeId} (h : Stated s r t) : t.Lacks r := by
  rintro rfl
  cases h with
  | nothing hcloses hrest _ => exact .inr (kindAt_congr hrest 0 ▸ hcloses)
  | fault hfault => exact .inl hfault

theorem TracedStatement.traced {P : State → Prop} {x : Parser (Option NodeId)}
    (h : TracedStatement x) : TracedFrom P x :=
  fun s hs _ => (h s hs).1

/-- Behind a statement it is known where it may be missing. -/
theorem TracedStatement.bind {P : State → Prop} {x : Parser (Option NodeId)}
    {f : Option NodeId → Parser α} (hx : TracedStatement x)
    (hf : ∀ r, TracedFrom (State.Lacks r) (f r)) : TracedFrom P (x >>= f) := fun s hs _ =>
  (hx s hs).1.trans (hf _ _ ((hx s hs).1.counted hs) (hx s hs).2.lacks)

end

end Parsing

end ScriptAnalysis
