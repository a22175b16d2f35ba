import ScriptAnalysis.Proofs.Parsing.Clean
import ScriptAnalysis.Proofs.Parsing.Steps
import ScriptAnalysis.SourceFile

/-!
# What lasts through every run of the parser

A run with errors has no tidy spans, but much is true of it all the same. Here
an invariant `I` of states is any that the steps of the parser keep: passing a
token, reporting, going deeper, and adding a node of one of the plain forms
(`Invariant`). Forms that are not plain are the operations, whose parts have to
bind tightly enough, and what makes a file a module.

**Triples.** `Ends P x Q`: run from a state that satisfies `P`, the parser `x`
comes to a result and a state that satisfy `Q`. `Upholds I b x` is the case of
an invariant. With it goes that no bound of the parser itself is reached, as
long as the budget is at most `b` (`Able`).

**Loops.** A turn that goes on has passed a token, which leaves a smaller budget
(`Turns`). So a loop never comes to the end of its turns (`ends_iterate`).
-/
namespace ScriptAnalysis

namespace Form

/-- Operands joined by an operator other than an assignment, or a cast. -/
def isOperation : Form → Bool
  | .binary _ operator _ => !operator.isAssignment
  | .asExpression _ _ => true
  | _ => false

/-- What makes a file a module: an import, or a declaration with the word `export`
in front. -/
def marksModule : Form → Bool
  | .importDeclaration _ _ => true
  | .function .declaration p => p.modifiers.exported
  | .classDeclaration p => p.modifiers.exported
  | .interfaceDeclaration p => p.modifiers.exported
  | .typeAlias p => p.modifiers.exported
  | .variableStatement modifiers _ _ => modifiers.exported
  | _ => false

/-- Forms that may stand everywhere, whatever they are made of. -/
def isPlain (form : Form) : Bool :=
  !form.isOperation && !form.marksModule

/-- What a declaration with the modifiers can be. -/
structure Declares (m : Modifiers) (form : Form) : Prop where
  operation : form.isOperation = false
  mark : form.marksModule = m.exported

theorem Declares.isPlain {m : Modifiers} {form : Form} (h : form.Declares m)
    (hm : m.exported = false) : form.isPlain = true := by
  simp [Form.isPlain, h.operation, h.mark, hm]

end Form

namespace Arena

/-- The node is there, and its form satisfies `P`. -/
def Has (a : Arena) (P : Form → Prop) (i : NodeId) : Prop :=
  ∃ form, a.form? i = some form ∧ P form

variable {a a' : Arena} {i : NodeId} {P P' : Form → Prop}

theorem Has.grow (h : a.Has P i) (hgrows : a.toList <+: a'.toList) : a'.Has P i := by
  obtain ⟨form, hform, hP⟩ := h
  exact ⟨form, form?_grow hgrows hform, hP⟩

theorem Has.imp (h : a.Has P i) (hP : ∀ form, P form → P' form) : a.Has P' i := by
  obtain ⟨form, hform, hholds⟩ := h
  exact ⟨form, hform, hP form hholds⟩

theorem prefix_push (a : Arena) (n : Node) : a.toList <+: (a.push n).toList := by
  rw [Array.toList_push]
  exact List.prefix_append _ _

theorem has_push (a : Arena) {n : Node} (h : P n.form) : Arena.Has (a.push n) P a.size :=
  ⟨n.form, by simp [form?], h⟩

/-- With a new node the forms are the old ones and that of the node. -/
theorem form?_of_push {n : Node} {form : Form} (h : Arena.form? (a.push n) i = some form) :
    a.form? i = some form ∨ form = n.form := by
  unfold form? at h
  rw [Array.getElem?_push] at h
  split at h
  · cases h
    exact .inr rfl
  · exact .inl h

end Arena

namespace Parsing

/-- As `Onward`, and what is left is the end of what was left. -/
structure Forward (s t : State) : Prop extends Onward s t where
  rest : t.rest <:+ s.rest

/-- Run from a state that satisfies `P`, the parser goes forward and ends with a
result and a state that satisfy `Q`. -/
def Ends {α : Type} (P : State → Prop) (x : Parser α) (Q : α → State → Prop) : Prop :=
  ∀ s, P s → Forward s (x s).2 ∧ Q (x s).1 (x s).2

/-- A node of the form, added where `I` holds, makes `J` hold. -/
def Makes (I J : State → Prop) (form : Form) : Prop :=
  ∀ s pos stop, I s → J { s with arena := s.arena.push ⟨form, pos, stop⟩ }

/-- The steps that all rules are made of keep `I`. -/
structure Invariant (I : State → Prop) : Prop where
  advance : ∀ s, I s → I s.advance
  report : ∀ s start length p, I s → I (s.report start length p)
  deeper : ∀ s depth, I s → I { s with depth := depth }
  plain : ∀ form, form.isPlain = true → Makes I I form

/-- The parser can go on: what is left is counted and ends with the end of the
text, `b` bounds the budget, no bound of the parser itself was reached, and the
invariant holds. -/
structure Able (I : State → Prop) (b : Nat) (s : State) : Prop where
  counted : s.remaining = s.rest.length
  ends : ∃ t ∈ s.rest, t.kind = .endOfFile
  budget : s.budget ≤ b
  spare : s.exhausted = false
  holds : I s

/-- The parser keeps the invariant and reaches none of its bounds. -/
def Upholds {α : Type} (I : State → Prop) (b : Nat) (x : Parser α) : Prop :=
  Ends (Able I b) x fun _ => Able I b

/-- What holds of the value and the state that a turn ends with: `J` when the
loop goes on, `K` when it is done. -/
def Turn.Leaves {β : Type} (J K : β → State → Prop) : Turn β → State → Prop
  | .again r, s => J r s
  | .done r, s => K r s

/-- A turn of a loop passes a token if the loop goes on. -/
def Turns {β : Type} (I : State → Prop) (b : Nat) (x : Parser (Turn β)) : Prop :=
  ∀ k < b, Ends (Able I (k + 1)) x (Turn.Leaves (fun _ => Able I k) fun _ => Able I (k + 1))

/-! ## States -/

theorem Forward.refl (s : State) : Forward s s :=
  ⟨.refl s, List.suffix_refl _⟩

theorem Forward.trans {s t u : State} (h : Forward s t) (h' : Forward t u) : Forward s u :=
  ⟨h.toOnward.trans h'.toOnward, h'.rest.trans h.rest⟩

theorem forward_advance (s : State) : Forward s s.advance := by
  refine ⟨(appends_advance s).toOnward, ?_⟩
  unfold State.advance
  split
  · exact List.suffix_refl _
  · rename_i t rest hrest
    split
    · exact List.suffix_refl _
    · show rest <:+ s.rest
      rw [hrest]
      exact List.suffix_cons t rest

theorem kindAt_congr {s t : State} (h : t.rest = s.rest) (n : Nat) : t.kindAt n = s.kindAt n := by
  unfold State.kindAt State.tokenAt
  rw [h]

theorem report_same (s : State) (start length : Nat) (p : Problem) :
    (s.report start length p).rest = s.rest ∧
      (s.report start length p).remaining = s.remaining ∧
      (s.report start length p).depth = s.depth ∧
      (s.report start length p).exhausted = s.exhausted := by
  unfold State.report
  split <;> exact ⟨rfl, rfl, rfl, rfl⟩

theorem forward_report (s : State) (start length : Nat) (p : Problem) :
    Forward s (s.report start length p) :=
  ⟨(appends_report s start length p).toOnward, (report_same s start length p).1 ▸ List.suffix_refl _⟩

theorem forward_push (s : State) (n : Node) : Forward s { s with arena := s.arena.push n } :=
  ⟨(appends_push s n).toOnward, List.suffix_refl _⟩

theorem forward_note (s : State) (m : Bool) : Forward s { s with moduleSyntax := m } :=
  ⟨⟨⟨List.prefix_refl _, Nat.le_refl _⟩, rfl, Nat.le_refl _⟩, List.suffix_refl _⟩

theorem advance_at_end {s : State} (h : s.kindAt 0 = .endOfFile) : s.advance = s := by
  revert h
  unfold State.kindAt State.tokenAt State.advance
  cases s.rest with
  | nil => intro _; rfl
  | cons t rest => intro h; exact if_pos h

section

variable {I J : State → Prop} {b c : Nat} {s t : State}

theorem Able.mono (h : Able I b s) (hc : b ≤ c) : Able I c s :=
  { h with budget := h.budget.trans hc }

theorem Able.remaining_pos (h : Able I b s) : 0 < s.remaining := by
  obtain ⟨t, ht, -⟩ := h.ends
  rw [h.counted]
  exact List.length_pos_of_mem ht

/-- The end of the text is always left, so there is always some budget. -/
theorem Able.pos (h : Able I b s) : 0 < b := by
  have hremaining := h.remaining_pos
  have hbudget := h.budget
  unfold State.budget at hbudget
  omega

/-- With the same tokens left and at the same depth the parser can go on. -/
theorem Able.same (h : Able I b s) (hrest : t.rest = s.rest)
    (hremaining : t.remaining = s.remaining)
    (hdepth : t.depth = s.depth) (hexhausted : t.exhausted = s.exhausted) (hJ : J t) :
    Able J b t where
  counted := by
    rw [hrest, hremaining]
    exact h.counted
  ends := by
    rw [hrest]
    exact h.ends
  budget := by
    have hbudget := h.budget
    unfold State.budget at hbudget ⊢
    rwa [hremaining, hdepth]
  spare := by
    rw [hexhausted]
    exact h.spare
  holds := hJ

/-- When as many tokens are left as before, they are the same. -/
theorem Forward.stuck (h : Forward s t) (hs : Able I b s) (ht : Able J c t)
    (hremaining : t.remaining = s.remaining) : t.rest = s.rest := by
  apply h.rest.eq_of_length
  rw [← ht.counted, ← hs.counted, hremaining]

/-- When fewer tokens are left than before, the budget is smaller. -/
theorem Forward.budget_lt (h : Forward s t) (hremaining : t.remaining ≠ s.remaining) :
    t.budget < s.budget := by
  have hless := h.remaining
  have hdepth := h.depth
  unfold State.budget
  rw [hdepth]
  omega

variable (hI : Invariant I)

include hI

theorem Able.report (h : Able I b s) (start length : Nat) (p : Problem) :
    Able I b (s.report start length p) := by
  obtain ⟨hrest, hremaining, hdepth, hexhausted⟩ := report_same s start length p
  exact h.same hrest hremaining hdepth hexhausted (hI.report s start length p h.holds)

/-- A token that is not the end of the text is passed, which leaves a smaller
budget. -/
theorem Able.advance_less (h : Able I (b + 1) s) (hnext : s.kindAt 0 ≠ .endOfFile) :
    Able I b s.advance := by
  have hbudget := h.budget
  have hcounted := h.counted
  have hspare := h.spare
  have hholds := hI.advance s h.holds
  obtain ⟨last, hlast, hend⟩ := h.ends
  revert hnext hholds
  unfold State.kindAt State.tokenAt State.advance
  cases hrest : s.rest with
  | nil => simp [hrest] at hlast
  | cons t rest =>
    intro hnext hholds
    have hkind : t.kind ≠ .endOfFile := hnext
    simp only [if_neg hkind] at hholds ⊢
    rw [hrest, List.length_cons] at hcounted
    rw [hrest] at hlast
    unfold State.budget at hbudget
    have hleft : last ∈ rest := (List.mem_cons.1 hlast).resolve_left fun hfirst =>
      hkind (hfirst ▸ hend)
    refine ⟨?_, ⟨last, hleft, hend⟩, ?_, hspare, hholds⟩
    · show s.remaining - 1 = rest.length
      omega
    · show s.remaining - 1 + (maxDepth - s.depth) ≤ b
      omega

theorem Able.advance (h : Able I b s) : Able I b s.advance := by
  by_cases hnext : s.kindAt 0 = .endOfFile
  · rwa [advance_at_end hnext]
  · obtain ⟨c, rfl⟩ : ∃ c, b = c + 1 := ⟨b - 1, by have := h.pos; omega⟩
    exact (h.advance_less hI hnext).mono (Nat.le_succ c)

end

/-! ## Sequences -/

section

variable {α β : Type} {I J : State → Prop} {b c : Nat} {P P' p : State → Prop}
  {Q Q' : α → State → Prop} {R : β → State → Prop} {x y z : Parser α} {f : α → Parser β}

theorem Ends.pure {a : α} (h : ∀ s, P s → Q a s) : Ends P (Pure.pure a : Parser α) Q :=
  fun s hs => ⟨.refl s, h s hs⟩

theorem Ends.bind (hx : Ends P x Q) (hf : ∀ a, Ends (Q a) (f a) R) : Ends P (x >>= f) R := by
  intro s hs
  obtain ⟨hforward, hmid⟩ := hx s hs
  obtain ⟨hforward', hend⟩ := hf _ _ hmid
  exact ⟨hforward.trans hforward', hend⟩

theorem Ends.weaken (h : Ends P x Q) (hP : ∀ s, P' s → P s) : Ends P' x Q :=
  fun s hs => h s (hP s hs)

theorem Ends.imp (h : Ends P x Q) (hQ : ∀ a s, Q a s → Q' a s) : Ends P x Q' :=
  fun s hs => ⟨(h s hs).1, hQ _ _ (h s hs).2⟩

theorem Ends.ite {q : Prop} [Decidable q] (hy : q → Ends P y Q) (hz : ¬q → Ends P z Q) :
    Ends P (if q then y else z) Q := by
  split
  · exact hy ‹_›
  · exact hz ‹_›

/-- A parser that only looks. -/
theorem Ends.look (hx : ∀ s, (x s).2 = s) (hf : ∀ a, Ends P (f a) R) : Ends P (x >>= f) R := by
  refine Ends.bind (Q := fun _ => P) (fun s hs => ?_) hf
  rw [hx]
  exact ⟨.refl s, hs⟩

/-- What was read is the state. -/
theorem Ends.get {f : State → Parser β} (hf : ∀ s, Ends (fun t => t = s ∧ P t) (f s) R) :
    Ends P ((MonadState.get : Parser State) >>= f) R :=
  Ends.bind (Q := fun r s => s = r ∧ P s) (fun s hs => ⟨.refl s, rfl, hs⟩) hf

/-- What was read is the kind of the token at hand. -/
theorem Ends.kind {f : TokenKind → Parser β}
    (hf : ∀ k, Ends (fun s => P s ∧ s.kindAt 0 = k) (f k) R) : Ends P (kind >>= f) R :=
  Ends.bind (Q := fun k s => P s ∧ s.kindAt 0 = k) (fun s hs => ⟨.refl s, hs, rfl⟩) hf

theorem Ends.isAt {k : TokenKind} {f : Bool → Parser β}
    (hf : ∀ r, Ends (fun s => P s ∧ (r = true → s.kindAt 0 = k)) (f r) R) :
    Ends P (isAt k >>= f) R :=
  Ends.bind (Q := fun r s => P s ∧ (r = true → s.kindAt 0 = k))
    (fun s hs => ⟨.refl s, hs, eq_of_beq⟩) hf

/-- Where what is known besides does not matter. -/
theorem Ends.standing (h : Ends P x Q) : Ends (fun s => P s ∧ p s) x Q :=
  h.weaken fun _ => And.left

/-- Where the token at hand is not the end of the text. -/
theorem Ends.facing {k : TokenKind} (hk : k ≠ .endOfFile)
    (h : Ends (fun s => P s ∧ s.kindAt 0 ≠ .endOfFile) x Q) :
    Ends (fun s => P s ∧ s.kindAt 0 = k) x Q := by
  refine h.weaken fun s hs => ⟨hs.1, ?_⟩
  rw [hs.2]
  exact hk

theorem Upholds.bind (hx : Upholds I b x) (hf : ∀ a, Ends (Able I b) (f a) R) :
    Ends (Able I b) (x >>= f) R :=
  Ends.bind hx hf

theorem upholds_pure (a : α) : Upholds I b (Pure.pure a : Parser α) :=
  .pure fun _ => id

theorem upholds_look (hx : ∀ s, (x s).2 = s) : Upholds I b x := by
  intro s hs
  rw [hx]
  exact ⟨.refl s, hs⟩

/-- With a smaller budget. -/
theorem Ends.less_and (h : Ends (fun s => Able I b s ∧ p s) x fun a s => Able J b s ∧ Q a s)
    (hc : c ≤ b) : Ends (fun s => Able I c s ∧ p s) x fun a s => Able J c s ∧ Q a s := by
  intro s hs
  obtain ⟨hforward, hend, hQ⟩ := h s ⟨hs.1.mono hc, hs.2⟩
  exact ⟨hforward, { hend with budget := hforward.budget.trans hs.1.budget }, hQ⟩

theorem Ends.less (h : Ends (fun s => Able I b s ∧ p s) x fun _ => Able J b) (hc : c ≤ b) :
    Ends (fun s => Able I c s ∧ p s) x fun _ => Able J c := by
  have hand : Ends (fun s => Able I b s ∧ p s) x fun _ s => Able J b s ∧ True :=
    h.imp fun _ _ hs => ⟨hs, trivial⟩
  exact (hand.less_and hc).imp fun _ _ => And.left

theorem Ends.shrink_and (h : Ends (Able I b) x fun a s => Able J b s ∧ Q a s) (hc : c ≤ b) :
    Ends (Able I c) x fun a s => Able J c s ∧ Q a s :=
  ((h.standing (p := fun _ => True)).less_and hc).weaken fun _ hs => ⟨hs, trivial⟩

theorem Upholds.shrink (h : Upholds I b x) (hc : c ≤ b) : Upholds I c x :=
  ((h.standing (p := fun _ => True)).less hc).weaken fun _ hs => ⟨hs, trivial⟩

/-- What going forward does not change still holds behind a parser. -/
theorem Ends.keeping (hp : ∀ s t, Forward s t → p s → p t) (h : Ends P x Q) :
    Ends (fun s => P s ∧ p s) x fun a s => Q a s ∧ p s :=
  fun s hs => ⟨(h s hs.1).1, (h s hs.1).2, hp s _ (h s hs.1).1 hs.2⟩

end

/-! ## Steps -/

section

variable {α β : Type} {I J : State → Prop} {b : Nat} {R : β → State → Prop} {form : Form}

theorem ends_addNode (h : Makes I J form) (pos stop : Nat) :
    Ends (Able I b) (addNode form pos stop) fun _ => Able J b :=
  fun s hs => ⟨forward_push s _, hs.same rfl rfl rfl rfl (h s pos stop hs.holds)⟩

theorem ends_finish (h : Makes I J form) (pos : Nat) :
    Ends (Able I b) (finish pos form) fun _ => Able J b :=
  .look (fun _ => rfl) fun _ => ends_addNode h pos _

/-- A note that is not about tokens, levels and bounds. -/
theorem Ends.note {P : State → Prop} {m : Bool} {f : Unit → Parser β}
    (hJ : ∀ s, P s → I s → J { s with moduleSyntax := m })
    (hP : ∀ s, P s → P { s with moduleSyntax := m })
    (hf : Ends (fun s => Able J b s ∧ P s) (f ()) R) :
    Ends (fun s => Able I b s ∧ P s) ((modify fun s => { s with moduleSyntax := m }) >>= f) R := by
  refine Ends.bind (Q := fun _ s => Able J b s ∧ P s) (fun s hs => ?_) fun _ => hf
  exact ⟨forward_note s m, hs.1.same rfl rfl rfl rfl (hJ s hs.2 hs.1.holds), hP s hs.2⟩

variable (hI : Invariant I)

include hI

theorem upholds_advance : Upholds I b advance :=
  fun s hs => ⟨forward_advance s, hs.advance hI⟩

/-- The token at hand is passed, at the cost of one. -/
theorem Ends.advance_less {f : Unit → Parser β} (hf : Ends (Able I b) (f ()) R) :
    Ends (fun s => Able I (b + 1) s ∧ s.kindAt 0 ≠ .endOfFile) (advance >>= f) R :=
  Ends.bind (Q := fun _ => Able I b)
    (fun s hs => ⟨forward_advance s, hs.1.advance_less hI hs.2⟩) fun _ => hf

theorem upholds_report (p : Problem) : Upholds I b (report p) :=
  fun s hs => ⟨forward_report s _ _ p, hs.report hI _ _ p⟩

/-- The token that is reported is still at hand. -/
theorem Ends.report_facing {p : Problem} {f : Unit → Parser β}
    (hf : Ends (fun s => Able I b s ∧ s.kindAt 0 ≠ .endOfFile) (f ()) R) :
    Ends (fun s => Able I b s ∧ s.kindAt 0 ≠ .endOfFile) (report p >>= f) R := by
  refine Ends.bind (Q := fun _ s => Able I b s ∧ s.kindAt 0 ≠ .endOfFile) (fun s hs => ?_)
    fun _ => hf
  refine ⟨forward_report s _ _ p, hs.1.report hI _ _ p, ?_⟩
  show (State.report s _ _ p).kindAt 0 ≠ .endOfFile
  rw [kindAt_congr (report_same s _ _ p).1]
  exact hs.2

/-- If the token is accepted, it is passed; if not, all is as before. -/
theorem Ends.accept_less {P : State → Prop} {k : TokenKind} {f : Bool → Parser β}
    (hP : ∀ s, P s → Able I (b + 1) s) (hk : k ≠ .endOfFile) (hf : Ends (Able I b) (f true) R)
    (hf' : Ends P (f false) R) : Ends P (accept k >>= f) R := by
  refine Ends.bind (Q := fun r s => if r then Able I b s else P s) ?_ fun r => ?_
  · refine .isAt fun r => .ite (fun hr => ?_) fun _ => ?_
    · refine Ends.weaken (.advance_less hI (.pure fun s hs => hs)) fun s hs => ⟨hP s hs.1, ?_⟩
      rw [hs.2 hr]
      exact hk
    · exact .pure fun s hs => hs.1
  · cases r with
    | true => exact hf
    | false => exact hf'

theorem upholds_accept (k : TokenKind) : Upholds I b (accept k) :=
  .look (fun _ => rfl) fun _ =>
    .ite (fun _ => (upholds_advance hI).bind fun _ => upholds_pure _) fun _ => upholds_pure _

theorem upholds_expect (k : TokenKind) : Upholds I b (expect k) :=
  (upholds_accept hI k).bind fun _ => .ite (fun _ => upholds_pure _) fun _ =>
    (upholds_report hI _).bind fun _ => upholds_pure _

/-- Where the expected token is at hand, it is passed. -/
theorem Ends.expect_less {k : TokenKind} {f : Bool → Parser β} (hk : k ≠ .endOfFile)
    (hf : ∀ r, Ends (Able I b) (f r) R) :
    Ends (fun s => Able I (b + 1) s ∧ s.kindAt 0 = k) (expect k >>= f) R := by
  refine Ends.bind (Q := fun _ => Able I b) (fun s hs => ?_) hf
  have hnext : s.kindAt 0 ≠ .endOfFile := by
    rw [hs.2]
    exact hk
  rw [expect_at hs.2]
  exact ⟨forward_advance s, hs.1.advance_less hI hnext⟩

omit hI in
theorem upholds_canEndStatement : Upholds I b canEndStatement := by
  refine .look (fun _ => rfl) fun k => ?_
  split
  · exact upholds_pure _
  · exact upholds_pure _
  · exact upholds_pure _
  · exact upholds_look fun _ => rfl

theorem upholds_endStatement : Upholds I b endStatement := by
  refine (upholds_accept hI _).bind fun _ => .ite (fun _ => upholds_pure _) fun _ => ?_
  refine upholds_canEndStatement.bind fun _ => .ite (fun _ => upholds_pure _) fun _ => ?_
  exact upholds_report hI _

/-! ### Nodes -/

theorem upholds_addNode {form : Form} (h : form.isPlain = true) (pos stop : Nat) :
    Upholds I b (addNode form pos stop) :=
  ends_addNode (hI.plain form h) pos stop

theorem upholds_finish {form : Form} (h : form.isPlain = true) (pos : Nat) :
    Upholds I b (finish pos form) :=
  ends_finish (hI.plain form h) pos

theorem upholds_missingName : Upholds I b missingName :=
  .look (fun _ => rfl) fun _ => upholds_addNode hI rfl _ _

theorem upholds_wordAsName : Upholds I b wordAsName :=
  .look (fun _ => rfl) fun _ => (upholds_advance hI).bind fun _ => upholds_addNode hI rfl _ _

theorem upholds_keywordNode : Upholds I b keywordNode :=
  .look (fun _ => rfl) fun _ => (upholds_advance hI).bind fun _ => upholds_addNode hI rfl _ _

theorem upholds_literal : Upholds I b literal := by
  refine .look (fun _ => rfl) fun t => (upholds_advance hI).bind fun _ => ?_
  apply upholds_addNode hI
  split <;> rfl

/-- A name in front of which an error stands for what is missing. -/
theorem upholds_misplaced (p : Problem) : Upholds I b (do
    report p
    missingName) :=
  (upholds_report hI p).bind fun _ => upholds_missingName hI

theorem upholds_bindingName : Upholds I b bindingName :=
  .look (fun _ => rfl) fun _ =>
    .ite (fun _ => upholds_wordAsName hI) fun _ => upholds_misplaced hI _

theorem upholds_propertyName : Upholds I b propertyName := by
  refine .look (fun _ => rfl) fun k => ?_
  split
  · exact upholds_literal hI
  · exact upholds_literal hI
  · exact .ite (fun _ => upholds_wordAsName hI) fun _ => upholds_misplaced hI _

end

/-! ## Control -/

section

variable {α β : Type} {I : State → Prop} {b : Nat} {P : State → Prop} {R : β → State → Prop}
  {J K : β → State → Prop}

/-- An attempt that is given up was no step back. -/
theorem Forward.rewind {s t : State} (h : Forward s t) : Forward s (t.rewind s.mark) :=
  ⟨⟨.of_arena (rewind_arena h.toGrows) (rewind_errors h.toGrows).ge, h.depth, Nat.le_refl _⟩,
    List.suffix_refl _⟩

theorem Able.rewind {L : State → Prop} {c : Nat} {s t : State} (hs : Able I b s) (ht : Able I c t)
    (h : Forward s t) (hL : L (t.rewind s.mark)) : Able L b (t.rewind s.mark) where
  counted := hs.counted
  ends := hs.ends
  budget := h.rewind.budget.trans hs.budget
  spare := ht.spare
  holds := hL

/-- One level deeper the budget is one less. -/
theorem upholds_nested (hI : Invariant I) {x fallback : Parser α} (hx : Upholds I b x)
    (hfallback : Upholds I (b + 1) fallback) : Upholds I (b + 1) (nested x fallback) := by
  intro s hs
  rw [nested_eq]
  split
  · exact (upholds_report hI _).bind (fun _ => hfallback) s hs
  · rename_i hlevel
    have hbudget := hs.budget
    unfold State.budget at hbudget
    obtain ⟨hforward, hend⟩ := hx { s with depth := s.depth + 1 }
      { counted := hs.counted
        ends := hs.ends
        budget := by
          show s.remaining + (maxDepth - (s.depth + 1)) ≤ b
          omega
        spare := hs.spare
        holds := hI.deeper s _ hs.holds }
    generalize x { s with depth := s.depth + 1 } = deep at hforward hend ⊢
    have hdepth : deep.2.depth - 1 = s.depth := by
      rw [hforward.depth]
      rfl
    have hpassed := hforward.remaining
    refine ⟨⟨⟨⟨hforward.arena, hforward.errors⟩, hdepth, hpassed⟩, hforward.rest⟩, ?_⟩
    exact
      { counted := hend.counted
        ends := hend.ends
        budget := by
          show deep.2.remaining + (maxDepth - (deep.2.depth - 1)) ≤ b + 1
          have hless : deep.2.remaining ≤ s.remaining := hpassed
          rw [hdepth]
          omega
        spare := hend.spare
        holds := hI.deeper deep.2 _ hend.holds }

/-- What every turn keeps, a loop keeps. There are always turns left, since each
of them passes a token. -/
theorem ends_iterate {body : β → Parser (Turn β)}
    (h : ∀ r, ∀ k < b, Ends (fun s => Able I (k + 1) s ∧ J r s) (body r)
      (Turn.Leaves (fun r s => Able I k s ∧ J r s) fun r s => Able I (k + 1) s ∧ K r s)) (r : β) :
    Ends (fun s => Able I b s ∧ J r s) (iterate r body) fun r s => Able I b s ∧ K r s := by
  have hloop : ∀ n k r, k ≤ b → ∀ s, Able I k s → J r s → s.remaining ≤ n →
      Forward s (iterateUpTo body n r s).2 ∧ Able I b (iterateUpTo body n r s).2 ∧
        K (iterateUpTo body n r s).1 (iterateUpTo body n r s).2 := by
    intro n
    induction n with
    | zero =>
      intro k r _ s hs _ hn
      exact absurd hs.remaining_pos (Nat.not_lt.2 hn)
    | succ n ih =>
      intro k r hk s hs hr hn
      -- the budget may be taken to be what it is, so that a smaller one means fewer tokens
      obtain ⟨c, hc⟩ : ∃ c, s.budget = c + 1 := by
        have hpos := hs.remaining_pos
        unfold State.budget
        exact ⟨s.remaining + (maxDepth - s.depth) - 1, by omega⟩
      have hbudget := hs.budget
      obtain ⟨hforward, hturn⟩ := h r c (by omega) s ⟨{ hs with budget := hc.le }, hr⟩
      generalize hrun : body r s = run at hforward hturn
      obtain ⟨turn, t⟩ := run
      cases turn with
      | done r =>
        rw [iterateUpTo_done hrun]
        exact ⟨hforward, hturn.1.mono (by omega), hturn.2⟩
      | again r =>
        rw [iterateUpTo_again hrun]
        obtain ⟨hable, hJ⟩ : Able I c t ∧ J r t := hturn
        have hdepth : t.depth = s.depth := hforward.depth
        have hless := hable.budget
        have hcb : c ≤ b := by omega
        unfold State.budget at hc hless
        obtain ⟨hforward', hend⟩ := ih c r hcb t hable hJ (by omega)
        exact ⟨hforward.trans hforward', hend⟩
  intro s hs
  exact hloop (s.remaining + 1) b r (Nat.le_refl b) s hs.1 hs.2 (Nat.le_succ _)

/-- What a loop is about need not depend on the turn. -/
theorem upholds_iterate {body : β → Parser (Turn β)} (h : ∀ r, Turns I b (body r)) (r : β) :
    Upholds I b (iterate r body) := by
  refine ((ends_iterate (J := fun _ _ => True) (K := fun _ _ => True) ?_ r).weaken
    fun s hs => ⟨hs, trivial⟩).imp fun _ _ => And.left
  intro r k hk
  refine ((h r k hk).standing).imp fun t s ht => ?_
  cases t with
  | again r => exact ⟨ht, trivial⟩
  | done r => exact ⟨ht, trivial⟩

/-- A parser that may pass no token. If it does not, the token at hand is still the same. -/
theorem Ends.progress {x : Parser α} {y z : α → Parser β} (hx : Upholds I (b + 1) x)
    (hy : ∀ a, Ends (fun s => Able I (b + 1) s ∧ s.kindAt 0 ≠ .endOfFile) (y a) R)
    (hz : ∀ a, Ends (Able I b) (z a) R) :
    Ends (fun s => Able I (b + 1) s ∧ s.kindAt 0 ≠ .endOfFile) (do
      let before ← remaining
      let a ← x
      if (← remaining) == before then y a else z a) R := by
  intro s hs
  obtain ⟨hforward, hend⟩ := hx s hs.1
  rw [progress_ite]
  split
  · rename_i hsame
    have hrest := hforward.stuck hs.1 hend hsame
    obtain ⟨hforward', hlast⟩ := hy (x s).1 (x s).2 ⟨hend, kindAt_congr hrest 0 ▸ hs.2⟩
    exact ⟨hforward.trans hforward', hlast⟩
  · rename_i hpassed
    have hless := hforward.budget_lt hpassed
    have hbudget := hs.1.budget
    obtain ⟨hforward', hlast⟩ := hz (x s).1 (x s).2 { hend with budget := by omega }
    exact ⟨hforward.trans hforward', hlast⟩

end

end Parsing

end ScriptAnalysis
