import ScriptAnalysis.Proofs.Parsing.Trace
import ScriptAnalysis.Proofs.Parsing.Turns
import ScriptAnalysis.Proofs.Parsing.Upheld

/-!
# Every run of the parser leaves a trace

Every rule of the grammar is made of the steps of `Trace`, if the recursive rules
are (`Tracers`). There is a lemma for each rule and each turn of a loop, named by it;
`trace_productions` ties the recursion and `trace_parseTokens` is the whole file.

Where a rule has to be looked at more closely: what stands behind a branch of an
`if` (`traced_branches`), and the loop over the members of an interface, which
passes a token without a word when a member has passed none. It is only because
such a member has reported a missing name that nothing is passed in silence
(`Passes`).
-/
namespace ScriptAnalysis.Parsing

/-- The recursive rules of the grammar leave traces. -/
structure Tracers (rules : Productions) : Prop where
  statement : TracedStatement rules.statement
  type : Traced rules.type
  assignment : Traced rules.assignment
  binary : ∀ least, Traced (rules.binary least)
  unary : Traced rules.unary
  newExpression : TracedFrom (fun s => s.kindAt 0 = .kwNew) rules.newExpression

/-! ## Parts of several rules -/

section

variable {P : State → Prop} {x : Parser NodeId}

theorem traced_some (hx : TracedFrom P x) : TracedFrom P (do return some (← x)) :=
  hx.bind fun _ => traced_pure _

theorem traced_after {k : TokenKind} (hk : k ≠ .kwElse) (hx : Traced x) :
    TracedFrom P (after k x) :=
  (traced_accept hk).bind fun _ => .ite (fun _ => traced_some hx) fun _ => traced_pure _

theorem traced_unlessAt (k : TokenKind) (hx : Traced x) : TracedFrom P (unlessAt k x) :=
  .look (fun _ => rfl) fun _ => .ite (fun _ => traced_pure _) fun _ => .anyway (traced_some hx)

theorem moves_commaBehind (items : List NodeId) : MovesFrom P (commaBehind items) :=
  moves_accept (by decide) (by decide) (traced_pure _) (moves_done _)

theorem moves_commaTurn (stops : TokenKind → Bool) (hx : Traced x) (items : List NodeId) :
    Moves (commaTurn stops x items) :=
  .look (fun _ => rfl) fun _ => .ite (fun _ => moves_done _) fun _ =>
    hx.anyway.bind_moves fun _ => moves_commaBehind _

theorem traced_commaSeparated (stops : TokenKind → Bool) (hx : Traced x) :
    TracedFrom P (commaSeparated stops x) :=
  traced_iterate (moves_commaTurn stops hx) []

/-- A list between two tokens. -/
theorem traced_between {opening closing : TokenKind} (hopening : opening ≠ .kwElse)
    (hclosing : closing ≠ .kwElse) {x : Parser (List NodeId)} (hx : Traced x) :
    TracedFrom P (do
      if ← expect opening then
        let items ← x
        let _ ← expect closing
        return items
      else return []) := by
  refine (traced_expect hopening).bind fun _ => .ite (fun _ => ?_) fun _ => traced_pure _
  exact hx.bind fun _ => (traced_expect hclosing).bind fun _ => traced_pure _

theorem ne_kwElse_of_memberModifier? {s : State} {m : Modifiers} (h : s.memberModifier? = some m) :
    s.kindAt 0 ≠ .kwElse := by
  intro helse
  unfold State.memberModifier? at h
  rw [helse] at h
  dsimp only at h
  split at h <;> cases h

theorem ne_kwElse_of_variableKind? {s : State} {kind : VariableKind}
    (h : s.variableKind? = some kind) : s.kindAt 0 ≠ .kwElse := by
  intro helse
  unfold State.variableKind? at h
  rw [helse] at h
  cases h

theorem moves_memberModifiersTurn (modifiers : Modifiers) :
    Moves (memberModifiersTurn modifiers) := by
  refine .look (x := MonadState.get) (fun _ => rfl) fun s => ?_
  have hstate : ∀ t : State, True ∧ t = s → t = s := fun _ => And.right
  split
  · exact moves_done _
  · rename_i hm
    refine moves_advance (fun t ht => ?_) (fun t ht => .inr ?_) (traced_pure _)
    · exact hstate t ht ▸ ne_endOfFile_of_memberModifier? hm
    · exact hstate t ht ▸ ne_kwElse_of_memberModifier? hm

theorem traced_memberModifiers : TracedFrom P memberModifiers :=
  traced_iterate moves_memberModifiersTurn _

theorem moves_declarationModifiersTurn (modifiers : Modifiers) :
    Moves (declarationModifiersTurn modifiers) := by
  refine .kind fun k => ?_
  split
  · intro s hs hnext
    have hkind : s.kindAt 0 = .kwExport := hnext.2
    have hnote : Trace s { s with moduleSyntax := true } := .note s true
    obtain ⟨htrace, hmoves⟩ := moves_advance (P := fun s => s.kindAt 0 = .kwExport)
      (f := fun _ => return .again { modifiers with exported := true })
      (fun _ h => h ▸ by decide) (fun _ h => .inr (h ▸ by decide)) (traced_pure _)
      { s with moduleSyntax := true } (hnote.counted hs) hkind
    exact ⟨hnote.trans htrace, hmoves⟩
  · refine .look (fun _ => rfl) fun _ => .ite (fun _ => ?_) fun _ => moves_done _
    exact moves_advance (fun _ h => h.1.2 ▸ by decide) (fun _ h => .inr (h.1.2 ▸ by decide))
      (traced_pure _)
  · exact moves_done _

theorem traced_declarationModifiers : TracedFrom P declarationModifiers :=
  traced_iterate moves_declarationModifiersTurn _

theorem traced_missingType : TracedFrom State.Faulty missingType :=
  .look (fun _ => rfl) fun _ => traced_missingName.bind fun _ => traced_addNode rfl _ _

theorem moves_dotTurn (name : NodeId) : Moves (dotTurn name) :=
  moves_accept (by decide) (by decide) (traced_propertyName.bind fun _ => traced_pure _)
    (moves_done _)

theorem traced_dottedName (first : NodeId) : TracedFrom P (dottedName first) :=
  traced_iterate moves_dotTurn first

end

/-! ### Members of an interface -/

/-- The parser passes a token, or there is a fault. -/
def Passes {α : Type} (x : Parser α) : Prop :=
  ∀ s, s.Counted → (x s).2.Faulty ∨ (x s).2.remaining < s.remaining

section

variable {α β : Type} {x : Parser α}

theorem Passes.bind {f : α → Parser β} (h : Passes x) (hx : Traced x)
    (hf : ∀ a, Traced (f a)) : Passes (x >>= f) := by
  intro s hs
  have hcounted := (hx s hs trivial).counted hs
  have hlater := hf (x s).1 (x s).2 hcounted trivial
  rcases h s hs with hfault | hless
  · exact .inl (hlater.faulty hfault)
  · exact .inr (Nat.lt_of_le_of_lt hlater.forward.remaining hless)

theorem passes_propertyName : Passes propertyName := by
  intro s hs
  unfold propertyName
  rw [kind_bind]
  have hpasses : ∀ {x : Parser NodeId}, s.kindAt 0 ≠ .endOfFile →
      (x s).2.remaining = s.advance.remaining →
        (x s).2.Faulty ∨ (x s).2.remaining < s.remaining :=
    fun hk hx => .inr (hx ▸ hs.remaining_advance hk)
  generalize s.kindAt 0 = k at hpasses
  split
  · exact hpasses (by decide) rfl
  · exact hpasses (by decide) rfl
  · split
    · rename_i hword
      exact hpasses (ne_endOfFile_of_isWord hword) rfl
    · exact .inl (report_faulty s _ _ _)

end

/-- A member of an interface behind its modifier. -/
def typeMemberBehind (self : Productions) (start : Nat) (modifiers : Modifiers) :
    Parser NodeId := do
  let name ← propertyName
  let optional ← accept .question
  if ← isAt .openParen then
    let parameters ← parameters self
    let returnType ← ascription self
    finish start (.function .methodSignature
      { modifiers, name := some name, parameters, returnType, body := none })
  else
    let ascription ← ascription self
    finish start (.propertySignature { modifiers, name, optional, ascription, initializer := none })

theorem typeMember_eq (self : Productions) (s : State) : typeMember self s =
    if (s.kindAt 0 == .kwReadonly && (s.kindAt 1).isWord) = true then
      typeMemberBehind self (s.tokenAt 0).start { isReadonly := true } s.advance
    else typeMemberBehind self (s.tokenAt 0).start .none s := by
  show (if (s.kindAt 0 == .kwReadonly && (s.kindAt 1).isWord) = true then _ else _ :
    Parser NodeId) s = _
  split <;> rfl

namespace Tracers

variable {self : Productions} {P : State → Prop} (h : Tracers self)

include h

theorem traced_ascription : TracedFrom P (ascription self) :=
  traced_after (by decide) h.type

theorem traced_initializer : TracedFrom P (initializer self) :=
  traced_after (by decide) h.assignment

theorem traced_parameter : TracedFrom P (parameter self) := by
  refine .look (fun _ => rfl) fun _ => traced_memberModifiers.bind fun _ => ?_
  refine traced_bindingName.bind fun _ => (traced_accept (by decide)).bind fun _ => ?_
  refine h.traced_ascription.bind fun _ => h.traced_initializer.bind fun _ => ?_
  exact traced_finish rfl _

theorem traced_parameters : TracedFrom P (parameters self) :=
  traced_between (by decide) (by decide) (traced_commaSeparated _ h.traced_parameter)

/-- A token that starts no statement is reported before it is passed. -/
theorem moves_statementsTurn {stops : TokenKind → Bool} (hstops : stops .endOfFile = true)
    (statements : List NodeId) : Moves (statementsTurn self stops statements) := by
  refine .kind fun k => .ite (fun _ => moves_done _) fun hk => ?_
  refine (moves_progress (Q := fun _ => True) h.statement.traced (fun _ _ _ => trivial)
    (fun _ => moves_report fun _ hs => hs.2) fun _ => traced_pure _).weaken fun s hs hend => hk ?_
  exact hs.2 ▸ hend ▸ hstops

theorem traced_statementsUntil {stops : TokenKind → Bool} (hstops : stops .endOfFile = true) :
    TracedFrom P (statementsUntil self stops) :=
  traced_iterate (h.moves_statementsTurn hstops) []

theorem traced_block : TracedFrom P (block self) := by
  refine .look (fun _ => rfl) fun _ => (traced_expect (by decide)).bind fun _ => ?_
  refine (h.traced_statementsUntil rfl).bind fun _ => (traced_expect (by decide)).bind fun _ => ?_
  exact traced_finish rfl _

/-! ## Types -/

omit h in
theorem traced_typeReference : TracedFrom (fun s => (s.kindAt 0).isWord = true) typeReference :=
  .look (fun _ => rfl) fun _ => traced_wordAsName.bind fun first =>
    (traced_dottedName first).bind fun _ => traced_finish rfl _

theorem traced_functionType : TracedFrom P (functionType self) := by
  refine .look (fun _ => rfl) fun _ => h.traced_parameters.bind fun _ => ?_
  refine (traced_expect (by decide)).bind fun _ => h.type.bind fun _ => ?_
  exact traced_finish rfl _

theorem traced_parenthesizedType :
    TracedFrom (fun s => s.kindAt 0 = .openParen) (parenthesizedType self) := by
  refine .look (fun _ => rfl) fun _ => .advance_at (by decide) (h.type.bind fun _ => ?_)
  exact (traced_expect (by decide)).bind fun _ => traced_finish rfl _

omit h in
theorem traced_literalType {x : Parser NodeId} (hx : TracedFrom P x) : TracedFrom P (do
    let start ← here
    let literal ← x
    finish start (.literalType literal)) :=
  .look (fun _ => rfl) fun _ => hx.bind fun _ => traced_finish rfl _

theorem traced_primaryType : TracedFrom P (primaryType self) := by
  refine .kind fun k => ?_
  have hleaf : ∀ {k : TokenKind}, k ≠ .kwElse → ∀ s : State, s.kindAt 0 = k →
      s.kindAt 0 ≠ .kwElse := fun hk s hs => hs ▸ hk
  split
  case h_10 | h_11 => exact traced_literalType (traced_keywordNode (hleaf (by decide)))
  case h_12 | h_13 => exact traced_literalType (traced_literal (hleaf (by decide)))
  case h_14 =>
    exact .look (fun _ => rfl) fun _ =>
      .ite (fun _ => h.traced_functionType) fun _ => h.traced_parenthesizedType
  case h_15 =>
    refine .ite (fun hk => ?_) fun _ => .report traced_missingType
    exact traced_typeReference.weaken fun _ hs => hs ▸ Lexer.isWord_of_isName hk
  all_goals exact traced_keywordNode (hleaf (by decide))

omit h in
/-- The two brackets are known before they are passed. -/
theorem moves_arrayTurn (start : Nat) (element : NodeId) : Moves (arrayTurn start element) := by
  refine .look (fun _ => rfl) fun opens => .look (fun _ => rfl) fun k => ?_
  refine .look (fun _ => rfl) fun _ => .ite (fun hr => ?_) fun _ => moves_done _
  obtain ⟨hopens, hcloses⟩ := Bool.and_eq_true_iff.1 (Bool.and_eq_true_iff.1 hr).1
  -- the first bracket is passed here, the second one behind it
  have hbehind : TracedFrom (fun s => s.kindAt 0 = .closeBracket) (do
      advance
      return .again (← finish start (.arrayType element)) : Parser (Turn NodeId)) :=
    .advance_at (by decide) ((traced_finish rfl start).bind fun _ => traced_pure _)
  rintro s hs ⟨⟨⟨-, hfirst⟩, hsecond⟩, -⟩
  have hopen : s.kindAt 0 = .openBracket := eq_of_beq (hfirst.trans hopens)
  have hclose : s.advance.kindAt 0 = .closeBracket := by
    rw [kindAt_advance (hopen ▸ by decide)]
    exact hsecond.trans (eq_of_beq hcloses)
  have hlater := hbehind s.advance hs.advance hclose
  refine ⟨.trans (.pass (hopen ▸ by decide)) hlater, fun _ _ => ?_⟩
  exact hlater.forward.remaining.trans_lt (hs.remaining_advance (hopen ▸ by decide))

theorem traced_arrayType : TracedFrom P (arrayType self) :=
  .look (fun _ => rfl) fun start => h.traced_primaryType.bind fun first =>
    traced_iterate (moves_arrayTurn start) first

theorem moves_unionTurn (members : List NodeId) : Moves (unionTurn self members) :=
  moves_accept (by decide) (by decide) (h.traced_arrayType.bind fun _ => traced_pure _)
    (moves_done _)

theorem traced_unionType : TracedFrom P (unionType self) := by
  refine .look (fun _ => rfl) fun _ => (traced_accept (by decide)).bind fun _ => ?_
  refine h.traced_arrayType.bind fun first => .look (fun _ => rfl) fun _ => ?_
  refine .ite (fun _ => traced_pure _) fun _ => ?_
  refine (traced_iterate h.moves_unionTurn [first]).bind fun _ => ?_
  exact .ite (fun _ => traced_pure _) fun _ => traced_finish rfl _

theorem traced_type : Traced (Parsing.type self) :=
  traced_nested h.traced_unionType traced_missingType

/-! ## Expressions -/

theorem traced_arrayLiteral :
    TracedFrom (fun s => s.kindAt 0 = .openBracket) (arrayLiteral self) := by
  refine .look (fun _ => rfl) fun _ => .advance_at (by decide) ?_
  refine (traced_commaSeparated _ h.assignment).bind fun _ => ?_
  exact (traced_expect (by decide)).bind fun _ => traced_finish rfl _

theorem traced_propertyAssignment : TracedFrom P (propertyAssignment self) :=
  .look (fun _ => rfl) fun _ => traced_propertyName.bind fun _ =>
    (traced_after (by decide) h.assignment).bind fun _ => traced_finish rfl _

theorem traced_objectLiteral :
    TracedFrom (fun s => s.kindAt 0 = .openBrace) (objectLiteral self) := by
  refine .look (fun _ => rfl) fun _ => .advance_at (by decide) ?_
  refine (traced_commaSeparated _ h.traced_propertyAssignment).bind fun _ => ?_
  exact (traced_expect (by decide)).bind fun _ => traced_finish rfl _

theorem traced_parenthesized :
    TracedFrom (fun s => s.kindAt 0 = .openParen) (parenthesized self) := by
  refine .look (fun _ => rfl) fun _ => .advance_at (by decide) (h.assignment.bind fun _ => ?_)
  exact (traced_expect (by decide)).bind fun _ => traced_finish rfl _

omit h in
theorem traced_missingExpression : TracedFrom P missingExpression := by
  refine .report (traced_missingName.bind_faulty fun _ => ?_)
  refine .look (fun _ => rfl) fun _ => .ite (fun _ => traced_pure _) fun _ => ?_
  exact traced_skip.bind fun _ => traced_pure _

theorem traced_primaryExpression : TracedFrom P (primaryExpression self) := by
  refine .kind fun k => ?_
  have hleaf : ∀ {k : TokenKind}, k ≠ .kwElse → ∀ s : State, s.kindAt 0 = k →
      s.kindAt 0 ≠ .kwElse := fun hk s hs => hs ▸ hk
  split
  case h_1 | h_2 => exact traced_literal (hleaf (by decide))
  case h_8 => exact h.traced_parenthesized
  case h_9 => exact h.traced_arrayLiteral
  case h_10 => exact h.traced_objectLiteral
  case h_11 =>
    refine .ite (fun hk => ?_) fun _ => traced_missingExpression
    exact traced_wordAsName.weaken fun _ hs => hs ▸ Lexer.isWord_of_isName hk
  all_goals exact traced_keywordNode (hleaf (by decide))

theorem traced_arguments : TracedFrom P (arguments self) := by
  refine (traced_expect (by decide)).bind fun _ => ?_
  refine (traced_commaSeparated _ h.assignment).bind fun _ => ?_
  exact (traced_expect (by decide)).bind fun _ => traced_pure _

/-- At the parenthesis the arguments pass it. -/
theorem arguments_pass {s : State} (hs : s.Counted) (hnext : s.kindAt 0 = .openParen) :
    (arguments self s).2.remaining < s.remaining := by
  have hrest : Traced (do
      let values ← commaSeparated closesParens self.assignment
      let _ ← expect .closeParen
      return values) :=
    (traced_commaSeparated _ h.assignment).bind fun _ =>
      (traced_expect (by decide)).bind fun _ => traced_pure _
  have hfirst : arguments self s = (do
      let values ← commaSeparated closesParens self.assignment
      let _ ← expect .closeParen
      return values : Parser (List NodeId)) s.advance := by
    show (expect .openParen >>= _) s = _
    rw [bind_run, expect_at hnext]
  rw [hfirst]
  exact (hrest s.advance hs.advance trivial).forward.remaining.trans_lt
    (hs.remaining_advance (hnext ▸ by decide))

theorem moves_suffixTurn (start : Nat) (allowCalls : Bool) (expression : NodeId) :
    Moves (suffixTurn self start allowCalls expression) := by
  refine .kind fun k => ?_
  have hagain : ∀ {form : Form}, form.isFree = true →
      Traced (do return .again (← finish start form) : Parser (Turn NodeId)) := fun hform =>
    (traced_finish hform start).bind fun _ => traced_pure _
  split
  · exact moves_advance_at (by decide) (by decide) (traced_propertyName.bind fun _ => hagain rfl)
  · refine moves_advance_at (by decide) (by decide) (h.assignment.bind fun _ => ?_)
    exact (traced_expect (by decide)).bind fun _ => hagain rfl
  · refine .ite (fun _ => ?_) fun _ => moves_done _
    exact h.traced_arguments.bind_less (fun s hs hnext => h.arguments_pass hs hnext.2)
      fun _ => hagain rfl
  · exact moves_done _

theorem traced_suffixes (start : Nat) (allowCalls : Bool) (expression : NodeId) :
    TracedFrom P (suffixes self start allowCalls expression) :=
  traced_iterate (h.moves_suffixTurn start allowCalls) expression

theorem traced_newOrPrimary : TracedFrom P (newOrPrimary self) :=
  .isAt fun _ => .ite (fun hr => h.newExpression.weaken fun _ hs => hs hr) fun _ =>
    h.traced_primaryExpression

theorem traced_newExpression :
    TracedFrom (fun s => s.kindAt 0 = .kwNew) (Parsing.newExpression self) := by
  refine .look (fun _ => rfl) fun start => .advance_operator rfl ?_
  refine .bind (traced_look fun _ => rfl) fun calleeStart => ?_
  refine .bind h.traced_newOrPrimary fun first => ?_
  refine .bind (h.traced_suffixes calleeStart false first) fun callee => ?_
  refine .bind (traced_look fun _ => rfl) fun _ => .ite (.bind h.traced_arguments fun _ => ?_) ?_
  · exact operates_finish rfl start
  · exact operates_finish rfl start

theorem traced_leftHandSide : TracedFrom P (leftHandSide self) :=
  .look (fun _ => rfl) fun start => h.traced_newOrPrimary.bind fun first =>
    h.traced_suffixes start true first

theorem traced_prefixed {operator : TokenKind} (hk : operator.takesOperand = true) :
    TracedFrom (fun s => s.kindAt 0 = operator) (prefixed self operator) :=
  .look (fun _ => rfl) fun start => .advance_operator hk (.bind h.unary fun _ =>
    operates_finish rfl start)

theorem traced_postfixed : TracedFrom P (postfixed self) := by
  refine .look (fun _ => rfl) fun start => h.traced_leftHandSide.bind fun operand => ?_
  refine .kind fun operator => .look (fun _ => rfl) fun _ => .ite (fun hoperator => ?_) fun _ => ?_
  · refine .advance (fun s hs => ?_) (traced_finish rfl start)
    rintro helse
    rw [← hs, helse] at hoperator
    exact absurd hoperator (by simp)
  · exact traced_pure _

theorem traced_unary : Traced (Parsing.unary self) := by
  refine .kind fun k => ?_
  split
  case h_6 =>
    exact .look (fun _ => rfl) fun start => .advance_operator rfl (.bind h.unary fun _ =>
      operates_finish rfl start)
  case h_7 => exact h.traced_postfixed
  all_goals exact h.traced_prefixed rfl

/-- An `else` and the end of the text bind as loosely as what is no operator. -/
theorem moves_binaryTurn (least start : Nat) (left : NodeId) :
    Moves (binaryTurn self least start left) := by
  refine .kind fun operator => .ite (fun _ => moves_done _) fun hleast => ?_
  have hnext : operator ≠ .endOfFile := by
    rintro rfl
    exact hleast (Nat.zero_le least)
  have hnext' : operator ≠ .kwElse := by
    rintro rfl
    exact hleast (Nat.zero_le least)
  have hagain : ∀ {form : Form}, form.isFree = true →
      Traced (do return .again (← finish start form) : Parser (Turn NodeId)) := fun hform =>
    (traced_finish hform start).bind fun _ => traced_pure _
  refine .ite (fun _ => ?_) fun _ => ?_
  · refine .look (fun _ => rfl) fun _ => .ite (fun _ => moves_done _) fun _ => ?_
    exact (moves_advance_at hnext hnext' (h.type.bind fun _ => hagain rfl)).weaken fun _ => And.left
  · exact moves_advance_at hnext hnext' ((h.binary _).bind fun _ => hagain rfl)

theorem traced_binary (least : Nat) : Traced (Parsing.binary self least) :=
  .look (fun _ => rfl) fun start => h.unary.bind fun first =>
    traced_iterate (h.moves_binaryTurn least start) first

/-! ### Arrow functions and assignments -/

omit h in
theorem traced_simpleParameter :
    TracedFrom (fun s => (s.kindAt 0).isWord = true) simpleParameter :=
  .look (fun _ => rfl) fun _ => traced_wordAsName.bind fun _ => traced_finish rfl _

theorem traced_arrowHead {simple : Bool} :
    TracedFrom (fun s => simple = true → (s.kindAt 0).isWord = true) (arrowHead self simple) := by
  have hrest : ∀ ps : List NodeId, Traced (do
      let result ← Parsing.ascription self
      if ← accept .arrow then return some (ps, result)
      else return none) := fun ps =>
    h.traced_ascription.bind fun _ => (traced_accept (by decide)).bind fun _ =>
      .ite (fun _ => traced_pure _) fun _ => traced_pure _
  refine TracedFrom.ite (fun hsimple => ?_) fun _ => ?_
  · exact (traced_simpleParameter.weaken fun _ hs => hs hsimple).bind fun p => hrest [p]
  · exact h.traced_parameters.bind hrest

theorem traced_arrowFunction : TracedFrom P (arrowFunction self) := by
  refine .get fun s => .ite (fun _ => ?_) fun _ => traced_pure _
  refine .look (fun _ => rfl) fun start => ?_
  have hhead : TracedFrom (fun t => t = s) (attempt (arrowHead self s.startsSimpleArrow)) := by
    refine traced_attempt (h.traced_arrowHead.weaken ?_)
    rintro t rfl hsimple
    exact Lexer.isWord_of_isName (Bool.and_eq_true_iff.1 hsimple).1
  refine hhead.bind fun r => ?_
  cases r with
  | none => exact traced_pure _
  | some head =>
    refine .look (fun _ => rfl) fun _ => .ite (fun _ => ?_) fun _ => ?_
    · exact h.traced_block.bind fun _ => traced_some (traced_finish rfl start)
    · exact h.assignment.bind fun _ => traced_some (traced_finish rfl start)

theorem traced_assignmentOrTighter : TracedFrom P (assignmentOrTighter self) := by
  refine .look (fun _ => rfl) fun start => (h.binary 0).anyway.bind fun left => ?_
  refine .kind fun operator => .look (fun _ => rfl) fun s => .ite (fun hoperator => ?_) fun _ => ?_
  · refine .advance_at ?_ (h.assignment.bind fun _ => traced_finish rfl start)
    rintro rfl
    exact absurd (Bool.and_eq_true_iff.1 hoperator).1 (by decide)
  · refine (traced_accept (by decide)).bind fun _ => .ite (fun _ => ?_) fun _ => traced_pure _
    refine h.assignment.bind fun _ => (traced_expect (by decide)).bind fun _ => ?_
    exact h.assignment.bind fun _ => traced_finish rfl start

theorem traced_assignment : Traced (Parsing.assignment self) := by
  refine traced_nested (h.traced_arrowFunction.bind fun r => ?_) traced_missingName
  cases r with
  | some arrow => exact traced_pure _
  | none => exact h.traced_assignmentOrTighter

/-! ## Declarations -/

theorem traced_variableDeclaration (kind : VariableKind) :
    TracedFrom P (variableDeclaration self kind) := by
  refine .look (fun _ => rfl) fun _ => traced_bindingName.bind fun _ => ?_
  refine h.traced_ascription.bind fun _ => h.traced_initializer.bind fun _ => ?_
  exact traced_finish rfl _

theorem moves_variablesTurn (kind : VariableKind) (inHead : Bool) (declarations : List NodeId) :
    Moves (variablesTurn self kind inHead declarations) :=
  (h.traced_variableDeclaration kind).bind_moves fun _ => .look (fun _ => rfl) fun _ =>
    .ite (fun _ => moves_done _) fun _ => moves_commaBehind _

theorem traced_variableDeclarations (kind : VariableKind) (inHead : Bool) :
    TracedFrom P (variableDeclarations self kind inHead) :=
  traced_iterate (h.moves_variablesTurn kind inHead) []

theorem traced_variableStatement (start : Nat) (modifiers : Modifiers) (kind : VariableKind) :
    TracedFrom (fun s => s.kindAt 0 ≠ .kwElse) (variableStatement self start modifiers kind) := by
  refine .advance (fun _ => id) ((h.traced_variableDeclarations kind false).bind fun _ => ?_)
  exact traced_endStatement.bind fun _ => traced_finish rfl _

theorem traced_functionBody : TracedFrom P (functionBody self) :=
  .look (fun _ => rfl) fun _ => .ite (fun _ => traced_some h.traced_block) fun _ =>
    traced_endStatement.bind fun _ => traced_pure _

theorem traced_functionDeclaration (start : Nat) (modifiers : Modifiers) :
    TracedFrom (fun s => s.kindAt 0 = .kwFunction) (functionDeclaration self start modifiers) := by
  refine .advance_at (by decide) (traced_bindingName.bind fun _ => ?_)
  refine h.traced_parameters.bind fun _ => h.traced_ascription.bind fun _ => ?_
  exact h.traced_functionBody.bind fun _ => traced_finish rfl _

/-! ### Classes -/

omit h in
theorem traced_heritageType : TracedFrom P heritageType :=
  .look (fun _ => rfl) fun _ => traced_bindingName.bind fun first =>
    (traced_dottedName first).bind fun _ => traced_finish rfl _

theorem traced_constructorMember (start : Nat) (modifiers : Modifiers) :
    TracedFrom (fun s => s.kindAt 0 = .kwConstructor)
      (constructorMember self start modifiers) := by
  refine (traced_wordAsName.weaken fun s hs => ?_).bind fun _ => h.traced_parameters.bind fun _ =>
    h.traced_functionBody.bind fun _ => traced_finish rfl _
  rw [hs]
  decide

theorem traced_namedMember (start : Nat) (modifiers : Modifiers) :
    TracedFrom P (namedMember self start modifiers) := by
  refine traced_propertyName.bind fun _ => (traced_accept (by decide)).bind fun _ => ?_
  refine .look (fun _ => rfl) fun _ => .ite (fun _ => ?_) fun _ => ?_
  · refine h.traced_parameters.bind fun _ => h.traced_ascription.bind fun _ => ?_
    exact h.traced_functionBody.bind fun _ => traced_finish rfl _
  · refine h.traced_ascription.bind fun _ => h.traced_initializer.bind fun _ => ?_
    exact traced_endStatement.bind fun _ => traced_finish rfl _

theorem traced_classMember : TracedFrom P (classMember self) := by
  refine .look (fun _ => rfl) fun start => traced_memberModifiers.bind fun modifiers => ?_
  refine .isAt fun _ => .look (fun _ => rfl) fun _ => .ite (fun hr => ?_) fun _ => ?_
  · exact (h.traced_constructorMember start modifiers).weaken fun _ hs =>
      hs (Bool.and_eq_true_iff.1 hr).1
  · exact h.traced_namedMember start modifiers

/-- A token that starts no member is reported before it is passed. -/
theorem moves_classMembersTurn (members : List NodeId) :
    Moves (classMembersTurn self members) := by
  refine .kind fun k => .ite (fun _ => moves_done _) fun hk => ?_
  refine moves_accept (by decide) (by decide) (traced_pure _) ?_
  exact (moves_progress (Q := fun _ => True) h.traced_classMember (fun _ _ _ => trivial)
    (fun _ => moves_report fun _ hs => hs.2) fun _ => traced_pure _).weaken fun s hs =>
      hs.2 ▸ Ample.ne_endOfFile_of_not_closesBraces hk

theorem traced_classMembers : TracedFrom P (classMembers self) :=
  traced_between (by decide) (by decide) (traced_iterate h.moves_classMembersTurn [])

theorem traced_classDeclaration (start : Nat) (modifiers : Modifiers) :
    TracedFrom (fun s => s.kindAt 0 = .kwClass) (classDeclaration self start modifiers) := by
  refine .advance_at (by decide) (traced_bindingName.bind fun _ => ?_)
  refine (traced_after (by decide) traced_heritageType).bind fun _ => ?_
  exact h.traced_classMembers.bind fun _ => traced_finish rfl _

/-! ### Interfaces and aliases -/

theorem traced_typeMemberBehind (start : Nat) (modifiers : Modifiers) :
    Traced (typeMemberBehind self start modifiers) := by
  refine traced_propertyName.bind fun _ => (traced_accept (by decide)).bind fun _ => ?_
  refine .look (fun _ => rfl) fun _ => .ite (fun _ => ?_) fun _ => ?_
  · exact h.traced_parameters.bind fun _ => h.traced_ascription.bind fun _ => traced_finish rfl _
  · exact h.traced_ascription.bind fun _ => traced_finish rfl _

theorem traced_typeMember : Traced (typeMember self) := by
  intro s hs _
  rw [typeMember_eq]
  split
  · rename_i hmodifier
    refine .trans (.pass ?_) (h.traced_typeMemberBehind _ _ s.advance hs.advance trivial)
    rw [beq_iff_eq.1 (Bool.and_eq_true_iff.1 hmodifier).1]
    decide
  · exact h.traced_typeMemberBehind _ _ s hs trivial

/-- A member that passes no token is one without a name. -/
theorem passes_typeMember : Passes (typeMember self) := by
  have hbehind : ∀ start modifiers, Passes (typeMemberBehind self start modifiers) := by
    refine fun start modifiers => passes_propertyName.bind traced_propertyName fun _ => ?_
    refine (traced_accept (by decide)).bind fun _ => .look (fun _ => rfl) fun _ => ?_
    refine .ite (fun _ => ?_) fun _ => h.traced_ascription.bind fun _ => traced_finish rfl _
    exact h.traced_parameters.bind fun _ => h.traced_ascription.bind fun _ => traced_finish rfl _
  intro s hs
  rw [typeMember_eq]
  split
  · refine (hbehind _ _ s.advance hs.advance).imp_right fun hless => ?_
    exact Nat.lt_of_lt_of_le hless (appends_advance s).remaining
  · exact hbehind _ _ s hs

omit h in
theorem traced_memberSeparator : TracedFrom P memberSeparator := by
  refine (traced_accept (by decide)).bind fun _ => .ite (fun _ => traced_pure _) fun _ => ?_
  refine (traced_accept (by decide)).bind fun _ => .ite (fun _ => traced_pure _) fun _ => ?_
  refine .look (fun _ => rfl) fun _ => .ite (fun _ => traced_pure _) fun _ => ?_
  exact .look (fun _ => rfl) fun _ => .ite (fun _ => traced_pure _) fun _ => traced_report _

omit h in
theorem moves_heritageTurn (types : List NodeId) : Moves (heritageTurn types) :=
  traced_heritageType.bind_moves fun _ => moves_commaBehind _

omit h in
theorem traced_heritageTypes : TracedFrom P heritageTypes :=
  (traced_accept (by decide)).bind fun _ => .ite (fun _ => traced_iterate moves_heritageTurn _)
    fun _ => traced_pure _

/-- A token is passed without a word only behind a member without a name. -/
theorem moves_typeMembersTurn (members : List NodeId) : Moves (typeMembersTurn self members) := by
  refine .kind fun k => .ite (fun _ => moves_done _) fun hk => ?_
  have hmember : Traced (do
      let member ← typeMember self
      memberSeparator
      return member) :=
    h.traced_typeMember.bind fun _ => traced_memberSeparator.bind fun _ => traced_pure _
  have hpasses : Passes (do
      let member ← typeMember self
      memberSeparator
      return member) :=
    h.passes_typeMember.bind h.traced_typeMember fun _ =>
      traced_memberSeparator.bind fun _ => traced_pure _
  have hturn := moves_progress (Q := State.Faulty) hmember
    (fun s hs hsame => (hpasses s hs).resolve_right fun hless =>
      absurd hsame (Nat.ne_of_lt hless))
    (fun member => moves_advance (f := fun _ => pure (Turn.again (members ++ [member])))
      (fun _ hs => hs.2) (fun _ hs => .inl hs.1) (traced_pure _))
    fun member => traced_pure (Turn.again (members ++ [member]))
  have hnext := hturn.weaken (Q := fun s => True ∧ s.kindAt 0 = k) fun s hs =>
    hs.2 ▸ Ample.ne_endOfFile_of_not_closesBraces hk
  simpa only [bind_assoc, pure_bind] using hnext

theorem traced_typeMembers : TracedFrom P (typeMembers self) :=
  traced_between (by decide) (by decide) (traced_iterate h.moves_typeMembersTurn [])

theorem traced_interfaceDeclaration (start : Nat) (modifiers : Modifiers) :
    TracedFrom (fun s => s.kindAt 0 = .kwInterface)
      (interfaceDeclaration self start modifiers) := by
  refine .advance_at (by decide) (traced_bindingName.bind fun _ => ?_)
  refine traced_heritageTypes.bind fun _ => h.traced_typeMembers.bind fun _ => ?_
  exact traced_finish rfl _

theorem traced_typeAlias (start : Nat) (modifiers : Modifiers) :
    TracedFrom (fun s => s.kindAt 0 = .kwType) (typeAlias self start modifiers) := by
  refine .advance_at (by decide) (traced_bindingName.bind fun _ => ?_)
  refine (traced_expect (by decide)).bind fun _ => h.type.bind fun _ => ?_
  exact traced_endStatement.bind fun _ => traced_finish rfl _

/-! ### Imports -/

omit h in
theorem traced_importSpecifier : TracedFrom P importSpecifier := by
  refine .look (fun _ => rfl) fun _ => traced_propertyName.bind fun _ => ?_
  refine (traced_accept (by decide)).bind fun _ => .ite (fun _ => ?_) fun _ => traced_finish rfl _
  exact traced_bindingName.bind fun _ => traced_finish rfl _

omit h in
theorem traced_importDeclaration :
    TracedFrom (fun s => s.kindAt 0 = .kwImport) importDeclaration := by
  refine .look (fun _ => rfl) fun start => .advance_at (by decide) ?_
  have hspecifiers : Traced importSpecifiers :=
    traced_between (by decide) (by decide) (traced_commaSeparated _ traced_importSpecifier)
  refine hspecifiers.bind fun specifiers => (traced_expect (by decide)).bind fun _ => ?_
  refine .isAt fun _ => .ite (fun hr => ?_) fun _ => ?_
  · refine (traced_literal fun s hs => ?_).bind fun _ => ?_
    · rw [hs hr]
      decide
    · exact traced_endStatement.bind fun _ => traced_finish rfl start
  · exact (traced_report _).bind fun _ => traced_endStatement.bind fun _ => traced_finish rfl start

/-! ## Statements -/

theorem traced_declaration : TracedFrom P (declaration self) := by
  refine .look (fun _ => rfl) fun start => traced_declarationModifiers.bind fun modifiers => ?_
  refine .kind fun k => ?_
  split
  · exact traced_some (h.traced_functionDeclaration start modifiers)
  · exact traced_some (h.traced_classDeclaration start modifiers)
  · exact traced_some (h.traced_interfaceDeclaration start modifiers)
  · exact traced_some (h.traced_typeAlias start modifiers)
  · refine .get fun s => ?_
    split
    · rename_i hkind
      exact traced_some ((h.traced_variableStatement start modifiers _).weaken fun _ hs =>
        hs ▸ ne_kwElse_of_variableKind? hkind)
    · exact (traced_report _).bind fun _ => traced_pure _

theorem traced_condition : TracedFrom P (condition self) := by
  refine (traced_expect (by decide)).bind fun _ => h.assignment.bind fun _ => ?_
  exact (traced_expect (by decide)).bind fun _ => traced_pure _

/-- The branches of an `if` behind its condition. -/
theorem traced_branches (start : Nat) (condition : NodeId) : Traced (do
    let thenBranch ← self.statement
    let elseBranch ← if ← accept .kwElse then self.statement else pure none
    finish start (.ifStatement condition thenBranch elseBranch)) := by
  refine h.statement.bind fun thenBranch s hs hlacks => ?_
  show Trace s ((if (accept .kwElse s).1 = true then _ else _ : Parser NodeId)
    (accept .kwElse s).2).2
  rw [accept_eq]
  by_cases helse : s.kindAt 0 = .kwElse
  · rw [if_pos (beq_iff_eq.2 helse)]
    obtain ⟨hbranch, hstated⟩ := h.statement s.advance hs.advance
    exact .otherwise condition thenBranch helse hlacks hbranch hstated start
  · rw [if_neg fun hk => helse (eq_of_beq hk)]
    exact .closed rfl hlacks start

theorem traced_ifStatement : TracedFrom (fun s => s.kindAt 0 = .kwIf) (ifStatement self) :=
  .look (fun _ => rfl) fun start => .advance_at (by decide)
    (h.traced_condition.bind fun condition => h.traced_branches start condition)

theorem traced_whileStatement :
    TracedFrom (fun s => s.kindAt 0 = .kwWhile) (whileStatement self) :=
  .look (fun _ => rfl) fun start => .advance_at (by decide) (h.traced_condition.bind fun _ =>
    h.statement.bind fun _ => traced_close rfl start)

theorem traced_forInitializer : TracedFrom P (forInitializer self) := by
  refine .look (fun _ => rfl) fun _ => .ite (fun _ => traced_pure _) fun _ => .get fun s => ?_
  split
  · rename_i hkind
    refine .look (fun _ => rfl) fun start => .advance (fun _ hs => ?_) ?_
    · rw [hs]
      exact ne_kwElse_of_variableKind? hkind
    · refine (h.traced_variableDeclarations _ true).bind fun _ => ?_
      exact traced_some (traced_finish rfl start)
  · exact traced_some h.assignment.anyway

theorem traced_forStatement : TracedFrom (fun s => s.kindAt 0 = .kwFor) (forStatement self) := by
  refine .look (fun _ => rfl) fun start => .advance_at (by decide) ?_
  refine (traced_expect (by decide)).bind fun _ => h.traced_forInitializer.bind fun _ => ?_
  refine (traced_accept (by decide)).bind fun _ => .ite (fun _ => ?_) fun _ => ?_
  · refine h.assignment.bind fun _ => (traced_expect (by decide)).bind fun _ => ?_
    exact h.statement.bind fun _ => traced_close rfl start
  · refine (traced_expect (by decide)).bind fun _ => ?_
    refine (traced_unlessAt _ h.assignment).bind fun _ => ?_
    refine (traced_expect (by decide)).bind fun _ => ?_
    refine (traced_unlessAt _ h.assignment).bind fun _ => ?_
    refine (traced_expect (by decide)).bind fun _ => ?_
    exact h.statement.bind fun _ => traced_close rfl start

theorem traced_returnStatement :
    TracedFrom (fun s => s.kindAt 0 = .kwReturn) (returnStatement self) := by
  refine .look (fun _ => rfl) fun start => .advance_at (by decide) ?_
  have hend : ∀ value, Traced (do
      endStatement
      finish start (.returnStatement value)) := fun value =>
    traced_endStatement.bind fun _ => traced_finish rfl start
  refine traced_canEndStatement.bind fun _ => .ite (fun _ => hend none) fun _ => ?_
  exact h.assignment.bind fun value => hend (some value)

omit h in
theorem traced_wordStatement {k : TokenKind} (hk : k ≠ .kwElse) {form : Form}
    (hform : form.isFree = true) : TracedFrom (fun s => s.kindAt 0 = k) (wordStatement form) :=
  .look (fun _ => rfl) fun _ => .advance_at hk (traced_endStatement.bind fun _ =>
    traced_finish hform _)

omit h in
theorem traced_emptyStatement : TracedFrom (fun s => s.kindAt 0 = .semicolon) emptyStatement :=
  .look (fun _ => rfl) fun _ => .advance_at (by decide) (traced_finish rfl _)

theorem traced_expressionStatement : TracedFrom P (expressionStatement self) :=
  .look (fun _ => rfl) fun _ => h.assignment.anyway.bind fun _ => traced_endStatement.bind fun _ =>
    traced_finish rfl _

theorem traced_anyStatement : Traced (anyStatement self) := by
  refine .kind fun k => ?_
  split
  · exact traced_pure _
  · exact traced_pure _
  · exact traced_some h.traced_block
  · exact traced_some traced_emptyStatement
  · exact traced_some h.traced_ifStatement
  · exact traced_some h.traced_whileStatement
  · exact traced_some h.traced_forStatement
  · exact traced_some h.traced_returnStatement
  · exact traced_some (traced_wordStatement (by decide) rfl)
  · exact traced_some (traced_wordStatement (by decide) rfl)
  · exact .note (fun _ hs => hs) (traced_some traced_importDeclaration)
  · refine .look (fun _ => rfl) fun s => .ite (fun _ => h.traced_declaration) fun _ => ?_
    exact traced_some h.traced_expressionStatement

/-! ### Where statements begin

The node of a statement starts with the token that was at hand. -/

section

omit h

theorem begins_block : Begins (block self) :=
  .of_here fun _ => .bind fun _ => .bind fun _ => .bind fun _ => finishesAt_finish _

theorem begins_emptyStatement : Begins emptyStatement :=
  .of_here fun _ => .bind fun _ => finishesAt_finish _

theorem begins_ifStatement : Begins (ifStatement self) :=
  .of_here fun _ => .bind fun _ => .bind fun _ => .bind fun _ => .bind fun _ =>
    .ite (.bind fun _ => finishesAt_finish _) (finishesAt_finish _)

theorem begins_whileStatement : Begins (whileStatement self) :=
  .of_here fun _ => .bind fun _ => .bind fun _ => .bind fun _ => finishesAt_finish _

theorem begins_forStatement : Begins (forStatement self) := by
  refine .of_here fun _ => .bind fun _ => .bind fun _ => .bind fun _ => .bind fun _ => ?_
  refine .ite (.bind fun _ => .bind fun _ => .bind fun _ => finishesAt_finish _) ?_
  refine .bind fun _ => .bind fun _ => .bind fun _ => .bind fun _ => .bind fun _ => ?_
  exact .bind fun _ => finishesAt_finish _

theorem begins_returnStatement : Begins (returnStatement self) :=
  .of_here fun _ => .bind fun _ => .bind fun _ =>
    .ite (.bind fun _ => .bind fun _ => finishesAt_finish _)
      (.bind fun _ => .bind fun _ => .bind fun _ => finishesAt_finish _)

theorem begins_wordStatement (form : Form) : Begins (wordStatement form) :=
  .of_here fun _ => .bind fun _ => .bind fun _ => finishesAt_finish _

theorem begins_importDeclaration : Begins importDeclaration :=
  .of_here fun _ => .bind fun _ => .bind fun _ => .bind fun _ => .bind fun _ =>
    .ite (.bind fun _ => .bind fun _ => .bind fun _ => finishesAt_finish _)
      (.bind fun _ => .bind fun _ => .bind fun _ => finishesAt_finish _)

theorem begins_expressionStatement : Begins (expressionStatement self) :=
  .of_here fun _ => .bind fun _ => .bind fun _ => finishesAt_finish _

theorem finishesAt_functionDeclaration (start : Nat) (modifiers : Modifiers) :
    FinishesAt start (functionDeclaration self start modifiers) := by
  unfold functionDeclaration
  exact .bind fun _ => .bind fun _ => .bind fun _ => .bind fun _ => .bind fun _ =>
    finishesAt_finish _

theorem finishesAt_classDeclaration (start : Nat) (modifiers : Modifiers) :
    FinishesAt start (classDeclaration self start modifiers) := by
  unfold classDeclaration
  exact .bind fun _ => .bind fun _ => .bind fun _ => .bind fun _ => finishesAt_finish _

theorem finishesAt_interfaceDeclaration (start : Nat) (modifiers : Modifiers) :
    FinishesAt start (interfaceDeclaration self start modifiers) := by
  unfold interfaceDeclaration
  exact .bind fun _ => .bind fun _ => .bind fun _ => .bind fun _ => finishesAt_finish _

theorem finishesAt_typeAlias (start : Nat) (modifiers : Modifiers) :
    FinishesAt start (typeAlias self start modifiers) := by
  unfold typeAlias
  exact .bind fun _ => .bind fun _ => .bind fun _ => .bind fun _ => .bind fun _ =>
    finishesAt_finish _

theorem finishesAt_variableStatement (start : Nat) (modifiers : Modifiers)
    (kind : VariableKind) : FinishesAt start (variableStatement self start modifiers kind) := by
  unfold variableStatement
  exact .bind fun _ => .bind fun _ => .bind fun _ => finishesAt_finish _

theorem states_declaration {P : State → Prop} : StatesFrom P (declaration self) := by
  refine .of_here fun start => .bind fun modifiers => .bind fun k => ?_
  split
  · exact .some (finishesAt_functionDeclaration start modifiers)
  · exact .some (finishesAt_classDeclaration start modifiers)
  · exact .some (finishesAt_interfaceDeclaration start modifiers)
  · exact .some (finishesAt_typeAlias start modifiers)
  · refine .bind fun s => ?_
    split
    · exact .some (finishesAt_variableStatement start modifiers _)
    · exact statesAt_report _

theorem states_anyStatement : StatesFrom (fun _ => True) (anyStatement self) := by
  refine .kind fun k => ?_
  have hnone : ∀ {k : TokenKind}, closesBraces k = true →
      StatesFrom (fun s => s.kindAt 0 = k) (pure none) :=
    fun hk s hs => .nothing (hs ▸ hk) rfl rfl
  split
  · exact hnone rfl
  · exact hnone rfl
  · exact .some begins_block
  · exact .some begins_emptyStatement
  · exact .some begins_ifStatement
  · exact .some begins_whileStatement
  · exact .some begins_forStatement
  · exact .some begins_returnStatement
  · exact .some (begins_wordStatement _)
  · exact .some (begins_wordStatement _)
  · exact .note (.some begins_importDeclaration)
  · refine .get fun s => ?_
    split
    · exact states_declaration
    · exact .some begins_expressionStatement

end

theorem traced_statement : TracedStatement (Parsing.statement self) := by
  intro s hs
  refine ⟨traced_nested (P := fun _ => True) h.traced_anyStatement
    (traced_skip.bind fun _ => traced_pure _) s hs trivial, ?_⟩
  unfold Parsing.statement
  rw [nested_eq]
  split
  · exact .fault (report_faulty s _ _ _).advance
  · exact (states_anyStatement s.deeper trivial).up

end Tracers

/-! ## The recursion -/

theorem noProductions_trace : Tracers noProductions where
  statement s _ := ⟨.exhaust s, .fault (.inr rfl)⟩
  type := .exhaust traced_missingType
  assignment := .exhaust traced_missingName
  binary _ := .exhaust traced_missingName
  unary := .exhaust traced_missingName
  newExpression := .exhaust traced_missingName

/-- The rules of the grammar leave traces, however deeply they are nested. -/
theorem trace_productions (n : Nat) : Tracers (productions n) := by
  induction n with
  | zero => exact noProductions_trace
  | succ n ih =>
    exact
      { statement := ih.traced_statement
        type := ih.traced_type
        assignment := ih.traced_assignment
        binary := ih.traced_binary
        unary := ih.traced_unary
        newExpression := ih.traced_newExpression }

/-- All that is done with the tokens of a file leaves a trace. -/
theorem trace_parseTokens (tokens : List Token) : Trace (.start tokens) (parseTokens tokens).2 := by
  have hfile : Traced (file (productions (nestingBound tokens.length))) := by
    refine ((trace_productions _).traced_statementsUntil rfl).bind fun statements => ?_
    exact .look (fun _ => rfl) fun stop => traced_addNode rfl 0 _
  exact hfile (.start tokens) rfl trivial

end ScriptAnalysis.Parsing
