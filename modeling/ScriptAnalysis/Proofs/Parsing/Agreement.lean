import ScriptAnalysis.Proofs.Parsing.Alike
import ScriptAnalysis.Proofs.Parsing.Turns

/-!
# Two runs of the grammar

The rules of the grammar do the same on two lists of tokens that are the same
but for a line end at the end of the file. Each rule agrees if those agree that
it uses (`Agreeing`), which goes up the levels of nesting.

**The end of the file.** A member of an interface may end with a line. So at the
end of the file one of the two runs can report a missing separator and the other
not. The error for the closing brace is at the same place, where only the first
one is kept, and with it the runs are alike again. `Lagging` is the invariant in
between.

**Results.**
* `Agreeing.agrees_…`: a lemma for each rule.
* `productions_agreeing`: the rules with any number of nested uses, by induction.
* `parseTokens_alike`: whole files have the same tree.
-/
namespace ScriptAnalysis.Parsing

open Lexer

/-- The recursive rules of the grammar agree. -/
structure Agreeing (B : Nat → Prop) (rules : Productions) : Prop where
  statement : Agrees B rules.statement
  type : Agrees B rules.type
  assignment : Agrees B rules.assignment
  binary : ∀ least, Agrees B (rules.binary least)
  unary : Agrees B rules.unary
  newExpression : Agrees B rules.newExpression

variable {α : Type} {B : Nat → Prop}

/-! ## Parts of several rules -/

section

variable {x : Parser NodeId}

theorem agrees_some (hx : Agrees B x) : Agrees B (do return some (← x)) :=
  hx.bind fun _ => .pure _

theorem agrees_after (k : TokenKind) (hx : Agrees B x) : Agrees B (after k x) :=
  (agrees_accept k).bind fun _ => .ite (fun _ => agrees_some hx) fun _ => .pure _

theorem agrees_unlessAt (k : TokenKind) (hx : Agrees B x) : Agrees B (unlessAt k x) :=
  (agrees_isAt k).bind fun _ => .ite (fun _ => .pure _) fun _ => agrees_some hx

/-- Another turn with the items behind a comma, or the end. -/
theorem agrees_turn (items : List NodeId) : Agrees B (do
    if ← accept .comma then return .again items
    else return .done items : Parser (Turn (List NodeId))) :=
  (agrees_accept _).bind fun _ => .ite (fun _ => .pure _) fun _ => .pure _

theorem agrees_again {start : Nat} {form : Form} (hform : className? form = none) :
    Agrees B (do return .again (← finish start form) : Parser (Turn NodeId)) :=
  (agrees_finish hform).bind fun _ => .pure _

theorem agrees_commaSeparated (stops : TokenKind → Bool) (hx : Agrees B x) :
    Agrees B (commaSeparated stops x) := by
  refine agrees_iterate (fun items => ?_) []
  refine agrees_kind.bind fun k => .ite (fun _ => .pure _) fun _ => ?_
  exact hx.bind fun item => agrees_turn _

end

theorem agrees_memberModifiers : Agrees B memberModifiers := by
  refine agrees_iterate (fun modifiers => Agrees.get (fun s s' h => ?_) fun s => ?_) _
  · unfold State.memberModifier?
    rw [h.kindAt, h.kindAt]
  · split
    · exact .pure _
    · exact agrees_advance.bind fun _ => .pure _

theorem agrees_moduleSyntax :
    Agrees B (modify fun s => { s with moduleSyntax := true } : Parser PUnit) :=
  agrees_note (fun _ _ _ => rfl) fun _ => rfl

theorem agrees_declarationModifiers : Agrees B declarationModifiers := by
  refine agrees_iterate (fun modifiers => agrees_kind.bind fun k => ?_) _
  split
  · exact agrees_moduleSyntax.bind fun _ => agrees_advance.bind fun _ => .pure _
  · refine .get (fun s s' h => ?_) fun s => .ite (fun _ => ?_) fun _ => .pure _
    · rw [h.tokens.declarationWord_drop]
    · exact agrees_advance.bind fun _ => .pure _
  · exact .pure _

namespace Agreeing

variable {self : Productions} (h : Agreeing B self)

include h

theorem agrees_ascription : Agrees B (ascription self) :=
  agrees_after _ h.type

theorem agrees_initializer : Agrees B (initializer self) :=
  agrees_after _ h.assignment

theorem agrees_parameter : Agrees B (parameter self) := by
  refine agrees_here.bind fun _ => agrees_memberModifiers.bind fun _ => ?_
  refine agrees_bindingName.bind fun name => (agrees_accept _).bind fun _ => ?_
  refine h.agrees_ascription.bind fun ascription => ?_
  exact h.agrees_initializer.bind fun initializer => agrees_finish rfl

theorem agrees_parameters : Agrees B (parameters self) := by
  refine (agrees_expect _).bind fun _ => .ite (fun _ => ?_) fun _ => .pure _
  refine (agrees_commaSeparated _ h.agrees_parameter).bind fun ps => ?_
  exact (agrees_expect _).bind fun _ => .pure _

theorem agrees_statementsUntil (stops : TokenKind → Bool) :
    Agrees B (statementsUntil self stops) := by
  refine agrees_iterate (fun statements => ?_) []
  refine agrees_kind.bind fun _ => .ite (fun _ => .pure _) fun _ => ?_
  refine agrees_remaining.bind fun _ => h.statement.bind fun statement => ?_
  refine agrees_remaining.bind fun _ => .ite (fun _ => ?_) fun _ => .pure _
  exact (agrees_report _).bind fun _ => agrees_advance.bind fun _ => .pure _

theorem agrees_block : Agrees B (block self) := by
  refine agrees_here.bind fun _ => (agrees_expect _).bind fun _ => ?_
  refine (h.agrees_statementsUntil _).bind fun statements => ?_
  exact (agrees_expect _).bind fun _ => agrees_finish rfl

/-! ## Types -/

omit h in
theorem agrees_missingType : Agrees B missingType :=
  Runs.here fun _ hn => agrees_missingName.bind fun _ => agrees_addNode hn rfl

omit h in
theorem agrees_dottedName (first : NodeId) : Agrees B (dottedName first) := by
  refine agrees_iterate (fun name => ?_) first
  refine (agrees_accept _).bind fun _ => .ite (fun _ => ?_) fun _ => .pure _
  exact agrees_propertyName.bind fun _ => .pure _

omit h in
theorem agrees_typeReference : Agrees B typeReference := by
  refine agrees_here.bind fun _ => agrees_wordAsName.bind fun first => ?_
  exact (agrees_dottedName first).bind fun name => agrees_finish rfl

theorem agrees_functionType : Agrees B (functionType self) := by
  refine agrees_here.bind fun _ => h.agrees_parameters.bind fun ps => ?_
  exact (agrees_expect _).bind fun _ => h.type.bind fun result => agrees_finish rfl

theorem agrees_parenthesizedType : Agrees B (parenthesizedType self) := by
  refine agrees_here.bind fun _ => agrees_advance.bind fun _ => h.type.bind fun inner => ?_
  exact (agrees_expect _).bind fun _ => agrees_finish rfl

omit h in
theorem agrees_literalType {x : Parser NodeId} (hx : Agrees B x) : Agrees B (do
    let start ← here
    let literal ← x
    finish start (.literalType literal)) :=
  agrees_here.bind fun _ => hx.bind fun _ => agrees_finish rfl

theorem agrees_primaryType : Agrees B (primaryType self) := by
  refine agrees_kind.bind fun k => ?_
  split
  case h_10 | h_11 => exact agrees_literalType agrees_keywordNode
  case h_12 | h_13 => exact agrees_literalType agrees_literal
  case h_14 =>
    refine .get (fun s s' hs => ?_) fun _ =>
      .ite (fun _ => h.agrees_functionType) fun _ => h.agrees_parenthesizedType
    unfold State.startsFunctionType
    simp only [hs.kindAt]
  case h_15 =>
    exact .ite (fun _ => agrees_typeReference) fun _ =>
      (agrees_report _).bind fun _ => agrees_missingType
  all_goals exact agrees_keywordNode

/-- A line end matters only behind a token that is not the last. -/
theorem agrees_arrayType : Agrees B (arrayType self) := by
  refine agrees_here.bind fun start => h.agrees_primaryType.bind fun first => ?_
  refine agrees_iterate (fun element => ?_) first
  show Agrees B (do
    let k ← kind
    let next ← ahead 1
    let crossed ← afterBreak
    if (k == .openBracket && next == .closeBracket) && !crossed then
      advance
      advance
      return Turn.again (← finish start (.arrayType element))
    else return Turn.done element)
  refine Runs.kind fun k => ?_
  refine Runs.bind (.look (fun _ => rfl) fun s s' hs => hs.1.kindAt 1) fun next => ?_
  refine runs_unlessBreak (p := k == .openBracket && next == .closeBracket) ?_ ?_ (.pure _)
  · rintro hk rfl
    cases hk
  · exact agrees_advance.bind fun _ => agrees_advance.bind fun _ => agrees_again rfl

theorem agrees_unionType : Agrees B (unionType self) := by
  refine agrees_here.bind fun _ => (agrees_accept _).bind fun leading => ?_
  refine h.agrees_arrayType.bind fun first => (agrees_isAt _).bind fun _ => ?_
  refine .ite (fun _ => .pure _) fun _ => ?_
  refine (agrees_iterate (fun members => ?_) [first]).bind fun members => ?_
  · refine (agrees_accept _).bind fun _ => .ite (fun _ => ?_) fun _ => .pure _
    exact h.agrees_arrayType.bind fun member => .pure _
  · exact .ite (fun _ => .pure _) fun _ => agrees_finish rfl

theorem agrees_type : Agrees B (Parsing.type self) :=
  agrees_nested h.agrees_unionType agrees_missingType

/-! ## Expressions -/

theorem agrees_arrayLiteral : Agrees B (arrayLiteral self) := by
  refine agrees_here.bind fun _ => agrees_advance.bind fun _ => ?_
  refine (agrees_commaSeparated _ h.assignment).bind fun elements => ?_
  exact (agrees_expect _).bind fun _ => agrees_finish rfl

theorem agrees_propertyAssignment : Agrees B (propertyAssignment self) := by
  refine agrees_here.bind fun _ => agrees_propertyName.bind fun name => ?_
  exact (agrees_after _ h.assignment).bind fun value => agrees_finish rfl

theorem agrees_objectLiteral : Agrees B (objectLiteral self) := by
  refine agrees_here.bind fun _ => agrees_advance.bind fun _ => ?_
  refine (agrees_commaSeparated _ h.agrees_propertyAssignment).bind fun properties => ?_
  exact (agrees_expect _).bind fun _ => agrees_finish rfl

theorem agrees_parenthesized : Agrees B (parenthesized self) := by
  refine agrees_here.bind fun _ => agrees_advance.bind fun _ => ?_
  exact h.assignment.bind fun _ => (agrees_expect _).bind fun _ => agrees_finish rfl

omit h in
theorem agrees_missingExpression : Agrees B missingExpression := by
  refine (agrees_report _).bind fun _ => agrees_missingName.bind fun missing => ?_
  refine agrees_kind.bind fun _ => .ite (fun _ => .pure _) fun _ => ?_
  exact agrees_advance.bind fun _ => .pure _

theorem agrees_primaryExpression : Agrees B (primaryExpression self) := by
  refine agrees_kind.bind fun k => ?_
  split
  case h_1 | h_2 => exact agrees_literal
  case h_8 => exact h.agrees_parenthesized
  case h_9 => exact h.agrees_arrayLiteral
  case h_10 => exact h.agrees_objectLiteral
  case h_11 => exact .ite (fun _ => agrees_wordAsName) fun _ => agrees_missingExpression
  all_goals exact agrees_keywordNode

theorem agrees_arguments : Agrees B (arguments self) := by
  refine (agrees_expect _).bind fun _ => ?_
  refine (agrees_commaSeparated _ h.assignment).bind fun values => ?_
  exact (agrees_expect _).bind fun _ => .pure _

theorem agrees_suffixes (start : Nat) (allowCalls : Bool) (expression : NodeId) :
    Agrees B (suffixes self start allowCalls expression) := by
  refine agrees_iterate (fun expression => agrees_kind.bind fun k => ?_) expression
  split
  · exact agrees_advance.bind fun _ => agrees_propertyName.bind fun name => agrees_again rfl
  · refine agrees_advance.bind fun _ => h.assignment.bind fun index => ?_
    exact (agrees_expect _).bind fun _ => agrees_again rfl
  · refine .ite (fun _ => ?_) fun _ => .pure _
    exact h.agrees_arguments.bind fun values => agrees_again rfl
  · exact .pure _

theorem agrees_newOrPrimary : Agrees B (newOrPrimary self) :=
  (agrees_isAt _).bind fun _ =>
    .ite (fun _ => h.newExpression) fun _ => h.agrees_primaryExpression

theorem agrees_newExpression : Agrees B (Parsing.newExpression self) := by
  refine agrees_here.bind fun _ => agrees_advance.bind fun _ => ?_
  refine agrees_here.bind fun calleeStart => ?_
  refine h.agrees_newOrPrimary.bind fun first => ?_
  refine (h.agrees_suffixes calleeStart false first).bind fun callee => ?_
  refine (agrees_isAt _).bind fun _ => .ite (fun _ => ?_) fun _ => ?_
  · exact h.agrees_arguments.bind fun values => agrees_finish rfl
  · exact agrees_finish rfl

theorem agrees_leftHandSide : Agrees B (leftHandSide self) :=
  agrees_here.bind fun start => h.agrees_newOrPrimary.bind fun first =>
    h.agrees_suffixes start true first

theorem agrees_prefixed (operator : TokenKind) : Agrees B (prefixed self operator) :=
  agrees_here.bind fun _ => agrees_advance.bind fun _ => h.unary.bind fun _ => agrees_finish rfl

theorem agrees_postfixed : Agrees B (postfixed self) := by
  refine agrees_here.bind fun start => h.agrees_leftHandSide.bind fun operand => ?_
  refine Runs.kind fun operator => ?_
  refine runs_unlessBreak (p := operator == .plusPlus || operator == .minusMinus) ?_ ?_ (.pure _)
  · rintro hk rfl
    cases hk
  · exact agrees_advance.bind fun _ => agrees_finish rfl

theorem agrees_unary : Agrees B (Parsing.unary self) := by
  refine agrees_kind.bind fun k => ?_
  split
  case h_6 =>
    refine agrees_here.bind fun _ => agrees_advance.bind fun _ => ?_
    exact h.unary.bind fun _ => agrees_finish rfl
  case h_7 => exact h.agrees_postfixed
  all_goals exact h.agrees_prefixed _

theorem agrees_binary (least : Nat) : Agrees B (Parsing.binary self least) := by
  refine agrees_here.bind fun start => h.unary.bind fun first => ?_
  refine agrees_iterate (fun left => ?_) first
  refine Runs.kind fun operator => .ite (fun _ => (Agrees.pure _).under _) fun _ => ?_
  refine .ite (fun has => ?_) fun _ => ?_
  · refine Runs.bind (runs_afterBreak ?_) fun _ => .ite (fun _ => Agrees.pure _) fun _ => ?_
    · rintro rfl
      cases has
    · exact agrees_advance.bind fun _ => h.type.bind fun type => agrees_again rfl
  · refine (agrees_advance.bind fun _ => (h.binary _).bind fun right => ?_).under _
    exact agrees_again rfl

/-! ### Arrow functions and assignments -/

omit h in
theorem agrees_simpleParameter : Agrees B simpleParameter :=
  agrees_here.bind fun _ => agrees_wordAsName.bind fun _ => agrees_finish rfl

theorem agrees_arrowHead (simple : Bool) : Agrees B (arrowHead self simple) := by
  have hrest : ∀ ps : List NodeId, Agrees B (do
      let result ← Parsing.ascription self
      if ← accept .arrow then return some (ps, result)
      else return none) := by
    intro ps
    refine h.agrees_ascription.bind fun result => (agrees_accept _).bind fun _ => ?_
    exact .ite (fun _ => .pure _) fun _ => .pure _
  unfold arrowHead
  refine .ite (fun _ => ?_) fun _ => ?_
  · exact agrees_simpleParameter.bind fun p => hrest [p]
  · exact h.agrees_parameters.bind fun ps => hrest ps

theorem agrees_arrowFunction : Agrees B (arrowFunction self) := by
  refine .get (fun s s' hs => ?_) fun s => ?_
  · unfold State.startsSimpleArrow
    rw [hs.kindAt, hs.kindAt, hs.tokens.arrowFollows]
  extract_lets simple
  refine .ite (fun _ => ?_) fun _ => .pure _
  refine agrees_here.bind fun start => ?_
  refine (agrees_attempt (h.agrees_arrowHead simple)).bind fun r => ?_
  cases r with
  | none => exact .pure _
  | some head =>
    obtain ⟨ps, result⟩ := head
    have hrest : ∀ {x : Parser NodeId}, Agrees B x → Agrees B (do
        let body ← x
        return some (← finish start (.function .arrow
          { modifiers := .none, name := none, parameters := ps, returnType := result,
            body := some body }))) := fun hx =>
      hx.bind fun body => agrees_some (agrees_finish rfl)
    refine (agrees_isAt _).bind fun _ => .ite (fun _ => ?_) fun _ => ?_
    · exact hrest h.agrees_block
    · exact hrest h.assignment

theorem agrees_assignmentOrTighter : Agrees B (assignmentOrTighter self) := by
  refine agrees_here.bind fun _ => (h.binary 0).bind fun left => ?_
  refine agrees_kind.bind fun operator => .get (fun s s' hs => ?_) fun s => ?_
  · rw [hs.arena]
  refine .ite (fun _ => ?_) fun _ => ?_
  · exact agrees_advance.bind fun _ => h.assignment.bind fun right => agrees_finish rfl
  · refine (agrees_accept _).bind fun _ => .ite (fun _ => ?_) fun _ => .pure _
    refine h.assignment.bind fun whenTrue => (agrees_expect _).bind fun _ => ?_
    exact h.assignment.bind fun whenFalse => agrees_finish rfl

theorem agrees_assignment : Agrees B (Parsing.assignment self) := by
  refine agrees_nested (h.agrees_arrowFunction.bind fun r => ?_) agrees_missingName
  cases r with
  | some arrow => exact .pure _
  | none => exact h.agrees_assignmentOrTighter

/-! ## Declarations -/

theorem agrees_variableDeclaration (kind : VariableKind) :
    Agrees B (variableDeclaration self kind) := by
  refine agrees_here.bind fun _ => agrees_bindingName.bind fun name => ?_
  refine h.agrees_ascription.bind fun ascription => ?_
  exact h.agrees_initializer.bind fun initializer => agrees_finish rfl

theorem agrees_variableDeclarations (kind : VariableKind) (inHead : Bool) :
    Agrees B (variableDeclarations self kind inHead) := by
  refine agrees_iterate (fun declarations => ?_) []
  refine (h.agrees_variableDeclaration kind).bind fun declaration => ?_
  exact (agrees_isAt _).bind fun _ => .ite (fun _ => .pure _) fun _ => agrees_turn _

theorem agrees_variableStatement (start : Nat) (modifiers : Modifiers) (kind : VariableKind) :
    Agrees B (variableStatement self start modifiers kind) := by
  refine agrees_advance.bind fun _ => ?_
  refine (h.agrees_variableDeclarations kind false).bind fun declarations => ?_
  exact agrees_endStatement.bind fun _ => agrees_finish rfl

theorem agrees_functionBody : Agrees B (functionBody self) :=
  (agrees_isAt _).bind fun _ => .ite (fun _ => agrees_some h.agrees_block) fun _ =>
    agrees_endStatement.bind fun _ => .pure _

theorem agrees_functionDeclaration (start : Nat) (modifiers : Modifiers) :
    Agrees B (functionDeclaration self start modifiers) := by
  refine agrees_advance.bind fun _ => agrees_bindingName.bind fun name => ?_
  refine h.agrees_parameters.bind fun ps => h.agrees_ascription.bind fun result => ?_
  exact h.agrees_functionBody.bind fun body => agrees_finish rfl

/-! ### Classes -/

omit h in
theorem agrees_heritageType : Agrees B heritageType := by
  refine agrees_here.bind fun _ => agrees_bindingName.bind fun first => ?_
  exact (agrees_dottedName first).bind fun name => agrees_finish rfl

theorem agrees_constructorMember (start : Nat) (modifiers : Modifiers) :
    Agrees B (constructorMember self start modifiers) := by
  refine agrees_wordAsName.bind fun name => h.agrees_parameters.bind fun ps => ?_
  exact h.agrees_functionBody.bind fun body => agrees_finish rfl

theorem agrees_namedMember (start : Nat) (modifiers : Modifiers) :
    Agrees B (namedMember self start modifiers) := by
  refine agrees_propertyName.bind fun name => (agrees_accept _).bind fun optional => ?_
  refine (agrees_isAt _).bind fun _ => .ite (fun _ => ?_) fun _ => ?_
  · refine h.agrees_parameters.bind fun ps => h.agrees_ascription.bind fun result => ?_
    exact h.agrees_functionBody.bind fun body => agrees_finish rfl
  · refine h.agrees_ascription.bind fun ascription => ?_
    refine h.agrees_initializer.bind fun initializer => ?_
    exact agrees_endStatement.bind fun _ => agrees_finish rfl

theorem agrees_classMember : Agrees B (classMember self) := by
  refine agrees_here.bind fun start => agrees_memberModifiers.bind fun modifiers => ?_
  refine (agrees_isAt _).bind fun _ => (agrees_ahead _).bind fun _ => ?_
  exact .ite (fun _ => h.agrees_constructorMember start modifiers) fun _ =>
    h.agrees_namedMember start modifiers

theorem agrees_classMembers : Agrees B (classMembers self) := by
  refine (agrees_expect _).bind fun _ => .ite (fun _ => ?_) fun _ => .pure _
  refine (agrees_iterate (fun members => ?_) []).bind fun members =>
    (agrees_expect _).bind fun _ => .pure _
  refine agrees_kind.bind fun _ => .ite (fun _ => .pure _) fun _ => ?_
  refine (agrees_accept _).bind fun _ => .ite (fun _ => .pure _) fun _ => ?_
  refine agrees_remaining.bind fun _ => h.agrees_classMember.bind fun member => ?_
  refine agrees_remaining.bind fun _ => .ite (fun _ => ?_) fun _ => .pure _
  exact (agrees_report _).bind fun _ => agrees_advance.bind fun _ => .pure _

/-- A class keeps the name that it starts with. -/
theorem agrees_classDeclaration (start : Nat) (modifiers : Modifiers) :
    Agrees B (classDeclaration self start modifiers) := by
  refine agrees_advance.bind fun _ => Runs.bind runs_bindingName fun name => ?_
  have hkeep {α : Type} {x : Parser α} (hx : Agrees B x) := hx.keep (K := fun s =>
    s.errors.size = 0 → Named s.arena name) fun s t hgrows hs hnone =>
      (hs (Nat.le_zero.1 (hnone ▸ hgrows.errors))).kept hgrows.arena
  refine Runs.bind (hkeep (agrees_after _ agrees_heritageType)) fun heritage => ?_
  refine Runs.bind (hkeep h.agrees_classMembers) fun members => ?_
  refine runs_finish.weaken fun s s' hs => ⟨hs.1, fun hnone id hid => ?_⟩
  cases hid
  exact hs.2 hnone

/-! ### Interfaces and aliases -/

theorem agrees_typeMember : Agrees B (typeMember self) := by
  have hrest : ∀ (start : Nat) (modifiers : Modifiers), Agrees B (do
      let name ← propertyName
      let optional ← accept .question
      if ← isAt .openParen then
        let parameters ← parameters self
        let returnType ← ascription self
        finish start (.function .methodSignature
          { modifiers, name := some name, parameters, returnType, body := none })
      else
        let ascription ← ascription self
        finish start (.propertySignature
          { modifiers, name, optional, ascription, initializer := none })) := by
    intro start modifiers
    refine agrees_propertyName.bind fun name => (agrees_accept _).bind fun optional => ?_
    refine (agrees_isAt _).bind fun _ => .ite (fun _ => ?_) fun _ => ?_
    · refine h.agrees_parameters.bind fun ps => ?_
      exact h.agrees_ascription.bind fun result => agrees_finish rfl
    · exact h.agrees_ascription.bind fun ascription => agrees_finish rfl
  refine agrees_here.bind fun start => (agrees_isAt _).bind fun _ => ?_
  refine (agrees_ahead _).bind fun _ => ?_
  refine .ite (fun _ => ?_) fun _ => (Agrees.pure _).bind (hrest start)
  exact agrees_advance.bind fun _ => (Agrees.pure _).bind (hrest start)

/-! The end of an interface that the end of the file cuts off is reported where
its last member should be separated, or where its brace should be closed. -/

/-- The states are alike, but the first run may have reported the end of the
file and the second not yet. -/
def Lagging (B : Nat → Prop) (s s' : State) : Prop :=
  Alike B s s' ∨ ∃ t length p, Alike B t s' ∧ t.kindAt 0 = .endOfFile ∧
    s = t.report (t.tokenAt 0).start length p

omit h in
theorem report_rest (s : State) (start length : Nat) (p : Problem) :
    (s.report start length p).rest = s.rest ∧
      (s.report start length p).remaining = s.remaining := by
  unfold State.report
  split <;> exact ⟨rfl, rfl⟩

omit h in
theorem Lagging.remaining {s s' : State} (hs : Lagging B s s') : s'.remaining = s.remaining := by
  rcases hs with hs | ⟨t, length, p, hs, hend, rfl⟩
  · exact hs.remaining
  · rw [hs.remaining, (report_rest t _ length p).2]

omit h in
theorem report_report (s : State) (start length length' : Nat) (p p' : Problem) :
    (s.report start length p).report start length' p' = s.report start length p := by
  have hlast : (s.report start length p).lastError = some start := by
    unfold State.report
    split
    · assumption
    · rfl
  rw [State.report, if_pos hlast]

omit h in
theorem advance_last {s : State} (hs : s.kindAt 0 = .endOfFile) : s.advance = s := by
  unfold State.kindAt State.tokenAt at hs
  unfold State.advance
  split
  · rfl
  · rename_i t ts hrest
    rw [hrest] at hs
    exact if_pos hs

omit h in
theorem kindAt_report (s : State) (start length : Nat) (p : Problem) (n : Nat) :
    (s.report start length p).kindAt n = s.kindAt n := by
  unfold State.kindAt State.tokenAt
  rw [(report_rest s start length p).1]

omit h in
theorem runs_advance_lagging : Runs (Lagging B) advance fun _ => Lagging B := by
  rintro s s' (hs | ⟨t, length, p, hs, hend, rfl⟩)
  · obtain ⟨hresult, hnext, hgrows⟩ := agrees_advance s s' hs
    exact ⟨hresult, .inl hnext, hgrows⟩
  · have hkind := (kindAt_report t (t.tokenAt 0).start length p 0).trans hend
    have hkind' := (hs.kindAt 0).trans hend
    show () = () ∧ Lagging B (State.advance _) s'.advance ∧ Grows _ (State.advance _)
    rw [advance_last hkind, advance_last hkind']
    exact ⟨rfl, .inr ⟨t, length, p, hs, hend, rfl⟩, .refl _⟩

omit h in
theorem exhausted_report (s : State) (start length : Nat) (p : Problem) :
    { s.report start length p with exhausted := true } =
      { s with exhausted := true }.report start length p := by
  by_cases hlast : s.lastError = some start
  · rw [State.report, if_pos hlast, State.report, if_pos hlast]
  · rw [State.report, if_neg hlast, State.report, if_neg hlast]

omit h in
theorem runs_exhaust_lagging : Runs (Lagging B) exhaust fun _ => Lagging B := by
  rintro s s' (hs | ⟨t, length, p, hs, hend, rfl⟩)
  · obtain ⟨hresult, hnext, hgrows⟩ := agrees_exhaust s s' hs
    exact ⟨hresult, .inl hnext, hgrows⟩
  · obtain ⟨-, hnext, -⟩ := agrees_exhaust t s' hs
    refine ⟨rfl, .inr ⟨{ t with exhausted := true }, length, p, hnext, hend, ?_⟩, ?_⟩
    · exact exhausted_report t (t.tokenAt 0).start length p
    · exact .of_arena rfl (Nat.le_refl _)

omit h in
theorem runs_memberSeparator : Runs (Alike B) memberSeparator fun _ => Lagging B := by
  have hdone : Runs (Alike B) (Pure.pure () : Parser Unit) fun _ => Lagging B :=
    .pure fun _ _ => .inl
  refine Runs.bind (agrees_accept _) fun _ => .ite (fun _ => hdone) fun _ => ?_
  refine Runs.bind (agrees_accept _) fun _ => .ite (fun _ => hdone) fun _ => ?_
  refine Runs.bind (agrees_isAt _) fun _ => .ite (fun _ => hdone) fun _ => ?_
  intro s s' h
  let p : Problem := .tokenExpected ";"
  show ((if (s'.tokenAt 0).afterBreak then Pure.pure () else report p : Parser Unit) s').1 =
      ((if (s.tokenAt 0).afterBreak then Pure.pure () else report p : Parser Unit) s).1 ∧
    Lagging B ((if (s.tokenAt 0).afterBreak then Pure.pure () else report p : Parser Unit) s).2
      ((if (s'.tokenAt 0).afterBreak then Pure.pure () else report p : Parser Unit) s').2 ∧
    Grows s ((if (s.tokenAt 0).afterBreak then Pure.pure () else report p : Parser Unit) s).2
  cases hbreak : (s.tokenAt 0).afterBreak with
  | true =>
    rw [show (s'.tokenAt 0).afterBreak = true from h.tokens.afterBreak hbreak]
    exact ⟨rfl, .inl h, .refl s⟩
  | false =>
    cases hbreak' : (s'.tokenAt 0).afterBreak with
    | false =>
      obtain ⟨hresult, hnext, hgrows⟩ := agrees_report p s s' h
      exact ⟨hresult, .inl hnext, hgrows⟩
    | true =>
      -- only the end of the file can differ so
      have hend : s.kindAt 0 = .endOfFile := by
        by_contra hkind
        rw [h.token_eq hkind, hbreak] at hbreak'
        cases hbreak'
      exact ⟨rfl, .inr ⟨s, _, p, h, hend, rfl⟩, grows_report s _ _ p⟩

theorem runs_typeMembersTurn (members : List NodeId) :
    Runs (Lagging B) (typeMembersTurn self members) fun _ => Lagging B := by
  rintro s s' (hs | ⟨t, length, p, hs, hend, rfl⟩)
  · have hturn : Runs (Alike B) (typeMembersTurn self members) fun _ => Lagging B := by
      refine Runs.bind agrees_kind fun _ => .ite (fun _ => .pure fun _ _ hs => .inl hs) fun _ => ?_
      refine Runs.bind agrees_remaining fun _ => Runs.bind h.agrees_typeMember fun member => ?_
      refine Runs.bind runs_memberSeparator fun _ => ?_
      refine Runs.bind (.look (fun _ => rfl) fun _ _ hs => hs.remaining) fun _ => ?_
      refine .ite (fun _ => ?_) fun _ => .pure fun _ _ hs => hs
      exact runs_advance_lagging.bind fun _ => .pure fun _ _ hs => hs
    exact hturn s s' hs
  · -- the end of the file is no member
    have hdone {s : State} (hkind : s.kindAt 0 = .endOfFile) :
        typeMembersTurn self members s = (.done members, s) := by
      show ((if closesBraces (s.kindAt 0) then _ else _ : Parser (Turn (List NodeId))) s) = _
      rw [hkind]
      rfl
    rw [hdone ((kindAt_report t _ length p 0).trans hend), hdone ((hs.kindAt 0).trans hend)]
    exact ⟨rfl, .inr ⟨t, length, p, hs, hend, rfl⟩, .refl _⟩

omit h in
theorem expect_missing {s : State} {k : TokenKind} (hk : (s.kindAt 0 == k) = false) :
    expect k s = (false, s.report (s.tokenAt 0).start
      ((s.tokenAt 0).stop - (s.tokenAt 0).start) (.tokenExpected k.text)) := by
  have haccept : accept k s = (false, s) := by
    show ((if (s.kindAt 0 == k) = true then _ else _ : Parser Bool) s) = _
    rw [hk]
    rfl
  show ((if (accept k s).1 = true then _ else _ : Parser Bool) (accept k s).2) = _
  rw [haccept]
  rfl

omit h in
theorem runs_closeBrace : Runs (Lagging B) (expect .closeBrace) fun _ => Alike B := by
  rintro s s' (h | ⟨t, length, p, h, hend, rfl⟩)
  · exact agrees_expect _ s s' h
  · have hkind := (kindAt_report t (t.tokenAt 0).start length p 0).trans hend
    have hkind' := (h.kindAt 0).trans hend
    obtain ⟨crossed, ht⟩ := h.tokenAt 0
    have htoken : (t.report (t.tokenAt 0).start length p).tokenAt 0 = t.tokenAt 0 := by
      unfold State.tokenAt
      rw [(report_rest t _ _ p).1]
    rw [expect_missing (by rw [hkind']; rfl), expect_missing (by rw [hkind]; rfl), htoken, ht,
      report_report]
    exact ⟨rfl, h.report _ _ _ _ _, .refl _⟩

theorem agrees_typeMembers : Agrees B (typeMembers self) := by
  refine (agrees_expect _).bind fun _ => .ite (fun _ => ?_) fun _ => .pure _
  have hmembers := runs_iterate (fun _ _ => Lagging.remaining) runs_exhaust_lagging
    h.runs_typeMembersTurn []
  refine Runs.bind (hmembers.weaken fun _ _ => .inl) fun members => ?_
  exact Runs.bind runs_closeBrace fun _ => Agrees.pure _

omit h in
theorem agrees_heritageTypes : Agrees B heritageTypes := by
  refine (agrees_accept _).bind fun _ => .ite (fun _ => ?_) fun _ => .pure _
  refine agrees_iterate (fun types => ?_) []
  exact agrees_heritageType.bind fun type => agrees_turn _

theorem agrees_interfaceDeclaration (start : Nat) (modifiers : Modifiers) :
    Agrees B (interfaceDeclaration self start modifiers) := by
  refine agrees_advance.bind fun _ => agrees_bindingName.bind fun name => ?_
  refine agrees_heritageTypes.bind fun heritage => ?_
  exact h.agrees_typeMembers.bind fun members => agrees_finish rfl

theorem agrees_typeAlias (start : Nat) (modifiers : Modifiers) :
    Agrees B (typeAlias self start modifiers) := by
  refine agrees_advance.bind fun _ => agrees_bindingName.bind fun name => ?_
  refine (agrees_expect _).bind fun _ => h.type.bind fun aliased => ?_
  exact agrees_endStatement.bind fun _ => agrees_finish rfl

/-! ### Imports -/

omit h in
theorem agrees_importSpecifier : Agrees B importSpecifier := by
  refine agrees_here.bind fun _ => agrees_propertyName.bind fun first => ?_
  refine (agrees_accept _).bind fun _ => .ite (fun _ => ?_) fun _ => agrees_finish rfl
  exact agrees_bindingName.bind fun name => agrees_finish rfl

omit h in
theorem agrees_importSpecifiers : Agrees B importSpecifiers := by
  refine (agrees_expect _).bind fun _ => .ite (fun _ => ?_) fun _ => .pure _
  refine (agrees_commaSeparated _ agrees_importSpecifier).bind fun specifiers => ?_
  exact (agrees_expect _).bind fun _ => .pure _

omit h in
theorem agrees_importDeclaration : Agrees B importDeclaration := by
  have hrest : ∀ (start : Nat) (specifiers : List NodeId) (source : Option NodeId), Agrees B (do
      endStatement
      finish start (.importDeclaration specifiers source)) := fun _ _ _ =>
    agrees_endStatement.bind fun _ => agrees_finish rfl
  refine agrees_here.bind fun start => agrees_advance.bind fun _ => ?_
  refine agrees_importSpecifiers.bind fun specifiers => (agrees_expect _).bind fun _ => ?_
  refine (agrees_isAt _).bind fun _ => .ite (fun _ => ?_) fun _ => ?_
  · exact agrees_literal.bind fun source => hrest _ _ _
  · exact (agrees_report _).bind fun _ => hrest _ _ _

theorem agrees_declaration : Agrees B (declaration self) := by
  refine agrees_here.bind fun start => agrees_declarationModifiers.bind fun modifiers => ?_
  refine agrees_kind.bind fun k => ?_
  split
  · exact agrees_some (h.agrees_functionDeclaration start modifiers)
  · exact agrees_some (h.agrees_classDeclaration start modifiers)
  · exact agrees_some (h.agrees_interfaceDeclaration start modifiers)
  · exact agrees_some (h.agrees_typeAlias start modifiers)
  · refine .get (fun s s' hs => ?_) fun s => ?_
    · rw [hs.variableKind?]
    · split
      · exact agrees_some (h.agrees_variableStatement start modifiers _)
      · exact (agrees_report _).bind fun _ => .pure _

/-! ## Statements -/

theorem agrees_condition : Agrees B (condition self) := by
  refine (agrees_expect _).bind fun _ => h.assignment.bind fun expression => ?_
  exact (agrees_expect _).bind fun _ => .pure _

theorem agrees_ifStatement : Agrees B (ifStatement self) := by
  refine agrees_here.bind fun _ => agrees_advance.bind fun _ => ?_
  refine h.agrees_condition.bind fun condition => ?_
  refine h.statement.bind fun thenBranch => (agrees_accept _).bind fun _ => ?_
  refine .ite (fun _ => ?_) fun _ => agrees_finish rfl
  exact h.statement.bind fun elseBranch => agrees_finish rfl

theorem agrees_whileStatement : Agrees B (whileStatement self) := by
  refine agrees_here.bind fun _ => agrees_advance.bind fun _ => ?_
  refine h.agrees_condition.bind fun condition => ?_
  exact h.statement.bind fun body => agrees_finish rfl

theorem agrees_forInitializer : Agrees B (forInitializer self) := by
  refine (agrees_isAt _).bind fun _ => .ite (fun _ => .pure _) fun _ => ?_
  refine .get (fun s s' hs => ?_) fun s => ?_
  · rw [hs.variableKind?]
  split
  · refine agrees_here.bind fun _ => agrees_advance.bind fun _ => ?_
    refine (h.agrees_variableDeclarations _ true).bind fun declarations => ?_
    exact agrees_some (agrees_finish rfl)
  · exact agrees_some h.assignment

theorem agrees_forStatement : Agrees B (forStatement self) := by
  refine agrees_here.bind fun _ => agrees_advance.bind fun _ => (agrees_expect _).bind fun _ => ?_
  refine h.agrees_forInitializer.bind fun initializer => ?_
  refine (agrees_accept _).bind fun _ => .ite (fun _ => ?_) fun _ => ?_
  · refine h.assignment.bind fun iterated => (agrees_expect _).bind fun _ => ?_
    exact h.statement.bind fun body => agrees_finish rfl
  · refine (agrees_expect _).bind fun _ => ?_
    refine (agrees_unlessAt _ h.assignment).bind fun condition => (agrees_expect _).bind fun _ => ?_
    refine (agrees_unlessAt _ h.assignment).bind fun increment => (agrees_expect _).bind fun _ => ?_
    exact h.statement.bind fun body => agrees_finish rfl

theorem agrees_returnStatement : Agrees B (returnStatement self) := by
  have hrest : ∀ (start : Nat) (expression : Option NodeId), Agrees B (do
      endStatement
      finish start (.returnStatement expression)) := fun _ _ =>
    agrees_endStatement.bind fun _ => agrees_finish rfl
  refine agrees_here.bind fun _ => agrees_advance.bind fun _ => ?_
  refine agrees_canEndStatement.bind fun _ => ?_
  refine .ite (fun _ => hrest _ _) fun _ => h.assignment.bind fun expression => hrest _ _

omit h in
theorem agrees_wordStatement {form : Form} (hform : className? form = none) :
    Agrees B (wordStatement form) :=
  agrees_here.bind fun _ => agrees_advance.bind fun _ => agrees_endStatement.bind fun _ =>
    agrees_finish hform

omit h in
theorem agrees_emptyStatement : Agrees B emptyStatement :=
  agrees_here.bind fun _ => agrees_advance.bind fun _ => agrees_finish rfl

theorem agrees_expressionStatement : Agrees B (expressionStatement self) := by
  refine agrees_here.bind fun _ => h.assignment.bind fun expression => ?_
  exact agrees_endStatement.bind fun _ => agrees_finish rfl

theorem agrees_anyStatement : Agrees B (anyStatement self) := by
  refine agrees_kind.bind fun k => ?_
  split
  · exact .pure _
  · exact .pure _
  · exact agrees_some h.agrees_block
  · exact agrees_some agrees_emptyStatement
  · exact agrees_some h.agrees_ifStatement
  · exact agrees_some h.agrees_whileStatement
  · exact agrees_some h.agrees_forStatement
  · exact agrees_some h.agrees_returnStatement
  · exact agrees_some (agrees_wordStatement rfl)
  · exact agrees_some (agrees_wordStatement rfl)
  · exact agrees_moduleSyntax.bind fun _ => agrees_some agrees_importDeclaration
  · refine .get (fun s s' hs => ?_) fun s => .ite (fun _ => h.agrees_declaration) fun _ => ?_
    · rw [hs.tokens.startsDeclaration]
    · exact agrees_some h.agrees_expressionStatement

theorem agrees_statement : Agrees B (Parsing.statement self) :=
  agrees_nested h.agrees_anyStatement (agrees_advance.bind fun _ => .pure _)

end Agreeing

/-! ## The recursion -/

theorem noProductions_agreeing : Agreeing B noProductions where
  statement := agrees_exhaust.bind fun _ => .pure _
  type := agrees_exhaust.bind fun _ => Agreeing.agrees_missingType
  assignment := agrees_exhaust.bind fun _ => agrees_missingName
  binary _ := agrees_exhaust.bind fun _ => agrees_missingName
  unary := agrees_exhaust.bind fun _ => agrees_missingName
  newExpression := agrees_exhaust.bind fun _ => agrees_missingName

/-- The rules of the grammar agree, however deeply they are nested. -/
theorem productions_agreeing (n : Nat) : Agreeing B (productions n) := by
  induction n with
  | zero => exact noProductions_agreeing
  | succ n ih =>
    exact
      { statement := ih.agrees_statement
        type := ih.agrees_type
        assignment := ih.agrees_assignment
        binary := ih.agrees_binary
        unary := ih.agrees_unary
        newExpression := ih.agrees_newExpression }

theorem agrees_file {self : Productions} (h : Agreeing B self) : Agrees B (file self) := by
  refine (h.agrees_statementsUntil _).bind fun statements s s' hs => ?_
  obtain ⟨crossed, ht⟩ := hs.tokenAt 0
  show (addNode (.sourceFile statements) 0 (s'.tokenAt 0).stop s').1 = _ ∧
    Alike B _ (addNode (.sourceFile statements) 0 (s'.tokenAt 0).stop s').2 ∧ _
  rw [ht]
  exact agrees_addNode hs.placed.stop rfl s s' hs

/-- The start of two runs on the same tokens. -/
theorem alike_start {ts ts' : List Token} (hsame : SameTokens ts ts')
    (hplaced : ∀ t ∈ ts, Placed B t) (hzero : B 0) :
    Alike B (.start ts) (.start ts') where
  same := by
    show State.mk ts' ts'.length 0 #[] #[] 0 none false false =
      State.mk ts' ts.length 0 #[] #[] 0 none false false
    rw [hsame.length]
  tokens := hsame
  errors := rfl
  sound := ⟨hplaced, hzero, by simp [State.start], by simp [State.start], by simp [State.start]⟩

/-- Texts with the same tokens have the same tree. -/
theorem parseTokens_alike {ts ts' : List Token} (hsame : SameTokens ts ts')
    (hplaced : ∀ t ∈ ts, Placed B t) (hzero : B 0) :
    (parseTokens ts').1 = (parseTokens ts).1 ∧
      Alike B (parseTokens ts).2 (parseTokens ts').2 := by
  have hstart := alike_start hsame hplaced hzero
  have hfile := agrees_file (productions_agreeing (B := B) (nestingBound ts.length))
  obtain ⟨hresult, hnext, -⟩ := hfile _ _ hstart
  unfold parseTokens
  rw [hsame.length]
  exact ⟨hresult, hnext⟩

end ScriptAnalysis.Parsing
