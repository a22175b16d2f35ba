import ScriptAnalysis.Proofs.Parsing.Lasting

/-!
# Invariants and the rules of the grammar

Every rule of the grammar upholds an invariant, if the recursive rules do
(`Ample`). Where a rule does more than an invariant has to allow for, that is a
hypothesis of its lemma: what makes operations (`binary`), what is undone (an
attempt at an arrow function), and what makes a file a module (imports and
declarations with `export`).

`Lenient` invariants allow for all of that. They hold at every point of every run
(`ample_productions`).
-/
namespace ScriptAnalysis.Parsing

/-- The parser upholds the invariant where the token at hand is not the end of
the text. -/
def UpholdsNext {α : Type} (I : State → Prop) (b : Nat) (x : Parser α) : Prop :=
  Ends (fun s => Able I b s ∧ s.kindAt 0 ≠ .endOfFile) x fun _ => Able I b

/-- With a budget of at most `b` the recursive rules of the grammar uphold the
invariant. -/
structure Ample (I : State → Prop) (b : Nat) (rules : Productions) : Prop where
  statement : Upholds I b rules.statement
  type : Upholds I b rules.type
  assignment : Upholds I b rules.assignment
  binary : ∀ least, Upholds I b (rules.binary least)
  unary : Upholds I b rules.unary
  newExpression : UpholdsNext I b rules.newExpression

/-- An arrow function may start here: a name in front of an arrow, or a
parenthesis that looks like one around parameters. -/
def State.OpensArrow (s : State) (simple : Bool) : Prop :=
  simple = s.startsSimpleArrow ∧
    (simple || (s.kindAt 0 == .openParen && arrowFollows 0 s.rest)) = true

/-! ## Parts of several rules -/

section

variable {α β : Type} {I : State → Prop} {b : Nat} (hI : Invariant I)

theorem upholds_some {x : Parser NodeId} (hx : Upholds I b x) :
    Upholds I b (do return some (← x)) :=
  hx.bind fun _ => upholds_pure _

theorem UpholdsNext.facing {k : TokenKind} (hk : k ≠ .endOfFile) {x : Parser α}
    (hx : UpholdsNext I b x) :
    Ends (fun s => Able I b s ∧ s.kindAt 0 = k) x fun _ => Able I b :=
  Ends.facing hk hx

theorem upholds_unlessAt (k : TokenKind) {x : Parser NodeId} (hx : Upholds I b x) :
    Upholds I b (unlessAt k x) :=
  .look (fun _ => rfl) fun _ => .ite (fun _ => upholds_pure _) fun _ => upholds_some hx

include hI

/-- Behind the token at hand there is less budget. -/
theorem upholdsNext_advance {f : Unit → Parser β} (hf : Upholds I b (f ())) :
    UpholdsNext I (b + 1) (advance >>= f) :=
  (Ends.advance_less hI hf).imp fun _ _ hs => hs.mono (Nat.le_succ b)

theorem upholds_after (k : TokenKind) {x : Parser NodeId} (hx : Upholds I b x) :
    Upholds I b (after k x) :=
  (upholds_accept hI k).bind fun _ => .ite (fun _ => upholds_some hx) fun _ => upholds_pure _

/-- Another turn behind a comma, or the end. -/
theorem turns_comma (items : List NodeId) :
    Turns I b (do if ← accept .comma then return .again items else return .done items) :=
  fun _ _ => .accept_less hI (fun _ => id) (by decide) (.pure fun _ => id) (.pure fun _ => id)

theorem upholds_commaSeparated (stops : TokenKind → Bool) {x : Parser NodeId}
    (hx : Upholds I b x) : Upholds I b (commaSeparated stops x) := by
  refine upholds_iterate (fun items k hk => ?_) _
  refine .look (fun _ => rfl) fun _ => .ite (fun _ => .pure fun _ => id) fun _ => ?_
  exact (hx.shrink hk).bind fun item => turns_comma hI _ k (Nat.lt_succ_self k)

/-- A list between two tokens. -/
theorem upholds_between {opening closing : TokenKind} {x : Parser (List NodeId)}
    (hx : Upholds I b x) : Upholds I b (do
      if ← expect opening then
        let items ← x
        let _ ← expect closing
        return items
      else return []) := by
  refine (upholds_expect hI _).bind fun _ => .ite (fun _ => ?_) fun _ => upholds_pure _
  exact hx.bind fun items => (upholds_expect hI _).bind fun _ => upholds_pure _

theorem upholds_dottedName (first : NodeId) : Upholds I b (dottedName first) := by
  refine upholds_iterate (fun name k _ => ?_) first
  refine .accept_less hI (fun _ => id) (by decide) ?_ (.pure fun _ => id)
  exact (upholds_propertyName hI).bind fun _ => .pure fun _ => id

omit hI in
/-- A word that is a modifier is not the end of the text. -/
theorem ne_endOfFile_of_memberModifier? {s : State} {m : Modifiers}
    (h : s.memberModifier? = some m) : s.kindAt 0 ≠ .endOfFile := by
  intro hend
  unfold State.memberModifier? at h
  rw [hend] at h
  dsimp only at h
  split at h <;> cases h

theorem upholds_memberModifiers : Upholds I b memberModifiers := by
  refine upholds_iterate (fun modifiers k _ => Ends.get fun s => ?_) _
  split
  · exact .pure fun _ => And.right
  · rename_i hm
    refine Ends.weaken (.advance_less hI (.pure fun _ => id)) fun t ht => ⟨ht.2, ?_⟩
    rw [ht.1]
    exact ne_endOfFile_of_memberModifier? hm

end

theorem Ample.shrink {I : State → Prop} {b c : Nat} {rules : Productions} (h : Ample I b rules)
    (hc : c ≤ b) : Ample I c rules where
  statement := h.statement.shrink hc
  type := h.type.shrink hc
  assignment := h.assignment.shrink hc
  binary least := (h.binary least).shrink hc
  unary := h.unary.shrink hc
  newExpression := h.newExpression.less hc

namespace Ample

variable {I : State → Prop} {b : Nat} {self : Productions} (hI : Invariant I)
  (h : Ample I b self)

include hI h

theorem upholds_ascription : Upholds I b (ascription self) :=
  upholds_after hI _ h.type

theorem upholds_initializer : Upholds I b (initializer self) :=
  upholds_after hI _ h.assignment

theorem upholds_parameter : Upholds I b (parameter self) := by
  refine .look (fun _ => rfl) fun start => (upholds_memberModifiers hI).bind fun modifiers => ?_
  refine (upholds_bindingName hI).bind fun name => (upholds_accept hI _).bind fun optional => ?_
  refine (h.upholds_ascription hI).bind fun ascription => ?_
  exact (h.upholds_initializer hI).bind fun initializer => upholds_finish hI rfl start

theorem upholds_parameters : Upholds I b (parameters self) :=
  upholds_between hI (upholds_commaSeparated hI _ (h.upholds_parameter hI))

/-- A statement that passes no token is reported, and the token is passed. -/
theorem upholds_statementsUntil (stops : TokenKind → Bool) (hstops : stops .endOfFile = true) :
    Upholds I b (statementsUntil self stops) := by
  refine upholds_iterate (fun statements k hk => Ends.kind fun next => ?_) _
  refine .ite (fun _ => .pure fun _ => And.left) fun hnext => ?_
  refine .facing ?_ (Ends.progress (h.statement.shrink hk) (fun _ => ?_) fun _ => .pure fun _ => id)
  · intro hend
    rw [hend] at hnext
    exact hnext hstops
  · exact .report_facing hI (.advance_less hI (.pure fun _ => id))

theorem upholds_block : Upholds I b (block self) := by
  refine .look (fun _ => rfl) fun start => (upholds_expect hI _).bind fun _ => ?_
  refine (h.upholds_statementsUntil hI closesBraces rfl).bind fun statements => ?_
  exact (upholds_expect hI _).bind fun _ => upholds_finish hI rfl start

/-! ## Types -/

omit h in
theorem upholds_missingType : Upholds I b missingType :=
  .look (fun _ => rfl) fun _ => (upholds_missingName hI).bind fun _ => upholds_addNode hI rfl _ _

omit h in
theorem upholds_typeReference : Upholds I b typeReference := by
  refine .look (fun _ => rfl) fun start => (upholds_wordAsName hI).bind fun first => ?_
  exact (upholds_dottedName hI first).bind fun name => upholds_finish hI rfl start

theorem upholds_functionType : Upholds I b (functionType self) := by
  refine .look (fun _ => rfl) fun start => (h.upholds_parameters hI).bind fun ps => ?_
  refine (upholds_expect hI _).bind fun _ => h.type.bind fun result => ?_
  exact upholds_finish hI rfl start

theorem upholds_parenthesizedType : Upholds I b (parenthesizedType self) := by
  refine .look (fun _ => rfl) fun start => (upholds_advance hI).bind fun _ => ?_
  refine h.type.bind fun inner => (upholds_expect hI _).bind fun _ => ?_
  exact upholds_finish hI rfl start

omit h in
theorem upholds_literalType {x : Parser NodeId} (hx : Upholds I b x) : Upholds I b (do
    let start ← here
    let literal ← x
    finish start (.literalType literal)) :=
  .look (fun _ => rfl) fun start => hx.bind fun _ => upholds_finish hI rfl start

theorem upholds_primaryType : Upholds I b (primaryType self) := by
  refine .look (fun _ => rfl) fun k => ?_
  split
  case h_10 | h_11 => exact upholds_literalType hI (upholds_keywordNode hI)
  case h_12 | h_13 => exact upholds_literalType hI (upholds_literal hI)
  case h_14 =>
    refine .look (fun _ => rfl) fun s => .ite (fun _ => h.upholds_functionType hI) fun _ => ?_
    exact h.upholds_parenthesizedType hI
  case h_15 =>
    refine .ite (fun _ => upholds_typeReference hI) fun _ => ?_
    exact (upholds_report hI _).bind fun _ => upholds_missingType hI
  all_goals exact upholds_keywordNode hI

theorem upholds_arrayType : Upholds I b (arrayType self) := by
  refine .look (fun _ => rfl) fun start => (h.upholds_primaryType hI).bind fun first => ?_
  refine upholds_iterate (fun element k _ => Ends.isAt fun r => ?_) first
  refine .look (fun _ => rfl) fun _ => .look (fun _ => rfl) fun _ => ?_
  refine .ite (fun hr => ?_) fun _ => .pure fun _ => And.left
  refine Ends.weaken (.advance_less hI ?_) fun s hs => ⟨hs.1, ?_⟩
  · refine (upholds_advance hI).bind fun _ => ?_
    exact (upholds_finish hI rfl start).bind fun _ => .pure fun _ => id
  · rw [hs.2 (Bool.and_eq_true_iff.1 (Bool.and_eq_true_iff.1 hr).1).1]
    decide

theorem upholds_unionType : Upholds I b (unionType self) := by
  refine .look (fun _ => rfl) fun start => (upholds_accept hI _).bind fun leading => ?_
  refine (h.upholds_arrayType hI).bind fun first => .look (fun _ => rfl) fun _ => ?_
  refine .ite (fun _ => upholds_pure _) fun _ => ?_
  refine Upholds.bind (upholds_iterate (fun members k hk => ?_) [first]) fun members => ?_
  · refine .accept_less hI (fun _ => id) (by decide) ?_ (.pure fun _ => id)
    exact ((h.upholds_arrayType hI).shrink (Nat.le_of_lt hk)).bind fun member => .pure fun _ => id
  · exact .ite (fun _ => upholds_pure _) fun _ => upholds_finish hI rfl start

theorem upholds_type : Upholds I (b + 1) (Parsing.type self) :=
  upholds_nested hI (h.upholds_unionType hI) (upholds_missingType hI)

/-! ## Expressions -/

theorem upholdsNext_arrayLiteral : UpholdsNext I (b + 1) (arrayLiteral self) := by
  refine .look (fun _ => rfl) fun start => upholdsNext_advance hI ?_
  refine (upholds_commaSeparated hI _ h.assignment).bind fun elements => ?_
  exact (upholds_expect hI _).bind fun _ => upholds_finish hI rfl start

theorem upholds_propertyAssignment : Upholds I b (propertyAssignment self) := by
  refine .look (fun _ => rfl) fun start => (upholds_propertyName hI).bind fun name => ?_
  exact (upholds_after hI _ h.assignment).bind fun value => upholds_finish hI rfl start

theorem upholdsNext_objectLiteral : UpholdsNext I (b + 1) (objectLiteral self) := by
  refine .look (fun _ => rfl) fun start => upholdsNext_advance hI ?_
  refine (upholds_commaSeparated hI _ (h.upholds_propertyAssignment hI)).bind fun properties => ?_
  exact (upholds_expect hI _).bind fun _ => upholds_finish hI rfl start

theorem upholdsNext_parenthesized : UpholdsNext I (b + 1) (parenthesized self) := by
  refine .look (fun _ => rfl) fun start => ?_
  refine upholdsNext_advance hI (h.assignment.bind fun expression => ?_)
  exact (upholds_expect hI _).bind fun _ => upholds_finish hI rfl start

omit h in
theorem upholds_missingExpression : Upholds I b missingExpression := by
  refine (upholds_report hI _).bind fun _ => (upholds_missingName hI).bind fun _ => ?_
  refine .look (fun _ => rfl) fun _ => .ite (fun _ => upholds_pure _) fun _ => ?_
  exact (upholds_advance hI).bind fun _ => upholds_pure _

theorem upholds_primaryExpression : Upholds I (b + 1) (primaryExpression self) := by
  refine Ends.kind fun k => ?_
  split
  case h_1 | h_2 => exact .standing (upholds_literal hI)
  case h_8 => exact (h.upholdsNext_parenthesized hI).facing (by decide)
  case h_9 => exact (h.upholdsNext_arrayLiteral hI).facing (by decide)
  case h_10 => exact (h.upholdsNext_objectLiteral hI).facing (by decide)
  case h_11 =>
    exact .standing (.ite (fun _ => upholds_wordAsName hI) fun _ => upholds_missingExpression hI)
  all_goals exact .standing (upholds_keywordNode hI)

theorem upholds_arguments : Upholds I b (arguments self) := by
  refine (upholds_expect hI _).bind fun _ => ?_
  refine (upholds_commaSeparated hI _ h.assignment).bind fun values => ?_
  exact (upholds_expect hI _).bind fun _ => upholds_pure _

/-- At the parenthesis the arguments pass it. -/
theorem ends_arguments :
    Ends (fun s => Able I (b + 1) s ∧ s.kindAt 0 = .openParen) (arguments self) fun _ =>
      Able I b := by
  refine .expect_less hI (by decide) fun _ => ?_
  refine (upholds_commaSeparated hI _ h.assignment).bind fun values => ?_
  exact (upholds_expect hI _).bind fun _ => .pure fun _ => id

theorem upholds_suffixes (start : Nat) (allowCalls : Bool) (expression : NodeId) :
    Upholds I (b + 1) (suffixes self start allowCalls expression) := by
  refine upholds_iterate (fun expression k hk => Ends.kind fun next => ?_) expression
  have h' : Ample I k self := h.shrink (Nat.le_of_lt_succ hk)
  have hagain : ∀ {form : Form}, form.isPlain = true → Ends (Able I k)
      (do return .again (← finish start form) : Parser (Turn NodeId))
      (Turn.Leaves (fun _ => Able I k) fun _ => Able I (k + 1)) := fun hform =>
    (upholds_finish hI hform start).bind fun _ => .pure fun _ => id
  split
  · refine .facing (by decide) (.advance_less hI ((upholds_propertyName hI).bind fun name => ?_))
    exact hagain rfl
  · refine .facing (by decide) (.advance_less hI ?_)
    refine h'.assignment.bind fun index => ?_
    exact (upholds_expect hI _).bind fun _ => hagain rfl
  · refine .ite (fun _ => ?_) fun _ => .pure fun _ => And.left
    exact Ends.bind (h'.ends_arguments hI) fun values => hagain rfl
  · exact .pure fun _ => And.left

section

variable {c : Nat} (hc : c ≤ b + 1)

include hc

theorem upholds_newOrPrimary (hnew : UpholdsNext I c self.newExpression) :
    Upholds I c (newOrPrimary self) := by
  refine Ends.isAt fun r => .ite (fun hr => hnew.weaken fun s hs => ⟨hs.1, ?_⟩) fun _ => ?_
  · rw [hs.2 hr]
    decide
  · exact .standing ((h.upholds_primaryExpression hI).shrink hc)

/-- What is called or accessed, with the calls and accesses behind it. -/
theorem upholds_suffixed (hnew : UpholdsNext I c self.newExpression) (allowCalls : Bool) :
    Upholds I c (do
      let start ← here
      suffixes self start allowCalls (← newOrPrimary self)) :=
  .look (fun _ => rfl) fun start => (h.upholds_newOrPrimary hI hc hnew).bind fun first =>
    (h.upholds_suffixes hI start allowCalls first).shrink hc

theorem upholds_postfixed (hnew : UpholdsNext I c self.newExpression) :
    Upholds I c (postfixed self) := by
  refine .look (fun _ => rfl) fun start => ?_
  refine (h.upholds_suffixed hI hc hnew true).bind fun operand => ?_
  refine .look (fun _ => rfl) fun operator => .look (fun _ => rfl) fun _ => ?_
  refine .ite (fun _ => ?_) fun _ => upholds_pure _
  exact (upholds_advance hI).bind fun _ => upholds_finish hI rfl start

end

theorem upholdsNext_newExpression : UpholdsNext I (b + 1) (Parsing.newExpression self) := by
  refine .look (fun _ => rfl) fun start => upholdsNext_advance hI ?_
  refine .look (fun _ => rfl) fun calleeStart => ?_
  refine (h.upholds_newOrPrimary hI (Nat.le_succ b) h.newExpression).bind fun first => ?_
  refine ((h.upholds_suffixes hI calleeStart false first).shrink (Nat.le_succ b)).bind
    fun callee => .look (fun _ => rfl) fun _ => .ite (fun _ => ?_) fun _ => ?_
  · exact (h.upholds_arguments hI).bind fun values => upholds_finish hI rfl start
  · exact upholds_finish hI rfl start

/-- An operator in front of its operand. -/
theorem upholdsNext_operator {form : NodeId → Form} (hform : ∀ id, (form id).isPlain = true) :
    UpholdsNext I (b + 1) (do
      let start ← here
      advance
      let operand ← self.unary
      finish start (form operand)) :=
  .look (fun _ => rfl) fun start =>
    upholdsNext_advance hI (h.unary.bind fun id => upholds_finish hI (hform id) start)

theorem upholds_unary {c : Nat} (hc : c ≤ b + 1) (hnew : UpholdsNext I c self.newExpression) :
    Upholds I c (Parsing.unary self) := by
  refine Ends.kind fun k => ?_
  split
  case h_7 => exact .standing (h.upholds_postfixed hI hc hnew)
  all_goals exact .facing (by decide) ((h.upholdsNext_operator hI fun _ => rfl).less hc)

/-! ### Arrow functions and assignments -/

omit h in
theorem upholds_simpleParameter : Upholds I b simpleParameter :=
  .look (fun _ => rfl) fun start =>
    (upholds_wordAsName hI).bind fun _ => upholds_finish hI rfl start

theorem upholds_arrowHead (simple : Bool) : Upholds I b (arrowHead self simple) := by
  have hrest : ∀ ps : List NodeId, Upholds I b (do
      let result ← Parsing.ascription self
      if ← accept .arrow then return some (ps, result)
      else return none) := fun ps =>
    (h.upholds_ascription hI).bind fun result => (upholds_accept hI _).bind fun _ =>
      .ite (fun _ => upholds_pure _) fun _ => upholds_pure _
  refine Ends.ite (fun _ => ?_) fun _ => ?_
  · exact (upholds_simpleParameter hI).bind fun p => (upholds_pure _).bind hrest
  · exact (h.upholds_parameters hI).bind hrest

/-- What an attempt at the head of an arrow function leaves is known only where
it is made. -/
theorem upholds_arrowFunction (hattempt : ∀ simple, Ends
      (fun s => Able I b s ∧ s.OpensArrow simple) (attempt (arrowHead self simple))
      fun _ => Able I b) :
    Upholds I b (arrowFunction self) := by
  refine Ends.get fun s => .ite (fun hopens => ?_) fun _ => .pure fun _ => And.right
  refine .look (fun _ => rfl) fun start => ?_
  refine Ends.bind ((hattempt _).weaken fun t ht => ?_) fun r => ?_
  · rw [ht.1]
    exact ⟨ht.1 ▸ ht.2, rfl, hopens⟩
  cases r with
  | none => exact upholds_pure _
  | some head =>
    refine .look (fun _ => rfl) fun _ => .ite (fun _ => ?_) fun _ => ?_
    · exact (h.upholds_block hI).bind fun body => upholds_some (upholds_finish hI rfl start)
    · exact h.assignment.bind fun body => upholds_some (upholds_finish hI rfl start)

theorem upholds_assignmentOrTighter : Upholds I b (assignmentOrTighter self) := by
  refine .look (fun _ => rfl) fun start => (h.binary 0).bind fun left => ?_
  refine .look (fun _ => rfl) fun operator => .look (fun _ => rfl) fun s => .ite (fun hop => ?_)
    fun _ => ?_
  · refine (upholds_advance hI).bind fun _ => h.assignment.bind fun right => ?_
    refine upholds_finish hI ?_ start
    simp [Form.isPlain, Form.isOperation, Form.marksModule, (Bool.and_eq_true_iff.1 hop).1]
  · refine (upholds_accept hI _).bind fun _ => .ite (fun _ => ?_) fun _ => upholds_pure _
    refine h.assignment.bind fun whenTrue => (upholds_expect hI _).bind fun _ => ?_
    exact h.assignment.bind fun whenFalse => upholds_finish hI rfl start

theorem upholds_assignment (hattempt : ∀ simple, Ends
      (fun s => Able I b s ∧ s.OpensArrow simple) (attempt (arrowHead self simple))
      fun _ => Able I b) :
    Upholds I (b + 1) (Parsing.assignment self) := by
  refine upholds_nested hI ?_ (upholds_missingName hI)
  refine (h.upholds_arrowFunction hI hattempt).bind fun r => ?_
  cases r with
  | some arrow => exact upholds_pure _
  | none => exact h.upholds_assignmentOrTighter hI

/-! ## Declarations

The last step of a declaration is its node, which takes the invariant `I` of its
parts to `J`. -/

variable {J : State → Prop}

theorem upholds_variableDeclaration (kind : VariableKind) :
    Upholds I b (variableDeclaration self kind) := by
  refine .look (fun _ => rfl) fun start => (upholds_bindingName hI).bind fun name => ?_
  refine (h.upholds_ascription hI).bind fun ascription => ?_
  exact (h.upholds_initializer hI).bind fun initializer => upholds_finish hI rfl start

theorem upholds_variableDeclarations (kind : VariableKind) (inHead : Bool) :
    Upholds I b (variableDeclarations self kind inHead) := by
  refine upholds_iterate (fun items k hk => ?_) _
  refine ((h.shrink hk).upholds_variableDeclaration hI kind).bind fun declaration => ?_
  refine .look (fun _ => rfl) fun _ => .ite (fun _ => .pure fun _ => id) fun _ => ?_
  exact turns_comma hI _ k (Nat.lt_succ_self k)

theorem ends_variableStatement (start : Nat) (modifiers : Modifiers) (kind : VariableKind)
    (hform : ∀ form, form.Declares modifiers → Makes I J form) :
    Ends (Able I b) (variableStatement self start modifiers kind) fun _ => Able J b := by
  refine (upholds_advance hI).bind fun _ => ?_
  refine (h.upholds_variableDeclarations hI kind false).bind fun declarations => ?_
  exact (upholds_endStatement hI).bind fun _ => ends_finish (hform _ ⟨rfl, rfl⟩) start

theorem upholds_functionBody : Upholds I b (functionBody self) := by
  refine .look (fun _ => rfl) fun _ => .ite (fun _ => ?_) fun _ => ?_
  · exact upholds_some (h.upholds_block hI)
  · exact (upholds_endStatement hI).bind fun _ => upholds_pure _

theorem ends_functionDeclaration (start : Nat) (modifiers : Modifiers)
    (hform : ∀ form, form.Declares modifiers → Makes I J form) :
    Ends (Able I b) (functionDeclaration self start modifiers) fun _ => Able J b := by
  refine (upholds_advance hI).bind fun _ => (upholds_bindingName hI).bind fun name => ?_
  refine (h.upholds_parameters hI).bind fun ps => (h.upholds_ascription hI).bind fun result => ?_
  exact (h.upholds_functionBody hI).bind fun body => ends_finish (hform _ ⟨rfl, rfl⟩) start

/-! ### Classes -/

omit h in
theorem upholds_heritageType : Upholds I b heritageType := by
  refine .look (fun _ => rfl) fun start => (upholds_bindingName hI).bind fun first => ?_
  exact (upholds_dottedName hI first).bind fun name => upholds_finish hI rfl start

theorem upholds_constructorMember (start : Nat) (modifiers : Modifiers) :
    Upholds I b (constructorMember self start modifiers) := by
  refine (upholds_wordAsName hI).bind fun name => (h.upholds_parameters hI).bind fun ps => ?_
  exact (h.upholds_functionBody hI).bind fun body => upholds_finish hI rfl start

theorem upholds_namedMember (start : Nat) (modifiers : Modifiers) :
    Upholds I b (namedMember self start modifiers) := by
  refine (upholds_propertyName hI).bind fun name => (upholds_accept hI _).bind fun optional => ?_
  refine .look (fun _ => rfl) fun _ => .ite (fun _ => ?_) fun _ => ?_
  · refine (h.upholds_parameters hI).bind fun ps => ?_
    refine (h.upholds_ascription hI).bind fun result => ?_
    exact (h.upholds_functionBody hI).bind fun body => upholds_finish hI rfl start
  · refine (h.upholds_ascription hI).bind fun ascription => ?_
    refine (h.upholds_initializer hI).bind fun initializer => ?_
    exact (upholds_endStatement hI).bind fun _ => upholds_finish hI rfl start

theorem upholds_classMember : Upholds I b (classMember self) := by
  refine .look (fun _ => rfl) fun start => (upholds_memberModifiers hI).bind fun modifiers => ?_
  refine .look (fun _ => rfl) fun _ => .look (fun _ => rfl) fun _ => .ite (fun _ => ?_) fun _ => ?_
  · exact h.upholds_constructorMember hI start modifiers
  · exact h.upholds_namedMember hI start modifiers

omit hI h in
/-- Where the members stop is also where the text does. -/
theorem ne_endOfFile_of_not_closesBraces {k : TokenKind} (h : ¬closesBraces k = true) :
    k ≠ .endOfFile := by
  intro hend
  rw [hend] at h
  exact h rfl

theorem upholds_classMembers : Upholds I b (classMembers self) := by
  refine upholds_between hI (upholds_iterate (fun members k hk => Ends.kind fun next => ?_) _)
  refine .ite (fun _ => .pure fun _ => And.left) fun hnext => ?_
  refine .facing (ne_endOfFile_of_not_closesBraces hnext) ?_
  refine .accept_less hI (fun _ => And.left) (by decide) (.pure fun _ => id) ?_
  refine Ends.progress ((h.shrink hk).upholds_classMember hI) (fun member => ?_) fun member =>
    .pure fun _ => id
  exact .report_facing hI (.advance_less hI (.pure fun _ => id))

theorem ends_classDeclaration (start : Nat) (modifiers : Modifiers)
    (hform : ∀ form, form.Declares modifiers → Makes I J form) :
    Ends (Able I b) (classDeclaration self start modifiers) fun _ => Able J b := by
  refine (upholds_advance hI).bind fun _ => (upholds_bindingName hI).bind fun name => ?_
  refine (upholds_after hI _ (upholds_heritageType hI)).bind fun heritage => ?_
  exact (h.upholds_classMembers hI).bind fun members => ends_finish (hform _ ⟨rfl, rfl⟩) start

/-! ### Interfaces and aliases -/

theorem upholds_typeMember : Upholds I b (typeMember self) := by
  have hrest : ∀ (start : Nat) (modifiers : Modifiers), Upholds I b (do
      let name ← propertyName
      let optional ← accept .question
      if ← isAt .openParen then
        let parameters ← parameters self
        let returnType ← Parsing.ascription self
        finish start (.function .methodSignature
          { modifiers, name := some name, parameters, returnType, body := none })
      else
        let ascription ← Parsing.ascription self
        finish start (.propertySignature
          { modifiers, name, optional, ascription, initializer := none })) := by
    intro start modifiers
    refine (upholds_propertyName hI).bind fun name => (upholds_accept hI _).bind fun optional => ?_
    refine .look (fun _ => rfl) fun _ => .ite (fun _ => ?_) fun _ => ?_
    · refine (h.upholds_parameters hI).bind fun ps => ?_
      exact (h.upholds_ascription hI).bind fun result => upholds_finish hI rfl start
    · exact (h.upholds_ascription hI).bind fun ascription => upholds_finish hI rfl start
  refine .look (fun _ => rfl) fun start => .look (fun _ => rfl) fun _ => ?_
  refine .look (fun _ => rfl) fun _ => .ite (fun _ => ?_) fun _ => ?_
  · exact (upholds_advance hI).bind fun _ => (upholds_pure _).bind (hrest start)
  · exact (upholds_pure _).bind (hrest start)

omit h in
theorem upholds_memberSeparator : Upholds I b memberSeparator := by
  refine (upholds_accept hI _).bind fun _ => .ite (fun _ => upholds_pure _) fun _ => ?_
  refine (upholds_accept hI _).bind fun _ => .ite (fun _ => upholds_pure _) fun _ => ?_
  refine .look (fun _ => rfl) fun _ => .ite (fun _ => upholds_pure _) fun _ => ?_
  refine .look (fun _ => rfl) fun _ => .ite (fun _ => upholds_pure _) fun _ => ?_
  exact upholds_report hI _

theorem upholds_typeMembers : Upholds I b (typeMembers self) := by
  refine upholds_between hI (upholds_iterate (fun members k hk => Ends.kind fun next => ?_) _)
  refine .ite (fun _ => .pure fun _ => And.left) fun hnext => ?_
  refine .facing (ne_endOfFile_of_not_closesBraces hnext) ?_
  have hmember : Upholds I (k + 1) (do
      let member ← typeMember self
      memberSeparator
      return member) :=
    ((h.shrink hk).upholds_typeMember hI).bind fun _ =>
      (upholds_memberSeparator hI).bind fun _ => upholds_pure _
  have hturn := Ends.progress (R := Turn.Leaves (fun _ => Able I k) fun _ => Able I (k + 1)) hmember
    (fun member => .advance_less hI (f := fun _ => return .again (members ++ [member]))
      (.pure fun _ => id))
    fun member => .pure (a := .again (members ++ [member])) fun _ => id
  simpa only [bind_assoc, pure_bind] using hturn

omit h in
theorem upholds_heritageTypes : Upholds I b heritageTypes := by
  refine (upholds_accept hI _).bind fun _ => .ite (fun _ => ?_) fun _ => upholds_pure _
  refine upholds_iterate (fun types k _ => (upholds_heritageType hI).bind fun type => ?_) _
  exact turns_comma hI _ k (Nat.lt_succ_self k)

theorem ends_interfaceDeclaration (start : Nat) (modifiers : Modifiers)
    (hform : ∀ form, form.Declares modifiers → Makes I J form) :
    Ends (Able I b) (interfaceDeclaration self start modifiers) fun _ => Able J b := by
  refine (upholds_advance hI).bind fun _ => (upholds_bindingName hI).bind fun name => ?_
  refine (upholds_heritageTypes hI).bind fun heritage => ?_
  exact (h.upholds_typeMembers hI).bind fun members => ends_finish (hform _ ⟨rfl, rfl⟩) start

theorem ends_typeAlias (start : Nat) (modifiers : Modifiers)
    (hform : ∀ form, form.Declares modifiers → Makes I J form) :
    Ends (Able I b) (typeAlias self start modifiers) fun _ => Able J b := by
  refine (upholds_advance hI).bind fun _ => (upholds_bindingName hI).bind fun name => ?_
  refine (upholds_expect hI _).bind fun _ => h.type.bind fun aliased => ?_
  exact (upholds_endStatement hI).bind fun _ => ends_finish (hform _ ⟨rfl, rfl⟩) start

/-! ### Imports -/

omit h in
theorem upholds_importSpecifier : Upholds I b importSpecifier := by
  refine .look (fun _ => rfl) fun start => (upholds_propertyName hI).bind fun first => ?_
  refine (upholds_accept hI _).bind fun _ => .ite (fun _ => ?_) fun _ => upholds_finish hI rfl start
  exact (upholds_bindingName hI).bind fun name => upholds_finish hI rfl start

omit h in
theorem ends_importDeclaration
    (hform : ∀ specifiers source, Makes I J (.importDeclaration specifiers source)) :
    Ends (Able I b) importDeclaration fun _ => Able J b := by
  refine .look (fun _ => rfl) fun start => (upholds_advance hI).bind fun _ => ?_
  have hspecifiers : Upholds I b importSpecifiers :=
    upholds_between hI (upholds_commaSeparated hI _ (upholds_importSpecifier hI))
  refine hspecifiers.bind fun specifiers => (upholds_expect hI _).bind fun _ => ?_
  have hrest : ∀ source, Ends (Able I b) (do
      endStatement
      finish start (.importDeclaration specifiers source)) fun _ => Able J b := fun source =>
    (upholds_endStatement hI).bind fun _ => ends_finish (hform specifiers source) start
  refine .look (fun _ => rfl) fun _ => .ite (fun _ => ?_) fun _ => ?_
  · exact (upholds_literal hI).bind fun source => hrest (some source)
  · exact (upholds_report hI _).bind fun _ => hrest none

/-! ### Any declaration -/

end Ample

/-- No declaration starts with the token at hand. -/
structure State.Undeclared (s : State) : Prop where
  noVariable : s.variableKind? = none
  noFunction : s.kindAt 0 ≠ .kwFunction
  noClass : s.kindAt 0 ≠ .kwClass
  noInterface : s.kindAt 0 ≠ .kwInterface
  noAlias : s.kindAt 0 ≠ .kwType

/-- Once the modifiers `m` are known, the invariant of the parts is `K m`. -/
theorem ends_declaration {J : State → Prop} {b : Nat} {self : Productions} {P p : State → Prop}
    {K : Modifiers → State → Prop}
    (hmodifiers : Ends P declarationModifiers fun m s => Able (K m) b s ∧ p s)
    (hK : ∀ m, Invariant (K m)) (hself : ∀ m, Ample (K m) b self)
    (hform : ∀ m form, form.Declares m → Makes (K m) J form)
    (hnone : ∀ m, Ends (fun s => (Able (K m) b s ∧ p s) ∧ s.Undeclared)
      (report .declarationOrStatementExpected) fun _ => Able J b) :
    Ends P (declaration self) fun _ => Able J b := by
  have hsome : ∀ {m : Modifiers} {x : Parser NodeId} {q : State → Prop},
      Ends (Able (K m) b) x (fun _ => Able J b) →
      Ends (fun s => (Able (K m) b s ∧ p s) ∧ q s) (do return some (← x)) fun _ => Able J b :=
    fun hx => (Ends.bind hx fun _ => .pure fun _ => id).weaken fun s hs => hs.1.1
  refine .look (fun _ => rfl) fun start => hmodifiers.bind fun m => Ends.kind fun k => ?_
  split
  · exact hsome ((hself m).ends_functionDeclaration (hK m) start m (hform m))
  · exact hsome ((hself m).ends_classDeclaration (hK m) start m (hform m))
  · exact hsome ((hself m).ends_interfaceDeclaration (hK m) start m (hform m))
  · exact hsome ((hself m).ends_typeAlias (hK m) start m (hform m))
  · rename_i hfunction hclass hinterface halias
    refine Ends.get fun s => ?_
    split
    · exact (hsome (q := fun _ => True) ((hself m).ends_variableStatement (hK m) start m _
        (hform m))).weaken fun t ht => ⟨ht.2.1, trivial⟩
    · rename_i hvariables
      refine Ends.weaken (Ends.bind (hnone m) fun _ => .pure fun _ => id) fun t ht => ⟨ht.2.1, ?_⟩
      obtain ⟨rfl, -, hk⟩ := ht
      subst hk
      exact ⟨hvariables, hfunction, hclass, hinterface, halias⟩

namespace Ample

variable {I : State → Prop} {b : Nat} {self : Productions} (hI : Invariant I)
  (h : Ample I b self)

include hI h

/-! ## Statements -/

theorem upholds_condition : Upholds I b (condition self) := by
  refine (upholds_expect hI _).bind fun _ => h.assignment.bind fun expression => ?_
  exact (upholds_expect hI _).bind fun _ => upholds_pure _

theorem upholds_ifStatement : Upholds I b (ifStatement self) := by
  refine .look (fun _ => rfl) fun start => (upholds_advance hI).bind fun _ => ?_
  refine (h.upholds_condition hI).bind fun condition => h.statement.bind fun thenBranch => ?_
  refine (upholds_accept hI _).bind fun _ => .ite (fun _ => ?_) fun _ => upholds_finish hI rfl start
  exact h.statement.bind fun elseBranch => upholds_finish hI rfl start

theorem upholds_whileStatement : Upholds I b (whileStatement self) := by
  refine .look (fun _ => rfl) fun start => (upholds_advance hI).bind fun _ => ?_
  refine (h.upholds_condition hI).bind fun condition => h.statement.bind fun body => ?_
  exact upholds_finish hI rfl start

theorem upholds_forInitializer : Upholds I b (forInitializer self) := by
  refine .look (fun _ => rfl) fun _ => .ite (fun _ => upholds_pure _) fun _ => ?_
  refine .look (fun _ => rfl) fun s => ?_
  split
  · refine .look (fun _ => rfl) fun start => (upholds_advance hI).bind fun _ => ?_
    refine (h.upholds_variableDeclarations hI _ true).bind fun declarations => ?_
    exact upholds_some (upholds_finish hI rfl start)
  · exact upholds_some h.assignment

theorem upholds_forStatement : Upholds I b (forStatement self) := by
  refine .look (fun _ => rfl) fun start => (upholds_advance hI).bind fun _ => ?_
  refine (upholds_expect hI _).bind fun _ => ?_
  refine (h.upholds_forInitializer hI).bind fun initializer => ?_
  refine (upholds_accept hI _).bind fun _ => .ite (fun _ => ?_) fun _ => ?_
  · refine h.assignment.bind fun iterated => (upholds_expect hI _).bind fun _ => ?_
    exact h.statement.bind fun body => upholds_finish hI rfl start
  · refine (upholds_expect hI _).bind fun _ => ?_
    refine (upholds_unlessAt _ h.assignment).bind fun condition => ?_
    refine (upholds_expect hI _).bind fun _ => ?_
    refine (upholds_unlessAt _ h.assignment).bind fun increment => ?_
    refine (upholds_expect hI _).bind fun _ => ?_
    exact h.statement.bind fun body => upholds_finish hI rfl start

theorem upholds_returnStatement : Upholds I b (returnStatement self) := by
  refine .look (fun _ => rfl) fun start => (upholds_advance hI).bind fun _ => ?_
  refine upholds_canEndStatement.bind fun _ => .ite (fun _ => ?_) fun _ => ?_
  · exact (upholds_endStatement hI).bind fun _ => upholds_finish hI rfl start
  · refine h.assignment.bind fun expression => ?_
    exact (upholds_endStatement hI).bind fun _ => upholds_finish hI rfl start

omit h in
theorem upholds_wordStatement {form : Form} (hform : form.isPlain = true) :
    Upholds I b (wordStatement form) := by
  refine .look (fun _ => rfl) fun start => (upholds_advance hI).bind fun _ => ?_
  exact (upholds_endStatement hI).bind fun _ => upholds_finish hI hform start

omit h in
theorem upholds_emptyStatement : Upholds I b emptyStatement :=
  .look (fun _ => rfl) fun start => (upholds_advance hI).bind fun _ => upholds_finish hI rfl start

theorem upholds_expressionStatement : Upholds I b (expressionStatement self) := by
  refine .look (fun _ => rfl) fun start => h.assignment.bind fun expression => ?_
  exact (upholds_endStatement hI).bind fun _ => upholds_finish hI rfl start

theorem upholds_statement
    (himport : Ends (fun s => Able I b s ∧ s.kindAt 0 = .kwImport) (do
      modify fun s => { s with moduleSyntax := true }
      return some (← importDeclaration)) fun _ => Able I b)
    (hdeclaration : Ends (fun s => Able I b s ∧ startsDeclaration s.rest = true)
      (declaration self) fun _ => Able I b) :
    Upholds I (b + 1) (Parsing.statement self) := by
  have hfallback : Upholds I (b + 1) (do
      advance
      return none : Parser (Option NodeId)) := (upholds_advance hI).bind fun _ => upholds_pure _
  refine upholds_nested hI (Ends.kind fun k => ?_) hfallback
  have hsome : ∀ {x : Parser NodeId}, Upholds I b x →
      Ends (fun s => Able I b s ∧ s.kindAt 0 = k) (do return some (← x)) fun _ => Able I b :=
    fun hx => .standing (upholds_some hx)
  split
  · exact .standing (upholds_pure _)
  · exact .standing (upholds_pure _)
  · exact hsome (h.upholds_block hI)
  · exact hsome (upholds_emptyStatement hI)
  · exact hsome (h.upholds_ifStatement hI)
  · exact hsome (h.upholds_whileStatement hI)
  · exact hsome (h.upholds_forStatement hI)
  · exact hsome (h.upholds_returnStatement hI)
  · exact hsome (upholds_wordStatement hI rfl)
  · exact hsome (upholds_wordStatement hI rfl)
  · exact himport
  · refine Ends.get fun s => .ite (fun hs => ?_) fun _ => ?_
    · exact hdeclaration.weaken fun t ht => ⟨ht.2.1, ht.1 ▸ hs⟩
    · exact (upholds_some (h.upholds_expressionStatement hI)).weaken fun t ht => ht.2.1

end Ample

/-! ## The recursion -/

/-- An invariant with what its own nature decides: whether an attempt that is
given up may be undone, and which operations, imports and declarations keep it. -/
structure Allows (I : State → Prop) : Prop extends Invariant I where
  attempt : ∀ b n simple, 3 * b ≤ n → Ample I b (productions n) →
    Ends (fun s => Able I b s ∧ s.OpensArrow simple)
      (attempt (arrowHead (productions n) simple)) fun _ => Able I b
  binary : ∀ b c n least, 3 * b ≤ n → c ≤ b + 1 → Ample I b (productions n) →
    Upholds I c (productions n).unary → Upholds I c (Parsing.binary (productions n) least)
  imports : ∀ b, Ends (fun s => Able I b s ∧ s.kindAt 0 = .kwImport) (do
    modify fun s => { s with moduleSyntax := true }
    return some (← importDeclaration)) fun _ => Able I b
  declaration : ∀ b n, 3 * b ≤ n → Ample I b (productions n) →
    Ends (fun s => Able I b s ∧ startsDeclaration s.rest = true)
      (Parsing.declaration (productions n)) fun _ => Able I b

section

variable {I : State → Prop} (hI : Allows I)

include hI

/-- One more nested use allows for a budget of one more, but for unary
expressions, which use `new` expressions, and binary ones, which use unary ones,
with the budget they have. -/
theorem Ample.succ {b c n : Nat} (h : Ample I b (productions n)) (hb : 3 * b ≤ n) (hc : c ≤ b + 1)
    (hunary : Upholds I c (productions n).unary)
    (hnew : UpholdsNext I c (productions n).newExpression) : Ample I c (productions (n + 1)) where
  statement :=
    (h.upholds_statement hI.toInvariant (hI.imports b) (hI.declaration b n hb h)).shrink hc
  type := (h.upholds_type hI.toInvariant).shrink hc
  assignment := (h.upholds_assignment hI.toInvariant fun simple =>
    hI.attempt b n simple hb h).shrink hc
  binary least := hI.binary b c n least hb hc h hunary
  unary := h.upholds_unary hI.toInvariant hc hnew
  newExpression := (h.upholdsNext_newExpression hI.toInvariant).less hc

/-- Unary expressions do with one nested use less. -/
theorem Ample.unary_succ {b n : Nat} (h : Ample I b (productions n))
    (h' : Ample I b (productions (n + 1))) : Upholds I (b + 1) (productions (n + 2)).unary :=
  h'.upholds_unary hI.toInvariant (Nat.le_refl _) (h.upholdsNext_newExpression hI.toInvariant)

/-- Three nested uses for each token and level are enough. -/
theorem ample_productions (b : Nat) : ∀ n, 3 * b ≤ n → Ample I b (productions n) := by
  induction b with
  | zero =>
    intro n _
    -- there is no state without budget
    have hnone : ∀ {α : Type} {p : State → Prop} (x : Parser α),
        Ends (fun s => Able I 0 s ∧ p s) x fun _ => Able I 0 :=
      fun x s hs => absurd hs.1.pos (Nat.lt_irrefl 0)
    have hnone' : ∀ {α : Type} (x : Parser α), Upholds I 0 x :=
      fun x s hs => absurd hs.pos (Nat.lt_irrefl 0)
    exact ⟨hnone' _, hnone' _, hnone' _, fun _ => hnone' _, hnone' _, hnone _⟩
  | succ b ih =>
    intro n hn
    obtain ⟨m, rfl⟩ : ∃ m, n = m + 3 := ⟨n - 3, by omega⟩
    have hunary := (ih m (by omega)).unary_succ hI (ih (m + 1) (by omega))
    have hnew := (ih (m + 1) (by omega)).upholdsNext_newExpression hI.toInvariant
    exact (ih (m + 2) (by omega)).succ hI (by omega) (Nat.le_refl _) hunary hnew

theorem upholds_productions_unary {b n : Nat} (hn : 3 * b + 2 ≤ n) :
    Upholds I (b + 1) (productions n).unary := by
  obtain ⟨m, rfl⟩ : ∃ m, n = m + 2 := ⟨n - 2, by omega⟩
  exact (ample_productions hI b m (by omega)).unary_succ hI
    (ample_productions hI b (m + 1) (by omega))

/-- All that is done with the tokens of a file keeps the invariant. -/
theorem able_parseTokens {tokens : List Token} (hends : ∃ t ∈ tokens, t.kind = .endOfFile)
    (hstart : I (.start tokens)) : ∃ b, Able I b (parseTokens tokens).2 := by
  have hbudget : (State.start tokens).budget = tokens.length + maxDepth := rfl
  have hample := ample_productions hI (State.start tokens).budget (nestingBound tokens.length)
    (by rw [hbudget]; unfold nestingBound; omega)
  have hable : Able I (State.start tokens).budget (State.start tokens) :=
    ⟨rfl, hends, Nat.le_refl _, rfl, hstart⟩
  have hfile : Upholds I (State.start tokens).budget
      (file (productions (nestingBound tokens.length))) := by
    refine (hample.upholds_statementsUntil hI.toInvariant (· == .endOfFile) rfl).bind
      fun statements => ?_
    exact .look (fun _ => rfl) fun stop => upholds_addNode hI.toInvariant rfl 0 _
  exact ⟨_, (hfile _ hable).2⟩

end

/-! ## Lenient invariants -/

/-- An invariant that does not ask what makes a file a module. -/
structure Lenient (I : State → Prop) : Prop extends Invariant I where
  rewind : ∀ s t, I s → I t → Forward s t → I (t.rewind s.mark)
  note : ∀ s, I s → I { s with moduleSyntax := true }
  makes : ∀ form, form.isOperation = false → Makes I I form

namespace Lenient

variable {I : State → Prop} {b : Nat} (hI : Lenient I)

include hI

theorem upholds_attempt {α : Type} {x : Parser (Option α)} (hx : Upholds I b x) :
    Upholds I b (attempt x) := by
  intro s hs
  obtain ⟨hforward, hend⟩ := hx s hs
  rw [attempt_eq]
  split
  · exact ⟨hforward, hend⟩
  · have hrewind := hI.rewind s _ hs.holds hend.holds hforward
    exact ⟨hforward.rewind, hs.rewind hend hforward hrewind⟩

theorem upholds_declarationModifiers : Upholds I b declarationModifiers := by
  refine upholds_iterate (fun modifiers k _ => Ends.kind fun next => ?_) _
  split
  · refine .facing (by decide) (.note (fun s _ => hI.note s) (fun _ => id) ?_)
    exact .advance_less hI.toInvariant (.pure fun _ => id)
  · refine .look (fun _ => rfl) fun s => .ite (fun _ => ?_) fun _ => .pure fun _ => And.left
    exact .facing (by decide) (.advance_less hI.toInvariant (.pure fun _ => id))
  · exact .pure fun _ => And.left

/-- An invariant that allows for operations too allows for everything. -/
theorem allows (hbinary : ∀ b c n least, 3 * b ≤ n → c ≤ b + 1 → Ample I b (productions n) →
    Upholds I c (productions n).unary → Upholds I c (Parsing.binary (productions n) least)) :
    Allows I where
  toInvariant := hI.toInvariant
  attempt b n simple _ h :=
    .standing (hI.upholds_attempt (h.upholds_arrowHead hI.toInvariant simple))
  binary := hbinary
  imports b := by
    refine .note (fun s _ => hI.note s) (fun _ => id) (.standing (Ends.bind ?_ fun _ =>
      .pure fun _ => id))
    exact Ample.ends_importDeclaration hI.toInvariant fun _ _ => hI.makes _ rfl
  declaration b n _ h := by
    refine ends_declaration (p := fun _ => True) (K := fun _ => I) ?_ (fun _ => hI.toInvariant)
      (fun _ => h) (fun m form hform => hI.makes form hform.operation) fun m => ?_
    · exact ((hI.upholds_declarationModifiers).standing).imp fun _ s hs => ⟨hs, trivial⟩
    · exact (upholds_report hI.toInvariant _).weaken fun s hs => hs.1.1

end Lenient

theorem Ample.upholds_binary {I : State → Prop} {b c : Nat} {self : Productions}
    (hI : Invariant I) (hmakes : ∀ form, form.marksModule = false → Makes I I form)
    (h : Ample I b self) (hc : c ≤ b + 1) (hunary : Upholds I c self.unary) (least : Nat) :
    Upholds I c (Parsing.binary self least) := by
  refine .look (fun _ => rfl) fun start => hunary.bind fun first => ?_
  refine upholds_iterate (fun left k hk => Ends.kind fun operator => ?_) first
  have h' : Ample I k self := h.shrink (by omega)
  refine .ite (fun _ => .pure fun _ => And.left) fun hleast => ?_
  -- the end of the text binds as loosely as what is no operator
  have hnext : operator ≠ .endOfFile := by
    intro hend
    rw [hend] at hleast
    exact hleast (Nat.zero_le least)
  have hagain : ∀ form, form.marksModule = false → Ends (Able I k)
      (do return .again (← finish start form) : Parser (Turn NodeId))
      (Turn.Leaves (fun _ => Able I k) fun _ => Able I (k + 1)) := fun form hform =>
    Ends.bind (ends_finish (hmakes form hform) start) fun _ => .pure fun _ => id
  refine .ite (fun _ => ?_) fun _ => ?_
  · refine .look (fun _ => rfl) fun _ => .ite (fun _ => .pure fun _ => And.left) fun _ => ?_
    exact .facing hnext (.advance_less hI (h'.type.bind fun type => hagain _ rfl))
  · exact .facing hnext (.advance_less hI ((h'.binary _).bind fun right => hagain _ rfl))

theorem lenient_true : Lenient fun _ => True where
  advance _ _ := trivial
  report _ _ _ _ _ := trivial
  deeper _ _ _ := trivial
  plain _ _ _ _ _ _ := trivial
  rewind _ _ _ _ _ := trivial
  note _ _ := trivial
  makes _ _ _ _ _ _ := trivial

/-- Nothing is asked but that no bound of the parser itself is reached. -/
theorem allows_true : Allows fun _ => True :=
  lenient_true.allows fun _ _ _ least _ hc h hunary =>
    h.upholds_binary lenient_true.toInvariant (fun _ _ _ _ _ _ => trivial) hc hunary least

end ScriptAnalysis.Parsing
