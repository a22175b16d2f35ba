import ScriptAnalysis.Proofs.Parsing.Clean
import ScriptAnalysis.Proofs.Parsing.Forest

/-!
# The spans of a file without errors

The rules of the grammar start a node with the token at hand, give nodes for
their parts one after the other, and end the node with the last token passed.
Here this is said of each rule, for runs without errors: its node is made of
tokens and spans its parts, which stand one behind the other. Where something is
missing, an error is reported; where an attempt is given up, its nodes are
dropped.

**Rules.** `Lawful b self`: with a budget of at most `b`, the recursive rules of
the grammar give nodes that follow those that wait. There is a lemma for each
rule, named by the rule. Those of statements, types and assignments go one level
deeper and those of operators pass a token first, so both use the recursive rules
with a smaller budget.

**Results.**
* `lawful_productions`: the nested uses that a file is parsed with are never
  used up, so no node comes from their end.
* `SourceFile.parse_nested`: in a file without errors every node but the root
  starts and stops with a token and takes some of the text, children lie in their
  parents, and the children of a node are in order and do not overlap.
-/
namespace ScriptAnalysis.Parsing

/-- With a budget of at most `b` the recursive rules of the grammar give nodes
that follow those that wait. -/
structure Lawful (tokens : List Token) (b : Nat) (rules : Productions) : Prop where
  statement : GivesOption tokens b rules.statement
  type : GivesOne tokens b rules.type
  assignment : GivesOne tokens b rules.assignment
  binary : ∀ least, GivesOne tokens b (rules.binary least)
  unary : GivesOne tokens b rules.unary
  newExpression : GivesNext tokens b rules.newExpression

/-! ## Parts of several rules -/

section

variable {α β : Type} {tokens : List Token} {b : Nat} {start : Nat} {given : List NodeId}
  {moved : Bool} {x : Parser NodeId}

theorem Cleanly.some {P : State → Prop}
    (hx : Cleanly b P x fun id => Stands tokens start [id] true) :
    Cleanly b P (do return some (← x)) fun r => Stands tokens start r.toList moved :=
  hx.bind fun _ => .done (.refl _) fun _ => rfl

theorem givesOption_some (hx : GivesOne tokens b x) : GivesOption tokens b (do return some (← x)) :=
  fun _ _ _ => hx.bind fun _ => .done (.refl _) fun _ => rfl

theorem givesOption_none : GivesOption tokens b (pure none) :=
  fun _ _ _ => .done (by simp) id

/-- A list that a loop makes from nothing. -/
theorem givesList_iterate {body : List NodeId → Parser (Turn (List NodeId))}
    (h : ∀ start given moved items, Cleanly b (Stands tokens start (given ++ items) moved)
      (body items) fun t => Stands tokens start (given ++ t.value) moved) :
    GivesList tokens b (iterate [] body) := fun start given moved =>
  (cleanly_iterate (given ++ ·) (h start given moved) []).fewer (by simp) id

variable (hT : Sequence tokens)

include hT

theorem givesOption_after (k : TokenKind) (hx : GivesOne tokens b x) :
    GivesOption tokens b (after k x) := fun _ _ _ =>
  (steady_accept hT k).bind fun _ =>
    .ite (fun _ => givesOption_some hx _ _ _) fun _ => givesOption_none _ _ _

omit hT in
theorem givesOption_unlessAt (k : TokenKind) (hx : GivesOne tokens b x) :
    GivesOption tokens b (unlessAt k x) := fun _ _ _ =>
  Cleanly.look (fun _ => rfl) fun _ =>
    .ite (fun _ => givesOption_none _ _ _) fun _ => givesOption_some hx _ _ _

/-- Another turn with the items behind a comma, or the end. -/
theorem cleanly_turn (items : List NodeId) :
    Cleanly b (Stands tokens start (given ++ items) moved) (do
      if ← accept .comma then return .again items
      else return .done items : Parser (Turn (List NodeId))) fun t =>
        Stands tokens start (given ++ t.value) moved :=
  (steady_accept hT _).bind fun _ => .ite (fun _ => .done (.refl _) id) fun _ => .done (.refl _) id

theorem givesList_commaSeparated (stops : TokenKind → Bool) (hx : GivesOne tokens b x) :
    GivesList tokens b (commaSeparated stops x) := by
  refine givesList_iterate fun start given moved items => Cleanly.look (fun _ => rfl) fun k => ?_
  refine .ite (fun _ => .done (.refl _) id) fun _ => hx.bind fun item => ?_
  exact (cleanly_turn hT _).fewer (by simp) fun _ => rfl

/-- A list between two tokens. -/
theorem givesList_between {opening closing : TokenKind} (hopening : opening ≠ .endOfFile)
    (hclosing : closing ≠ .endOfFile) {x : Parser (List NodeId)} (hx : GivesList tokens b x) :
    GivesList tokens b (do
      if ← expect opening then
        let items ← x
        let _ ← expect closing
        return items
      else return []) := by
  refine fun start given moved => .expect hT hopening fun _ => .ite (fun _ => ?_) fun _ => ?_
  · exact hx.bind fun items => .expect hT hclosing fun _ => .done (.refl _) fun _ => rfl
  · exact .done (by simp) fun _ => rfl

theorem steady_memberModifiers : Steady tokens b memberModifiers := by
  refine steady_iterate (fun modifiers start given moved => ?_) _
  refine Cleanly.look (fun _ => rfl) fun s => ?_
  split
  · exact steady_pure _ _ _ _
  · exact (steady_advance hT).bind fun _ => steady_pure _ _ _ _

omit hT in
/-- A word that declares variables is not the end of the text. -/
theorem ne_endOfFile_of_variableKind? {s : State} {kind : VariableKind}
    (hkind : s.variableKind? = some kind) : s.kindAt 0 ≠ .endOfFile := by
  intro hend
  unfold State.variableKind? at hkind
  rw [hend] at hkind
  cases hkind

theorem steady_declarationModifiers : Steady tokens b declarationModifiers := by
  refine steady_iterate (fun modifiers start given moved => ?_) _
  refine Cleanly.look (fun _ => rfl) fun k => ?_
  split
  · exact (steady_note fun _ => rfl).bind fun _ => (steady_advance hT).bind fun _ =>
      steady_pure _ _ _ _
  · refine Cleanly.look (fun _ => rfl) fun s => .ite (fun _ => ?_) fun _ => steady_pure _ _ _ _
    exact (steady_advance hT).bind fun _ => steady_pure _ _ _ _
  · exact steady_pure _ _ _ _

end

namespace Lawful

variable {tokens : List Token} {b : Nat} {self : Productions} (hT : Sequence tokens)
  (h : Lawful tokens b self) {start : Nat} {moved : Bool}

include hT h

theorem givesOption_ascription : GivesOption tokens b (ascription self) :=
  givesOption_after hT _ h.type

theorem givesOption_initializer : GivesOption tokens b (initializer self) :=
  givesOption_after hT _ h.assignment

theorem givesOne_parameter : GivesOne tokens b (parameter self) := by
  refine Gives.of_here hT fun start => (steady_memberModifiers hT).bind fun modifiers => ?_
  refine (givesOne_bindingName hT).bind fun name => (steady_accept hT _).bind fun optional => ?_
  refine (h.givesOption_ascription hT).bind fun ascription => ?_
  exact (h.givesOption_initializer hT).bind fun initializer =>
    .finish hT (by simp [Form.children])

theorem givesList_parameters : GivesList tokens b (parameters self) :=
  givesList_between hT (by decide) (by decide)
    (givesList_commaSeparated hT _ (h.givesOne_parameter hT))

omit hT in
theorem givesList_statementsUntil (stops : TokenKind → Bool) :
    GivesList tokens b (statementsUntil self stops) := by
  refine givesList_iterate fun start given moved items => Cleanly.look (fun _ => rfl) fun k => ?_
  refine .ite (fun _ => .done (.refl _) id) fun _ => Cleanly.look (fun _ => rfl) fun before => ?_
  refine h.statement.bind fun statement => Cleanly.look (fun _ => rfl) fun left => ?_
  refine .ite (fun _ => ?_) fun _ => .done (by simp [Turn.value]) id
  -- a statement that passes no token is an error
  exact .report _ (.behind appends_advance)

theorem givesOne_block : GivesOne tokens b (block self) := by
  refine Gives.of_here hT fun start => .expect hT (by decide) fun _ => ?_
  refine (h.givesList_statementsUntil _).bind fun statements => ?_
  exact .expect hT (by decide) fun _ => .finish hT rfl

/-! ## Types -/

omit hT h in
theorem appends_missingType (s : State) : Appends s (missingType s).2 :=
  (appends_push s _).trans (appends_push _ _)

omit h in
/-- Of a name with dots only the last part is kept. -/
theorem cleanly_dottedName (first : NodeId) :
    Cleanly b (Stands tokens start [first] true) (dottedName first) fun name =>
      Stands tokens start [name] true := by
  refine cleanly_iterate (fun name => [name]) (fun name => ?_) first
  refine (steady_accept hT _).bind fun _ => .ite (fun _ => ?_) fun _ => .done (.refl _) id
  exact (givesOne_propertyName hT).bind fun _ => .done (List.sublist_append_right _ _) id

omit h in
theorem givesNext_typeReference : GivesNext tokens b typeReference := by
  refine .of_here hT fun start => (givesNext_wordAsName hT).bind fun first => ?_
  exact Cleanly.bind (cleanly_dottedName hT first) fun name => .finish hT rfl

theorem givesOne_functionType : GivesOne tokens b (functionType self) := by
  refine Gives.of_here hT fun start => (h.givesList_parameters hT).bind fun ps => ?_
  refine .expect hT (by decide) fun _ => h.type.bind fun result => ?_
  exact .finish hT (by simp [Form.children])

theorem givesNext_parenthesizedType : GivesNext tokens b (parenthesizedType self) := by
  refine .of_here hT fun start => .advance hT (h.type.bind fun inner => ?_)
  exact .expect hT (by decide) fun _ => .finish hT rfl

omit h in
theorem givesNext_literalType {x : Parser NodeId} (hx : GivesNext tokens b x) :
    GivesNext tokens b (do
      let start ← here
      let literal ← x
      finish start (.literalType literal)) :=
  .of_here hT fun _ => hx.bind fun _ => .finish hT rfl

theorem givesOne_primaryType : GivesOne tokens b (primaryType self) := by
  refine fun start given moved => Cleanly.kind fun k => ?_
  split
  case h_10 | h_11 =>
    exact .facing (by decide) (givesNext_literalType hT (givesNext_keywordNode hT) _ _ _)
  case h_12 | h_13 =>
    exact .facing (by decide) (givesNext_literalType hT (givesNext_literal hT) _ _ _)
  case h_14 =>
    refine Cleanly.look (fun _ => rfl) fun s => .ite (fun _ => ?_) fun _ => ?_
    · exact .standing (h.givesOne_functionType hT _ _ _)
    · exact .facing (by decide) (h.givesNext_parenthesizedType hT _ _ _)
  case h_15 =>
    refine .ite (fun hk => ?_) fun _ => .standing (.report _ (.behind appends_missingType))
    exact .facing (ne_endOfFile_of_isName hk) (givesNext_typeReference hT _ _ _)
  all_goals exact .facing (by decide) (givesNext_keywordNode hT _ _ _)

theorem givesOne_arrayType : GivesOne tokens b (arrayType self) := by
  refine Gives.of_here hT fun start => (h.givesOne_primaryType hT).bind fun first => ?_
  refine cleanly_iterate (fun element => [element]) (fun element => ?_) first
  refine Cleanly.look (fun _ => rfl) fun _ => Cleanly.look (fun _ => rfl) fun _ => ?_
  refine Cleanly.look (fun _ => rfl) fun _ => .ite (fun _ => ?_) fun _ => .done (.refl _) id
  refine (steady_advance hT).bind fun _ => (steady_advance hT).bind fun _ => ?_
  exact Cleanly.bind (.finish hT rfl) fun _ => .done (.refl _) id

theorem givesOne_unionType : GivesOne tokens b (unionType self) := by
  refine Gives.of_here hT fun start => (steady_accept hT _).bind fun leading => ?_
  refine (h.givesOne_arrayType hT).bind fun first => Cleanly.look (fun _ => rfl) fun _ => ?_
  refine .ite (fun _ => .done (.refl _) id) fun _ => ?_
  refine Cleanly.bind (cleanly_iterate id (fun members => ?_) [first]).with_result
    fun members => ?_
  · refine (steady_accept hT _).bind fun _ => .ite (fun _ => ?_) fun _ => .done (.refl _) id
    exact (h.givesOne_arrayType hT).bind fun member => .done (.refl _) id
  · refine .ite (fun hone => .pure ?_) fun _ => (Cleanly.finish hT rfl).weaken fun _ => And.right
    -- the only member is the first one
    rintro s ⟨⟨t, rfl⟩, hs⟩
    obtain ⟨rest, hrest⟩ := Builders.first_unionMembers (arrayType self) first t
    rw [hrest] at hone hs
    rw [List.length_eq_zero_iff.1 (Nat.succ.inj hone)] at hs
    exact hs

theorem givesOne_type : GivesOne tokens (b + 1) (Parsing.type self) :=
  (h.givesOne_unionType hT).nested appends_missingType

/-! ## Expressions

These rules are not nested: they are used where a token was not yet passed, with
a budget that the recursive rules have one token later. -/

theorem givesNext_arrayLiteral : GivesNext tokens (b + 1) (arrayLiteral self) := by
  refine .of_here hT fun start => .advance_less hT ?_
  refine (givesList_commaSeparated hT _ h.assignment).bind fun elements => ?_
  exact .expect hT (by decide) fun _ => .finish hT rfl

theorem givesOne_propertyAssignment : GivesOne tokens b (propertyAssignment self) := by
  refine Gives.of_here hT fun start => (givesOne_propertyName hT).bind fun name => ?_
  exact (givesOption_after hT _ h.assignment).bind fun value => .finish hT rfl

theorem givesNext_objectLiteral : GivesNext tokens (b + 1) (objectLiteral self) := by
  refine .of_here hT fun start => .advance_less hT ?_
  refine (givesList_commaSeparated hT _ (h.givesOne_propertyAssignment hT)).bind
    fun properties => ?_
  exact .expect hT (by decide) fun _ => .finish hT rfl

theorem givesNext_parenthesized : GivesNext tokens (b + 1) (parenthesized self) := by
  refine .of_here hT fun start => .advance_less hT (h.assignment.bind fun expression => ?_)
  exact .expect hT (by decide) fun _ => .finish hT rfl

omit hT h in
theorem cleanly_missingExpression {given : List NodeId} {Q : NodeId → State → Prop} :
    Cleanly b (Stands tokens start given moved) missingExpression Q := by
  refine .report _ (Cleanly.bind (Q := fun _ _ => False) (.behind appends_missingName) fun _ => ?_)
  exact .look (fun _ => rfl) fun _ =>
    .ite (fun _ => .behind .refl) fun _ => .behind appends_advance

theorem givesOne_primaryExpression : GivesOne tokens (b + 1) (primaryExpression self) := by
  refine fun start given moved => Cleanly.kind fun k => ?_
  split
  case h_1 | h_2 => exact .facing (by decide) (givesNext_literal hT _ _ _)
  case h_8 => exact .facing (by decide) (h.givesNext_parenthesized hT _ _ _)
  case h_9 => exact .facing (by decide) (h.givesNext_arrayLiteral hT _ _ _)
  case h_10 => exact .facing (by decide) (h.givesNext_objectLiteral hT _ _ _)
  case h_11 =>
    refine .ite (fun hk => ?_) fun _ => ?_
    · exact .facing (ne_endOfFile_of_isName hk) (givesNext_wordAsName hT _ _ _)
    · exact .standing cleanly_missingExpression
  all_goals exact .facing (by decide) (givesNext_keywordNode hT _ _ _)

theorem cleanly_arguments {given : List NodeId} :
    Cleanly (b + 1) (Stands tokens start given moved) (arguments self) fun values =>
      Stands tokens start (given ++ values) true := by
  refine .expect_less hT (by decide) fun _ => ?_
  refine (givesList_commaSeparated hT _ h.assignment).bind fun values => ?_
  exact .expect hT (by decide) fun _ => .done (.refl _) id

/-- Each access and call takes the expression in front of it for a child. -/
theorem cleanly_suffixes (allowCalls : Bool) (expression : NodeId) :
    Cleanly (b + 1) (Stands tokens start [expression] true)
      (suffixes self start allowCalls expression) fun id => Stands tokens start [id] true := by
  refine cleanly_iterate (fun id => [id]) (fun expression => ?_) expression
  have hagain : ∀ {b : Nat} {form : Form} {given : List NodeId}, given = form.children →
      Cleanly b (Stands tokens start given true)
        (do return .again (← finish start form) : Parser (Turn NodeId)) fun t =>
          Stands tokens start [t.value] true :=
    fun hform => Cleanly.bind (.finish hT hform) fun _ => .done (.refl _) id
  refine Cleanly.kind fun k => ?_
  split
  · refine .facing (by decide) (.advance hT ((givesOne_propertyName hT).bind fun name => ?_))
    exact hagain rfl
  · refine .facing (by decide) (.advance_less hT (h.assignment.bind fun index => ?_))
    exact .expect hT (by decide) fun _ => hagain rfl
  · refine .standing (.ite (fun _ => ?_) fun _ => .done (.refl _) id)
    exact (h.cleanly_arguments hT).bind fun values => hagain rfl
  · exact .standing (.done (.refl _) id)

section

variable {c : Nat} (hc : c ≤ b + 1)

include hc

theorem givesOne_newOrPrimary (hnew : GivesNext tokens c self.newExpression) :
    GivesOne tokens c (newOrPrimary self) := by
  refine fun start given moved => Cleanly.isAt fun r => .ite (fun hr => ?_) fun _ => ?_
  · refine (hnew start given moved).weaken fun s hs => ⟨hs.1, ?_⟩
    rw [hs.2 hr]
    decide
  · exact .standing ((h.givesOne_primaryExpression hT _ _ _).mono hc)

/-- What is called or accessed, with the calls and accesses behind it. -/
theorem givesOne_suffixed (hnew : GivesNext tokens c self.newExpression) (allowCalls : Bool) :
    GivesOne tokens c (do
      let start ← here
      suffixes self start allowCalls (← newOrPrimary self)) :=
  Gives.of_here hT fun _ => (h.givesOne_newOrPrimary hT hc hnew).bind fun first =>
    (h.cleanly_suffixes hT allowCalls first).mono hc

theorem givesOne_postfixed (hnew : GivesNext tokens c self.newExpression) :
    GivesOne tokens c (postfixed self) := by
  refine Gives.of_here hT fun start => (h.givesOne_suffixed hT hc hnew true).bind fun operand => ?_
  refine .look (fun _ => rfl) fun operator => .look (fun _ => rfl) fun _ => ?_
  refine .ite (fun _ => ?_) fun _ => .done (.refl _) id
  exact (steady_advance hT).bind fun _ => .finish hT rfl

end

theorem givesNext_newExpression : GivesNext tokens (b + 1) (Parsing.newExpression self) := by
  refine .of_here hT fun start => .advance_less hT ?_
  refine (h.givesOne_suffixed hT (Nat.le_succ b) h.newExpression false).here_bind fun callee => ?_
  refine .look (fun _ => rfl) fun _ => .ite (fun _ => ?_) fun _ => .finish hT rfl
  exact ((h.cleanly_arguments hT).mono (Nat.le_succ b)).bind fun values => .finish hT rfl

/-- An operator in front of its operand. -/
theorem givesNext_operator {form : NodeId → Form} (hform : ∀ id, (form id).children = [id]) :
    GivesNext tokens (b + 1) (do
      let start ← here
      advance
      let operand ← self.unary
      finish start (form operand)) :=
  .of_here hT fun _ => .advance_less hT (h.unary.bind fun id => .finish hT (hform id).symm)

theorem givesOne_unary {c : Nat} (hc : c ≤ b + 1)
    (hnew : GivesNext tokens c self.newExpression) : GivesOne tokens c (Parsing.unary self) := by
  refine fun start given moved => Cleanly.kind fun k => ?_
  split
  case h_7 => exact .standing (h.givesOne_postfixed hT hc hnew _ _ _)
  all_goals exact .facing (by decide) ((h.givesNext_operator hT (fun _ => rfl) _ _ _).mono hc)

theorem givesOne_binary {c : Nat} (hc : c ≤ b + 1) (hunary : GivesOne tokens c self.unary)
    (least : Nat) : GivesOne tokens c (Parsing.binary self least) := by
  refine Gives.of_here hT fun start => hunary.bind fun first => Cleanly.mono ?_ hc
  refine cleanly_iterate (fun id => [id]) (fun left => ?_) first
  refine Cleanly.kind fun operator => ?_
  refine .ite (fun _ => .standing (.done (.refl _) id)) fun hleast => ?_
  -- the end of the text binds as loosely as what is no operator
  have hnext : operator ≠ .endOfFile := by
    rintro rfl
    exact hleast (Nat.zero_le least)
  refine .ite (fun _ => ?_) fun _ => ?_
  · refine .look (fun _ => rfl) fun _ => .ite (fun _ => .standing (.done (.refl _) id)) fun _ => ?_
    refine .facing hnext (.advance_less hT (h.type.bind fun type => ?_))
    exact Cleanly.bind (.finish hT rfl) fun _ => .done (.refl _) id
  · refine .facing hnext (.advance_less hT ((h.binary _).bind fun right => ?_))
    exact Cleanly.bind (.finish hT rfl) fun _ => .done (.refl _) id

/-! ### Arrow functions and assignments -/

omit h in
theorem givesNext_simpleParameter : GivesNext tokens b simpleParameter :=
  .of_here hT fun _ => (givesNext_wordAsName hT).bind fun _ => .finish hT rfl

/-- The nodes in front of an arrow, if there is one. -/
theorem cleanly_arrowHead (simple : Bool) :
    Cleanly b (fun s => Stands tokens start [] false s ∧ (simple = true → s.kindAt 0 ≠ .endOfFile))
      (arrowHead self simple) fun r s =>
        ∀ head ∈ r, Stands tokens start (head.1 ++ head.2.toList) false s := by
  have hrest : ∀ {moved : Bool} (ps : List NodeId), Cleanly b (Stands tokens start ps moved) (do
      let result ← Parsing.ascription self
      if ← accept .arrow then return some (ps, result)
      else return none) fun r s =>
        ∀ head ∈ r, Stands tokens start (head.1 ++ head.2.toList) false s := by
    intro moved ps
    refine (h.givesOption_ascription hT).bind fun result => (steady_accept hT _).bind fun _ => ?_
    refine .ite (fun _ => .pure fun s hs head hhead => ?_) fun _ => .pure fun s _ head hhead => ?_
    · cases hhead
      exact hs.sublist (.refl _) nofun
    · cases hhead
  unfold arrowHead
  refine .ite (fun hsimple => ?_) fun _ => ?_
  · exact ((givesNext_simpleParameter hT).bind fun p => hrest [p]).weaken fun s hs =>
      ⟨hs.1, hs.2 hsimple⟩
  · exact .standing ((h.givesList_parameters hT).bind fun ps => hrest ps)

theorem givesOption_arrowFunction : GivesOption tokens b (arrowFunction self) := by
  refine fun start given moved => Cleanly.get fun s => ?_
  extract_lets simple
  refine .ite (fun _ => ?_) fun _ => (givesOption_none _ _ _).weaken fun _ => And.right
  refine Cleanly.weaken (Cleanly.here hT (p := fun s => simple = true → s.kindAt 0 ≠ .endOfFile)
    fun start => ?_) fun t ht => ⟨ht.2, fun hsimple => ?_⟩
  · refine (Cleanly.attempt (fun _ => And.left) (h.cleanly_arrowHead hT simple)).bind fun r => ?_
    cases r with
    | none => exact givesOption_none _ _ _
    | some head =>
      obtain ⟨ps, result⟩ := head
      have hrest : ∀ {x : Parser NodeId}, GivesOne tokens b x →
          Cleanly b (Stands tokens start (ps ++ result.toList) false) (do
            let body ← x
            return some (← finish start (.function .arrow
              { modifiers := .none, name := none, parameters := ps, returnType := result,
                body := some body }))) fun r => Stands tokens start r.toList false := fun hx =>
        hx.bind fun body => Cleanly.bind (.finish hT (by simp [Form.children])) fun _ =>
          .done (.refl _) nofun
      refine .look (fun _ => rfl) fun _ => .ite (fun _ => ?_) fun _ => ?_
      · exact hrest (h.givesOne_block hT)
      · exact hrest h.assignment
  · rw [ht.1]
    exact ne_endOfFile_of_isName (Bool.and_eq_true_iff.1 hsimple).1

theorem givesOne_assignmentOrTighter : GivesOne tokens b (assignmentOrTighter self) := by
  refine Gives.of_here hT fun start => (h.binary 0).bind fun left => ?_
  refine .look (fun _ => rfl) fun operator => .look (fun _ => rfl) fun s => .ite (fun _ => ?_)
    fun _ => ?_
  · refine (steady_advance hT).bind fun _ => h.assignment.bind fun right => ?_
    exact .finish hT rfl
  · refine (steady_accept hT _).bind fun _ => .ite (fun _ => ?_) fun _ => .done (.refl _) id
    refine h.assignment.bind fun whenTrue => .expect hT (by decide) fun _ => ?_
    exact h.assignment.bind fun whenFalse => .finish hT rfl

theorem givesOne_assignment : GivesOne tokens (b + 1) (Parsing.assignment self) := by
  refine Gives.nested (fun start given moved => ?_) appends_missingName
  refine (h.givesOption_arrowFunction hT).bind fun r => ?_
  cases r with
  -- the function is a node, so a token was passed
  | some arrow => exact .pure fun s hs => hs.passed (by simp)
  | none => exact (h.givesOne_assignmentOrTighter hT _ _ _).fewer (by simp) id

/-! ## Declarations -/

theorem givesOne_variableDeclaration (kind : VariableKind) :
    GivesOne tokens b (variableDeclaration self kind) := by
  refine Gives.of_here hT fun start => (givesOne_bindingName hT).bind fun name => ?_
  refine (h.givesOption_ascription hT).bind fun ascription => ?_
  exact (h.givesOption_initializer hT).bind fun initializer =>
    .finish hT (by simp [Form.children])

theorem givesList_variableDeclarations (kind : VariableKind) (inHead : Bool) :
    GivesList tokens b (variableDeclarations self kind inHead) := by
  refine givesList_iterate fun start given moved items => ?_
  refine (h.givesOne_variableDeclaration hT kind).bind fun declaration => ?_
  refine .look (fun _ => rfl) fun _ => .ite (fun _ => ?_) fun _ => ?_
  · exact .done (by simp [Turn.value]) fun _ => rfl
  · exact (cleanly_turn hT _).fewer (by simp) fun _ => rfl

theorem cleanly_variableStatement (modifiers : Modifiers) (kind : VariableKind) :
    Cleanly b (Faces tokens start [] moved) (variableStatement self start modifiers kind)
      fun id => Stands tokens start [id] true := by
  refine .advance hT ((h.givesList_variableDeclarations hT kind false).bind fun declarations => ?_)
  exact (steady_endStatement hT).bind fun _ => .finish hT rfl

theorem givesOption_functionBody : GivesOption tokens b (functionBody self) := by
  refine fun start given moved => .look (fun _ => rfl) fun _ => .ite (fun _ => ?_) fun _ => ?_
  · exact givesOption_some (h.givesOne_block hT) _ _ _
  · exact (steady_endStatement hT).bind fun _ => givesOption_none _ _ _

theorem cleanly_functionDeclaration (modifiers : Modifiers) :
    Cleanly b (Faces tokens start [] moved) (functionDeclaration self start modifiers)
      fun id => Stands tokens start [id] true := by
  refine .advance hT ((givesOne_bindingName hT).bind fun name => ?_)
  refine (h.givesList_parameters hT).bind fun ps => ?_
  refine (h.givesOption_ascription hT).bind fun result => ?_
  exact (h.givesOption_functionBody hT).bind fun body => .finish hT (by simp [Form.children])

/-! ### Classes -/

omit h in
theorem givesOne_heritageType : GivesOne tokens b heritageType := by
  refine Gives.of_here hT fun start => (givesOne_bindingName hT).bind fun first => ?_
  exact Cleanly.bind (cleanly_dottedName hT first) fun name => .finish hT rfl

theorem cleanly_constructorMember (modifiers : Modifiers) :
    Cleanly b (Faces tokens start [] moved) (constructorMember self start modifiers)
      fun id => Stands tokens start [id] true := by
  refine (givesNext_wordAsName hT).bind fun name => (h.givesList_parameters hT).bind fun ps => ?_
  exact (h.givesOption_functionBody hT).bind fun body => .finish hT (by simp [Form.children])

theorem cleanly_namedMember (modifiers : Modifiers) :
    Cleanly b (Stands tokens start [] moved) (namedMember self start modifiers)
      fun id => Stands tokens start [id] true := by
  refine (givesOne_propertyName hT).bind fun name => (steady_accept hT _).bind fun optional => ?_
  refine .look (fun _ => rfl) fun _ => .ite (fun _ => ?_) fun _ => ?_
  · refine (h.givesList_parameters hT).bind fun ps => ?_
    refine (h.givesOption_ascription hT).bind fun result => ?_
    exact (h.givesOption_functionBody hT).bind fun body => .finish hT (by simp [Form.children])
  · refine (h.givesOption_ascription hT).bind fun ascription => ?_
    refine (h.givesOption_initializer hT).bind fun initializer => ?_
    exact (steady_endStatement hT).bind fun _ => .finish hT (by simp [Form.children])

theorem givesOne_classMember : GivesOne tokens b (classMember self) := by
  refine Gives.of_here hT fun start => (steady_memberModifiers hT).bind fun modifiers => ?_
  refine Cleanly.isAt fun r => .look (fun _ => rfl) fun _ => .ite (fun hr => ?_) fun _ => ?_
  · refine (h.cleanly_constructorMember hT modifiers).weaken fun s hs => ⟨hs.1, ?_⟩
    rw [hs.2 (Bool.and_eq_true_iff.1 hr).1]
    decide
  · exact .standing (h.cleanly_namedMember hT modifiers)

theorem givesList_classMembers : GivesList tokens b (classMembers self) := by
  refine givesList_between hT (by decide) (by decide) ?_
  refine givesList_iterate fun start given moved items => .look (fun _ => rfl) fun _ => ?_
  refine .ite (fun _ => .done (.refl _) id) fun _ => (steady_accept hT _).bind fun _ => ?_
  refine .ite (fun _ => .done (.refl _) id) fun _ => .look (fun _ => rfl) fun before => ?_
  refine (h.givesOne_classMember hT).bind fun member => .look (fun _ => rfl) fun left => ?_
  refine .ite (fun _ => ?_) fun _ => .done (by simp [Turn.value]) fun _ => rfl
  -- a member that passes no token is an error
  exact .report _ (.behind appends_advance)

theorem cleanly_classDeclaration (modifiers : Modifiers) :
    Cleanly b (Faces tokens start [] moved) (classDeclaration self start modifiers)
      fun id => Stands tokens start [id] true := by
  refine .advance hT ((givesOne_bindingName hT).bind fun name => ?_)
  refine (givesOption_after hT _ (givesOne_heritageType hT)).bind fun heritage => ?_
  exact (h.givesList_classMembers hT).bind fun members => .finish hT (by simp [Form.children])

/-! ### Interfaces and aliases -/

theorem givesOne_typeMember : GivesOne tokens b (typeMember self) := by
  have hrest : ∀ {start : Nat} {moved : Bool} (modifiers : Modifiers),
      Cleanly b (Stands tokens start [] moved) (do
        let name ← propertyName
        let optional ← accept .question
        if ← isAt .openParen then
          let parameters ← parameters self
          let returnType ← Parsing.ascription self
          finish start (.function .methodSignature
            { modifiers, name := some name, parameters, returnType, body := none })
        else
          let ascription ← Parsing.ascription self
          finish start (.propertySignature
            { modifiers, name, optional, ascription, initializer := none })) fun id =>
              Stands tokens start [id] true := by
    intro start moved modifiers
    refine (givesOne_propertyName hT).bind fun name => (steady_accept hT _).bind fun optional => ?_
    refine .look (fun _ => rfl) fun _ => .ite (fun _ => ?_) fun _ => ?_
    · refine (h.givesList_parameters hT).bind fun ps => ?_
      exact (h.givesOption_ascription hT).bind fun result => .finish hT (by simp [Form.children])
    · exact (h.givesOption_ascription hT).bind fun ascription =>
        .finish hT (by simp [Form.children])
  refine Gives.of_here hT fun start => .look (fun _ => rfl) fun _ => ?_
  refine .look (fun _ => rfl) fun _ => .ite (fun _ => ?_) fun _ => .pure_bind (hrest _)
  exact (steady_advance hT).bind fun _ => .pure_bind (hrest _)

omit h in
theorem steady_memberSeparator : Steady tokens b memberSeparator := by
  refine fun start given moved => (steady_accept hT _).bind fun _ =>
    .ite (fun _ => steady_pure _ _ _ _) fun _ => ?_
  refine (steady_accept hT _).bind fun _ => .ite (fun _ => steady_pure _ _ _ _) fun _ => ?_
  refine .look (fun _ => rfl) fun _ => .ite (fun _ => steady_pure _ _ _ _) fun _ => ?_
  refine .look (fun _ => rfl) fun _ => .ite (fun _ => steady_pure _ _ _ _) fun _ => ?_
  exact steady_report _ _ _ _

theorem givesList_typeMembers : GivesList tokens b (typeMembers self) := by
  refine givesList_between hT (by decide) (by decide) ?_
  refine givesList_iterate fun start given moved items => .look (fun _ => rfl) fun _ => ?_
  refine .ite (fun _ => .done (.refl _) id) fun _ => .look (fun _ => rfl) fun before => ?_
  refine (h.givesOne_typeMember hT).bind fun member => (steady_memberSeparator hT).bind fun _ => ?_
  refine .look (fun _ => rfl) fun left => .ite (fun _ => ?_) fun _ => ?_
  · exact (steady_advance hT).bind fun _ => .done (by simp [Turn.value]) fun _ => rfl
  · exact .done (by simp [Turn.value]) fun _ => rfl

omit h in
theorem givesList_heritageTypes : GivesList tokens b heritageTypes := by
  refine fun start given moved => (steady_accept hT _).bind fun _ => .ite (fun _ => ?_) fun _ => ?_
  · refine givesList_iterate (fun start given moved items => ?_) _ _ _
    refine (givesOne_heritageType hT).bind fun type => ?_
    exact (cleanly_turn hT _).fewer (by simp) fun _ => rfl
  · exact .done (by simp) id

theorem cleanly_interfaceDeclaration (modifiers : Modifiers) :
    Cleanly b (Faces tokens start [] moved) (interfaceDeclaration self start modifiers)
      fun id => Stands tokens start [id] true := by
  refine .advance hT ((givesOne_bindingName hT).bind fun name => ?_)
  refine (givesList_heritageTypes hT).bind fun heritage => ?_
  exact (h.givesList_typeMembers hT).bind fun members => .finish hT (by simp [Form.children])

theorem cleanly_typeAlias (modifiers : Modifiers) :
    Cleanly b (Faces tokens start [] moved) (typeAlias self start modifiers)
      fun id => Stands tokens start [id] true := by
  refine .advance hT ((givesOne_bindingName hT).bind fun name => ?_)
  refine .expect hT (by decide) fun _ => h.type.bind fun aliased => ?_
  exact (steady_endStatement hT).bind fun _ => .finish hT rfl

/-! ### Imports -/

omit h in
theorem givesOne_importSpecifier : GivesOne tokens b importSpecifier := by
  refine Gives.of_here hT fun start => (givesOne_propertyName hT).bind fun first => ?_
  refine (steady_accept hT _).bind fun _ => .ite (fun _ => ?_) fun _ => .finish hT rfl
  exact (givesOne_bindingName hT).bind fun name => .finish hT rfl

omit h in
theorem givesList_importSpecifiers : GivesList tokens b importSpecifiers :=
  givesList_between hT (by decide) (by decide)
    (givesList_commaSeparated hT _ (givesOne_importSpecifier hT))

omit h in
theorem givesNext_importDeclaration : GivesNext tokens b importDeclaration := by
  refine .of_here hT fun start => .advance hT ?_
  refine (givesList_importSpecifiers hT).bind fun specifiers => .expect hT (by decide) fun _ => ?_
  refine Cleanly.isAt fun r => .ite (fun hr => ?_) fun _ => .standing ?_
  · refine Cleanly.weaken ((givesNext_literal hT).bind fun source => Cleanly.pure_bind
      ((steady_endStatement hT).bind fun _ => .finish hT rfl)) fun s hs => ⟨hs.1, ?_⟩
    rw [hs.2 hr]
    decide
  · have hrest : Cleanly b (Stands tokens start (specifiers ++ []) true) (do
        endStatement
        finish start (.importDeclaration specifiers none)) fun id =>
          Stands tokens start [id] true :=
      (steady_endStatement hT).bind fun _ => .finish hT rfl
    exact .report _ (Cleanly.pure_bind (hrest.weaken fun _ hs => hs.elim))

theorem givesOption_declaration : GivesOption tokens b (declaration self) := by
  refine Gives.of_here hT fun start => (steady_declarationModifiers hT).bind fun modifiers => ?_
  refine Cleanly.kind fun k => ?_
  split
  · exact .facing (by decide) (h.cleanly_functionDeclaration hT modifiers).some
  · exact .facing (by decide) (h.cleanly_classDeclaration hT modifiers).some
  · exact .facing (by decide) (h.cleanly_interfaceDeclaration hT modifiers).some
  · exact .facing (by decide) (h.cleanly_typeAlias hT modifiers).some
  · refine Cleanly.get fun s => ?_
    split
    · rename_i hkind
      refine (h.cleanly_variableStatement hT modifiers _).some.weaken fun t ht => ⟨ht.2.1, ?_⟩
      rw [ht.1]
      exact ne_endOfFile_of_variableKind? hkind
    · exact Cleanly.weaken (.report _ (.behind .refl)) fun t ht => ht.2.1

/-! ## Statements -/

theorem cleanly_condition {given : List NodeId} :
    Cleanly b (Stands tokens start given moved) (condition self) fun id =>
      Stands tokens start (given ++ [id]) true := by
  refine .expect hT (by decide) fun _ => h.assignment.bind fun expression => ?_
  exact .expect hT (by decide) fun _ => .done (.refl _) id

theorem givesNext_ifStatement : GivesNext tokens b (ifStatement self) := by
  refine .of_here hT fun start => .advance hT ((h.cleanly_condition hT).bind fun condition => ?_)
  refine h.statement.bind fun thenBranch => (steady_accept hT _).bind fun _ => ?_
  refine .ite (fun _ => ?_) fun _ => .finish hT (by simp [Form.children])
  exact h.statement.bind fun elseBranch => .finish hT (by simp [Form.children])

theorem givesNext_whileStatement : GivesNext tokens b (whileStatement self) := by
  refine .of_here hT fun start => .advance hT ((h.cleanly_condition hT).bind fun condition => ?_)
  exact h.statement.bind fun body => .finish hT rfl

theorem givesOption_forInitializer : GivesOption tokens b (forInitializer self) := by
  refine fun start given moved => .look (fun _ => rfl) fun _ =>
    .ite (fun _ => givesOption_none _ _ _) fun _ => Cleanly.get fun s => ?_
  split
  · rename_i kind hkind
    refine Cleanly.weaken (Cleanly.here hT (p := fun s => s.kindAt 0 ≠ .endOfFile)
      fun start => ?_) fun t ht => ⟨ht.2, ?_⟩
    · refine Cleanly.weaken (.advance hT ?_) fun s hs => ⟨hs.1, hs.2⟩
      refine (h.givesList_variableDeclarations hT kind true).bind fun declarations => ?_
      exact Cleanly.bind (.finish hT rfl) fun _ => .done (.refl _) nofun
    · rw [ht.1]
      exact ne_endOfFile_of_variableKind? hkind
  · exact (givesOption_some h.assignment _ _ _).weaken fun _ => And.right

theorem givesNext_forStatement : GivesNext tokens b (forStatement self) := by
  refine .of_here hT fun start => .advance hT (.expect hT (by decide) fun _ => ?_)
  refine (h.givesOption_forInitializer hT).bind fun initializer => ?_
  refine (steady_accept hT _).bind fun _ => .ite (fun _ => ?_) fun _ => ?_
  · refine h.assignment.bind fun iterated => .expect hT (by decide) fun _ => ?_
    exact h.statement.bind fun body => .finish hT (by simp [Form.children])
  · refine .expect hT (by decide) fun _ => ?_
    refine (givesOption_unlessAt _ h.assignment).bind fun condition => ?_
    refine .expect hT (by decide) fun _ => ?_
    refine (givesOption_unlessAt _ h.assignment).bind fun increment => ?_
    refine .expect hT (by decide) fun _ => ?_
    exact h.statement.bind fun body => .finish hT rfl

theorem givesNext_returnStatement : GivesNext tokens b (returnStatement self) := by
  refine .of_here hT fun start => .advance hT (steady_canEndStatement.bind fun _ => ?_)
  refine .ite (fun _ => ?_) fun _ => h.assignment.bind fun expression => ?_
  · exact Cleanly.pure_bind ((steady_endStatement hT).bind fun _ => .finish hT rfl)
  · exact Cleanly.pure_bind ((steady_endStatement hT).bind fun _ => .finish hT rfl)

omit h in
theorem givesNext_wordStatement {form : Form} (hform : form.children = []) :
    GivesNext tokens b (wordStatement form) :=
  .of_here hT fun _ => .advance hT ((steady_endStatement hT).bind fun _ =>
    .finish hT hform.symm)

omit h in
theorem givesNext_emptyStatement : GivesNext tokens b emptyStatement :=
  .of_here hT fun _ => .advance hT (.finish hT rfl)

theorem givesOne_expressionStatement : GivesOne tokens b (expressionStatement self) := by
  refine Gives.of_here hT fun start => h.assignment.bind fun expression => ?_
  exact (steady_endStatement hT).bind fun _ => .finish hT rfl

theorem givesOption_anyStatement : GivesOption tokens b (anyStatement self) := by
  have hnext : ∀ {x : Parser NodeId} {k : TokenKind} {start : Nat} {given : List NodeId}
      {moved : Bool}, k ≠ .endOfFile → GivesNext tokens b x →
      Cleanly b (fun s => Stands tokens start given moved s ∧ s.kindAt 0 = k)
        (do return some (← x)) fun r => Stands tokens start (given ++ r.toList) moved :=
    fun hk hx => .facing hk (hx.bind fun _ => .done (.refl _) fun _ => rfl)
  refine fun start given moved => Cleanly.kind fun k => ?_
  split
  · exact .standing (givesOption_none _ _ _)
  · exact .standing (givesOption_none _ _ _)
  · exact .standing (givesOption_some (h.givesOne_block hT) _ _ _)
  · exact hnext (by decide) (givesNext_emptyStatement hT)
  · exact hnext (by decide) (h.givesNext_ifStatement hT)
  · exact hnext (by decide) (h.givesNext_whileStatement hT)
  · exact hnext (by decide) (h.givesNext_forStatement hT)
  · exact hnext (by decide) (h.givesNext_returnStatement hT)
  · exact hnext (by decide) (givesNext_wordStatement hT rfl)
  · exact hnext (by decide) (givesNext_wordStatement hT rfl)
  · refine .facing (by decide) (Cleanly.bind (Cleanly.note (fun _ => rfl) fun s _ _ hs =>
      ⟨hs.toStands.same rfl rfl, hs.next⟩) fun _ => ?_)
    exact (givesNext_importDeclaration hT).bind fun _ => .done (.refl _) fun _ => rfl
  · refine .standing (.look (fun _ => rfl) fun s => .ite (fun _ => ?_) fun _ => ?_)
    · exact h.givesOption_declaration hT _ _ _
    · exact givesOption_some (h.givesOne_expressionStatement hT) _ _ _

theorem givesOption_statement : GivesOption tokens (b + 1) (Parsing.statement self) :=
  (h.givesOption_anyStatement hT).nested appends_advance

end Lawful

/-! ## The recursion -/

section

variable {α : Type} {tokens : List Token} (hT : Sequence tokens)

include hT

/-- The end of the text is always left, so there is no state without budget. -/
theorem Stands.budget_pos {start : Nat} {given : List NodeId} {moved : Bool} {s : State}
    (hs : Stands tokens start given moved s) : 0 < s.budget := by
  have hrest := List.length_pos_of_mem (hs.orderly.mem_tokenAt hT)
  have hcounted := hs.orderly.counted
  unfold State.budget
  omega

theorem Gives.of_appends {x : Parser α} {gives : α → List NodeId} {moves : Bool}
    (hx : ∀ s, Appends s (x s).2) : Gives tokens 0 x gives moves := fun _ _ _ =>
  ⟨hx, fun _ hb hs => absurd (hs.budget_pos hT) (Nat.not_lt.2 hb)⟩

theorem GivesNext.of_appends {x : Parser NodeId} (hx : ∀ s, Appends s (x s).2) :
    GivesNext tokens 0 x := fun _ _ _ =>
  ⟨hx, fun _ hb hs => absurd (hs.toStands.budget_pos hT) (Nat.not_lt.2 hb)⟩

theorem lawful_noProductions : Lawful tokens 0 noProductions := by
  have hexhaust : ∀ s : State, Appends s { s with exhausted := true } := fun s =>
    appends_note s s.moduleSyntax true
  have hname : ∀ s, Appends s (missingName { s with exhausted := true }).2 := fun s =>
    (hexhaust s).trans (appends_missingName _)
  exact
    { statement := Gives.of_appends hT hexhaust
      type := Gives.of_appends hT fun s => (hexhaust s).trans (Lawful.appends_missingType _)
      assignment := Gives.of_appends hT hname
      binary := fun _ => Gives.of_appends hT hname
      unary := Gives.of_appends hT hname
      newExpression := GivesNext.of_appends hT hname }

/-- One more nested use allows for a budget of one more, but for unary
expressions, which use `new` expressions, and binary ones, which use unary ones,
with the budget they have. -/
theorem Lawful.succ {b c n : Nat} (h : Lawful tokens b (productions n)) (hc : c ≤ b + 1)
    (hunary : GivesOne tokens c (productions n).unary)
    (hnew : GivesNext tokens c (productions n).newExpression) :
    Lawful tokens c (productions (n + 1)) where
  statement := (h.givesOption_statement hT).mono hc
  type := (h.givesOne_type hT).mono hc
  assignment := (h.givesOne_assignment hT).mono hc
  binary := h.givesOne_binary hT hc hunary
  unary := h.givesOne_unary hT hc hnew
  newExpression := (h.givesNext_newExpression hT).mono hc

/-- Three nested uses for each token and level are enough. -/
theorem lawful_productions (b : Nat) : ∀ n, 3 * b ≤ n → Lawful tokens b (productions n) := by
  induction b with
  | zero =>
    intro n _
    induction n with
    | zero => exact lawful_noProductions hT
    | succ n ih =>
      have h := ih (Nat.zero_le _)
      exact h.succ hT (Nat.zero_le _) h.unary h.newExpression
  | succ b ih =>
    intro n hn
    obtain ⟨m, rfl⟩ : ∃ m, n = m + 3 := ⟨n - 3, by omega⟩
    have hnew := (ih m (by omega)).givesNext_newExpression hT
    have hunary := (ih (m + 1) (by omega)).givesOne_unary hT (Nat.le_refl _) hnew
    have hnew' := (ih (m + 1) (by omega)).givesNext_newExpression hT
    exact (ih (m + 2) (by omega)).succ hT (Nat.le_refl _) hunary hnew'

/-- Without errors the statements of a file stand one behind the other, up to
the last token passed. -/
theorem stands_statements {last : List NodeId × State}
    (hlast : last = statementsUntil (productions (nestingBound tokens.length)) (· == .endOfFile)
      (.start tokens)) (hclean : last.2.errors.size = 0) :
    Stands tokens (State.start tokens).here last.1 false last.2 := by
  have hbudget : (State.start tokens).budget = tokens.length + maxDepth := rfl
  have hlawful := lawful_productions hT (State.start tokens).budget
    (nestingBound tokens.length) (by rw [hbudget]; unfold nestingBound; omega)
  have hstart := (orderly_start tokens).stands hT
  subst hlast
  exact (hlawful.givesList_statementsUntil _ _ [] false).clean _ (Nat.le_refl _) hstart hclean

end

end ScriptAnalysis.Parsing

namespace ScriptAnalysis.SourceFile

open Parsing

/-- The spans of the nodes of a file are made of its tokens, and nest: all but
the root take some of the text, from the start of a token to the end of one; the
span of a child lies in that of its parent; and the children of a node stand in
their order, one behind the other. The end of the text does not count as a
token. -/
structure Nested (f : SourceFile) : Prop where
  proper : ∀ i node, f.arena[i]? = some node → i ≠ f.root → node.pos < node.stop
  starts : ∀ i node, f.arena[i]? = some node → i ≠ f.root →
    ∃ t ∈ (Lexer.scan f.text).tokens, t.kind ≠ .endOfFile ∧ t.start = node.pos
  stops : ∀ i node, f.arena[i]? = some node → i ≠ f.root →
    ∃ t ∈ (Lexer.scan f.text).tokens, t.kind ≠ .endOfFile ∧ t.stop = node.stop
  enclosed : ∀ i node, f.arena[i]? = some node → ∀ c ∈ f.arena.children i,
    ∃ child, f.arena[c]? = some child ∧ node.pos ≤ child.pos ∧ child.stop ≤ node.stop
  ordered : ∀ i, (f.arena.children i).Pairwise fun c d => ∀ child next,
    f.arena[c]? = some child → f.arena[d]? = some next → child.stop ≤ next.pos

/-- A file is its statements under one node that spans the text. -/
theorem parse_statements (name : String) (text : List Char) :
    ∃ last : List NodeId × State, last =
        statementsUntil (productions (nestingBound (Lexer.scan text).tokens.length))
          (· == .endOfFile) (.start (Lexer.scan text).tokens) ∧
      (parse name text).arena =
        last.2.arena.push ⟨.sourceFile last.1, 0, (last.2.tokenAt 0).stop⟩ ∧
      (parse name text).root = last.2.arena.size ∧
      ((parse name text).errors = [] → last.2.errors.size = 0) := by
  refine ⟨_, rfl, rfl, rfl, fun h => ?_⟩
  have hperm : ((parse name text).errors).Perm ((Lexer.scan text).errors ++
      (parseTokens (Lexer.scan text).tokens).2.errors.toList) := Order.perm_sort _ _
  rw [h] at hperm
  exact congrArg List.length (List.append_eq_nil_iff.1 hperm.symm.eq_nil).2

/-- What holds of the nodes of a file without errors: the children are laid in
the span of their parent, and all nodes but the root are made of tokens. -/
theorem spanned_parse {name : String} {text : List Char} (h : (parse name text).errors = [])
    {i : NodeId} {node : Node} (hi : (parse name text).arena[i]? = some node) :
    (parse name text).arena.Laid node.pos node.stop node.form.children ∧
      (i ≠ (parse name text).root →
        Arena.Spanned (Lexer.scan text).tokens (parse name text).arena node) := by
  have hT := sequence_scan text
  obtain ⟨last, hlast, harena, hroot, herrors⟩ := parse_statements name text
  have hstands := stands_statements hT hlast (herrors h)
  have hgrows := prefix_push last.2 ⟨.sourceFile last.1, 0, (last.2.tokenAt 0).stop⟩
  rw [harena] at hi ⊢
  rw [hroot]
  rw [Array.getElem?_push] at hi
  split at hi
  · rename_i hlast
    cases hi
    refine ⟨?_, fun hne => absurd hlast hne⟩
    -- the statements stop before the end of the text
    have hend := hT.forward _ (hstands.here_mem hT)
    have hbefore := hstands.orderly.prevStop_le_here hT
    exact (hstands.laid.grow hgrows).widen (Nat.zero_le _) (hbefore.trans hend)
  · have hnode : node ∈ last.2.arena.toList := by
      rw [Array.mem_toList_iff]
      exact Array.mem_of_getElem? hi
    have hspanned := (hstands.orderly.nodes node hnode).grow hgrows
    exact ⟨hspanned.children, fun _ => hspanned⟩

/-- The spans of a file that parses without errors nest. -/
theorem parse_nested (name : String) (text : List Char) (h : (parse name text).errors = []) :
    (parse name text).Nested where
  proper _ _ hi hne := ((spanned_parse h hi).2 hne).proper
  starts _ _ hi hne := ((spanned_parse h hi).2 hne).start
  stops _ _ hi hne := ((spanned_parse h hi).2 hne).stop
  enclosed i node hi c hc := by
    rw [Arena.children_of_getElem? hi] at hc
    obtain ⟨child, hchild, hpos, -, hstop⟩ := (spanned_parse h hi).1.within c hc
    exact ⟨child, hchild, hpos, hstop⟩
  ordered i := by
    cases hi : (parse name text).arena[i]? with
    | none =>
      rw [Arena.children_of_le (Array.getElem?_eq_none_iff.1 hi)]
      exact .nil
    | some node =>
      rw [Arena.children_of_getElem? hi]
      exact (spanned_parse h hi).1.ordered

/-- What stands before the first colon is tried as the head of an arrow function
and parsed again; a line end stands for a semicolon. -/
theorem conditional_nested :
    (parse "/a.ts" "let f = c ? (a) : (b) => b\nf(1)".toList).errors = [] ∧
      (parse "/a.ts" "let f = c ? (a) : (b) => b\nf(1)".toList).Nested := by
  have hclean : (parse "/a.ts" "let f = c ? (a) : (b) => b\nf(1)".toList).errors = [] := by
    rw [String.toList_ofList]
    decide +kernel
  exact ⟨hclean, parse_nested _ _ hclean⟩

end ScriptAnalysis.SourceFile
