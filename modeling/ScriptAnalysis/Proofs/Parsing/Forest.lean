import ScriptAnalysis.Proofs.Parsing.Builds
import ScriptAnalysis.SourceFile

/-!
# The tree of a file is a tree

Each rule of the grammar parses its parts one after the other and makes them
the children of one node. Some parts are given up again (the names in front
of a dot, a list of types with one member, a statement that passes no token,
all nodes of an abandoned attempt), but none is used twice.

**Rules.** `Builders self`: the recursive rules of the grammar give new
nodes (`BuildsOne`, `BuildsOption`), and nothing else happens to the arena.
There is a lemma for each rule, named by the rule, and `productions_build`
ties the recursion.

**Results.**
* `file_builds`: the whole file is one new node, the last one.
* `SourceFile.parse_forest`: the arena of every source file is a forest with
  its root at the end, in which every walk visits what it can reach, each
  node once.
-/
namespace ScriptAnalysis.Parsing

/-- The recursive rules of the grammar give new nodes. -/
structure Builders (rules : Productions) : Prop where
  statement : BuildsOption rules.statement
  type : BuildsOne rules.type
  assignment : BuildsOne rules.assignment
  binary : ∀ least, BuildsOne (rules.binary least)
  unary : BuildsOne rules.unary
  newExpression : BuildsOne rules.newExpression

/-! ## Parts of several rules -/

section

variable {x : Parser NodeId}

theorem buildsOption_some (hx : BuildsOne x) : BuildsOption (do return some (← x)) :=
  Builds.bind hx fun _ => .pure (.refl _)

theorem buildsOption_none : BuildsOption (pure none) :=
  .pure (.refl _)

theorem buildsOption_after (k : TokenKind) (hx : BuildsOne x) : BuildsOption (after k x) :=
  (idle_accept k).bind fun _ =>
    .ite (fun _ => buildsOption_some hx) fun _ => buildsOption_none

theorem buildsOption_unlessAt (k : TokenKind) (hx : BuildsOne x) : BuildsOption (unlessAt k x) :=
  (idle_isAt k).bind fun _ =>
    .ite (fun _ => buildsOption_none) fun _ => buildsOption_some hx

/-- Another turn with the items behind a comma, or the end. -/
theorem builds_turn (items : List NodeId) : Builds items (do
    if ← accept .comma then return .again items
    else return .done items : Parser (Turn (List NodeId))) Turn.value :=
  (idle_accept _).bind fun _ => .ite (fun _ => .pure (.refl _)) fun _ => .pure (.refl _)

theorem buildsList_commaSeparated (stops : TokenKind → Bool) (hx : BuildsOne x) :
    BuildsList (commaSeparated stops x) := by
  refine builds_iterate id (fun items => ?_) []
  refine idle_kind.bind fun k => .ite (fun _ => .pure (.refl _)) fun _ => ?_
  exact Builds.more hx fun item => builds_turn _

end

theorem idle_memberModifiers : Idle memberModifiers := by
  refine idle_iterate (fun modifiers => Idle.get.bind fun s => ?_) _
  split
  · exact Idle.pure _
  · exact idle_advance.bind fun _ => Idle.pure _

theorem idle_declarationModifiers : Idle declarationModifiers := by
  refine idle_iterate (fun modifiers => idle_kind.bind fun k => ?_) _
  split
  · exact Idle.bind (.of_same fun _ => rfl) fun _ => idle_advance.bind fun _ => Idle.pure _
  · refine Idle.get.bind fun s => .ite (fun _ => ?_) fun _ => Idle.pure _
    exact idle_advance.bind fun _ => Idle.pure _
  · exact Idle.pure _

namespace Builders

variable {self : Productions} (h : Builders self)

include h

theorem builds_ascription : BuildsOption (ascription self) :=
  buildsOption_after _ h.type

theorem builds_initializer : BuildsOption (initializer self) :=
  buildsOption_after _ h.assignment

theorem builds_parameter : BuildsOne (parameter self) := by
  refine idle_here.bind fun _ => idle_memberModifiers.bind fun _ => ?_
  refine buildsOne_bindingName.bind fun name => (idle_accept _).bind fun _ => ?_
  refine Builds.more h.builds_ascription fun ascription => ?_
  exact Builds.more h.builds_initializer fun initializer => .finish (by simp [Form.children])

theorem builds_parameters : BuildsList (parameters self) := by
  refine (idle_expect _).bind fun _ => .ite (fun _ => ?_) fun _ => .pure (.refl _)
  refine Builds.bind (buildsList_commaSeparated _ h.builds_parameter) fun ps => ?_
  exact (idle_expect _).bind fun _ => .pure (.refl _)

theorem builds_statementsUntil (stops : TokenKind → Bool) :
    BuildsList (statementsUntil self stops) := by
  refine builds_iterate id (fun statements => ?_) []
  refine idle_kind.bind fun _ => .ite (fun _ => .pure (.refl _)) fun _ => ?_
  refine idle_remaining.bind fun _ => Builds.more h.statement fun statement => ?_
  refine idle_remaining.bind fun _ => .ite (fun _ => ?_) fun _ => .pure (.refl _)
  -- a statement that passes no token is given up
  refine (idle_report _).bind fun _ => idle_advance.bind fun _ => ?_
  exact .pure (List.sublist_append_left _ _)

theorem builds_block : BuildsOne (block self) := by
  refine idle_here.bind fun _ => (idle_expect _).bind fun _ => ?_
  refine Builds.bind (h.builds_statementsUntil _) fun statements => ?_
  exact (idle_expect _).bind fun _ => .finish rfl

/-! ## Types -/

omit h in
theorem builds_missingType : BuildsOne missingType :=
  idle_here.bind fun _ => buildsOne_missingName.bind fun _ => .addNode rfl

omit h in
/-- Of a name with dots only the last part is kept. -/
theorem builds_dottedName (first : NodeId) :
    Builds [first] (dottedName first) fun name => [name] := by
  refine builds_iterate (fun name => [name]) (fun name => ?_) first
  refine (idle_accept _).bind fun _ => .ite (fun _ => ?_) fun _ => .pure (.refl _)
  exact Builds.more buildsOne_propertyName fun _ => .pure (List.sublist_append_right _ _)

omit h in
theorem builds_typeReference : BuildsOne typeReference := by
  refine idle_here.bind fun _ => buildsOne_wordAsName.bind fun first => ?_
  exact Builds.bind (builds_dottedName first) fun name => .finish rfl

theorem builds_functionType : BuildsOne (functionType self) := by
  refine idle_here.bind fun _ => Builds.bind h.builds_parameters fun ps => ?_
  refine (idle_expect _).bind fun _ => Builds.more h.type fun result => ?_
  exact .finish (by simp [Form.children])

theorem builds_parenthesizedType : BuildsOne (parenthesizedType self) := by
  refine idle_here.bind fun _ => idle_advance.bind fun _ => Builds.bind h.type fun inner => ?_
  exact (idle_expect _).bind fun _ => .finish rfl

omit h in
theorem builds_literalType {x : Parser NodeId} (hx : BuildsOne x) : BuildsOne (do
    let start ← here
    let literal ← x
    finish start (.literalType literal)) :=
  idle_here.bind fun _ => Builds.bind hx fun _ => .finish rfl

theorem builds_primaryType : BuildsOne (primaryType self) := by
  refine idle_kind.bind fun k => ?_
  split
  case h_10 | h_11 => exact builds_literalType buildsOne_keywordNode
  case h_12 | h_13 => exact builds_literalType buildsOne_literal
  case h_14 =>
    exact Idle.get.bind fun _ =>
      .ite (fun _ => h.builds_functionType) fun _ => h.builds_parenthesizedType
  case h_15 =>
    exact .ite (fun _ => builds_typeReference) fun _ =>
      (idle_report _).bind fun _ => builds_missingType
  all_goals exact buildsOne_keywordNode

theorem builds_arrayType : BuildsOne (arrayType self) := by
  refine idle_here.bind fun _ => Builds.bind h.builds_primaryType fun first => ?_
  refine builds_iterate (fun element => [element]) (fun element => ?_) first
  refine (idle_isAt _).bind fun _ => (idle_ahead _).bind fun _ => idle_afterBreak.bind fun _ => ?_
  refine .ite (fun _ => ?_) fun _ => .pure (.refl _)
  refine idle_advance.bind fun _ => idle_advance.bind fun _ => ?_
  exact Builds.bind (.finish rfl) fun _ => .pure (.refl _)

omit h in
/-- The members of a union start with the first one. -/
theorem first_unionMembers (x : Parser NodeId) (first : NodeId) (s : State) :
    ∃ rest, (iterate [first] (fun members => do
      if ← accept .bar then return .again (members ++ [← x])
      else return .done members : List NodeId → Parser _) s).1 = first :: rest := by
  refine iterate_gives (P := fun members => ∃ rest, members = first :: rest) ?_ ⟨[], rfl⟩ s
  rintro _ ⟨rest, rfl⟩ s
  show ∃ _, Turn.value ((if (accept .bar s).1 = true then _ else _ : Parser _) (accept .bar s).2).1
    = _
  split
  · exact ⟨_, rfl⟩
  · exact ⟨_, rfl⟩

theorem builds_unionType : BuildsOne (unionType self) := by
  refine idle_here.bind fun _ => (idle_accept _).bind fun leading => ?_
  refine Builds.bind h.builds_arrayType fun first => (idle_isAt _).bind fun _ => ?_
  refine .ite (fun _ => .pure (.refl _)) fun _ => ?_
  refine Builds.bind_gives (builds_iterate id (fun members => ?_) [first])
    fun members hmembers => ?_
  · refine (idle_accept _).bind fun _ => .ite (fun _ => ?_) fun _ => .pure (.refl _)
    exact Builds.more h.builds_arrayType fun member => .pure (.refl _)
  · refine .ite (fun hone => ?_) fun _ => .finish rfl
    -- the only member is the first one
    obtain ⟨s, rfl⟩ := hmembers
    obtain ⟨rest, hrest⟩ := first_unionMembers (arrayType self) first s
    rw [hrest] at hone ⊢
    rw [List.length_eq_zero_iff.1 (Nat.succ.inj hone)]
    exact .pure (.refl _)

theorem builds_type : BuildsOne (Parsing.type self) :=
  builds_nested h.builds_unionType builds_missingType

/-! ## Expressions -/

theorem builds_arrayLiteral : BuildsOne (arrayLiteral self) := by
  refine idle_here.bind fun _ => idle_advance.bind fun _ => ?_
  refine Builds.bind (buildsList_commaSeparated _ h.assignment) fun elements => ?_
  exact (idle_expect _).bind fun _ => .finish rfl

theorem builds_propertyAssignment : BuildsOne (propertyAssignment self) := by
  refine idle_here.bind fun _ => Builds.bind buildsOne_propertyName fun name => ?_
  exact Builds.more (buildsOption_after _ h.assignment) fun value => .finish rfl

theorem builds_objectLiteral : BuildsOne (objectLiteral self) := by
  refine idle_here.bind fun _ => idle_advance.bind fun _ => ?_
  refine Builds.bind (buildsList_commaSeparated _ h.builds_propertyAssignment) fun properties => ?_
  exact (idle_expect _).bind fun _ => .finish rfl

theorem builds_parenthesized : BuildsOne (parenthesized self) := by
  refine idle_here.bind fun _ => idle_advance.bind fun _ => ?_
  exact Builds.bind h.assignment fun _ => (idle_expect _).bind fun _ => .finish rfl

omit h in
theorem builds_missingExpression : BuildsOne missingExpression := by
  refine (idle_report _).bind fun _ => Builds.bind buildsOne_missingName fun missing => ?_
  refine idle_kind.bind fun _ => .ite (fun _ => ?_) fun _ => ?_
  · exact .pure (.refl _)
  · exact idle_advance.bind fun _ => .pure (.refl _)

theorem builds_primaryExpression : BuildsOne (primaryExpression self) := by
  refine idle_kind.bind fun k => ?_
  split
  case h_1 | h_2 => exact buildsOne_literal
  case h_8 => exact h.builds_parenthesized
  case h_9 => exact h.builds_arrayLiteral
  case h_10 => exact h.builds_objectLiteral
  case h_11 => exact .ite (fun _ => buildsOne_wordAsName) fun _ => builds_missingExpression
  all_goals exact buildsOne_keywordNode

theorem builds_arguments : BuildsList (arguments self) := by
  refine (idle_expect _).bind fun _ => ?_
  refine Builds.bind (buildsList_commaSeparated _ h.assignment) fun values => ?_
  exact (idle_expect _).bind fun _ => .pure (.refl _)

/-- Each access and call takes the expression in front of it for a child. -/
theorem builds_suffixes (start : Nat) (allowCalls : Bool) (expression : NodeId) :
    Builds [expression] (suffixes self start allowCalls expression) fun id => [id] := by
  refine builds_iterate (fun id => [id]) (fun expression => ?_) expression
  have hagain : ∀ {form : Form} {given : List NodeId}, given = form.children →
      Builds given (do return .again (← finish start form) : Parser (Turn NodeId))
        fun t => [t.value] := fun hform => Builds.bind (.finish hform) fun _ => .pure (.refl _)
  refine idle_kind.bind fun k => ?_
  split
  · exact idle_advance.bind fun _ => Builds.more buildsOne_propertyName fun name => hagain rfl
  · refine idle_advance.bind fun _ => Builds.more h.assignment fun index => ?_
    exact (idle_expect _).bind fun _ => hagain rfl
  · refine .ite (fun _ => ?_) fun _ => .pure (.refl _)
    exact Builds.more h.builds_arguments fun values => hagain rfl
  · exact .pure (.refl _)

theorem builds_newOrPrimary : BuildsOne (newOrPrimary self) :=
  (idle_isAt _).bind fun _ =>
    .ite (fun _ => h.newExpression) fun _ => h.builds_primaryExpression

theorem builds_newExpression : BuildsOne (Parsing.newExpression self) := by
  refine idle_here.bind fun _ => idle_advance.bind fun _ => idle_here.bind fun calleeStart => ?_
  refine Builds.bind h.builds_newOrPrimary fun first => ?_
  refine Builds.bind (h.builds_suffixes calleeStart false first) fun callee => ?_
  refine (idle_isAt _).bind fun _ => .ite (fun _ => ?_) fun _ => ?_
  · exact Builds.more h.builds_arguments fun values => .finish rfl
  · exact .finish rfl

theorem builds_leftHandSide : BuildsOne (leftHandSide self) :=
  idle_here.bind fun start => Builds.bind h.builds_newOrPrimary fun first =>
    h.builds_suffixes start true first

theorem builds_prefixed (operator : TokenKind) : BuildsOne (prefixed self operator) :=
  idle_here.bind fun _ => idle_advance.bind fun _ => Builds.bind h.unary fun _ => .finish rfl

theorem builds_postfixed : BuildsOne (postfixed self) := by
  refine idle_here.bind fun _ => Builds.bind h.builds_leftHandSide fun operand => ?_
  refine idle_kind.bind fun _ => idle_afterBreak.bind fun _ => .ite (fun _ => ?_) fun _ => ?_
  · exact idle_advance.bind fun _ => .finish rfl
  · exact .pure (.refl _)

theorem builds_unary : BuildsOne (Parsing.unary self) := by
  refine idle_kind.bind fun k => ?_
  split
  case h_6 =>
    refine idle_here.bind fun _ => idle_advance.bind fun _ => ?_
    exact Builds.bind h.unary fun _ => .finish rfl
  case h_7 => exact h.builds_postfixed
  all_goals exact h.builds_prefixed _

theorem builds_binary (least : Nat) : BuildsOne (Parsing.binary self least) := by
  refine idle_here.bind fun _ => Builds.bind h.unary fun first => ?_
  refine builds_iterate (fun id => [id]) (fun left => ?_) first
  refine idle_kind.bind fun operator => .ite (fun _ => .pure (.refl _)) fun _ => ?_
  refine .ite (fun _ => ?_) fun _ => ?_
  · refine idle_afterBreak.bind fun _ => .ite (fun _ => .pure (.refl _)) fun _ => ?_
    refine idle_advance.bind fun _ => Builds.more h.type fun type => ?_
    exact Builds.bind (.finish rfl) fun _ => .pure (.refl _)
  · refine idle_advance.bind fun _ => Builds.more (h.binary _) fun right => ?_
    exact Builds.bind (.finish rfl) fun _ => .pure (.refl _)

/-! ### Arrow functions and assignments -/

omit h in
theorem builds_simpleParameter : BuildsOne simpleParameter :=
  idle_here.bind fun _ => Builds.bind buildsOne_wordAsName fun _ => .finish rfl

/-- The nodes in front of an arrow, if there is one. -/
theorem builds_arrowHead (simple : Bool) : Builds [] (arrowHead self simple)
    fun r => r.elim [] fun head => head.1 ++ head.2.toList := by
  have hrest : ∀ ps : List NodeId, Builds ps (do
      let result ← Parsing.ascription self
      if ← accept .arrow then return some (ps, result)
      else return none) fun r => r.elim [] fun head => head.1 ++ head.2.toList := by
    intro ps
    refine Builds.more h.builds_ascription fun result => (idle_accept _).bind fun _ => ?_
    exact .ite (fun _ => .pure (.refl _)) fun _ => .pure (List.nil_sublist _)
  unfold arrowHead
  refine .ite (fun _ => ?_) fun _ => ?_
  · exact Builds.bind builds_simpleParameter fun p => hrest [p]
  · exact Builds.bind h.builds_parameters fun ps => hrest ps

theorem builds_arrowFunction : BuildsOption (arrowFunction self) := by
  refine Idle.get.bind fun s => ?_
  extract_lets simple
  refine .ite (fun _ => ?_) fun _ => buildsOption_none
  refine idle_here.bind fun start => ?_
  refine Builds.bind (builds_attempt (h.builds_arrowHead simple)) fun r => ?_
  cases r with
  | none => exact buildsOption_none
  | some head =>
    obtain ⟨ps, result⟩ := head
    have hrest : ∀ {x : Parser NodeId}, BuildsOne x → Builds (ps ++ result.toList) (do
        let body ← x
        return some (← finish start (.function .arrow
          { modifiers := .none, name := none, parameters := ps, returnType := result,
            body := some body }))) Option.toList := fun hx =>
      Builds.more hx fun body => Builds.bind (.finish (by simp [Form.children])) fun _ =>
        .pure (.refl _)
    refine (idle_isAt _).bind fun _ => .ite (fun _ => ?_) fun _ => ?_
    · exact hrest h.builds_block
    · exact hrest h.assignment

theorem builds_assignmentOrTighter : BuildsOne (assignmentOrTighter self) := by
  refine idle_here.bind fun _ => Builds.bind (h.binary 0) fun left => ?_
  refine idle_kind.bind fun operator => Idle.get.bind fun s => .ite (fun _ => ?_) fun _ => ?_
  · refine idle_advance.bind fun _ => Builds.more h.assignment fun right => ?_
    exact .finish rfl
  · refine (idle_accept _).bind fun _ => .ite (fun _ => ?_) fun _ => .pure (.refl _)
    refine Builds.more h.assignment fun whenTrue => (idle_expect _).bind fun _ => ?_
    exact Builds.more h.assignment fun whenFalse => .finish rfl

theorem builds_assignment : BuildsOne (Parsing.assignment self) := by
  refine builds_nested (Builds.bind h.builds_arrowFunction fun r => ?_) buildsOne_missingName
  cases r with
  | some arrow => exact .pure (.refl _)
  | none => exact h.builds_assignmentOrTighter

/-! ## Declarations -/

theorem builds_variableDeclaration (kind : VariableKind) :
    BuildsOne (variableDeclaration self kind) := by
  refine idle_here.bind fun _ => Builds.bind buildsOne_bindingName fun name => ?_
  refine Builds.more h.builds_ascription fun ascription => ?_
  exact Builds.more h.builds_initializer fun initializer => .finish (by simp [Form.children])

theorem builds_variableDeclarations (kind : VariableKind) (inHead : Bool) :
    BuildsList (variableDeclarations self kind inHead) := by
  refine builds_iterate id (fun declarations => ?_) []
  refine Builds.more (h.builds_variableDeclaration kind) fun declaration => ?_
  exact (idle_isAt _).bind fun _ => .ite (fun _ => .pure (.refl _)) fun _ => builds_turn _

theorem builds_variableStatement (start : Nat) (modifiers : Modifiers) (kind : VariableKind) :
    BuildsOne (variableStatement self start modifiers kind) := by
  refine idle_advance.bind fun _ => ?_
  refine Builds.bind (h.builds_variableDeclarations kind false) fun declarations => ?_
  exact idle_endStatement.bind fun _ => .finish rfl

theorem builds_functionBody : BuildsOption (functionBody self) :=
  (idle_isAt _).bind fun _ => .ite (fun _ => buildsOption_some h.builds_block) fun _ =>
    idle_endStatement.bind fun _ => buildsOption_none

theorem builds_functionDeclaration (start : Nat) (modifiers : Modifiers) :
    BuildsOne (functionDeclaration self start modifiers) := by
  refine idle_advance.bind fun _ => Builds.bind buildsOne_bindingName fun name => ?_
  refine Builds.more h.builds_parameters fun ps => Builds.more h.builds_ascription fun result => ?_
  exact Builds.more h.builds_functionBody fun body => .finish (by simp [Form.children])

/-! ### Classes -/

omit h in
theorem builds_heritageType : BuildsOne heritageType := by
  refine idle_here.bind fun _ => Builds.bind buildsOne_bindingName fun first => ?_
  exact Builds.bind (builds_dottedName first) fun name => .finish rfl

theorem builds_constructorMember (start : Nat) (modifiers : Modifiers) :
    BuildsOne (constructorMember self start modifiers) := by
  refine Builds.bind buildsOne_wordAsName fun name => Builds.more h.builds_parameters fun ps => ?_
  exact Builds.more h.builds_functionBody fun body => .finish (by simp [Form.children])

theorem builds_namedMember (start : Nat) (modifiers : Modifiers) :
    BuildsOne (namedMember self start modifiers) := by
  refine Builds.bind buildsOne_propertyName fun name => (idle_accept _).bind fun optional => ?_
  refine (idle_isAt _).bind fun _ => .ite (fun _ => ?_) fun _ => ?_
  · refine Builds.more h.builds_parameters fun ps => ?_
    refine Builds.more h.builds_ascription fun result => ?_
    exact Builds.more h.builds_functionBody fun body => .finish (by simp [Form.children])
  · refine Builds.more h.builds_ascription fun ascription => ?_
    refine Builds.more h.builds_initializer fun initializer => ?_
    exact idle_endStatement.bind fun _ => .finish (by simp [Form.children])

theorem builds_classMember : BuildsOne (classMember self) := by
  refine idle_here.bind fun start => idle_memberModifiers.bind fun modifiers => ?_
  refine (idle_isAt _).bind fun _ => (idle_ahead _).bind fun _ => ?_
  exact .ite (fun _ => h.builds_constructorMember start modifiers) fun _ =>
    h.builds_namedMember start modifiers

theorem builds_classMembers : BuildsList (classMembers self) := by
  refine (idle_expect _).bind fun _ => .ite (fun _ => ?_) fun _ => .pure (.refl _)
  refine Builds.bind (builds_iterate id (fun members => ?_) []) fun members =>
    (idle_expect _).bind fun _ => .pure (.refl _)
  refine idle_kind.bind fun _ => .ite (fun _ => .pure (.refl _)) fun _ => ?_
  refine (idle_accept _).bind fun _ => .ite (fun _ => .pure (.refl _)) fun _ => ?_
  refine idle_remaining.bind fun _ => Builds.more h.builds_classMember fun member => ?_
  refine idle_remaining.bind fun _ => .ite (fun _ => ?_) fun _ => .pure (.refl _)
  exact (idle_report _).bind fun _ => idle_advance.bind fun _ => .pure (.refl _)

theorem builds_classDeclaration (start : Nat) (modifiers : Modifiers) :
    BuildsOne (classDeclaration self start modifiers) := by
  refine idle_advance.bind fun _ => Builds.bind buildsOne_bindingName fun name => ?_
  refine Builds.more (buildsOption_after _ builds_heritageType) fun heritage => ?_
  exact Builds.more h.builds_classMembers fun members => .finish (by simp [Form.children])

/-! ### Interfaces and aliases -/

theorem builds_typeMember : BuildsOne (typeMember self) := by
  have hrest : ∀ (start : Nat) (modifiers : Modifiers), BuildsOne (do
      let name ← propertyName
      let optional ← accept .question
      if ← isAt .openParen then
        let parameters ← parameters self
        let returnType ← ascription self
        finish start (.function .methodSignature
          { modifiers, name := some name, parameters, returnType, body := none })
      else
        let ascription ← ascription self
        finish start (.propertySignature
          { modifiers, name, optional, ascription, initializer := none })) := by
    intro start modifiers
    refine Builds.bind buildsOne_propertyName fun name => (idle_accept _).bind fun optional => ?_
    refine (idle_isAt _).bind fun _ => .ite (fun _ => ?_) fun _ => ?_
    · refine Builds.more h.builds_parameters fun ps => ?_
      exact Builds.more h.builds_ascription fun result => .finish (by simp [Form.children])
    · exact Builds.more h.builds_ascription fun ascription => .finish (by simp [Form.children])
  refine idle_here.bind fun start => (idle_isAt _).bind fun _ => (idle_ahead _).bind fun _ => ?_
  refine .ite (fun _ => ?_) fun _ => Builds.pure_bind (hrest start _)
  exact idle_advance.bind fun _ => Builds.pure_bind (hrest start _)

omit h in
theorem idle_memberSeparator : Idle memberSeparator := by
  refine (idle_accept _).bind fun _ => .ite (fun _ => Idle.pure _) fun _ => ?_
  refine (idle_accept _).bind fun _ => .ite (fun _ => Idle.pure _) fun _ => ?_
  refine (idle_isAt _).bind fun _ => .ite (fun _ => Idle.pure _) fun _ => ?_
  exact idle_afterBreak.bind fun _ => .ite (fun _ => Idle.pure _) fun _ => idle_report _

theorem builds_typeMembers : BuildsList (typeMembers self) := by
  refine (idle_expect _).bind fun _ => .ite (fun _ => ?_) fun _ => .pure (.refl _)
  refine Builds.bind (builds_iterate id (fun members => ?_) []) fun members =>
    (idle_expect _).bind fun _ => .pure (.refl _)
  refine idle_kind.bind fun _ => .ite (fun _ => .pure (.refl _)) fun _ => ?_
  refine idle_remaining.bind fun _ => Builds.more h.builds_typeMember fun member => ?_
  refine idle_memberSeparator.bind fun _ => idle_remaining.bind fun _ => ?_
  refine .ite (fun _ => ?_) fun _ => .pure (.refl _)
  exact idle_advance.bind fun _ => .pure (.refl _)

omit h in
theorem builds_heritageTypes : BuildsList heritageTypes := by
  refine (idle_accept _).bind fun _ => .ite (fun _ => ?_) fun _ => .pure (.refl _)
  refine builds_iterate id (fun types => ?_) []
  exact Builds.more builds_heritageType fun type => builds_turn _

theorem builds_interfaceDeclaration (start : Nat) (modifiers : Modifiers) :
    BuildsOne (interfaceDeclaration self start modifiers) := by
  refine idle_advance.bind fun _ => Builds.bind buildsOne_bindingName fun name => ?_
  refine Builds.more builds_heritageTypes fun heritage => ?_
  exact Builds.more h.builds_typeMembers fun members => .finish (by simp [Form.children])

theorem builds_typeAlias (start : Nat) (modifiers : Modifiers) :
    BuildsOne (typeAlias self start modifiers) := by
  refine idle_advance.bind fun _ => Builds.bind buildsOne_bindingName fun name => ?_
  refine (idle_expect _).bind fun _ => Builds.more h.type fun aliased => ?_
  exact idle_endStatement.bind fun _ => .finish rfl

/-! ### Imports -/

omit h in
theorem builds_importSpecifier : BuildsOne importSpecifier := by
  refine idle_here.bind fun _ => Builds.bind buildsOne_propertyName fun first => ?_
  refine (idle_accept _).bind fun _ => .ite (fun _ => ?_) fun _ => .finish rfl
  exact Builds.more buildsOne_bindingName fun name => .finish rfl

omit h in
theorem builds_importSpecifiers : BuildsList importSpecifiers := by
  refine (idle_expect _).bind fun _ => .ite (fun _ => ?_) fun _ => .pure (.refl _)
  refine Builds.bind (buildsList_commaSeparated _ builds_importSpecifier) fun specifiers => ?_
  exact (idle_expect _).bind fun _ => .pure (.refl _)

omit h in
theorem builds_importDeclaration : BuildsOne importDeclaration := by
  refine idle_here.bind fun start => idle_advance.bind fun _ => ?_
  refine Builds.bind builds_importSpecifiers fun specifiers => (idle_expect _).bind fun _ => ?_
  refine (idle_isAt _).bind fun _ => .ite (fun _ => ?_) fun _ => ?_
  · refine Builds.more buildsOne_literal fun source => Builds.pure_bind ?_
    exact idle_endStatement.bind fun _ => .finish rfl
  · refine (idle_report _).bind fun _ => Builds.pure_bind ?_
    exact idle_endStatement.bind fun _ => .finish (List.append_nil _).symm

theorem builds_declaration : BuildsOption (declaration self) := by
  refine idle_here.bind fun start => idle_declarationModifiers.bind fun modifiers => ?_
  refine idle_kind.bind fun k => ?_
  split
  · exact buildsOption_some (h.builds_functionDeclaration start modifiers)
  · exact buildsOption_some (h.builds_classDeclaration start modifiers)
  · exact buildsOption_some (h.builds_interfaceDeclaration start modifiers)
  · exact buildsOption_some (h.builds_typeAlias start modifiers)
  · refine Idle.get.bind fun s => ?_
    split
    · exact buildsOption_some (h.builds_variableStatement start modifiers _)
    · exact (idle_report _).bind fun _ => buildsOption_none

/-! ## Statements -/

theorem builds_condition : BuildsOne (condition self) := by
  refine (idle_expect _).bind fun _ => Builds.bind h.assignment fun expression => ?_
  exact (idle_expect _).bind fun _ => .pure (.refl _)

theorem builds_ifStatement : BuildsOne (ifStatement self) := by
  refine idle_here.bind fun _ => idle_advance.bind fun _ => ?_
  refine Builds.bind h.builds_condition fun condition => ?_
  refine Builds.more h.statement fun thenBranch => (idle_accept _).bind fun _ => ?_
  refine .ite (fun _ => ?_) fun _ => .finish (by simp [Form.children])
  exact Builds.more h.statement fun elseBranch => .finish (by simp [Form.children])

theorem builds_whileStatement : BuildsOne (whileStatement self) := by
  refine idle_here.bind fun _ => idle_advance.bind fun _ => ?_
  refine Builds.bind h.builds_condition fun condition => ?_
  exact Builds.more h.statement fun body => .finish rfl

theorem builds_forInitializer : BuildsOption (forInitializer self) := by
  refine (idle_isAt _).bind fun _ => .ite (fun _ => buildsOption_none) fun _ => ?_
  refine Idle.get.bind fun s => ?_
  split
  · refine idle_here.bind fun _ => idle_advance.bind fun _ => ?_
    refine Builds.bind (h.builds_variableDeclarations _ true) fun declarations => ?_
    exact Builds.bind (.finish rfl) fun _ => .pure (.refl _)
  · exact buildsOption_some h.assignment

theorem builds_forStatement : BuildsOne (forStatement self) := by
  refine idle_here.bind fun _ => idle_advance.bind fun _ => (idle_expect _).bind fun _ => ?_
  refine Builds.bind h.builds_forInitializer fun initializer => ?_
  refine (idle_accept _).bind fun _ => .ite (fun _ => ?_) fun _ => ?_
  · refine Builds.more h.assignment fun iterated => (idle_expect _).bind fun _ => ?_
    exact Builds.more h.statement fun body => .finish (by simp [Form.children])
  · refine (idle_expect _).bind fun _ => ?_
    refine Builds.more (buildsOption_unlessAt _ h.assignment) fun condition => ?_
    refine (idle_expect _).bind fun _ => ?_
    refine Builds.more (buildsOption_unlessAt _ h.assignment) fun increment => ?_
    refine (idle_expect _).bind fun _ => ?_
    exact Builds.more h.statement fun body => .finish rfl

theorem builds_returnStatement : BuildsOne (returnStatement self) := by
  refine idle_here.bind fun _ => idle_advance.bind fun _ => idle_canEndStatement.bind fun _ => ?_
  refine .ite (fun _ => ?_) fun _ => Builds.bind h.assignment fun expression => ?_
  · exact Builds.pure_bind (idle_endStatement.bind fun _ => .finish rfl)
  · exact Builds.pure_bind (idle_endStatement.bind fun _ => .finish rfl)

omit h in
theorem builds_wordStatement {form : Form} (hform : form.children = []) :
    BuildsOne (wordStatement form) :=
  idle_here.bind fun _ => idle_advance.bind fun _ => idle_endStatement.bind fun _ =>
    .finish hform.symm

omit h in
theorem builds_emptyStatement : BuildsOne emptyStatement :=
  idle_here.bind fun _ => idle_advance.bind fun _ => .finish rfl

theorem builds_expressionStatement : BuildsOne (expressionStatement self) := by
  refine idle_here.bind fun _ => Builds.bind h.assignment fun expression => ?_
  exact idle_endStatement.bind fun _ => .finish rfl

theorem builds_anyStatement : BuildsOption (anyStatement self) := by
  refine idle_kind.bind fun k => ?_
  split
  · exact buildsOption_none
  · exact buildsOption_none
  · exact buildsOption_some h.builds_block
  · exact buildsOption_some builds_emptyStatement
  · exact buildsOption_some h.builds_ifStatement
  · exact buildsOption_some h.builds_whileStatement
  · exact buildsOption_some h.builds_forStatement
  · exact buildsOption_some h.builds_returnStatement
  · exact buildsOption_some (builds_wordStatement rfl)
  · exact buildsOption_some (builds_wordStatement rfl)
  · exact Idle.bind (.of_same fun _ => rfl) fun _ => buildsOption_some builds_importDeclaration
  · refine Idle.get.bind fun s => .ite (fun _ => h.builds_declaration) fun _ => ?_
    exact buildsOption_some h.builds_expressionStatement

theorem builds_statement : BuildsOption (Parsing.statement self) :=
  builds_nested h.builds_anyStatement (idle_advance.bind fun _ => buildsOption_none)

end Builders

/-! ## The recursion -/

theorem noProductions_build : Builders noProductions where
  statement := idle_exhaust.bind fun _ => buildsOption_none
  type := idle_exhaust.bind fun _ => Builders.builds_missingType
  assignment := idle_exhaust.bind fun _ => buildsOne_missingName
  binary _ := idle_exhaust.bind fun _ => buildsOne_missingName
  unary := idle_exhaust.bind fun _ => buildsOne_missingName
  newExpression := idle_exhaust.bind fun _ => buildsOne_missingName

/-- The rules of the grammar give new nodes, however deeply they are
nested. -/
theorem productions_build (n : Nat) : Builders (productions n) := by
  induction n with
  | zero => exact noProductions_build
  | succ n ih =>
    exact
      { statement := ih.builds_statement
        type := ih.builds_type
        assignment := ih.builds_assignment
        binary := ih.builds_binary
        unary := ih.builds_unary
        newExpression := ih.builds_newExpression }

/-- The file is one new node, the last one. -/
theorem file_builds {rules : Productions} (h : Builders rules) :
    BuildsOne (file rules) ∧ ∀ s, ∃ statements,
      (file rules s).1 + 1 = (file rules s).2.arena.size ∧
        (file rules s).2.arena.form? (file rules s).1 = some (.sourceFile statements) := by
  refine ⟨Builds.bind (h.builds_statementsUntil _) fun statements => ?_, fun s => ?_⟩
  · exact idle_token.bind fun _ => .addNode rfl
  · let last := statementsUntil rules (· == .endOfFile) s
    let node : Node := ⟨.sourceFile last.1, 0, (last.2.tokenAt 0).stop⟩
    refine ⟨last.1, ?_, ?_⟩
    · show last.2.arena.size + 1 = (last.2.arena.push node).size
      rw [Array.size_push]
    · show ((last.2.arena.push node)[last.2.arena.size]?).map _ = _
      rw [Array.getElem?_push_size]
      rfl

end ScriptAnalysis.Parsing

namespace ScriptAnalysis.SourceFile

open Parsing

variable (name : String) (text : List Char)

theorem forest_parse : (parse name text).arena.Forest [] := by
  have hbuilds := (file_builds (productions_build
    (nestingBound (Lexer.scan text).tokens.length))).1
  exact ((hbuilds [] _ Arena.forest_empty).1).sublist (List.nil_sublist _)

theorem root_parse :
    (parse name text).root + 1 = (parse name text).arena.size ∧
      ∃ statements, (parse name text).arena.form? (parse name text).root =
        some (.sourceFile statements) := by
  obtain ⟨statements, hlast, hform⟩ := (file_builds (productions_build
    (nestingBound (Lexer.scan text).tokens.length))).2 (.start (Lexer.scan text).tokens)
  exact ⟨hlast, statements, hform⟩

/-- The nodes of a source file are a forest. Children stand before their
parents, no node is the child of two nodes or twice the child of one, and the
node of the whole file is the last. So a walk that starts anywhere and takes
the children of what it has visited in any order visits no node twice and
ends after at most as many steps as there are nodes up to its start; at its
end it has visited exactly what can be reached. `Arena.preorder` is such a
walk. -/
theorem parse_forest :
    (∀ i, ∀ c ∈ (parse name text).arena.children i, c < i) ∧
      (parse name text).arena.references.Nodup ∧
      (parse name text).root + 1 = (parse name text).arena.size ∧
      (∃ statements, (parse name text).arena.form? (parse name text).root =
        some (.sourceFile statements)) ∧
      (∀ i visited pending, (parse name text).arena.Walk i visited pending →
        visited.Nodup ∧ visited.length ≤ i + 1 ∧
          (pending = [] → ∀ j, j ∈ visited ↔ (parse name text).arena.Reaches i j)) ∧
      ∀ i < (parse name text).arena.size,
        (parse name text).arena.Walk i ((parse name text).arena.preorder i) [] := by
  have hforest := forest_parse name text
  obtain ⟨hlast, hroot⟩ := root_parse name text
  have honce : (parse name text).arena.references.Nodup := List.Nodup.of_append_left hforest.once
  exact ⟨hforest.below, honce, hlast, hroot, fun i visited pending h => hforest.walk h,
    fun i hi => hforest.walk_preorder hi⟩

end ScriptAnalysis.SourceFile
