import ScriptAnalysis.Parsing.State

/-!
# Productions and the parts they share

The grammar is recursive in six places: statements, types, assignment
expressions, binary expressions above a precedence, unary expressions and
`new` expressions. `Productions` holds a parser for each. The rules of the
grammar are functions of a `Productions` value, so each rule is an ordinary
definition, and the recursion is tied once, at the end.

Here are the rules that several others use: lists of statements, blocks,
parameters and ascriptions.
-/
namespace ScriptAnalysis.Parsing

/-- A parser for each recursive rule of the grammar. -/
structure Productions where
  statement : Parser (Option NodeId)
  type : Parser NodeId
  assignment : Parser NodeId
  binary : Nat → Parser NodeId
  unary : Parser NodeId
  newExpression : Parser NodeId

/-! ## Statements and blocks -/

/-- Statements up to a token that satisfies `stops`. A token that starts no
statement is reported and passed. -/
def statementsUntil (self : Productions) (stops : TokenKind → Bool) : Parser (List NodeId) :=
  iterate [] fun statements => do
    if stops (← kind) then return .done statements
    let before ← remaining
    let statement ← self.statement
    if (← remaining) == before then
      report .declarationOrStatementExpected
      advance
      return .again statements
    else return .again (statements ++ statement.toList)

/-- Closing braces end a list of statements or members, as does the end of
the file. -/
def closesBraces (k : TokenKind) : Bool :=
  k == .closeBrace || k == .endOfFile

def closesParens (k : TokenKind) : Bool :=
  k == .closeParen || k == .endOfFile

def closesBrackets (k : TokenKind) : Bool :=
  k == .closeBracket || k == .endOfFile

def block (self : Productions) : Parser NodeId := do
  let start ← here
  let _ ← expect .openBrace
  let statements ← statementsUntil self closesBraces
  let _ ← expect .closeBrace
  finish start (.block statements)

/-! ## Annotations and parameters -/

/-- `p` after the mark `k`, if the mark is there. -/
def after (k : TokenKind) (p : Parser NodeId) : Parser (Option NodeId) := do
  if ← accept k then return some (← p)
  else return none

/-- A type behind a colon. -/
def ascription (self : Productions) : Parser (Option NodeId) :=
  after .colon self.type

/-- A value behind an equals sign. -/
def initializer (self : Productions) : Parser (Option NodeId) :=
  after .equals self.assignment

/-- Items with commas between them, up to a token that satisfies `stops`. A
comma may follow the last item. -/
def commaSeparated (stops : TokenKind → Bool) (item : Parser NodeId) : Parser (List NodeId) :=
  iterate [] fun items => do
    if stops (← kind) then return .done items
    let items := items ++ [← item]
    if ← accept .comma then return .again items
    else return .done items

/-- The modifier that the token at hand is, when something follows that can
still be the name of a member. -/
def State.memberModifier? (s : State) : Option Modifiers :=
  let modifier? : Option Modifiers := match s.kindAt 0 with
    | .kwPublic => some { isPublic := true }
    | .kwPrivate => some { isPrivate := true }
    | .kwProtected => some { isProtected := true }
    | .kwStatic => some { isStatic := true }
    | .kwReadonly => some { isReadonly := true }
    | .kwDeclare => some { ambient := true }
    | _ => none
  let next := s.kindAt 1
  if next.isWord || next == .string || next == .number then modifier? else none

/-- The modifiers in front of a member or a parameter. -/
def memberModifiers : Parser Modifiers :=
  iterate .none fun modifiers => do
    match (← get).memberModifier? with
    | none => return .done modifiers
    | some m =>
      advance
      return .again (modifiers.union m)

def parameter (self : Productions) : Parser NodeId := do
  let start ← here
  let modifiers ← memberModifiers
  let name ← bindingName
  let optional ← accept .question
  let ascription ← ascription self
  let initializer ← initializer self
  finish start (.parameter { modifiers, name, optional, ascription, initializer })

/-- Parameters in parentheses. -/
def parameters (self : Productions) : Parser (List NodeId) := do
  if ← expect .openParen then
    let ps ← commaSeparated closesParens (parameter self)
    let _ ← expect .closeParen
    return ps
  else return []

end ScriptAnalysis.Parsing
