import ScriptAnalysis.Parsing.Productions

/-!
# The grammar of expressions

From loose to tight: assignments, conditionals and arrow functions; binary
operators by precedence; unary operators; calls and accesses behind a
primary expression. Whether a parenthesis opens the parameters of an arrow
function is first guessed from the tokens and then tried.
-/
namespace ScriptAnalysis.Parsing

/-! ## Primary expressions -/

def arrayLiteral (self : Productions) : Parser NodeId := do
  let start ← here
  advance
  let elements ← commaSeparated closesBrackets self.assignment
  let _ ← expect .closeBracket
  finish start (.arrayLiteral elements)

def propertyAssignment (self : Productions) : Parser NodeId := do
  let start ← here
  let name ← propertyName
  let initializer ← after .colon self.assignment
  finish start (.propertyAssignment name initializer)

def objectLiteral (self : Productions) : Parser NodeId := do
  let start ← here
  advance
  let properties ← commaSeparated closesBraces (propertyAssignment self)
  let _ ← expect .closeBrace
  finish start (.objectLiteral properties)

def parenthesized (self : Productions) : Parser NodeId := do
  let start ← here
  advance
  let expression ← self.assignment
  let _ ← expect .closeParen
  finish start (.parenthesized expression)

/-- Tokens that an enclosing construct still has to see. -/
def closesConstruct : TokenKind → Bool
  | .closeBrace | .closeParen | .closeBracket | .semicolon | .endOfFile => true
  | k => k.isReserved

/-- A name without characters for an expression that is missing; the token
at hand is passed unless it closes something. -/
def missingExpression : Parser NodeId := do
  report .expressionExpected
  let missing ← missingName
  unless closesConstruct (← kind) do
    advance
  return missing

def primaryExpression (self : Productions) : Parser NodeId := do
  match ← kind with
  | .number | .string => literal
  | .kwTrue | .kwFalse | .kwNull | .kwThis | .kwSuper => keywordNode
  | .openParen => parenthesized self
  | .openBracket => arrayLiteral self
  | .openBrace => objectLiteral self
  | k => if k.isName then wordAsName else missingExpression

/-! ## Calls and accesses -/

/-- Arguments in parentheses. -/
def arguments (self : Productions) : Parser (List NodeId) := do
  let _ ← expect .openParen
  let values ← commaSeparated closesParens self.assignment
  let _ ← expect .closeParen
  return values

/-- The accesses and, where allowed, the calls behind an expression that
starts at `start`. -/
def suffixes (self : Productions) (start : Nat) (allowCalls : Bool) (expression : NodeId) :
    Parser NodeId :=
  iterate expression fun expression => do
    match ← kind with
    | .dot =>
      advance
      let name ← propertyName
      return .again (← finish start (.propertyAccess expression name))
    | .openBracket =>
      advance
      let index ← self.assignment
      let _ ← expect .closeBracket
      return .again (← finish start (.elementAccess expression index))
    | .openParen =>
      if allowCalls then
        let values ← arguments self
        return .again (← finish start (.call expression values))
      else return .done expression
    | _ => return .done expression

/-- A `new` expression or a primary expression. -/
def newOrPrimary (self : Productions) : Parser NodeId := do
  if ← isAt .kwNew then self.newExpression else primaryExpression self

def newExpression (self : Productions) : Parser NodeId := do
  let start ← here
  advance
  let calleeStart ← here
  let callee ← suffixes self calleeStart false (← newOrPrimary self)
  let values ← if ← isAt .openParen then arguments self else pure []
  finish start (.newExpression callee values)

def leftHandSide (self : Productions) : Parser NodeId := do
  let start ← here
  suffixes self start true (← newOrPrimary self)

/-! ## Operators -/

def prefixed (self : Productions) (operator : TokenKind) : Parser NodeId := do
  let start ← here
  advance
  let operand ← self.unary
  finish start (.prefixUnary operator operand)

def postfixed (self : Productions) : Parser NodeId := do
  let start ← here
  let operand ← leftHandSide self
  let operator ← kind
  if (operator == .plusPlus || operator == .minusMinus) && !(← afterBreak) then
    advance
    finish start (.postfixUnary operator operand)
  else return operand

def unary (self : Productions) : Parser NodeId := do
  match ← kind with
  | .exclamation => prefixed self .exclamation
  | .minus => prefixed self .minus
  | .plus => prefixed self .plus
  | .plusPlus => prefixed self .plusPlus
  | .minusMinus => prefixed self .minusMinus
  | .kwTypeof =>
    let start ← here
    advance
    let expression ← self.unary
    finish start (.typeOf expression)
  | _ => postfixed self

/-- Operands joined by operators that bind tighter than `least`, the left
ones first. -/
def binary (self : Productions) (least : Nat) : Parser NodeId := do
  let start ← here
  iterate (← self.unary) fun left => do
    let operator ← kind
    if operator.precedence ≤ least then return .done left
    if operator == .kwAs then
      if ← afterBreak then return .done left
      advance
      let type ← self.type
      return .again (← finish start (.asExpression left type))
    advance
    let right ← self.binary operator.precedence
    return .again (← finish start (.binary left operator right))

/-! ## Arrow functions -/

/-- Whether the parenthesis that closes the first one is followed by an
arrow or a colon. The number counts the open parentheses. -/
def arrowFollows : Nat → List Token → Bool
  | _, [] => false
  | depth, t :: ts =>
    match t.kind with
    | .openParen => arrowFollows (depth + 1) ts
    | .closeParen =>
      if depth ≤ 1 then
        match ts with
        | next :: _ => next.kind == .arrow || next.kind == .colon
        | [] => false
      else arrowFollows (depth - 1) ts
    | .endOfFile => false
    | _ => arrowFollows depth ts

/-- A name directly before an arrow. -/
def State.startsSimpleArrow (s : State) : Bool :=
  (s.kindAt 0).isName && s.kindAt 1 == .arrow

/-- The one parameter of an arrow function without parentheses. -/
def simpleParameter : Parser NodeId := do
  let start ← here
  let name ← wordAsName
  finish start (.parameter
    { modifiers := .none, name, optional := false, ascription := none, initializer := none })

/-- The parameters and the return type in front of an arrow. -/
def arrowHead (self : Productions) (simple : Bool) :
    Parser (Option (List NodeId × Option NodeId)) := do
  let ps ← if simple then pure [← simpleParameter] else parameters self
  let result ← ascription self
  if ← accept .arrow then return some (ps, result)
  else return none

/-- An arrow function, if there is one here. -/
def arrowFunction (self : Productions) : Parser (Option NodeId) := do
  let s ← get
  let simple := s.startsSimpleArrow
  unless simple || (s.kindAt 0 == .openParen && arrowFollows 0 s.rest) do
    return none
  let start ← here
  let some (parameters, returnType) ← attempt (arrowHead self simple) | return none
  let body ← if ← isAt .openBrace then block self else self.assignment
  return some (← finish start (.function .arrow
    { modifiers := .none, name := none, parameters, returnType, body := some body }))

/-! ## Assignments -/

/-- Expressions that can be assigned to. -/
def isAssignable : Option Form → Bool
  | some (.identifier _) | some (.propertyAccess _ _) | some (.elementAccess _ _) => true
  | _ => false

/-- An assignment, a conditional, or what is tighter than both. -/
def assignmentOrTighter (self : Productions) : Parser NodeId := do
  let start ← here
  let left ← self.binary 0
  let operator ← kind
  if operator.isAssignment && isAssignable ((← get).arena.form? left) then
    advance
    let right ← self.assignment
    finish start (.binary left operator right)
  else if ← accept .question then
    let whenTrue ← self.assignment
    let _ ← expect .colon
    let whenFalse ← self.assignment
    finish start (.conditional left whenTrue whenFalse)
  else return left

/-- An expression, one level deeper. -/
def assignment (self : Productions) : Parser NodeId :=
  nested
    (do
      match ← arrowFunction self with
      | some arrow => return arrow
      | none => assignmentOrTighter self)
    missingName

end ScriptAnalysis.Parsing
