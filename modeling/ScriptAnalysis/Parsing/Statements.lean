import ScriptAnalysis.Parsing.Declarations

/-!
# The grammar of statements
-/
namespace ScriptAnalysis.Parsing

/-- A condition in parentheses. -/
def condition (self : Productions) : Parser NodeId := do
  let _ ← expect .openParen
  let expression ← self.assignment
  let _ ← expect .closeParen
  return expression

def ifStatement (self : Productions) : Parser NodeId := do
  let start ← here
  advance
  let condition ← condition self
  let thenBranch ← self.statement
  let elseBranch ← if ← accept .kwElse then self.statement else pure none
  finish start (.ifStatement condition thenBranch elseBranch)

def whileStatement (self : Productions) : Parser NodeId := do
  let start ← here
  advance
  let condition ← condition self
  let body ← self.statement
  finish start (.whileStatement condition body)

/-- What stands first in the head of a loop: variables, an expression, or
nothing before a semicolon. -/
def forInitializer (self : Productions) : Parser (Option NodeId) := do
  if ← isAt .semicolon then return none
  match (← get).variableKind? with
  | some kind =>
    let start ← here
    advance
    let declarations ← variableDeclarations self kind true
    return some (← finish start (.variableStatement .none kind declarations))
  | none => return some (← self.assignment)

/-- An expression, unless the token at hand is `k`. -/
def unlessAt (k : TokenKind) (p : Parser NodeId) : Parser (Option NodeId) := do
  if ← isAt k then return none
  else return some (← p)

/-- A loop with three parts in its head, or one over the elements of a
value. -/
def forStatement (self : Productions) : Parser NodeId := do
  let start ← here
  advance
  let _ ← expect .openParen
  let initializer ← forInitializer self
  if ← accept .kwOf then
    let iterated ← self.assignment
    let _ ← expect .closeParen
    let body ← self.statement
    finish start (.forOfStatement initializer iterated body)
  else
    let _ ← expect .semicolon
    let condition ← unlessAt .semicolon self.assignment
    let _ ← expect .semicolon
    let increment ← unlessAt .closeParen self.assignment
    let _ ← expect .closeParen
    let body ← self.statement
    finish start (.forStatement initializer condition increment body)

def returnStatement (self : Productions) : Parser NodeId := do
  let start ← here
  advance
  let expression ← if ← canEndStatement then pure none else do pure (some (← self.assignment))
  endStatement
  finish start (.returnStatement expression)

/-- A statement that is one word. -/
def wordStatement (form : Form) : Parser NodeId := do
  let start ← here
  advance
  endStatement
  finish start form

def emptyStatement : Parser NodeId := do
  let start ← here
  advance
  finish start .emptyStatement

def expressionStatement (self : Productions) : Parser NodeId := do
  let start ← here
  let expression ← self.assignment
  endStatement
  finish start (.expressionStatement expression)

/-- A statement of any sort; nothing before a closing brace or at the end. -/
def anyStatement (self : Productions) : Parser (Option NodeId) := do
  match ← kind with
  | .closeBrace | .endOfFile => return none
  | .openBrace => return some (← block self)
  | .semicolon => return some (← emptyStatement)
  | .kwIf => return some (← ifStatement self)
  | .kwWhile => return some (← whileStatement self)
  | .kwFor => return some (← forStatement self)
  | .kwReturn => return some (← returnStatement self)
  | .kwBreak => return some (← wordStatement .breakStatement)
  | .kwContinue => return some (← wordStatement .continueStatement)
  | .kwImport =>
    modify fun s => { s with moduleSyntax := true }
    return some (← importDeclaration)
  | _ =>
    if startsDeclaration (← get).rest then declaration self
    else return some (← expressionStatement self)

/-- A statement, one level deeper; at the deepest level the token at hand is
passed. -/
def statement (self : Productions) : Parser (Option NodeId) :=
  nested (anyStatement self) do
    advance
    return none

end ScriptAnalysis.Parsing
