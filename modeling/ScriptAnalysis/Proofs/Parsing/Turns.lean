import ScriptAnalysis.SourceFile

/-!
# The turns of the loops

The grammar repeats things in a dozen places. What is repeated there, a turn, has a
name here, so that something can be said of it. `repeats` says where each of them is
repeated, which holds by definition.
-/
namespace ScriptAnalysis.Parsing

/-- A turn of the loop over statements. -/
def statementsTurn (self : Productions) (stops : TokenKind → Bool) (statements : List NodeId) :
    Parser (Turn (List NodeId)) := do
  if stops (← kind) then return .done statements
  let before ← remaining
  let statement ← self.statement
  if (← remaining) == before then
    report .declarationOrStatementExpected
    advance
    return .again statements
  else return .again (statements ++ statement.toList)

/-- The end of a turn of the loop over commas. -/
def commaBehind (items : List NodeId) : Parser (Turn (List NodeId)) := do
  if ← accept .comma then return .again items
  else return .done items

/-- A turn of the loop over commas. -/
def commaTurn (stops : TokenKind → Bool) (item : Parser NodeId) (items : List NodeId) :
    Parser (Turn (List NodeId)) := do
  if stops (← kind) then return .done items
  commaBehind (items ++ [← item])

/-- A turn of the loop over variables. -/
def variablesTurn (self : Productions) (kind : VariableKind) (inHead : Bool)
    (declarations : List NodeId) : Parser (Turn (List NodeId)) := do
  let declarations := declarations ++ [← variableDeclaration self kind]
  if inHead && (← isAt .kwOf) then return .done declarations
  commaBehind declarations

/-- A turn of the loop over the types behind `extends`. -/
def heritageTurn (types : List NodeId) : Parser (Turn (List NodeId)) := do
  commaBehind (types ++ [← heritageType])

/-- A turn of the loop over the modifiers of a member. -/
def memberModifiersTurn (modifiers : Modifiers) : Parser (Turn Modifiers) := do
  match (← get).memberModifier? with
  | none => return .done modifiers
  | some m =>
    advance
    return .again (modifiers.union m)

/-- A turn of the loop over the modifiers of a declaration. -/
def declarationModifiersTurn (modifiers : Modifiers) : Parser (Turn Modifiers) := do
  match ← kind with
  | .kwExport =>
    modify fun s => { s with moduleSyntax := true }
    advance
    return .again { modifiers with exported := true }
  | .kwDeclare =>
    if declarationWord ((← get).rest.drop 1) then
      advance
      return .again { modifiers with ambient := true }
    else return .done modifiers
  | _ => return .done modifiers

/-- A turn of the loop over dots. -/
def dotTurn (name : NodeId) : Parser (Turn NodeId) := do
  if ← accept .dot then return .again (← propertyName)
  else return .done name

/-- A turn of the loop over brackets. -/
def arrayTurn (start : Nat) (element : NodeId) : Parser (Turn NodeId) := do
  if (← isAt .openBracket) && (← ahead 1) == .closeBracket && !(← afterBreak) then
    advance
    advance
    return .again (← finish start (.arrayType element))
  else return .done element

/-- A turn of the loop over bars. -/
def unionTurn (self : Productions) (members : List NodeId) : Parser (Turn (List NodeId)) := do
  if ← accept .bar then return .again (members ++ [← arrayType self])
  else return .done members

/-- A turn of the loop over calls and accesses. -/
def suffixTurn (self : Productions) (start : Nat) (allowCalls : Bool) (expression : NodeId) :
    Parser (Turn NodeId) := do
  match ← kind with
  | .dot =>
    advance
    let name ← propertyName
    return .again (← finish start (.propertyAccess expression name))
  | .openBracket =>
    advance
    let index ← self.assignment
    let _ ← expect .closeBracket
    return .again (← finish start (.elementAccess expression index))
  | .openParen =>
    if allowCalls then
      let values ← arguments self
      return .again (← finish start (.call expression values))
    else return .done expression
  | _ => return .done expression

/-- A turn of the loop over operators that bind tighter than `least`. -/
def binaryTurn (self : Productions) (least start : Nat) (left : NodeId) :
    Parser (Turn NodeId) := do
  let operator ← kind
  if operator.precedence ≤ least then return .done left
  if operator == .kwAs then
    if ← afterBreak then return .done left
    advance
    let type ← self.type
    return .again (← finish start (.asExpression left type))
  advance
  let right ← self.binary operator.precedence
  return .again (← finish start (.binary left operator right))

/-- A turn of the loop over the members of a class. -/
def classMembersTurn (self : Productions) (members : List NodeId) :
    Parser (Turn (List NodeId)) := do
  if closesBraces (← kind) then return .done members
  if ← accept .semicolon then return .again members
  let before ← remaining
  let members := members ++ [← classMember self]
  if (← remaining) == before then
    report .identifierExpected
    advance
  return .again members

/-- A turn of the loop over the members of an interface. -/
def typeMembersTurn (self : Productions) (members : List NodeId) :
    Parser (Turn (List NodeId)) := do
  if closesBraces (← kind) then return .done members
  let before ← remaining
  let members := members ++ [← typeMember self]
  memberSeparator
  if (← remaining) == before then
    advance
  return .again members

/-- A list between two tokens. -/
def between (opening closing : TokenKind) (items : Parser (List NodeId)) :
    Parser (List NodeId) := do
  if ← expect opening then
    let items ← items
    let _ ← expect closing
    return items
  else return []

/-- Each loop of the grammar, its turn, and where it stands. -/
structure Repeats (rules : Productions) : Prop where
  statements : ∀ stops, statementsUntil rules stops = iterate [] (statementsTurn rules stops)
  separated : ∀ stops item, commaSeparated stops item = iterate [] (commaTurn stops item)
  declarations : ∀ kind inHead,
    variableDeclarations rules kind inHead = iterate [] (variablesTurn rules kind inHead)
  heritage : heritageTypes = (do if ← accept .kwExtends then iterate [] heritageTurn else return [])
  memberModifiers : memberModifiers = iterate .none memberModifiersTurn
  declarationModifiers : declarationModifiers = iterate .none declarationModifiersTurn
  dots : ∀ first, dottedName first = iterate first dotTurn
  brackets : arrayType rules = (do
    let start ← here
    iterate (← primaryType rules) (arrayTurn start))
  bars : unionType rules = (do
    let start ← here
    let leading ← accept .bar
    let first ← arrayType rules
    if !(← isAt .bar) && !leading then return first
    let members ← iterate [first] (unionTurn rules)
    if members.length = 1 then return first
    finish start (.unionType members))
  suffixes : ∀ start allowCalls expression,
    suffixes rules start allowCalls expression =
      iterate expression (suffixTurn rules start allowCalls)
  operators : ∀ least, binary rules least = (do
    let start ← here
    iterate (← rules.unary) (binaryTurn rules least start))
  classMembers : classMembers rules =
    between .openBrace .closeBrace (iterate [] (classMembersTurn rules))
  typeMembers : typeMembers rules =
    between .openBrace .closeBrace (iterate [] (typeMembersTurn rules))

theorem repeats (self : Productions) : Repeats self := by
  constructor <;> intros <;> rfl

end ScriptAnalysis.Parsing
