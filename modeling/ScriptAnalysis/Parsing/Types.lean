import ScriptAnalysis.Parsing.Productions

/-!
# The grammar of types

A type is a union of array types; an array type is a primary type with any
number of `[]` behind it; a primary type is a keyword, a literal, a name, a
function type or a type in parentheses.
-/
namespace ScriptAnalysis.Parsing

/-- A reference to a name without characters, where a type is missing. -/
def missingType : Parser NodeId := do
  let pos ← here
  let name ← missingName
  addNode (.typeReference name) pos pos

/-- A name, with further names behind dots; the reference is to the last. -/
def dottedName (first : NodeId) : Parser NodeId :=
  iterate first fun name => do
    if ← accept .dot then return .again (← propertyName)
    else return .done name

def typeReference : Parser NodeId := do
  let start ← here
  let name ← dottedName (← wordAsName)
  finish start (.typeReference name)

/-- At an opening parenthesis: what follows tells a function type from a
type in parentheses. -/
def State.startsFunctionType (s : State) : Bool :=
  if s.kindAt 1 == .closeParen then true
  else if (s.kindAt 1).isName then
    match s.kindAt 2 with
    | .colon | .comma | .question | .equals => true
    | .closeParen => s.kindAt 3 == .arrow
    | _ => false
  else false

def functionType (self : Productions) : Parser NodeId := do
  let start ← here
  let parameters ← parameters self
  let _ ← expect .arrow
  let result ← self.type
  finish start (.function .functionType
    { modifiers := .none, name := none, parameters, returnType := some result, body := none })

def parenthesizedType (self : Productions) : Parser NodeId := do
  let start ← here
  advance
  let inner ← self.type
  let _ ← expect .closeParen
  finish start (.parenthesizedType inner)

def primaryType (self : Productions) : Parser NodeId := do
  match ← kind with
  | .kwNumber | .kwString | .kwBoolean | .kwVoid | .kwAny | .kwUnknown | .kwNever | .kwUndefined
  | .kwNull => keywordNode
  | .kwTrue | .kwFalse =>
    let start ← here
    let word ← keywordNode
    finish start (.literalType word)
  | .number | .string =>
    let start ← here
    let value ← literal
    finish start (.literalType value)
  | .openParen =>
    if (← get).startsFunctionType then functionType self else parenthesizedType self
  | k =>
    if k.isName then typeReference
    else
      report .typeExpected
      missingType

/-- A primary type and the `[]` behind it on the same line. -/
def arrayType (self : Productions) : Parser NodeId := do
  let start ← here
  iterate (← primaryType self) fun element => do
    if (← isAt .openBracket) && (← ahead 1) == .closeBracket && !(← afterBreak) then
      advance
      advance
      return .again (← finish start (.arrayType element))
    else return .done element

/-- Array types with bars between them; a bar may stand in front. -/
def unionType (self : Productions) : Parser NodeId := do
  let start ← here
  let leading ← accept .bar
  let first ← arrayType self
  if !(← isAt .bar) && !leading then return first
  let members ← iterate [first] fun members => do
    if ← accept .bar then return .again (members ++ [← arrayType self])
    else return .done members
  if members.length = 1 then return first
  finish start (.unionType members)

/-- A type, one level deeper. -/
def type (self : Productions) : Parser NodeId :=
  nested (unionType self) missingType

end ScriptAnalysis.Parsing
