import ScriptAnalysis.Parsing.Types

/-!
# The grammar of declarations

Functions, classes, interfaces, type aliases, variables and imports.
-/
namespace ScriptAnalysis.Parsing

/-! ## What starts a declaration -/

/-- The next token is a name. -/
def nameFollows : List Token → Bool
  | t :: _ => t.kind.isName
  | [] => false

/-- The next token is a name on the same line. -/
def nameFollowsOnLine : List Token → Bool
  | t :: _ => t.kind.isName && !t.afterBreak
  | [] => false

/-- Whether the first token is a word that declares something. -/
def declarationWord : List Token → Bool
  | [] => false
  | t :: ts =>
    match t.kind with
    | .kwFunction | .kwClass | .kwVar | .kwConst | .kwExport => true
    | .kwLet => nameFollows ts
    | .kwInterface | .kwType => nameFollowsOnLine ts
    | .kwDeclare => declarationWord ts
    | _ => false

/-- Whether the tokens start a declaration, modifiers included. -/
def startsDeclaration : List Token → Bool
  | [] => false
  | t :: ts =>
    match t.kind with
    | .kwExport => startsDeclaration ts
    | .kwDeclare => declarationWord ts && startsDeclaration ts
    | _ => declarationWord (t :: ts)

/-- The modifiers in front of a declaration. -/
def declarationModifiers : Parser Modifiers :=
  iterate .none fun modifiers => do
    match ← kind with
    | .kwExport =>
      modify fun s => { s with moduleSyntax := true }
      advance
      return .again { modifiers with exported := true }
    | .kwDeclare =>
      if declarationWord ((← get).rest.drop 1) then
        advance
        return .again { modifiers with ambient := true }
      else return .done modifiers
    | _ => return .done modifiers

/-! ## Variables -/

/-- The word at hand, when it declares variables. -/
def State.variableKind? (s : State) : Option VariableKind :=
  match s.kindAt 0 with
  | .kwVar => some .var
  | .kwConst => some .const
  | .kwLet => if (s.kindAt 1).isName then some .letKind else none
  | _ => none

def variableDeclaration (self : Productions) (kind : VariableKind) : Parser NodeId := do
  let start ← here
  let name ← bindingName
  let ascription ← ascription self
  let initializer ← initializer self
  finish start (.variableDeclaration { kind, name, ascription, initializer })

/-- Variables with commas between them. In the head of a loop the word `of`
ends the list. -/
def variableDeclarations (self : Productions) (kind : VariableKind) (inHead : Bool) :
    Parser (List NodeId) :=
  iterate [] fun declarations => do
    let declarations := declarations ++ [← variableDeclaration self kind]
    if inHead && (← isAt .kwOf) then return .done declarations
    if ← accept .comma then return .again declarations
    else return .done declarations

def variableStatement (self : Productions) (start : Nat) (modifiers : Modifiers)
    (kind : VariableKind) : Parser NodeId := do
  advance
  let declarations ← variableDeclarations self kind false
  endStatement
  finish start (.variableStatement modifiers kind declarations)

/-! ## Functions -/

/-- A block, or the end of a statement where there is no body. -/
def functionBody (self : Productions) : Parser (Option NodeId) := do
  if ← isAt .openBrace then return some (← block self)
  else
    endStatement
    return none

def functionDeclaration (self : Productions) (start : Nat) (modifiers : Modifiers) :
    Parser NodeId := do
  advance
  let name ← bindingName
  let parameters ← parameters self
  let returnType ← ascription self
  let body ← functionBody self
  finish start (.function .declaration
    { modifiers, name := some name, parameters, returnType, body })

/-! ## Classes -/

/-- The type behind `extends`: a name, possibly dotted. -/
def heritageType : Parser NodeId := do
  let start ← here
  let name ← dottedName (← bindingName)
  finish start (.typeReference name)

def constructorMember (self : Productions) (start : Nat) (modifiers : Modifiers) :
    Parser NodeId := do
  let name ← wordAsName
  let parameters ← parameters self
  let body ← functionBody self
  finish start (.function .constructor
    { modifiers, name := some name, parameters, returnType := none, body })

/-- A method or a property. -/
def namedMember (self : Productions) (start : Nat) (modifiers : Modifiers) : Parser NodeId := do
  let name ← propertyName
  let optional ← accept .question
  if ← isAt .openParen then
    let parameters ← parameters self
    let returnType ← ascription self
    let body ← functionBody self
    finish start (.function .method
      { modifiers, name := some name, parameters, returnType, body })
  else
    let ascription ← ascription self
    let initializer ← initializer self
    endStatement
    finish start (.propertyDeclaration { modifiers, name, optional, ascription, initializer })

def classMember (self : Productions) : Parser NodeId := do
  let start ← here
  let modifiers ← memberModifiers
  if (← isAt .kwConstructor) && (← ahead 1) == .openParen then
    constructorMember self start modifiers
  else namedMember self start modifiers

/-- The members of a class. A token that is part of no member is reported
and passed. -/
def classMembers (self : Productions) : Parser (List NodeId) := do
  if ← expect .openBrace then
    let members ← iterate [] fun members => do
      if closesBraces (← kind) then return .done members
      if ← accept .semicolon then return .again members
      let before ← remaining
      let members := members ++ [← classMember self]
      if (← remaining) == before then
        report .identifierExpected
        advance
      return .again members
    let _ ← expect .closeBrace
    return members
  else return []

def classDeclaration (self : Productions) (start : Nat) (modifiers : Modifiers) :
    Parser NodeId := do
  advance
  let name ← bindingName
  let heritage ← after .kwExtends heritageType
  let members ← classMembers self
  finish start (.classDeclaration { modifiers, name, heritage, members })

/-! ## Interfaces and aliases -/

/-- A property or a method of an interface. -/
def typeMember (self : Productions) : Parser NodeId := do
  let start ← here
  let modifiers ← if (← isAt .kwReadonly) && (← ahead 1).isWord then do
      advance
      pure { isReadonly := true }
    else pure Modifiers.none
  let name ← propertyName
  let optional ← accept .question
  if ← isAt .openParen then
    let parameters ← parameters self
    let returnType ← ascription self
    finish start (.function .methodSignature
      { modifiers, name := some name, parameters, returnType, body := none })
  else
    let ascription ← ascription self
    finish start (.propertySignature
      { modifiers, name, optional, ascription, initializer := none })

/-- What may stand between two members: a semicolon, a comma or a line
break. -/
def memberSeparator : Parser Unit := do
  if ← accept .semicolon then return
  if ← accept .comma then return
  if ← isAt .closeBrace then return
  unless ← afterBreak do
    report (.tokenExpected ";")

/-- The members of an interface. -/
def typeMembers (self : Productions) : Parser (List NodeId) := do
  if ← expect .openBrace then
    let members ← iterate [] fun members => do
      if closesBraces (← kind) then return .done members
      let before ← remaining
      let members := members ++ [← typeMember self]
      memberSeparator
      if (← remaining) == before then
        advance
      return .again members
    let _ ← expect .closeBrace
    return members
  else return []

/-- The types behind `extends`. -/
def heritageTypes : Parser (List NodeId) := do
  if ← accept .kwExtends then
    iterate [] fun types => do
      let types := types ++ [← heritageType]
      if ← accept .comma then return .again types
      else return .done types
  else return []

def interfaceDeclaration (self : Productions) (start : Nat) (modifiers : Modifiers) :
    Parser NodeId := do
  advance
  let name ← bindingName
  let heritage ← heritageTypes
  let members ← typeMembers self
  finish start (.interfaceDeclaration { modifiers, name, heritage, members })

def typeAlias (self : Productions) (start : Nat) (modifiers : Modifiers) : Parser NodeId := do
  advance
  let name ← bindingName
  let _ ← expect .equals
  let aliased ← self.type
  endStatement
  finish start (.typeAlias { modifiers, name, aliased })

/-! ## Imports -/

/-- A name, or a name and the local one behind `as`. -/
def importSpecifier : Parser NodeId := do
  let start ← here
  let first ← propertyName
  if ← accept .kwAs then
    let name ← bindingName
    finish start (.importSpecifier (some first) name)
  else finish start (.importSpecifier none first)

/-- The names in braces. -/
def importSpecifiers : Parser (List NodeId) := do
  if ← expect .openBrace then
    let specifiers ← commaSeparated closesBraces importSpecifier
    let _ ← expect .closeBrace
    return specifiers
  else return []

def importDeclaration : Parser NodeId := do
  let start ← here
  advance
  let specifiers ← importSpecifiers
  let _ ← expect .kwFrom
  let source ← if ← isAt .string then do
      pure (some (← literal))
    else do
      report (.tokenExpected "string literal")
      pure none
  endStatement
  finish start (.importDeclaration specifiers source)

/-! ## Any declaration -/

def declaration (self : Productions) : Parser (Option NodeId) := do
  let start ← here
  let modifiers ← declarationModifiers
  match ← kind with
  | .kwFunction => return some (← functionDeclaration self start modifiers)
  | .kwClass => return some (← classDeclaration self start modifiers)
  | .kwInterface => return some (← interfaceDeclaration self start modifiers)
  | .kwType => return some (← typeAlias self start modifiers)
  | _ =>
    match (← get).variableKind? with
    | some kind => return some (← variableStatement self start modifiers kind)
    | none =>
      report .declarationOrStatementExpected
      return none

end ScriptAnalysis.Parsing
