import ScriptAnalysis.Checking.Functions

/-!
# Types that are spelled out

The types that type nodes stand for, and what symbols mean as types. A type
alias that leads back to itself is an error type.
-/
namespace ScriptAnalysis.Checking

/-! ## Names of types -/

/-- The type that a name stands for. -/
def typeReference (self : Rules) (node : NodeId) : Check TypeId := do
  let c ← read
  match c.arena.nameOf? node with
  | none => return .error
  | some name =>
    if name.isEmpty then return .error
    let type ← match c.resolve name .type with
      | some symbol => do
        match ← self.declaredType symbol with
        | some type => pure type
        | none => do
          report node (.valueUsedAsType name)
          pure .error
      | none => do
        if (c.resolve name .value).isSome then report node (.valueUsedAsType name)
        else report node (.cannotFindName name)
        pure .error
    record node type
    return type

/-! ## Type nodes -/

def literalType (a : Arena) (literal : NodeId) : Check TypeId :=
  match a.form? literal with
  | some (.keyword .kwTrue) => return .trueValue
  | some (.keyword .kwFalse) => return .falseValue
  | some (.numericLiteral text) => alloc (TypeTable.numberLiteral text)
  | some (.stringLiteral text) => alloc (TypeTable.stringLiteral text)
  | _ => return .error

def keywordType : TokenKind → TypeId
  | .kwNumber => .number
  | .kwString => .string
  | .kwBoolean => .boolean
  | .kwVoid => .void
  | .kwAny => .any
  | .kwUnknown => .unknown
  | .kwNever => .never
  | .kwUndefined => .undefined
  | .kwNull => .null
  | _ => .error

/-- Records the types of the parameters of a signature without a body. -/
def signatureParameter (self : Rules) (node : NodeId) : Check Unit := do
  match (← read).arena.parameterOf? node with
  | none => return
  | some p =>
    let type := (← ascription self p.ascription).getD .any
    record node type
    record p.name type

/-- The type that a form of type node stands for. -/
def typeOfForm (self : Rules) (node : NodeId) : Form → Check TypeId
  | .keyword word => return keywordType word
  | .literalType literal => do
    let type ← literalType (← read).arena literal
    record literal type
    return type
  | .arrayType element => do
    let type ← self.typeNode element
    alloc (TypeTable.array type)
  | .parenthesizedType inner => self.typeNode inner
  | .unionType members => do
    let types ← members.mapM self.typeNode
    alloc (TypeTable.union types)
  | .function .functionType p => do
    p.parameters.forM (signatureParameter self)
    let s ← signature self node
    alloc (TypeTable.function s)
  | .typeReference name => typeReference self name
  | _ => return .error

/-- The type that a type node stands for. -/
def typeNode (self : Rules) (node : NodeId) : Check TypeId := do
  match (← read).arena.form? node with
  | none => return .error
  | some form =>
    let type ← typeOfForm self node form
    record node type
    return type

/-! ## Symbols as types -/

def isTypeAlias : Option Form → Bool
  | some (.typeAlias _) => true
  | _ => false

/-- What a type alias stands for. -/
def aliasType (self : Rules) (id : SymbolId) (symbol : Symbol) : Check TypeId := do
  match (← get).aliasTypes.get? id with
  | some known => return known
  | none =>
    let c ← read
    if c.resolvingTypes.contains id then return .error
    let type ← match symbol.declarations.find? fun d => isTypeAlias (c.form? d) with
      | none => pure TypeId.error
      | some d =>
        match c.form? d with
        | some (.typeAlias p) =>
          resolvingType id (atDeclaration d.file (c.scopeAround d) (self.typeNode p.aliased))
        | _ => pure TypeId.error
    modify fun s => { s with aliasTypes := s.aliasTypes.insert id type }
    return type

end ScriptAnalysis.Checking
