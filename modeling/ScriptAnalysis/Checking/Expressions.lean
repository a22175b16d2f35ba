import ScriptAnalysis.Checking.Values

/-!
# Expressions

The type of an expression. The type that the surroundings expect is handed
down; arrow functions take the types of their parameters from it.
-/
namespace ScriptAnalysis.Checking

/-- How deeply expressions may stand inside each other. -/
def maxExpressionDepth : Nat := 400

/-! ## Names -/

/-- The type of a name. -/
def checkName (self : Rules) (node : NodeId) : Check TypeId := do
  let c ← read
  let name := (c.arena.nameOf? node).getD ""
  if name.isEmpty then return .error
  match c.resolve name .value with
  | some symbol => self.valueType symbol
  | none =>
    if (c.resolve name .type).isSome then report node (.typeUsedAsValue name)
    else report node (.cannotFindName name)
    return .error

/-- What `this` means here. -/
def thisType : Check (Option TypeId) := do
  let c ← read
  return (thisOfScope c (← get) c.scope).orElse fun _ => c.this

/-- The instances of the base class. -/
def superType : Check TypeId := do
  let t ← table
  return ((← thisType).bind fun this => (t.bases this).head?).getD .error

/-! ## Members -/

/-- The type of a member of a type that is no union. Members of primitives
and arrays are made when they are first asked for. -/
def memberType (id : TypeId) (name : String) : Check (Option TypeId) := do
  if id.isLoose then return some id
  let t ← table
  match t.property? id name with
  | some p => return some p.type
  | none =>
    match Receiver.ofType? t id with
    | none => return none
    | some receiver =>
      if receiver.members.contains name then
        let key := (match receiver with
          | .array _ => id
          | _ => t.primitive id, name)
        match (← get).apparent.get? key with
        | some known => return some known
        | none =>
          let type ← alloc (receiver.memberType name)
          modify fun s => { s with apparent := s.apparent.insert key type }
          return some type
      else return none

/-- The types of a member on several types, if all have it. -/
def memberTypes (name : String) : List TypeId → Check (Option (List TypeId))
  | [] => return some []
  | id :: rest => do
    match ← memberType id name with
    | none => return none
    | some type =>
      match ← memberTypes name rest with
      | none => return none
      | some types => return some (type :: types)

/-- The type of a member; on a union it has to exist on all members. -/
def propertyType (id : TypeId) (name : String) : Check (Option TypeId) := do
  match (← table).dataOf id with
  | .union members =>
    match ← memberTypes name members with
    | none => return none
    | some types => return some (← alloc (TypeTable.union types))
  | _ => memberType id name

/-- `object.name` -/
def checkPropertyAccess (self : Rules) (object nameNode : NodeId) : Check TypeId := do
  let objectType ← self.expression object none
  let name := memberName (← read).arena nameNode
  if name.isEmpty then return .error
  let type ← match ← propertyType objectType name with
    | some type => pure type
    | none => do
      report nameNode (.noProperty name (← display objectType))
      pure .error
  record nameNode type
  return type

/-- `object[index]` -/
def checkElementAccess (self : Rules) (object index : NodeId) : Check TypeId := do
  let objectType ← self.expression object none
  let indexType ← self.expression index none
  if objectType.isLoose then return objectType
  let t ← table
  match t.element? objectType with
  | some element => return element
  | none =>
    if t.primitive objectType == .string then return .string
    match t.dataOf indexType with
    | .literal (.string key) => return (← propertyType objectType key).getD .any
    | _ => return .any

/-! ## Literals -/

/-- `[a, b]` -/
def checkArray (self : Rules) (elements : List NodeId) (expected : Option TypeId) :
    Check TypeId := do
  let t ← table
  let element? := expected.bind t.element?
  let types ← elements.mapM fun e => do
    let type ← self.expression e element?
    alloc (TypeTable.widen type)
  let element ←
    if types.isEmpty then pure (element?.getD .any) else alloc (TypeTable.union types)
  alloc (TypeTable.array element)

/-- A property of an object literal; a later one of the same name takes the
place of an earlier one, at the end. -/
def addLiteralProperty (self : Rules) (expected : Option TypeId) (shape : Shape)
    (element : NodeId) : Check Shape := do
  let a := (← read).arena
  match a.form? element with
  | some (.propertyAssignment nameNode value) =>
    let name := memberName a nameNode
    let t ← table
    let wanted := (expected.bind (t.property? · name)).map Property.type
    let found ← match value with
      | some value => self.expression value wanted
      | none => checkName self nameNode
    let type ← alloc (TypeTable.widen found)
    record nameNode type
    record element type
    return { shape with
      properties := shape.properties.filter (·.name != name) ++ [⟨name, type, false, false⟩] }
  | _ => return shape

/-- `{ a: b }` -/
def checkObject (self : Rules) (properties : List NodeId) (expected : Option TypeId) :
    Check TypeId := do
  let shape ← properties.foldlM (addLiteralProperty self expected) (.bare .anonymous none none)
  alloc (TypeTable.allocate shape)

/-! ## Calls -/

/-- Checks arguments that nothing is expected of. -/
def checkArguments (self : Rules) (arguments : List NodeId) : Check Unit :=
  arguments.forM fun argument => do
    let _ ← self.expression argument none

/-- The number of arguments that a call may have. -/
def takesCount (count : Nat) (s : Signature) : Bool :=
  s.minArguments ≤ count && count ≤ s.parameters.length

/-- Whether the arguments fit a signature, the first that does not fit
ending the search. -/
def argumentsFit (self : Rules) : List (NodeId × Parameter) → Check Bool
  | [] => return true
  | (argument, p) :: rest => do
    let type ← self.expression argument (some p.type)
    if ← assignable type p.type then argumentsFit self rest else return false

/-- The first signature that the arguments fit. -/
def findSignature (self : Rules) (arguments : List NodeId) :
    List Signature → Check (Option Signature)
  | [] => return none
  | s :: rest => do
    if ← silently (argumentsFit self (arguments.zip s.parameters)) then return some s
    else findSignature self arguments rest

/-- How many arguments some signatures take, for a message. -/
def expectedCount (signatures : List Signature) : String :=
  let least := ((signatures.map Signature.minArguments).min?).getD 0
  let most := ((signatures.map (·.parameters.length)).max?).getD 0
  if least = most then toString least else toString least ++ "-" ++ toString most

/-- Checks an argument against its parameter. -/
def checkArgument (self : Rules) (argument : NodeId) (p : Parameter) : Check Unit := do
  let type ← self.expression argument (some p.type)
  unless ← assignable type p.type do
    let t ← table
    let details := t.elaboration? (← read).options.strict type p.type
    reportWith argument (.argumentNotAssignable (t.display type) (t.display p.type)) details.toList

/-- Finds the signature of a call and checks the arguments against it. Of
several with a fitting number of parameters the first that fits is taken,
or the first when none does. -/
def resolveCall (self : Rules) (node : NodeId) (signatures : List Signature)
    (arguments : List NodeId) : Check TypeId := do
  match signatures.filter (takesCount arguments.length) with
  | [] =>
    report node (.expectedArguments (expectedCount signatures) (toString arguments.length))
    checkArguments self arguments
    return (signatures.head?.map Signature.returnType).getD .error
  | first :: others =>
    let chosen ←
      if others.isEmpty then pure first
      else pure ((← findSignature self arguments (first :: others)).getD first)
    (arguments.zip chosen.parameters).forM fun (argument, p) => checkArgument self argument p
    return chosen.returnType

/-- What the constructor of the class of some instances takes. -/
def constructsOfInstance (s : State) (instanceType : TypeId) : List Signature :=
  match (s.types.shape? instanceType).bind Shape.symbol with
  | none => []
  | some symbol =>
    match s.classTypes.get? symbol with
    | none => []
    | some types => s.types.constructs types.constructorType

/-- `super(a)` -/
def checkSuperCall (self : Rules) (node callee : NodeId) (arguments : List NodeId) :
    Check TypeId := do
  let base ← self.expression callee none
  let signatures := constructsOfInstance (← get) base
  if signatures.isEmpty then checkArguments self arguments
  else
    let _ ← resolveCall self node signatures arguments
  return .void

/-- `f(a)` -/
def checkCall (self : Rules) (node callee : NodeId) (arguments : List NodeId) : Check TypeId := do
  match (← read).arena.form? callee with
  | some (.keyword .kwSuper) => checkSuperCall self node callee arguments
  | _ =>
    let type ← self.expression callee none
    if type.isLoose then
      checkArguments self arguments
      return type
    match (← table).calls type with
    | [] =>
      report callee .notCallable
      checkArguments self arguments
      return .error
    | signatures => resolveCall self node signatures arguments

/-- `new C(a)` -/
def checkNew (self : Rules) (node callee : NodeId) (arguments : List NodeId) : Check TypeId := do
  let type ← self.expression callee none
  if type.isLoose then
    checkArguments self arguments
    return type
  match (← table).constructs type with
  | [] =>
    report callee .notConstructable
    checkArguments self arguments
    return .error
  | signatures => resolveCall self node signatures arguments

/-! ## Operators -/

/-- Reports a constant that is assigned to, and says whether the target can
be assigned to. -/
def checkTarget (target : NodeId) : Check Bool := do
  let c ← read
  match c.arena.nameOf? target with
  | none => return true
  | some name =>
    if ((c.resolve name .value).bind c.symbol?).any Symbol.constant then
      report target (.assignToConstant name)
      return false
    else return true

/-- The sum of two values: a string if one of them is, a number if both
are. -/
def additionType (t : TypeTable) (left right : TypeId) : TypeId :=
  let l := t.primitive left
  let r := t.primitive right
  if l == .string || r == .string then .string
  else if l == .number && r == .number then .number
  else .any

/-- An operator before its operand. A minus sign belongs to the number after
it. -/
def checkPrefix (self : Rules) (operator : TokenKind) (operand : NodeId) : Check TypeId := do
  match operator, (← read).arena.form? operand with
  | .exclamation, _ =>
    let _ ← self.expression operand none
    return .boolean
  | .minus, some (.numericLiteral text) =>
    let _ ← self.expression operand none
    alloc (TypeTable.numberLiteral ("-" ++ text))
  | .plusPlus, _ | .minusMinus, _ =>
    let _ ← self.expression operand none
    let _ ← checkTarget operand
    return .number
  | _, _ =>
    let _ ← self.expression operand none
    return .number

/-- `a = b` -/
def checkAssignment (self : Rules) (left right : NodeId) : Check TypeId := do
  let target ← self.expression left none
  let writable ← checkTarget left
  let value ← self.expression right (some target)
  if writable then checkAssignable value target left
  return value

/-- `a += b` and the like -/
def checkUpdate (self : Rules) (left : NodeId) (operator : TokenKind) (right : NodeId) :
    Check TypeId := do
  let target ← self.expression left none
  let _ ← checkTarget left
  let value ← self.expression right none
  if operator = .plusEquals then return additionType (← table) target value
  else return .number

/-- What an operator gives whose operands only have to be looked at. -/
def operatorType (operator : TokenKind) (left right : TypeId) : Check TypeId := do
  match operator with
  | .plus => return additionType (← table) left right
  | .minus | .asterisk | .slash | .percent => return .number
  | .less | .greater | .lessEquals | .greaterEquals | .looseEquals | .looseNotEquals
  | .strictEquals | .strictNotEquals => return .boolean
  | .andAnd => return right
  | .orOr | .questionQuestion =>
    let present := ((← table).unionMembers left).filter fun m => m != .null && m != .undefined
    alloc (TypeTable.union (present ++ [right]))
  | _ => return .error

def checkBinary (self : Rules) (left : NodeId) (operator : TokenKind) (right : NodeId) :
    Check TypeId := do
  match operator with
  | .equals => checkAssignment self left right
  | .plusEquals | .minusEquals | .asteriskEquals | .slashEquals =>
    checkUpdate self left operator right
  | _ =>
    let l ← self.expression left none
    let r ← self.expression right none
    operatorType operator l r

/-! ## Arrow functions -/

/-- Gives the parameters of an arrow function without ascriptions the types
that its surroundings expect. -/
def takeContext (node : NodeId) (expected : Option TypeId) : Check Unit := do
  let c ← read
  let t ← table
  match c.arena.functionOf? node, expected.bind fun type => (t.calls type).head? with
  | some p, some s =>
    (p.parameters.zip s.parameters).forM fun (parameter, info) => do
      unless (c.arena.parameterOf? parameter).any (·.ascription.isSome) do
        modify fun s => { s with
          contextual := s.contextual.insert (c.site parameter) info.type }
  | _, _ => return

/-- The type of an arrow function, which is fixed when the function is first
seen. -/
def arrowType (self : Rules) (node : NodeId) (expected : Option TypeId) : Check TypeId := do
  let key := (← read).site node
  match (← get).arrowTypes.get? key with
  | some known => return known
  | none =>
    takeContext node expected
    let s ← signature self node
    let type ← alloc (TypeTable.function s)
    modify fun s => { s with arrowTypes := s.arrowTypes.insert key type }
    return type

def checkArrow (self : Rules) (node : NodeId) (expected : Option TypeId) : Check TypeId := do
  let type ← arrowType self node expected
  if (← read).recording then checkFunction self node
  return type

/-! ## All expressions -/

/-- The type of an expression by its form. -/
def expressionType (self : Rules) (node : NodeId) (expected : Option TypeId) :
    Form → Check TypeId
  | .numericLiteral text => alloc (TypeTable.numberLiteral text)
  | .stringLiteral text => alloc (TypeTable.stringLiteral text)
  | .keyword .kwTrue => return .trueValue
  | .keyword .kwFalse => return .falseValue
  | .keyword .kwNull => return .null
  | .keyword .kwThis => return (← thisType).getD .any
  | .keyword .kwSuper => superType
  | .identifier _ => checkName self node
  | .parenthesized inner => self.expression inner expected
  | .arrayLiteral elements => checkArray self elements expected
  | .objectLiteral properties => checkObject self properties expected
  | .call callee arguments => checkCall self node callee arguments
  | .newExpression callee arguments => checkNew self node callee arguments
  | .propertyAccess object name => checkPropertyAccess self object name
  | .elementAccess object index => checkElementAccess self object index
  | .prefixUnary operator operand => checkPrefix self operator operand
  | .postfixUnary _ operand => do
    let _ ← self.expression operand none
    let _ ← checkTarget operand
    return .number
  | .typeOf operand => do
    let _ ← self.expression operand none
    return .string
  | .binary left operator right => checkBinary self left operator right
  | .conditional condition whenTrue whenFalse => do
    let _ ← self.expression condition none
    let t ← self.expression whenTrue expected
    let f ← self.expression whenFalse expected
    alloc (TypeTable.union [t, f])
  | .function .arrow _ => checkArrow self node expected
  | .asExpression operand type => do
    let target ← self.typeNode type
    let _ ← self.expression operand (some target)
    return target
  | _ => return .error

/-- The type of an expression. What is nested too deeply is not looked at. -/
def expression (self : Rules) (node : NodeId) (expected : Option TypeId) : Check TypeId := do
  let c ← read
  if maxExpressionDepth ≤ c.depth then return .error
  let type ← inExpression <|
    match c.arena.form? node with
    | none => return .error
    | some form => expressionType self node expected form
  record node type
  return type

end ScriptAnalysis.Checking
