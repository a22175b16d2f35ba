import ScriptAnalysis.Checking.Expressions

/-!
# Statements and declarations

The walk over a file that reports what is wrong and records the types of
its nodes. A statement gives the types that the `return` statements in it
return, functions inside it apart.
-/
namespace ScriptAnalysis.Checking

/-! ## Simple statements -/

/-- Checks a statement that may be missing. -/
def statement? (self : Rules) : Option NodeId → Check (List TypeId)
  | none => return []
  | some node => self.statement node

def statements (self : Rules) (nodes : List NodeId) : Check (List TypeId) := do
  return (← nodes.mapM self.statement).flatten

/-- Checks an expression that may be missing, for its problems only. -/
def lookAt (self : Rules) (node : Option NodeId) : Check Unit :=
  node.forM fun node => do
    let _ ← self.expression node none

/-- Checks the body of a loop. -/
def loopBody (self : Rules) (body : Option NodeId) : Check (List TypeId) :=
  inLoopBody (statement? self body)

/-- Checks the first part of a loop, a declaration or an expression. -/
def loopStart (self : Rules) (start : Option NodeId) : Check (List TypeId) := do
  match start with
  | none => return []
  | some node =>
    if ((← read).arena.form? node).any Binding.isStatement then self.statement node
    else
      let _ ← self.expression node none
      return []

/-- `return e` -/
def checkReturn (self : Rules) (node : NodeId) (value : Option NodeId) : Check (List TypeId) := do
  match (← read).returns with
  | none =>
    reportStart node 6 .returnOutsideFunction
    lookAt self value
    return []
  | some declared =>
    match value with
    | none => return []
    | some value =>
      let type ← self.expression value declared
      declared.forM (checkAssignable type · value)
      return [type]

/-- `break` and `continue` -/
def checkJump (node : NodeId) (length : Nat) (p : Problem) : Check Unit := do
  unless (← read).inLoop do reportStart node length p

/-! ## Variables -/

def checkVariable (self : Rules) (node : NodeId) : Check Unit := do
  let c ← read
  match c.arena.form? node with
  | some (.variableDeclaration p) =>
    let type ← match c.declared? node with
      | some symbol => self.valueType symbol
      | none => silently (variableType self node)
    let annotated ← ascription self p.ascription
    checkInitializer self p.initializer annotated p.name
    record node type
    record p.name type
  | _ => return

/-! ## Functions -/

/-- Reports a body where there must be none. -/
def reportAmbientBody (body : NodeId) : Check Unit :=
  reportStart body 1 .implementationInAmbientContext

/-- Whether some declaration of a symbol has a body. -/
def hasImplementation (c : Context) (symbol : Option SymbolId) : Bool :=
  (symbol.bind c.symbol?).any fun s => s.declarations.any fun d =>
    ((c.sourceFile d.file).arena.functionOf? d.node).any (·.body.isSome)

def checkFunctionDeclaration (self : Rules) (node : NodeId) (p : FunctionParts) :
    Check Unit := do
  let c ← read
  let ambient := c.source.isDeclaration || p.modifiers.ambient
  let symbol := c.declared? node
  symbol.forM fun symbol => do
    let type ← self.valueType symbol
    record node type
    record? p.name type
  match p.body with
  | some body => if ambient then reportAmbientBody body
  | none =>
    if !ambient && !hasImplementation c symbol then
      p.name.forM (report · .implementationMissing)
  checkFunction self node

/-! ## Classes -/

/-- The type of an own property of a type. -/
def ownPropertyType (owner : TypeId) (name : String) : Check TypeId := do
  return ((((← table).shape? owner).bind (·.property? name)).map Property.type).getD .error

/-- The side of a class that a member is on. -/
def ownerOf (types : ClassTypes) (m : Modifiers) : TypeId :=
  if m.isStatic then types.constructorType else types.instanceType

def checkProperty (self : Rules) (types : ClassTypes) (member : NodeId) (p : PropertyParts) :
    Check Unit := do
  let type ← ownPropertyType (ownerOf types p.modifiers) (memberName (← read).arena p.name)
  let annotated ← ascription self p.ascription
  checkInitializer self p.initializer annotated p.name
  record member type
  record p.name type

/-- Whether one of the methods of a name has a body. -/
def hasMethodBody (a : Arena) (members : List NodeId) (name : String) : Bool :=
  members.any fun member =>
    match a.form? member with
    | some (.function .method p) => p.body.isSome && memberName? a p.name == name
    | _ => false

/-- The type of a method of a class; one without a body anywhere is
reported. -/
def checkMethodName (types : ClassTypes) (members : List NodeId) (ambient : Bool)
    (p : FunctionParts) : Check TypeId := do
  let a := (← read).arena
  let name := memberName? a p.name
  if p.body.isNone && !ambient && !hasMethodBody a members name then
    p.name.forM (report · .implementationMissing)
  ownPropertyType (ownerOf types p.modifiers) name

def checkMember (self : Rules) (types : ClassTypes) (c : ClassParts) (ambient : Bool)
    (member : NodeId) : Check Unit := do
  match (← read).arena.form? member with
  | some (.propertyDeclaration p) => checkProperty self types member p
  | some (.function kind p) =>
    if kind = .method || kind = .constructor then
      let ambient := ambient || p.modifiers.ambient
      if ambient then p.body.forM reportAmbientBody
      let type ←
        if kind = .constructor then pure types.constructorType
        else checkMethodName types c.members ambient p
      record member type
      record? p.name type
      checkFunction self member
  | _ => return

def checkClass (self : Rules) (node : NodeId) (p : ClassParts) : Check Unit := do
  let c ← read
  match c.declared? node with
  | none => return
  | some symbol =>
    let types ← self.classTypes symbol
    record node types.constructorType
    record p.name types.constructorType
    p.heritage.forM fun base => do
      let _ ← self.typeNode base
    inClass types.instanceType do
      p.members.forM (checkMember self types p (c.source.isDeclaration || p.modifiers.ambient))

/-! ## Interfaces and aliases -/

/-- What the symbol that a node declares means as a type. -/
def declaredTypeOf (self : Rules) (node : NodeId) : Check (Option TypeId) := do
  match (← read).declared? node with
  | none => return none
  | some symbol => self.declaredType symbol

def checkSignatureMember (self : Rules) (declared : TypeId) (member : NodeId) : Check Unit := do
  let a := (← read).arena
  match a.form? member with
  | some (.propertySignature p) | some (.propertyDeclaration p) =>
    let type := (← ascription self p.ascription).getD .any
    record member type
    record p.name type
  | some (.function _ p) =>
    p.parameters.forM (signatureParameter self)
    let _ ← ascription self p.returnType
    let type ← ownPropertyType declared (memberName? a p.name)
    record member type
    record? p.name type
  | _ => return

def checkInterface (self : Rules) (node : NodeId) (p : InterfaceParts) : Check Unit := do
  let declared := (← declaredTypeOf self node).getD .error
  record node declared
  record p.name declared
  p.heritage.forM fun base => do
    let _ ← self.typeNode base
  p.members.forM (checkSignatureMember self declared)

def checkAlias (self : Rules) (node : NodeId) (p : AliasParts) : Check Unit := do
  let declared ← declaredTypeOf self node
  let _ ← self.typeNode p.aliased
  declared.forM fun type => do
    record node type
    record p.name type

/-! ## Imports -/

/-- Checks one imported name against what the module exports. -/
def checkSpecifier (self : Rules) (specifier : String) (node : NodeId) : Check Unit := do
  let c ← read
  match c.arena.form? node, c.declared? node with
  | some (.importSpecifier exportedName name), some symbol =>
    match c.importTarget? symbol with
    | none =>
      let exportNode := exportedName.getD name
      report exportNode
        (.noExportedMember specifier ((c.arena.nameOf? exportNode).getD ""))
    | some target =>
      let type ←
        if (c.symbol? target).any (·.flags.isValue) then self.valueType symbol
        else pure ((← self.declaredType target).getD .error)
      record node type
      record name type
      record? exportedName type
  | _, _ => return

/-- Checks an import: the module has to be one of the program's files. -/
def checkImport (self : Rules) (specifiers : List NodeId) (source : Option NodeId) :
    Check Unit := do
  let c ← read
  let specifier := (source.bind c.arena.literalOf?).getD ""
  let isFile := fun path => c.files.toList.any (·.name == path)
  match Path.resolveModule c.source.name specifier isFile with
  | none => source.forM (report · (.cannotFindModule specifier))
  | some _ => specifiers.forM (checkSpecifier self specifier)

/-! ## All statements -/

/-- Runs a check that returns nothing from the function. -/
def returningNothing (x : Check Unit) : Check (List TypeId) := do
  x
  return []

/-- Checks a statement by its form. -/
def checkStatement (self : Rules) (node : NodeId) : Form → Check (List TypeId)
  | .function .declaration p => returningNothing (checkFunctionDeclaration self node p)
  | .classDeclaration p => returningNothing (checkClass self node p)
  | .interfaceDeclaration p => returningNothing (checkInterface self node p)
  | .typeAlias p => returningNothing (checkAlias self node p)
  | .variableStatement _ _ declarations =>
    returningNothing (declarations.forM (checkVariable self))
  | .importDeclaration specifiers source => returningNothing (checkImport self specifiers source)
  | .block nodes => do inScope ((← read).scopeOf node) (statements self nodes)
  | .expressionStatement e => returningNothing (lookAt self (some e))
  | .returnStatement value => checkReturn self node value
  | .ifStatement condition thenBranch elseBranch => do
    lookAt self (some condition)
    let a ← statement? self thenBranch
    let b ← statement? self elseBranch
    return a ++ b
  | .whileStatement condition body => do
    lookAt self (some condition)
    loopBody self body
  | .forStatement start condition increment body => do
    inScope ((← read).scopeOf node) do
      let a ← loopStart self start
      lookAt self condition
      lookAt self increment
      let b ← loopBody self body
      return a ++ b
  | .forOfStatement start iterated body => do
    inScope ((← read).scopeOf node) do
      lookAt self (some iterated)
      let a ← loopStart self start
      let b ← loopBody self body
      return a ++ b
  | .breakStatement => returningNothing (checkJump node 5 .breakOutsideLoop)
  | .continueStatement => returningNothing (checkJump node 8 .continueOutsideLoop)
  | _ => return []

/-- Checks a statement. -/
def statement (self : Rules) (node : NodeId) : Check (List TypeId) := do
  match (← read).arena.form? node with
  | none => return []
  | some form => checkStatement self node form

end ScriptAnalysis.Checking
