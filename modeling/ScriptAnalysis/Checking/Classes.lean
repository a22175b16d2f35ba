import ScriptAnalysis.Checking.TypeNodes

/-!
# Classes and interfaces

A class has two types, that of its instances and that of the class itself,
which holds the static members and what `new` takes. An interface has one
type, to which all its declarations add. Members may refer to the type that
they are part of, so a type is in the table before its members are known.

Members whose types are spelled out come first; the others are found from
their values and bodies, which may use `this`.
-/
namespace ScriptAnalysis.Checking

/-- Replaces the property of the same name or adds one. A property without
a name is left out. -/
def upsertProperty (s : Shape) (p : Property) : Shape :=
  if p.name.isEmpty then s
  else if s.properties.any (·.name == p.name) then
    { s with properties := s.properties.map fun q => if q.name == p.name then p else q }
  else { s with properties := s.properties ++ [p] }

/-- Adds a node to those of its name. -/
def addNamed (names : Table String (List NodeId)) (name : String) (node : NodeId) :
    Table String (List NodeId) :=
  names.insert name ((names.get? name).getD [] ++ [node])

/-- The declarations that others see: those without a body, if there are
any. -/
def visibleOverloads (a : Arena) (nodes : List NodeId) : List NodeId :=
  let overloads := nodes.filter fun n => (a.functionOf? n).any (·.body.isNone)
  if overloads.isEmpty then nodes else overloads

/-! ## Interfaces -/

/-- Whether a question mark follows the name of a method. -/
def isOptionalMethod (f : SourceFile) (node : NodeId) : Bool :=
  match ((f.arena.functionOf? node).bind FunctionParts.name).bind (f.arena[·]?) with
  | none => false
  | some name =>
    match Text.dropBytes? name.stop f.text with
    | none => false
    | some rest => (rest.dropWhile Text.isWhite).head? == some '?'

/-- Adds a type that is extended. -/
def addBase (self : Rules) (shape : Shape) (heritage : NodeId) : Check Shape := do
  let base ← self.typeNode heritage
  if ((← table).shape? base).isSome && !shape.bases.contains base then
    return { shape with bases := shape.bases ++ [base] }
  else return shape

/-- A member that is declared already stays as it is. -/
def isTaken (shape : Shape) (name : String) : Bool :=
  name.isEmpty || (shape.property? name).isSome

/-- Adds a property of an interface. -/
def addSignatureProperty (self : Rules) (shape : Shape) (p : PropertyParts) : Check Shape := do
  let name := memberName (← read).arena p.name
  if isTaken shape name then return shape
  let type := (← ascription self p.ascription).getD .any
  return { shape with
    properties := shape.properties ++ [⟨name, type, p.optional, p.modifiers.isReadonly⟩] }

/-- Adds a member of an interface; methods are put off, by name. -/
def addInterfaceMember (self : Rules) (acc : Shape × Table String (List NodeId))
    (member : NodeId) : Check (Shape × Table String (List NodeId)) := do
  let a := (← read).arena
  match a.form? member with
  | some (.propertySignature p) => return (← addSignatureProperty self acc.1 p, acc.2)
  | some (.function .methodSignature p) =>
    return (acc.1, addNamed acc.2 (memberName? a p.name) member)
  | _ => return acc

/-- Adds a method of an interface with all its signatures. -/
def addInterfaceMethod (self : Rules) (shape : Shape) (entry : String × List NodeId) :
    Check Shape := do
  let (name, nodes) := entry
  if isTaken shape name then return shape
  let f := (← read).source
  let type ← functionsType self nodes
  return { shape with
    properties := shape.properties ++ [⟨name, type, nodes.any (isOptionalMethod f), false⟩] }

/-- Adds what one declaration of an interface says. -/
def addInterface (self : Rules) (shape : Shape) (declaration : Site) : Check Shape := do
  let c ← read
  atDeclaration declaration.file (c.scopeAround declaration) do
    match c.form? declaration with
    | some (.interfaceDeclaration p) =>
      let shape ← p.heritage.foldlM (addBase self) shape
      let (shape, methods) ← p.members.foldlM (addInterfaceMember self) (shape, .empty)
      methods.entries.foldlM (addInterfaceMethod self) shape
    | _ => return shape

def isInterface : Option Form → Bool
  | some (.interfaceDeclaration _) => true
  | _ => false

def isClass : Option Form → Bool
  | some (.classDeclaration _) => true
  | _ => false

/-- The type of an interface, over all its declarations. -/
def interfaceType (self : Rules) (id : SymbolId) (symbol : Symbol) : Check TypeId := do
  match (← get).interfaceTypes.get? id with
  | some known => return known
  | none =>
    let c ← read
    let bare := Shape.bare .interface (some symbol.name) (some id)
    let type ← alloc (TypeTable.allocate bare)
    modify fun s => { s with interfaceTypes := s.interfaceTypes.insert id type }
    let declarations := symbol.declarations.filter fun d => isInterface (c.form? d)
    let _ ← declarations.foldlM (fun shape d => do
      let shape ← addInterface self shape d
      alloc (TypeTable.setShape type shape)
      return shape) bare
    return type

/-! ## Classes -/

/-- The shapes of a class while it is being put together. -/
structure ClassShapes where
  types : ClassTypes
  instanceShape : Shape
  constructorShape : Shape

namespace ClassShapes

/-- Puts a member on the side that it belongs to. -/
def upsert (s : ClassShapes) (isStatic : Bool) (p : Property) : ClassShapes :=
  if isStatic then { s with constructorShape := upsertProperty s.constructorShape p }
  else { s with instanceShape := upsertProperty s.instanceShape p }

/-- Makes the shapes known. -/
def publish (s : ClassShapes) : Check Unit := do
  alloc (TypeTable.setShape s.types.instanceType s.instanceShape)
  alloc (TypeTable.setShape s.types.constructorType s.constructorShape)

end ClassShapes

/-- The members of a class by sort. -/
structure ClassMembers where
  methods : Table String (List NodeId)
  untyped : List PropertyParts
  constructors : List NodeId

/-- The base class, whose static side is the base of the static side. Gives
that static side too. -/
def addBaseClass (self : Rules) (s : ClassShapes) (heritage : Option NodeId) :
    Check (ClassShapes × Option TypeId) := do
  match heritage with
  | none => return (s, none)
  | some node =>
    let base ← self.typeNode node
    match (← table).shape? base with
    | none => return (s, none)
    | some shape =>
      if shape.kind ≠ .instance_ then return (s, none)
      let s := { s with
        instanceShape := { s.instanceShape with bases := s.instanceShape.bases ++ [base] } }
      match shape.symbol with
      | none => return (s, none)
      | some symbol =>
        let baseTypes ← self.classTypes symbol
        let side := baseTypes.constructorType
        return ({ s with
          constructorShape := { s.constructorShape with
            bases := s.constructorShape.bases ++ [side] } }, some side)

def classProperty (a : Arena) (p : PropertyParts) (type : TypeId) : Property :=
  ⟨memberName a p.name, type, p.optional, p.modifiers.isReadonly⟩

/-- Takes in a member: a property at once, one without an ascription as
`any` for now; methods and constructors are put off. -/
def addClassMember (self : Rules) (acc : ClassShapes × ClassMembers) (member : NodeId) :
    Check (ClassShapes × ClassMembers) := do
  let a := (← read).arena
  let (s, ms) := acc
  match a.form? member with
  | some (.propertyDeclaration p) =>
    match ← ascription self p.ascription with
    | some type => return (s.upsert p.modifiers.isStatic (classProperty a p type), ms)
    | none =>
      return (s.upsert p.modifiers.isStatic (classProperty a p .any),
        { ms with untyped := ms.untyped ++ [p] })
  | some (.function .method p) =>
    return (s, { ms with methods := addNamed ms.methods (memberName? a p.name) member })
  | some (.function .constructor _) =>
    return (s, { ms with constructors := ms.constructors ++ [member] })
  | _ => return acc

/-- A constructor parameter that is a property too. -/
def addParameterProperty (self : Rules) (constructor : NodeId) (s : ClassShapes)
    (parameter : NodeId) : Check ClassShapes := do
  let c ← read
  match c.arena.parameterOf? parameter with
  | none => return s
  | some p =>
    if p.modifiers.declaresProperty then
      let type ← inScope (c.scopeOf constructor) (parameterType self parameter)
      return s.upsert false ⟨memberName c.arena p.name, type, p.optional, p.modifiers.isReadonly⟩
    else return s

def addParameterProperties (self : Rules) (s : ClassShapes) (constructor : NodeId) :
    Check ClassShapes := do
  let parameters := (((← read).arena.functionOf? constructor).map FunctionParts.parameters).getD []
  parameters.foldlM (addParameterProperty self constructor) s

/-- A method is static if its first declaration is. -/
def isStaticMethod (a : Arena) (nodes : List NodeId) : Bool :=
  nodes.head?.any fun n => (a.modifiers n).isStatic

/-- The type of a method, over all its declarations. Declarations without a
body hide those with one. -/
def methodType (self : Rules) (nodes : List NodeId) : Check TypeId := do
  functionsType self (visibleOverloads (← read).arena nodes)

/-- Whether the return types of all declarations are spelled out. -/
def isAnnotatedMethod (a : Arena) (nodes : List NodeId) : Bool :=
  nodes.all fun n => (a.functionOf? n).any fun f => f.returnType.isSome || f.body.isNone

/-- Takes in a method whose type is spelled out; any other is `any` for
now. -/
def addMethod (self : Rules) (s : ClassShapes) (entry : String × List NodeId) :
    Check ClassShapes := do
  let a := (← read).arena
  let (name, nodes) := entry
  let type ← if isAnnotatedMethod a nodes then methodType self nodes else pure .any
  return s.upsert (isStaticMethod a nodes) ⟨name, type, false, false⟩

/-- Finds the type of a property from its initial value. -/
def inferProperty (self : Rules) (s : ClassShapes) (p : PropertyParts) : Check ClassShapes := do
  let type ← match p.initializer with
    | none => pure TypeId.any
    | some value => do
      let type ← self.expression value none
      alloc (TypeTable.widen type)
  let s := s.upsert p.modifiers.isStatic (classProperty (← read).arena p type)
  s.publish
  return s

/-- Finds the type of a method from its bodies. -/
def inferMethod (self : Rules) (s : ClassShapes) (entry : String × List NodeId) :
    Check ClassShapes := do
  let (name, nodes) := entry
  let type ← methodType self nodes
  let s := s.upsert (isStaticMethod (← read).arena nodes) ⟨name, type, false, false⟩
  s.publish
  return s

/-- What `new` takes: the signatures of the constructors, else those of the
base class, else nothing. -/
def constructSignatures (self : Rules) (types : ClassTypes) (constructors : List NodeId)
    (base : Option TypeId) : Check (List Signature) := do
  let visible := visibleOverloads (← read).arena constructors
  let found ←
    if !visible.isEmpty then visible.mapM (signature self)
    else match base with
      | some side => pure ((← table).constructs side)
      | none => pure []
  if found.isEmpty then return [⟨[], types.instanceType⟩]
  else return found.map fun s => { s with returnType := types.instanceType }

/-- Puts a class together. -/
def buildClass (self : Rules) (id : SymbolId) (types : ClassTypes) (p : ClassParts) :
    Check Unit := do
  let c ← read
  p.members.forM fun member =>
    modify fun s => { s with memberOwners := s.memberOwners.insert (c.site member) id }
  inClass types.instanceType do
    let t ← table
    let s : ClassShapes :=
      { types := types
        instanceShape := (t.shape? types.instanceType).getD (.bare .instance_ none none)
        constructorShape := (t.shape? types.constructorType).getD (.bare .constructor none none) }
    let (s, base) ← addBaseClass self s p.heritage
    let (s, members) ← p.members.foldlM (addClassMember self) (s, ⟨.empty, [], []⟩)
    let s ← members.constructors.foldlM (addParameterProperties self) s
    let s ← members.methods.entries.foldlM (addMethod self) s
    s.publish
    let s ← members.untyped.foldlM (inferProperty self) s
    let pending := members.methods.entries.filter fun e => !isAnnotatedMethod c.arena e.2
    let s ← pending.foldlM (inferMethod self) s
    let constructs ← constructSignatures self types members.constructors base
    { s with constructorShape := { s.constructorShape with constructs := constructs } }.publish

/-- The types of a class, with what interfaces of the same name add. -/
def classTypes (self : Rules) (id : SymbolId) : Check ClassTypes := do
  match (← get).classTypes.get? id with
  | some known => return known
  | none =>
    let c ← read
    match c.symbol? id with
    | none => return ⟨.error, .error⟩
    | some symbol =>
      let instanceType ← alloc (TypeTable.allocate (.bare .instance_ (some symbol.name) (some id)))
      let constructorType ← alloc
        (TypeTable.allocate (.bare .constructor (some symbol.name) (some id)))
      let types : ClassTypes := ⟨instanceType, constructorType⟩
      modify fun s => { s with classTypes := s.classTypes.insert id types }
      match symbol.declarations.find? fun d => isClass (c.form? d) with
      | none => return types
      | some d =>
        match c.form? d with
        | some (.classDeclaration p) =>
          atDeclaration d.file (c.scopeAround d) (buildClass self id types p)
        | _ => pure ()
        let interfaces := symbol.declarations.filter fun d => isInterface (c.form? d)
        unless interfaces.isEmpty do
          let shape := ((← table).shape? instanceType).getD (.bare .instance_ none none)
          let shape ← interfaces.foldlM (addInterface self) shape
          alloc (TypeTable.setShape instanceType shape)
        return types

/-! ## Symbols as types -/

/-- What a symbol means as a type; nothing if it names only a value. -/
def declaredType (self : Rules) (id : SymbolId) : Check (Option TypeId) := do
  let c ← read
  match c.symbol? id with
  | none => return none
  | some symbol =>
    if symbol.flags.alias_ then
      match c.importTarget? id with
      | none => return none
      | some target =>
        if c.resolvingTypes.contains id then return some .error
        resolvingType id (self.declaredType target)
    else if symbol.flags.class_ then return some (← self.classTypes id).instanceType
    else if symbol.flags.interface then return some (← interfaceType self id symbol)
    else if symbol.flags.typeAlias then return some (← aliasType self id symbol)
    else return none

end ScriptAnalysis.Checking
