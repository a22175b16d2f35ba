import ScriptAnalysis.Checking.State

/-!
# Parameters, bodies and signatures

A function without a declared return type returns the union of what its
body returns. A function whose return type is being worked out already
returns `any` to those who ask meanwhile.
-/
namespace ScriptAnalysis.Checking

/-- The type that an ascription spells, where there is one. -/
def ascription (self : Rules) : Option NodeId → Check (Option TypeId)
  | none => return none
  | some node => return some (← self.typeNode node)

/-! ## Bodies -/

/-- Checks the body of a function and gives the types that it returns. An
expression as body is returned. -/
def functionBody (self : Rules) (node : NodeId) (declared : Option TypeId) :
    Check (List TypeId) := do
  let c ← read
  match (c.arena.functionOf? node).bind FunctionParts.body with
  | none => return []
  | some body =>
    inScope (c.scopeOf node) <| inFunction declared do
      match c.arena.form? body with
      | none => return []
      | some (.block statements) => return (← statements.mapM self.statement).flatten
      | some _ =>
        let type ← self.expression body declared
        declared.forM (checkAssignable type · body)
        return [type]

/-- The union of the widened types that a body returns. -/
def inferredReturn (returned : List TypeId) : Check TypeId := do
  if returned.isEmpty then return .void
  let widened ← returned.mapM fun type => alloc (TypeTable.widen type)
  alloc (TypeTable.union widened)

/-! ## Parameters -/

/-- The type of a parameter: its ascription, else that of its initial value,
else what the surroundings give, else `any`. -/
def parameterType (self : Rules) (node : NodeId) : Check TypeId := do
  let c ← read
  match c.arena.parameterOf? node with
  | none => return .error
  | some p =>
    match p.ascription, p.initializer with
    | some type, _ => self.typeNode type
    | none, some value => do
      let type ← self.expression value none
      alloc (TypeTable.widen type)
    | none, none => return ((← get).contextual.get? (c.site node)).getD .any

/-- A parameter as part of a signature. -/
def parameterInfo (self : Rules) (node : NodeId) : Check Parameter := do
  let c ← read
  match c.arena.parameterOf? node with
  | none => return ⟨"", .error, false⟩
  | some p =>
    let type ← match c.declared? node with
      | some symbol => self.valueType symbol
      | none => parameterType self node
    return ⟨(c.arena.nameOf? p.name).getD "", type, p.optional || p.initializer.isSome⟩

/-! ## Signatures -/

/-- The return type of a function: declared, or found from the body. -/
def returnType (self : Rules) (node : NodeId) (kind : FunctionKind) (p : FunctionParts) :
    Check TypeId := do
  match p.returnType with
  | some type => inScope ((← read).scopeOf node) (self.typeNode type)
  | none =>
    if kind = .constructor then return .void
    else if p.body.isSome then
      inferredReturn (← silently (functionBody self node none))
    else return .any

/-- The signature of a function of the file. -/
def signature (self : Rules) (node : NodeId) : Check Signature := do
  let c ← read
  let key := c.site node
  match (← get).signatures.get? key with
  | some known => return known
  | none =>
    match c.arena.form? node with
    | some (.function kind p) =>
      let parameters ← inScope (c.scopeOf node) (p.parameters.mapM (parameterInfo self))
      if c.resolvingSignatures.contains key then return ⟨parameters, .any⟩
      let type ← resolvingSignature key (returnType self node kind p)
      let result : Signature := ⟨parameters, type⟩
      modify fun s => { s with signatures := s.signatures.insert key result }
      return result
    | _ => return ⟨[], .error⟩

/-- A type with the signatures of some functions of the file. -/
def functionsType (self : Rules) (nodes : List NodeId) : Check TypeId := do
  let signatures ← nodes.mapM (signature self)
  alloc (TypeTable.allocate { Shape.bare .anonymous none none with calls := signatures })

/-! ## Checking functions -/

/-- A declared return type that asks for a value. -/
def requiresValue (t : TypeTable) (declared : TypeId) : Bool :=
  (t.unionMembers declared).all fun m =>
    !(m == .void || m == .any || m == .unknown || m == .undefined || m == .error || m == .never)

/-- Checks the value that a variable, a parameter or a property starts
with. -/
def checkInitializer (self : Rules) (initializer : Option NodeId) (annotated : Option TypeId)
    (name : NodeId) : Check Unit :=
  initializer.forM fun value => do
    let type ← self.expression value annotated
    annotated.forM (checkAssignable type · name)

/-- Checks a parameter. One without a type is reported on demand, unless it
belongs to an arrow function whose surroundings give the type. -/
def checkParameter (self : Rules) (arrow : Bool) (node : NodeId) : Check Unit := do
  let c ← read
  match c.arena.parameterOf? node with
  | none => return
  | some p =>
    let type ← match c.declared? node with
      | some symbol => self.valueType symbol
      | none => silently (parameterType self node)
    let annotated ← ascription self p.ascription
    checkInitializer self p.initializer annotated p.name
    let given := arrow && (← get).contextual.contains (c.site node)
    if c.options.noImplicitAny && annotated.isNone && p.initializer.isNone && !given then
      report p.name (.implicitAny ((c.arena.nameOf? p.name).getD ""))
    record node type
    record p.name type

/-- Checks parameters, return type and body of a function of any sort. -/
def checkFunction (self : Rules) (node : NodeId) : Check Unit := do
  let c ← read
  match c.arena.functionOf? node with
  | none => return
  | some p =>
    inScope (c.scopeOf node) do
      p.parameters.forM (checkParameter self (isArrow (c.arena.form? node)))
      let declared ← ascription self p.returnType
      match p.body with
      | none => return
      | some body =>
        let returned ← functionBody self node declared
        match declared, p.returnType, c.arena.form? body with
        | some type, some typeNode, some (.block _) =>
          if returned.isEmpty && requiresValue (← table) type then
            report typeNode .mustReturnValue
        | _, _, _ => return

end ScriptAnalysis.Checking
