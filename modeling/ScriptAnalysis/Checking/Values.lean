import ScriptAnalysis.Checking.Classes

/-!
# Symbols as values

The type of a variable, a parameter, a function, a class or an import where
it is used as a value. A symbol whose type depends on itself is `any`.
-/
namespace ScriptAnalysis.Checking

/-- What a loop over the elements of a value gives. -/
def iteratedElement (t : TypeTable) (iterated : TypeId) : TypeId :=
  match t.element? iterated with
  | some element => element
  | none =>
    if t.primitive iterated == .string then .string
    else if iterated == .error then .error
    else .any

/-- The type of a variable of the file: its ascription, the elements that it
loops over, or the type of its value, widened if the variable can change. -/
def variableType (self : Rules) (node : NodeId) : Check TypeId := do
  let c ← read
  match c.arena.form? node with
  | some (.variableDeclaration p) =>
    match p.ascription, c.bindings.iterated? c.file node, p.initializer with
    | some type, _, _ => self.typeNode type
    | none, some iterated, _ => do
      let type ← self.expression iterated none
      return iteratedElement (← table) type
    | none, none, none => return .any
    | none, none, some value => do
      let type ← self.expression value none
      if p.kind = .const then return type
      else if !c.options.strict && (type == .null || type == .undefined) then return .any
      else alloc (TypeTable.widen type)
  | _ => return .error

/-- The type of a function, over all its declarations. -/
def functionType (self : Rules) (declarations : List Site) : Check TypeId := do
  let c ← read
  let functions := declarations.filterMap fun d =>
    match c.form? d with
    | some (.function .declaration p) => some (d, p)
    | _ => none
  let overloads := functions.filter fun e => e.2.body.isNone
  let visible := if overloads.isEmpty then functions else overloads
  let signatures ← visible.mapM fun e =>
    atDeclaration e.1.file (c.scopeInside e.1) (signature self e.1.node)
  alloc (TypeTable.allocate { Shape.bare .anonymous none none with calls := signatures })

def builtinType (name : String) : TypeId :=
  if name == "undefined" then .undefined
  else if name == "NaN" || name == "Infinity" then .number
  else .any

/-- The type of what an import stands for, if that is a value. -/
def importedType (self : Rules) (id : SymbolId) : Check TypeId := do
  let c ← read
  match c.importTarget? id with
  | some target =>
    if (c.symbol? target).any (·.flags.isValue) then self.valueType target else return .error
  | none => return .error

/-- The type of a symbol as a value, worked out anew. -/
def findValueType (self : Rules) (id : SymbolId) : Check TypeId := do
  let c ← read
  match c.symbol? id with
  | none => return .error
  | some symbol =>
    if symbol.flags.builtin then return builtinType symbol.name
    else if symbol.flags.alias_ then importedType self id
    else if symbol.flags.class_ then return (← self.classTypes id).constructorType
    else if symbol.flags.function then functionType self symbol.declarations
    else
      match symbol.declarations with
      | [] => return .error
      | d :: _ =>
        let there {α : Type} : Check α → Check α := atDeclaration d.file (c.scopeAround d)
        if symbol.flags.variable_ then there (variableType self d.node)
        else if symbol.flags.parameter then there (parameterType self d.node)
        else return .error

/-- The type of a symbol as a value. -/
def valueType (self : Rules) (id : SymbolId) : Check TypeId := do
  match (← get).valueTypes.get? id with
  | some known => return known
  | none =>
    if (← read).resolvingValues.contains id then return .any
    let type ← resolvingValue id (findValueType self id)
    modify fun s => { s with valueTypes := s.valueTypes.insert id type }
    return type

end ScriptAnalysis.Checking
