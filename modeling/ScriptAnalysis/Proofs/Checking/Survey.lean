import ScriptAnalysis.Checker

/-!
# Reports that do not rest on types

A survey of a file looks at its tree and its scopes and at nothing else. It
lists the reports about names and places: a name that is not declared, a
type used as a value, a constant that is assigned to, a `return` outside of
a function and the like. The types that the checker has found so far do not
come into it.

`survey n` follows the walk of the checker in which problems are recorded,
with at most `n` nested uses; it is the specification of what that walk
reports. The signature of a function type is left out: the checker looks at
it only while it is not known, so what it reports there depends on what was
asked before (`InFunctionType`).
-/
namespace ScriptAnalysis.Checking

/-- A context without the types in it. Whether it is inside a function
stays. -/
def Context.place (c : Context) : Context :=
  { c with
    functions := c.functions.map fun _ => none
    thisTypes := []
    resolvingValues := []
    resolvingSignatures := [] }

/-- What can be listed at a place without knowing types. `declares` says
whether a symbol names a type. -/
structure Survey where
  typeNode : Context → NodeId → List Diagnostic
  expression : Context → NodeId → List Diagnostic
  statement : Context → NodeId → List Diagnostic
  declares : Context → SymbolId → Bool

namespace Survey

/-- A problem with some bytes of the file, if problems are recorded. -/
def span (p : Context) (start length : Nat) (problem : Problem) : List Diagnostic :=
  if p.recording then [problem.diagnostic p.source.name start length []] else []

/-- A problem with a node. -/
def onNode (p : Context) (node : NodeId) (problem : Problem) : List Diagnostic :=
  match p.arena[node]? with
  | none => []
  | some n => span p n.pos (n.stop - n.pos) problem

/-- A problem with the bytes from the start of a node on. -/
def onStart (p : Context) (node : NodeId) (length : Nat) (problem : Problem) : List Diagnostic :=
  match p.arena[node]? with
  | none => []
  | some n => span p n.pos length problem

/-! ## Names -/

/-- A name that is used as a value. -/
def value (p : Context) (node : NodeId) : List Diagnostic :=
  let name := (p.arena.nameOf? node).getD ""
  if name.isEmpty then []
  else match p.resolve name .value with
    | some _ => []
    | none =>
      if (p.resolve name .type).isSome then onNode p node (.typeUsedAsValue name)
      else onNode p node (.cannotFindName name)

/-- A name that is assigned to. -/
def target (p : Context) (node : NodeId) : List Diagnostic :=
  match p.arena.nameOf? node with
  | none => []
  | some name =>
    if ((p.resolve name .value).bind p.symbol?).any Symbol.constant then
      onNode p node (.assignToConstant name)
    else []

variable (self : Survey) (p : Context)

/-- A name that is used as a type. -/
def reference (node : NodeId) : List Diagnostic :=
  match p.arena.nameOf? node with
  | none => []
  | some name =>
    if name.isEmpty then []
    else match p.resolve name .type with
      | some symbol =>
        if self.declares p symbol then [] else onNode p node (.valueUsedAsType name)
      | none =>
        if (p.resolve name .value).isSome then onNode p node (.valueUsedAsType name)
        else onNode p node (.cannotFindName name)

/-- An ascription that may be missing. -/
def ascription (type : Option NodeId) : List Diagnostic :=
  type.toList.flatMap (self.typeNode p)

/-- An expression that may be missing. -/
def optional (node : Option NodeId) : List Diagnostic :=
  node.toList.flatMap (self.expression p)

/-! ## Functions -/

def body (node : NodeId) : List Diagnostic :=
  match (p.arena.functionOf? node).bind FunctionParts.body with
  | none => []
  | some body =>
    let q := { p with scope := p.scopeOf node, functions := none :: p.functions, loops := 0 }
    match p.arena.form? body with
    | none => []
    | some (.block statements) => statements.flatMap (self.statement q)
    | some _ => self.expression q body

def parameter (node : NodeId) : List Diagnostic :=
  match p.arena.parameterOf? node with
  | none => []
  | some q => self.ascription p q.ascription ++ self.optional p q.initializer

def function (node : NodeId) : List Diagnostic :=
  match p.arena.functionOf? node with
  | none => []
  | some f =>
    let q := { p with scope := p.scopeOf node }
    f.parameters.flatMap (self.parameter q) ++
      (self.ascription q f.returnType ++ f.body.toList.flatMap fun _ => self.body q node)

/-- A parameter that declares no symbol, as part of a signature. -/
def parameterType (node : NodeId) : List Diagnostic :=
  match p.arena.parameterOf? node with
  | none => []
  | some q =>
    match q.ascription with
    | some type => self.typeNode p type
    | none => self.optional p q.initializer

def signature (node : NodeId) : List Diagnostic :=
  match p.arena.functionOf? node with
  | none => []
  | some f =>
    let q := { p with scope := p.scopeOf node }
    f.parameters.flatMap (self.parameterType q) ++ self.ascription q f.returnType

theorem mem_parameter_of_parameterType {node : NodeId} {d : Diagnostic}
    (hd : d ∈ self.parameterType p node) : d ∈ self.parameter p node := by
  unfold parameterType at hd
  unfold parameter
  cases hp : p.arena.parameterOf? node with
  | none => rw [hp] at hd; cases hd
  | some q =>
    rw [hp] at hd
    dsimp only at hd ⊢
    cases hq : q.ascription with
    | none => rw [hq] at hd; exact hd
    | some type =>
      rw [hq] at hd
      refine List.mem_append_left _ ?_
      unfold ascription
      rwa [Option.toList_some, List.flatMap_singleton]

/-- All that can be listed for a signature is listed for the function too. -/
theorem mem_function_of_signature {node : NodeId} {d : Diagnostic}
    (hd : d ∈ self.signature p node) : d ∈ self.function p node := by
  unfold signature at hd
  unfold function
  cases hf : p.arena.functionOf? node with
  | none => rw [hf] at hd; cases hd
  | some f =>
    rw [hf] at hd
    rcases List.mem_append.1 hd with hd | hd
    · refine List.mem_append_left _ ?_
      obtain ⟨parameter, hmem, hd⟩ := List.mem_flatMap.1 hd
      exact List.mem_flatMap.2 ⟨parameter, hmem, mem_parameter_of_parameterType _ _ hd⟩
    · exact List.mem_append_right _ (List.mem_append_left _ hd)

/-! ## Types -/

def signatureParameter (node : NodeId) : List Diagnostic :=
  match p.arena.parameterOf? node with
  | none => []
  | some q => self.ascription p q.ascription

def typeForm : Form → List Diagnostic
  | .arrayType element => self.typeNode p element
  | .parenthesizedType inner => self.typeNode p inner
  | .unionType members => members.flatMap (self.typeNode p)
  | .function .functionType f => f.parameters.flatMap (self.signatureParameter p)
  | .typeReference name => self.reference p name
  | _ => []

/-- Whether a symbol names a type. An import that leads back to itself
passes for one. -/
def namesType (id : SymbolId) : Bool :=
  match p.symbol? id with
  | none => false
  | some symbol =>
    if symbol.flags.alias_ then
      match p.importTarget? id with
      | none => false
      | some target =>
        p.resolvingTypes.contains id ||
          self.declares { p with resolvingTypes := id :: p.resolvingTypes } target
    else symbol.flags.class_ || symbol.flags.interface || symbol.flags.typeAlias

/-! ## Expressions -/

def property (element : NodeId) : List Diagnostic :=
  match p.arena.form? element with
  | some (.propertyAssignment name value) =>
    match value with
    | some node => self.expression p node
    | none => Survey.value p name
  | _ => []

def binary (left : NodeId) (operator : TokenKind) (right : NodeId) : List Diagnostic :=
  match operator with
  | .equals | .plusEquals | .minusEquals | .asteriskEquals | .slashEquals =>
    self.expression p left ++ (target p left ++ self.expression p right)
  | _ => self.expression p left ++ self.expression p right

def prefixed (operator : TokenKind) (operand : NodeId) : List Diagnostic :=
  match operator with
  | .plusPlus | .minusMinus => self.expression p operand ++ target p operand
  | _ => self.expression p operand

def expressionForm (node : NodeId) : Form → List Diagnostic
  | .identifier _ => value p node
  | .parenthesized inner => self.expression p inner
  | .arrayLiteral elements => elements.flatMap (self.expression p)
  | .objectLiteral properties => properties.flatMap (self.property p)
  | .call callee arguments => self.expression p callee ++ arguments.flatMap (self.expression p)
  | .newExpression callee arguments =>
    self.expression p callee ++ arguments.flatMap (self.expression p)
  | .propertyAccess object _ => self.expression p object
  | .elementAccess object index => self.expression p object ++ self.expression p index
  | .prefixUnary operator operand => self.prefixed p operator operand
  | .postfixUnary _ operand => self.expression p operand ++ target p operand
  | .typeOf operand => self.expression p operand
  | .binary left operator right => self.binary p left operator right
  | .conditional condition whenTrue whenFalse =>
    self.expression p condition ++ (self.expression p whenTrue ++ self.expression p whenFalse)
  | .function .arrow _ => if p.recording then self.function p node else []
  | .asExpression operand type => self.typeNode p type ++ self.expression p operand
  | _ => []

/-! ## Statements -/

def statement? (node : Option NodeId) : List Diagnostic :=
  node.toList.flatMap (self.statement p)

def loopBody (node : Option NodeId) : List Diagnostic :=
  self.statement? { p with loops := p.loops + 1 } node

def loopStart (start : Option NodeId) : List Diagnostic :=
  match start with
  | none => []
  | some node =>
    if (p.arena.form? node).any Binding.isStatement then self.statement p node
    else self.expression p node

def returned (node : NodeId) (value : Option NodeId) : List Diagnostic :=
  match p.returns with
  | none => onStart p node 6 .returnOutsideFunction ++ self.optional p value
  | some _ => self.optional p value

def jump (node : NodeId) (length : Nat) (problem : Problem) : List Diagnostic :=
  if p.inLoop then [] else onStart p node length problem

def variable_ (node : NodeId) : List Diagnostic :=
  match p.arena.form? node with
  | some (.variableDeclaration v) =>
    self.ascription p v.ascription ++ self.optional p v.initializer
  | _ => []

/-- A body where there must be none. -/
def ambientBody (node : NodeId) : List Diagnostic :=
  onStart p node 1 .implementationInAmbientContext

def functionDeclaration (node : NodeId) (f : FunctionParts) : List Diagnostic :=
  let ambient := p.source.isDeclaration || f.modifiers.ambient
  (match f.body with
    | some body => if ambient then ambientBody p body else []
    | none =>
      if !ambient && !hasImplementation p (p.declared? node) then
        f.name.toList.flatMap (onNode p · .implementationMissing)
      else []) ++ self.function p node

/-- A method without a body anywhere. -/
def methodName (members : List NodeId) (ambient : Bool) (f : FunctionParts) : List Diagnostic :=
  if f.body.isNone && !ambient && !hasMethodBody p.arena members (memberName? p.arena f.name) then
    f.name.toList.flatMap (onNode p · .implementationMissing)
  else []

def member (k : ClassParts) (ambient : Bool) (node : NodeId) : List Diagnostic :=
  match p.arena.form? node with
  | some (.propertyDeclaration q) =>
    self.ascription p q.ascription ++ self.optional p q.initializer
  | some (.function kind f) =>
    if kind = .method || kind = .constructor then
      let ambient := ambient || f.modifiers.ambient
      (if ambient then f.body.toList.flatMap (ambientBody p) else []) ++
        ((if kind = .constructor then [] else methodName p k.members ambient f) ++
          self.function p node)
    else []
  | _ => []

def class_ (node : NodeId) (k : ClassParts) : List Diagnostic :=
  match p.declared? node with
  | none => []
  | some _ =>
    self.ascription p k.heritage ++
      k.members.flatMap (self.member p k (p.source.isDeclaration || k.modifiers.ambient))

def signatureMember (node : NodeId) : List Diagnostic :=
  match p.arena.form? node with
  | some (.propertySignature q) | some (.propertyDeclaration q) => self.ascription p q.ascription
  | some (.function _ f) =>
    f.parameters.flatMap (self.signatureParameter p) ++ self.ascription p f.returnType
  | _ => []

def interface (i : InterfaceParts) : List Diagnostic :=
  i.heritage.flatMap (self.typeNode p) ++ i.members.flatMap (self.signatureMember p)

/-- A name that the module does not export. -/
def specifier (text : String) (node : NodeId) : List Diagnostic :=
  match p.arena.form? node, p.declared? node with
  | some (.importSpecifier exportedName name), some symbol =>
    match p.importTarget? symbol with
    | none =>
      let exportNode := exportedName.getD name
      onNode p exportNode (.noExportedMember text ((p.arena.nameOf? exportNode).getD ""))
    | some _ => []
  | _, _ => []

def import_ (specifiers : List NodeId) (source : Option NodeId) : List Diagnostic :=
  let text := (source.bind p.arena.literalOf?).getD ""
  match Path.resolveModule p.source.name text fun path => p.files.toList.any (·.name == path) with
  | none => source.toList.flatMap (onNode p · (.cannotFindModule text))
  | some _ => specifiers.flatMap (specifier p text)

def statementForm (node : NodeId) : Form → List Diagnostic
  | .function .declaration f => self.functionDeclaration p node f
  | .classDeclaration k => self.class_ p node k
  | .interfaceDeclaration i => self.interface p i
  | .typeAlias a => self.typeNode p a.aliased
  | .variableStatement _ _ declarations => declarations.flatMap (self.variable_ p)
  | .importDeclaration specifiers source => import_ p specifiers source
  | .block nodes => nodes.flatMap (self.statement { p with scope := p.scopeOf node })
  | .expressionStatement e => self.expression p e
  | .returnStatement value => self.returned p node value
  | .ifStatement condition thenBranch elseBranch =>
    self.expression p condition ++
      (self.statement? p thenBranch ++ self.statement? p elseBranch)
  | .whileStatement condition body => self.expression p condition ++ self.loopBody p body
  | .forStatement start condition increment body =>
    let q := { p with scope := p.scopeOf node }
    self.loopStart q start ++
      (self.optional q condition ++ (self.optional q increment ++ self.loopBody q body))
  | .forOfStatement start iterated body =>
    let q := { p with scope := p.scopeOf node }
    self.expression q iterated ++ (self.loopStart q start ++ self.loopBody q body)
  | .breakStatement => jump p node 5 .breakOutsideLoop
  | .continueStatement => jump p node 8 .continueOutsideLoop
  | _ => []

end Survey

open Survey

/-- Nothing is listed when no nested use is left. -/
def noSurvey : Survey where
  typeNode _ _ := []
  expression _ _ := []
  statement _ _ := []
  declares _ _ := false

/-- The survey with at most `n` nested uses. -/
def survey : Nat → Survey
  | 0 => noSurvey
  | n + 1 =>
    let self := survey n
    { typeNode := fun p node => ((p.arena.form? node).map (self.typeForm p)).getD []
      expression := fun p node =>
        if maxExpressionDepth ≤ p.depth then []
        else
          let q := { p with depth := p.depth + 1 }
          ((p.arena.form? node).map (self.expressionForm q node)).getD []
      statement := fun p node => ((p.arena.form? node).map (self.statementForm p node)).getD []
      declares := fun p id => self.namesType p id }

/-! ## Which reports are settled by a survey -/

/-- The numbers of the reports that speak of types. -/
def typeCodes : List Nat :=
  [2322, 2339, 2345, 2349, 2351, 2355, 2554, 7006]

/-- A report about a part of a function type of the file. -/
def InFunctionType (c : Context) (d : Diagnostic) : Prop :=
  ∃ n p node f, p.files = c.files ∧ p.bindings = c.bindings ∧ p.file = c.file ∧
    p.arena.form? node = some (.function .functionType f) ∧ d ∈ (survey n).signature p node

/-- A report that neither speaks of types nor is about a part of a function
type. -/
def Settled (c : Context) (d : Diagnostic) : Prop :=
  d.code ∉ typeCodes ∧ ¬ InFunctionType c d

end ScriptAnalysis.Checking
