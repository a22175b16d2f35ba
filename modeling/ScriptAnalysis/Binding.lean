import ScriptAnalysis.Symbol

/-!
# Binding

`bindProgram` walks every file of a program once and builds its `Bindings`:
a symbol for each declared name, merged over declarations where the
language allows it, and a tree of scopes. Names that clash are reported.

The walk goes from a node to its children, so the number of nodes of the
file bounds how deep it gets.
-/
namespace ScriptAnalysis.Binding

/-- The file that is being bound, and the names of all files in order. -/
structure Context where
  file : SourceFile
  fileId : FileId
  fileNames : List String

/-- A step of the walk over one file. -/
abbrev Binder := ReaderT Context (StateM Bindings)

def site (node : NodeId) : Binder Site := do
  return ⟨(← read).fileId, node⟩

def arena : Binder Arena := do
  return (← read).file.arena

/-! ## Declarations -/

/-- The name node of a declaration. -/
def declarationName? (a : Arena) (node : NodeId) : Option NodeId :=
  match a.form? node with
  | some (.function _ p) => p.name
  | some (.classDeclaration p) => some p.name
  | some (.interfaceDeclaration p) => some p.name
  | some (.typeAlias p) => some p.name
  | some (.variableDeclaration p) => some p.name
  | some (.parameter p) => some p.name
  | some (.propertyDeclaration p) => some p.name
  | some (.propertySignature p) => some p.name
  | some (.importSpecifier _ name) => some name
  | _ => none

/-- Reports a declaration whose name is taken, once. -/
def reportDuplicate (name : String) (declaration : Site) (nameNode : Option NodeId) :
    Binder Unit := do
  let c ← read
  let b ← get
  if b.reported.contains declaration then return
  set { b with reported := declaration :: b.reported }
  match nameNode.bind (c.file.arena[·]?) with
  | none => return
  | some node =>
    let d := (Problem.duplicateIdentifier name).diagnostic c.file.name node.pos
      (node.stop - node.pos) []
    modify fun b => { b with diagnostics := b.diagnostics.modify c.fileId (· ++ [d]) }

/-- Reports the first declaration of a name too, if it is in this file. -/
def reportFirst (name : String) (first : Site) : Binder Unit := do
  let c ← read
  if first.file = c.fileId then
    reportDuplicate name first (declarationName? c.file.arena first.node)

/-- A further declaration of a symbol; it is reported when it may not join
the others, and joins them all the same. -/
def joinSymbol (id : SymbolId) (name : String) (nameNode : NodeId) (declaration : Site)
    (flags : Flags) (exported : Bool) : Binder Unit := do
  let symbol := (← get).symbols.getD id default
  unless symbol.flags.canMerge flags do
    reportDuplicate name declaration (some nameNode)
    match symbol.declarations with
    | first :: _ => reportFirst name first
    | [] => pure ()
  modify fun b => { b with
    symbols := b.symbols.modify id fun s => { s with
      flags := s.flags.union flags
      declarations := s.declarations ++ [declaration]
      exported := s.exported || exported } }

/-- A new symbol in a scope. -/
def newSymbol (scope : ScopeId) (symbol : Symbol) : Binder SymbolId :=
  modifyGet fun b =>
    let id := b.symbols.size
    (id, { b with
      symbols := b.symbols.push symbol
      scopes := b.scopes.modify scope fun s => { s with symbols := s.symbols.insert symbol.name id } })

/-- Declares the name that `nameNode` spells in a scope. A declaration
without a name declares nothing. -/
def declare (scope : ScopeId) (nameNode : NodeId) (declaration : NodeId) (flags : Flags)
    (exported constant : Bool) : Binder (Option SymbolId) := do
  match (← arena).nameOf? nameNode with
  | none => return none
  | some name =>
    if name.isEmpty then return none
    let declaration ← site declaration
    modify fun b => { b with declarationScopes := b.declarationScopes.insert declaration scope }
    let existing := ((← get).scopes[scope]?).bind (·.symbols.get? name)
    let id ← match existing with
      | some id => do
        joinSymbol id name nameNode declaration flags exported
        pure id
      | none =>
        newSymbol scope
          { name, flags, declarations := [declaration], exported, constant, target := none }
    if exported then
      let file := (← read).fileId
      modify fun b => { b with exports := b.exports.modify file (·.insert name id) }
    modify fun b => { b with
      declarationSymbols := b.declarationSymbols.insert declaration id }
    return some id

/-! ## Scopes -/

/-- A new scope for a node. -/
def enterScope (node : NodeId) (parent : ScopeId) (isFunction : Bool) : Binder ScopeId := do
  let s ← site node
  modifyGet fun b =>
    let id := b.scopes.size
    (id, { b with
      scopes := b.scopes.push
        { parent := some parent, file := some s.file, node := some node, isFunction,
          symbols := .empty }
      nodeScopes := b.nodeScopes.insert s id })

/-! ## Imports -/

/-- The last file with the given name. -/
def lastIndex? (names : List String) (name : String) : Option FileId :=
  match names.reverse.findIdx? (· == name) with
  | some i => some (names.length - 1 - i)
  | none => none

/-- Declares what an import binds. -/
def bindImport (scope : ScopeId) (specifiers : List NodeId) (source : Option NodeId) :
    Binder Unit := do
  let c ← read
  let a := c.file.arena
  let specifier := (source.bind a.literalOf?).getD ""
  let file := (Path.resolveModule c.file.name specifier c.fileNames.contains).bind
    (lastIndex? c.fileNames)
  specifiers.forM fun node => do
    match a.form? node with
    | some (.importSpecifier exportedName name) =>
      let exportName := (a.nameOf? (exportedName.getD name)).getD ""
      match ← declare scope name node .ofAlias false false with
      | some id =>
        modify fun b => { b with
          symbols := b.symbols.modify id fun s =>
            { s with target := some { specifier, file, exportName } } }
      | none => pure ()
    | _ => pure ()

/-! ## The walk -/

/-- Forms that are statements. -/
def isStatement : Form → Bool
  | .function .declaration _ | .classDeclaration _ | .interfaceDeclaration _ | .typeAlias _
  | .variableStatement _ _ _ | .importDeclaration _ _ | .block _ | .expressionStatement _
  | .returnStatement _ | .ifStatement _ _ _ | .whileStatement _ _ | .forStatement _ _ _ _
  | .forOfStatement _ _ _ | .breakStatement | .continueStatement | .emptyStatement => true
  | _ => false

/-- The two ways into the walk below a node: a statement, or an expression
that may hold arrow functions. -/
structure Walk where
  statement : NodeId → ScopeId → Bool → Binder Unit
  expression : NodeId → ScopeId → Binder Unit

/-- A function has a scope for its parameters; the statements of its body
are bound in the same scope. -/
def bindFunction (walk : Walk) (node : NodeId) (p : FunctionParts) (scope : ScopeId) :
    Binder Unit := do
  let a ← arena
  let inner ← enterScope node scope true
  p.parameters.forM fun parameter => do
    match a.parameterOf? parameter with
    | some q =>
      let _ ← declare inner q.name parameter .ofParameter false false
      q.initializer.forM (walk.expression · inner)
    | none => pure ()
  match p.body with
  | none => pure ()
  | some body =>
    match a.form? body with
    | some (.block statements) =>
      let s ← site body
      modify fun b => { b with nodeScopes := b.nodeScopes.insert s inner }
      statements.forM (walk.statement · inner false)
    | some _ => walk.expression body inner
    | none => pure ()

/-- Declares a variable in `target` and binds its value where it stands. -/
def bindVariable (walk : Walk) (target lexical : ScopeId) (exported : Bool) (kind : VariableKind)
    (declaration : NodeId) : Binder Unit := do
  match (← arena).form? declaration with
  | some (.variableDeclaration p) =>
    let _ ← declare target p.name declaration .ofVariable exported (kind == .const)
    let s ← site declaration
    modify fun b => { b with declarationScopes := b.declarationScopes.insert s lexical }
    p.initializer.forM (walk.expression · lexical)
  | _ => pure ()

/-- The methods and the initial values of a class. -/
def bindMember (walk : Walk) (scope : ScopeId) (member : NodeId) : Binder Unit := do
  match (← arena).form? member with
  | some (.function _ p) => bindFunction walk member p scope
  | some (.propertyDeclaration p) => p.initializer.forM (walk.expression · scope)
  | some (.propertySignature p) => p.initializer.forM (walk.expression · scope)
  | _ => pure ()

/-- Notes what the variables of a loop over elements loop over. -/
def noteIterated (initializer : Option NodeId) (iterated : NodeId) : Binder Unit := do
  match initializer.bind (← arena).form? with
  | some (.variableStatement _ _ declarations) =>
    declarations.forM fun declaration => do
      let s ← site declaration
      modify fun b => { b with iterated := b.iterated.insert s iterated }
  | _ => pure ()

/-- Binds one statement. Only declarations at the top level are exported. -/
def bindStatement (walk : Walk) (node : NodeId) (scope : ScopeId) (topLevel : Bool) :
    Binder Unit := do
  let a ← arena
  let exported := topLevel && (a.modifiers node).exported
  match a.form? node with
  | none => pure ()
  | some form =>
    match form with
    | .function .declaration p =>
      p.name.forM fun name => do
        let _ ← declare scope name node .ofFunction exported false
      bindFunction walk node p scope
    | .classDeclaration p =>
      let _ ← declare scope p.name node .ofClass exported false
      p.members.forM (bindMember walk scope)
    | .interfaceDeclaration p =>
      let _ ← declare scope p.name node .ofInterface exported false
    | .typeAlias p =>
      let _ ← declare scope p.name node .ofTypeAlias exported false
    | .variableStatement _ kind declarations =>
      let b ← get
      let target := if kind = .var then b.functionScope scope else scope
      declarations.forM (bindVariable walk target scope exported kind)
    | .importDeclaration specifiers source => bindImport scope specifiers source
    | .block statements =>
      let inner ← enterScope node scope false
      statements.forM (walk.statement · inner false)
    | .forStatement initializer condition increment body =>
      let inner ← enterScope node scope false
      initializer.forM (walk.statement · inner false)
      condition.forM (walk.expression · inner)
      increment.forM (walk.expression · inner)
      body.forM (walk.statement · inner false)
    | .forOfStatement initializer iterated body =>
      let inner ← enterScope node scope false
      noteIterated initializer iterated
      initializer.forM (walk.statement · inner false)
      walk.expression iterated inner
      body.forM (walk.statement · inner false)
    | other =>
      other.children.forM fun child =>
        if (a.form? child).any isStatement then walk.statement child scope false
        else walk.expression child scope

/-- Binds the arrow functions inside an expression. -/
def bindExpression (walk : Walk) (node : NodeId) (scope : ScopeId) : Binder Unit := do
  match (← arena).form? node with
  | none => pure ()
  | some (.function .arrow p) => bindFunction walk node p scope
  | some form => form.children.forM (walk.expression · scope)

/-- The walk below a node, at most `n` levels deep. -/
def walkWithin : Nat → Walk
  | 0 => ⟨fun _ _ _ => pure (), fun _ _ => pure ()⟩
  | n + 1 =>
    let walk := walkWithin n
    ⟨bindStatement walk, bindExpression walk⟩

/-! ## Programs -/

/-- Names that every program can use. -/
def builtins : List String :=
  ["undefined", "NaN", "Infinity", "console", "Math", "JSON"]

def builtin (name : String) : Symbol :=
  { name, flags := .ofBuiltin, declarations := [], exported := false, constant := true,
    target := none }

/-- The bindings before any file was looked at. -/
def start (fileCount : Nat) : Bindings where
  symbols := (builtins.map builtin).toArray
  scopes := #[{ parent := none, file := none, node := none, isFunction := true,
                symbols := ⟨builtins.zipIdx⟩ }]
  fileScopes := #[]
  exports := Array.replicate fileCount .empty
  nodeScopes := .empty
  declarationScopes := .empty
  declarationSymbols := .empty
  iterated := .empty
  diagnostics := Array.replicate fileCount []
  reported := []

/-- The scope of the top level of a file: one of its own for a module. -/
def openFile (file : SourceFile) (id : FileId) (b : Bindings) : ScopeId × Bindings :=
  if file.isModule then
    (b.scopes.size, { b with
      scopes := b.scopes.push
        { parent := some Bindings.globalScope, file := some id, node := none, isFunction := true,
          symbols := .empty }
      fileScopes := b.fileScopes.push b.scopes.size })
  else (Bindings.globalScope, { b with fileScopes := b.fileScopes.push Bindings.globalScope })

/-- Binds one file after those before it. -/
def bindFile (fileNames : List String) (b : Bindings) (file : SourceFile) (id : FileId) :
    Bindings :=
  let (root, b) := openFile file id b
  let walk := walkWithin (file.arena.size + 1)
  ((file.statements.forM (walk.statement · root true)).run ⟨file, id, fileNames⟩ |>.run b).2

/-- Binds all files of a program; the place of a file in the list is its
index. -/
def bindProgram (files : List SourceFile) : Bindings :=
  files.zipIdx.foldl (fun b (file, id) => bindFile (files.map SourceFile.name) b file id)
    (start files.length)

end ScriptAnalysis.Binding
