import ScriptAnalysis.Binding
import ScriptAnalysis.Types.Apparent
import ScriptAnalysis.Types.Assignable

/-!
# What the checker knows and where it stands

`Standpoint` is where the checker stands. A step may move it: an excursion
goes somewhere, does something there and goes back. `Context` is the
standpoint with the program around it, which stays. `State` is what the
checker has learned: the types of symbols, which are found on demand and
kept, and the record of the files that were checked, their diagnostics and
the types of their nodes.

Only a `recording` context adds to the record. Whatever is found out about
a declaration away from the place being checked is found out without
recording.
-/
namespace ScriptAnalysis.Checking

/-- Choices that change what is reported. With `strict`, `null` and
`undefined` fit only where they are expected. -/
structure Options where
  strict : Bool
  noImplicitAny : Bool
  deriving DecidableEq, Repr, Inhabited

/-- Where the checker stands. `functions` are the declared return types of
the functions around, `thisTypes` the classes that are being checked, both
with the nearest first. `loops` counts the loops around in the nearest
function, `speculative` the reasons not to record anything and `depth` the
expressions around. The last three fields are what is being resolved, so
that a circle is noticed. -/
structure Standpoint where
  file : FileId
  scope : ScopeId
  functions : List (Option TypeId)
  thisTypes : List TypeId
  loops : Nat
  speculative : Nat
  depth : Nat
  resolvingValues : List SymbolId
  resolvingTypes : List SymbolId
  resolvingSignatures : List Site
  deriving DecidableEq, Repr, Inhabited

/-- A standpoint in a program. -/
structure Context extends Standpoint where
  files : Array SourceFile
  bindings : Bindings
  options : Options
  deriving Inhabited

/-- The two types of a class. -/
structure ClassTypes where
  instanceType : TypeId
  constructorType : TypeId
  deriving DecidableEq, Repr, Inhabited

/-- What the checker has learned. `contextual` holds the types of arrow
function parameters that the surroundings give, `memberOwners` the class of
a member. `exhausted` is set when the bound on nested rules was hit. -/
structure State where
  types : TypeTable
  valueTypes : Table SymbolId TypeId
  aliasTypes : Table SymbolId TypeId
  classTypes : Table SymbolId ClassTypes
  interfaceTypes : Table SymbolId TypeId
  signatures : Table Site Signature
  arrowTypes : Table Site TypeId
  contextual : Table Site TypeId
  memberOwners : Table Site SymbolId
  apparent : Table (TypeId × String) TypeId
  nodeTypes : Array (Array (Option TypeId))
  diagnostics : Array (List Diagnostic)
  checked : Array Bool
  exhausted : Bool
  deriving Inhabited

/-- A step of the checker. It ends with an answer at some standpoint, with
what has been learned. -/
def Check (α : Type) : Type := Context → State → (α × Context) × State

namespace Check

instance : Monad Check where
  pure a := fun c s => ((a, c), s)
  bind x f := fun c s =>
    match x c s with
    | ((a, c), s) => f a c s

instance : LawfulMonad Check := .mk' _ (fun _ => rfl) (fun _ _ => rfl) (fun _ _ _ => rfl)

instance : MonadReaderOf Context Check where
  read := fun c s => ((c, c), s)

instance : MonadStateOf State Check where
  get := fun c s => ((s, c), s)
  set s := fun c _ => (((), c), s)
  modifyGet f := fun c s => (((f s).1, c), (f s).2)

end Check

/-! ## Looking around -/

namespace Context

/-- What the nearest function is declared to return; nothing outside of
functions. -/
def returns (c : Context) : Option (Option TypeId) :=
  c.functions.head?

/-- The nearest class that is being checked. -/
def this (c : Context) : Option TypeId :=
  c.thisTypes.head?

def inLoop (c : Context) : Bool :=
  c.loops != 0

/-- Whether problems and types are recorded. -/
def recording (c : Context) : Bool :=
  c.speculative == 0

def sourceFile (c : Context) (file : FileId) : SourceFile :=
  c.files.getD file default

def form? (c : Context) (s : Site) : Option Form :=
  (c.sourceFile s.file).arena.form? s.node

/-- The file being looked at. -/
def source (c : Context) : SourceFile :=
  c.sourceFile c.file

def arena (c : Context) : Arena :=
  c.source.arena

def site (c : Context) (node : NodeId) : Site :=
  ⟨c.file, node⟩

def symbol? (c : Context) (id : SymbolId) : Option Symbol :=
  c.bindings.symbols[id]?

/-- The symbol that a node of the file declares. -/
def declared? (c : Context) (node : NodeId) : Option SymbolId :=
  c.bindings.symbolOf? c.file node

/-- The scope that a node introduces, else the current one. -/
def scopeOf (c : Context) (node : NodeId) : ScopeId :=
  (c.bindings.nodeScope? c.file node).getD c.scope

/-- The scope in which a declaration stands. -/
def scopeAround (c : Context) (s : Site) : ScopeId :=
  (c.bindings.declarationScope? s.file s.node).getD (c.bindings.fileScope s.file)

/-- The scope that a function of any file introduces. -/
def scopeInside (c : Context) (s : Site) : ScopeId :=
  (c.bindings.nodeScope? s.file s.node).getD (c.bindings.fileScope s.file)

def resolve (c : Context) (name : String) (meaning : Meaning) : Option SymbolId :=
  c.bindings.resolve c.scope name meaning

/-- What an import stands for, if the module and the export exist. -/
def importTarget? (c : Context) (id : SymbolId) : Option SymbolId := do
  let target ← (← c.symbol? id).target
  (c.bindings.exportsOf (← target.file)).get? target.exportName

end Context

/-- The text of a name that is an identifier or a literal. -/
def memberName (a : Arena) (name : NodeId) : String :=
  ((a.nameOf? name).orElse fun _ => a.literalOf? name).getD ""

/-- The name of a member; empty for a member without one. -/
def memberName? (a : Arena) (name : Option NodeId) : String :=
  (name.map (memberName a)).getD ""

def isArrow : Option Form → Bool
  | some (.function .arrow _) => true
  | _ => false

/-- The instances of the class around a scope, found through the nearest
function that is no arrow function. -/
def thisOfChain (c : Context) (s : State) : List ScopeId → Option TypeId
  | [] => none
  | id :: outer =>
    match c.bindings.scopes[id]? with
    | none => none
    | some scope =>
      match scope.isFunction, scope.node with
      | true, some node =>
        match scope.file with
        | none => none
        | some file =>
          match s.memberOwners.get? ⟨file, node⟩ with
          | some owner => (s.classTypes.get? owner).map ClassTypes.instanceType
          | none =>
            if isArrow (c.form? ⟨file, node⟩) then thisOfChain c s outer else none
      | _, _ => thisOfChain c s outer

/-- What `this` means in a scope, going by the functions around it. -/
def thisOfScope (c : Context) (s : State) (scope : ScopeId) : Option TypeId :=
  thisOfChain c s (c.bindings.scopeChain scope)

/-! ## Standing elsewhere -/

/-- Goes somewhere, runs `x` there and goes back. The way back starts where
`x` has ended and may look at where the excursion set out. -/
def excursion (go : Context → Context) (back : Context → Context → Context) (x : Check α) :
    Check α := fun c s =>
  match x (go c) s with
  | ((a, c'), s') => ((a, back c c'), s')

/-- Runs `x` in another scope of the file. -/
def inScope (scope : ScopeId) (x : Check α) : Check α :=
  excursion (fun c => { c with scope := scope }) (fun saved c => { c with scope := saved.scope }) x

/-- Runs `x` without recording. -/
def silently (x : Check α) : Check α :=
  excursion (fun c => { c with speculative := c.speculative + 1 })
    (fun _ c => { c with speculative := c.speculative - 1 }) x

/-- Runs `x` in the body of a function. The loops around the function are
not those of its body. -/
def inFunction (declared : Option TypeId) (x : Check α) : Check α :=
  excursion (fun c => { c with functions := declared :: c.functions, loops := 0 })
    (fun saved c => { c with functions := c.functions.tail, loops := saved.loops }) x

/-- Runs `x` in the body of a loop. -/
def inLoopBody (x : Check α) : Check α :=
  excursion (fun c => { c with loops := c.loops + 1 })
    (fun _ c => { c with loops := c.loops - 1 }) x

/-- Runs `x` in a class with these instances. -/
def inClass (instances : TypeId) (x : Check α) : Check α :=
  excursion (fun c => { c with thisTypes := instances :: c.thisTypes })
    (fun _ c => { c with thisTypes := c.thisTypes.tail }) x

/-- Runs `x` inside of an expression. -/
def inExpression (x : Check α) : Check α :=
  excursion (fun c => { c with depth := c.depth + 1 })
    (fun _ c => { c with depth := c.depth - 1 }) x

/-- Runs `x` while the type of a symbol as a value is being resolved. -/
def resolvingValue (id : SymbolId) (x : Check α) : Check α :=
  excursion (fun c => { c with resolvingValues := id :: c.resolvingValues })
    (fun _ c => { c with resolvingValues := c.resolvingValues.erase id }) x

/-- Runs `x` while what a symbol means as a type is being resolved. -/
def resolvingType (id : SymbolId) (x : Check α) : Check α :=
  excursion (fun c => { c with resolvingTypes := id :: c.resolvingTypes })
    (fun _ c => { c with resolvingTypes := c.resolvingTypes.erase id }) x

/-- Runs `x` while the signature of a function is being resolved. -/
def resolvingSignature (site : Site) (x : Check α) : Check α :=
  excursion (fun c => { c with resolvingSignatures := site :: c.resolvingSignatures })
    (fun _ c => { c with resolvingSignatures := c.resolvingSignatures.erase site }) x

/-- The place `saved`, with what is being resolved at `c`. -/
def Context.restore (saved c : Context) : Context :=
  { saved with
    resolvingValues := c.resolvingValues
    resolvingTypes := c.resolvingTypes
    resolvingSignatures := c.resolvingSignatures }

/-- The top level of a file. -/
def Context.top (c : Context) (file : FileId) : Context :=
  { c with
    file := file
    scope := c.bindings.fileScope file
    functions := []
    thisTypes := []
    loops := 0
    speculative := 0
    depth := 0 }

/-- Runs `x` at the top level of a file. -/
def atTop (file : FileId) (x : Check α) : Check α :=
  excursion (·.top file) Context.restore x

/-- Runs `x` at a declaration, which may be in another file, without
recording. -/
def atDeclaration (file : FileId) (scope : ScopeId) (x : Check α) : Check α := do
  let this := thisOfScope (← read) (← get) scope
  excursion (fun c => { c with
    file := file
    scope := scope
    functions := []
    thisTypes := this.toList
    loops := 0
    speculative := c.speculative + 1 }) Context.restore x

/-! ## Types -/

/-- Runs an action on the table of types. -/
def alloc (x : TypeTable.Alloc α) : Check α :=
  modifyGet fun s =>
    let (a, t) := x.run s.types
    (a, { s with types := t })

def table : Check TypeTable := do
  return (← get).types

def display (id : TypeId) : Check String := do
  return (← table).display id

def assignable (source target : TypeId) : Check Bool := do
  return (← table).assignable (← read).options.strict source target

/-! ## The record -/

/-- Records the type of a node. -/
def record (node : NodeId) (type : TypeId) : Check Unit := do
  let c ← read
  if c.recording then
    modify fun s => { s with
      nodeTypes := s.nodeTypes.modify c.file (·.setIfInBounds node (some type)) }

/-- Records the type of a node that may be missing. -/
def record? (node : Option NodeId) (type : TypeId) : Check Unit :=
  node.forM (record · type)

/-- Reports a problem with some bytes of the file. -/
def reportSpan (start length : Nat) (p : Problem) (details : List Message) : Check Unit := do
  let c ← read
  if c.recording then
    let d := p.diagnostic c.source.name start length details
    modify fun s => { s with diagnostics := s.diagnostics.modify c.file (· ++ [d]) }

/-- Reports a problem with a node and explains it. -/
def reportWith (node : NodeId) (p : Problem) (details : List Message) : Check Unit := do
  match (← read).arena[node]? with
  | none => return
  | some n => reportSpan n.pos (n.stop - n.pos) p details

/-- Reports a problem with a node. -/
def report (node : NodeId) (p : Problem) : Check Unit :=
  reportWith node p []

/-- Reports the bytes from the start of a node on. -/
def reportStart (node : NodeId) (length : Nat) (p : Problem) : Check Unit := do
  match (← read).arena[node]? with
  | none => return
  | some n => reportSpan n.pos length p []

/-- Reports a value that does not fit where it is stored. -/
def checkAssignable (source target : TypeId) (node : NodeId) : Check Unit := do
  unless ← assignable source target do
    let t ← table
    let details := t.elaboration? (← read).options.strict source target
    reportWith node (.notAssignable (t.display source) (t.display target)) details.toList

/-! ## The recursive rules -/

/-- The rules of the checker that need each other. All other rules are
functions of these, so that the recursion is tied once.

`typeNode` is the type that a type node spells, `expression` the type of an
expression where a type may be expected, `statement` checks a statement and
gives the types that it returns, `valueType` and `declaredType` are what a
symbol stands for as a value and as a type, and `classTypes` the types of a
class. -/
structure Rules where
  typeNode : NodeId → Check TypeId
  expression : NodeId → Option TypeId → Check TypeId
  statement : NodeId → Check (List TypeId)
  valueType : SymbolId → Check TypeId
  declaredType : SymbolId → Check (Option TypeId)
  classTypes : SymbolId → Check ClassTypes

/-- Notes that the bound on nested rules was hit. -/
def exhaust : Check Unit :=
  modify fun s => { s with exhausted := true }

end ScriptAnalysis.Checking
