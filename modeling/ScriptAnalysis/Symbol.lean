import ScriptAnalysis.SourceFile
import ScriptAnalysis.Table

/-!
# Symbols and scopes

A symbol is what a name stands for: all declarations that share the name in
one scope. `Bindings` holds the symbols and scopes of a program and says
which node belongs to which.

* `Flags`: what a symbol was declared as.
* `Bindings.scopeChain`, `Bindings.resolve`: the scopes around a scope, and
  the look-up of a name from the inside out.
-/
namespace ScriptAnalysis

/-- Index of a file in the program. -/
abbrev FileId := Nat

/-- Index of a symbol. -/
abbrev SymbolId := Nat

/-- Index of a scope. -/
abbrev ScopeId := Nat

/-- A node of a file of the program. -/
structure Site where
  file : FileId
  node : NodeId
  deriving DecidableEq, Repr, Inhabited

/-- What a symbol was declared as. An alias is an import, whose meaning
comes from its target; a builtin is known without a declaration. -/
structure Flags where
  variable_ : Bool := false
  function : Bool := false
  class_ : Bool := false
  interface : Bool := false
  typeAlias : Bool := false
  parameter : Bool := false
  alias_ : Bool := false
  builtin : Bool := false
  deriving DecidableEq, Repr, Inhabited

namespace Flags

def ofVariable : Flags := { variable_ := true }
def ofFunction : Flags := { function := true }
def ofClass : Flags := { class_ := true }
def ofInterface : Flags := { interface := true }
def ofTypeAlias : Flags := { typeAlias := true }
def ofParameter : Flags := { parameter := true }
def ofAlias : Flags := { alias_ := true }
def ofBuiltin : Flags := { builtin := true }

/-- All flags of either. -/
def union (a b : Flags) : Flags where
  variable_ := a.variable_ || b.variable_
  function := a.function || b.function
  class_ := a.class_ || b.class_
  interface := a.interface || b.interface
  typeAlias := a.typeAlias || b.typeAlias
  parameter := a.parameter || b.parameter
  alias_ := a.alias_ || b.alias_
  builtin := a.builtin || b.builtin

/-- The symbol names a value. -/
def isValue (f : Flags) : Bool :=
  f.variable_ || f.function || f.class_ || f.parameter || f.builtin

/-- The symbol names a type. -/
def isType (f : Flags) : Bool :=
  f.class_ || f.interface || f.typeAlias

/-- Whether a further declaration may join a symbol: interfaces, overloads,
and a class with interfaces. -/
def canMerge (existing new : Flags) : Bool :=
  (existing == ofInterface && new == ofInterface)
    || (existing == ofFunction && new == ofFunction)
    || existing.union new == ofClass.union ofInterface

end Flags

/-- What a name is looked up as. -/
inductive Meaning where
  | value
  | type
  deriving DecidableEq, Repr, Inhabited

/-- Whether a symbol can be meant; an import always can. -/
def Flags.answers (f : Flags) : Meaning → Bool
  | .value => f.isValue || f.alias_
  | .type => f.isType || f.alias_

/-- What an import points to. -/
structure ImportTarget where
  specifier : String
  file : Option FileId
  exportName : String
  deriving DecidableEq, Repr, Inhabited

structure Symbol where
  name : String
  flags : Flags
  declarations : List Site
  exported : Bool
  constant : Bool
  target : Option ImportTarget
  deriving DecidableEq, Repr, Inhabited

/-- A region of names. Function scopes receive the variables declared with
`var` inside them. `node` introduced the scope; files and the program have
none. -/
structure Scope where
  parent : Option ScopeId
  file : Option FileId
  node : Option NodeId
  isFunction : Bool
  symbols : Table String SymbolId
  deriving DecidableEq, Repr, Inhabited

/-- The symbols and scopes of a program. Scope 0 is the global scope, which
is also the scope of every file that is no module. `iterated` maps the
variable of a loop over elements to the value looped over. -/
structure Bindings where
  symbols : Array Symbol
  scopes : Array Scope
  fileScopes : Array ScopeId
  exports : Array (Table String SymbolId)
  nodeScopes : Table Site ScopeId
  declarationScopes : Table Site ScopeId
  declarationSymbols : Table Site SymbolId
  iterated : Table Site NodeId
  diagnostics : Array (List Diagnostic)
  reported : List Site
  deriving Inhabited

namespace Bindings

def globalScope : ScopeId := 0

/-- The scope of the top level of a file. -/
def fileScope (b : Bindings) (file : FileId) : ScopeId :=
  b.fileScopes.getD file globalScope

def exportsOf (b : Bindings) (file : FileId) : Table String SymbolId :=
  b.exports.getD file .empty

/-- The scope that a node introduces. -/
def nodeScope? (b : Bindings) (file : FileId) (node : NodeId) : Option ScopeId :=
  b.nodeScopes.get? ⟨file, node⟩

/-- The scope in which a declaration stands. -/
def declarationScope? (b : Bindings) (file : FileId) (node : NodeId) : Option ScopeId :=
  b.declarationScopes.get? ⟨file, node⟩

def symbolOf? (b : Bindings) (file : FileId) (node : NodeId) : Option SymbolId :=
  b.declarationSymbols.get? ⟨file, node⟩

/-- The value that the loop over elements with this variable loops over. -/
def iterated? (b : Bindings) (file : FileId) (node : NodeId) : Option NodeId :=
  b.iterated.get? ⟨file, node⟩

def diagnosticsOf (b : Bindings) (file : FileId) : List Diagnostic :=
  b.diagnostics.getD file []

/-- A scope and those around it, at most `n` of them, the inner ones first. -/
def chainUpTo (b : Bindings) : Nat → ScopeId → List ScopeId
  | 0, _ => []
  | n + 1, scope =>
    match b.scopes[scope]? with
    | none => []
    | some s =>
      match s.parent with
      | none => [scope]
      | some parent => scope :: chainUpTo b n parent

/-- A scope and those around it. Every scope comes after the one around it,
so there are no more than there are scopes. -/
def scopeChain (b : Bindings) (scope : ScopeId) : List ScopeId :=
  b.chainUpTo b.scopes.size scope

/-- What `name` stands for in one scope, if it can be meant as `meaning`. -/
def resolveIn (b : Bindings) (name : String) (meaning : Meaning) (scope : ScopeId) :
    Option SymbolId := do
  let s ← b.scopes[scope]?
  let id ← s.symbols.get? name
  let symbol ← b.symbols[id]?
  if symbol.flags.answers meaning then some id else none

/-- What `name` stands for, looked up from `scope` outwards. -/
def resolve (b : Bindings) (scope : ScopeId) (name : String) (meaning : Meaning) :
    Option SymbolId :=
  (b.scopeChain scope).findSome? (b.resolveIn name meaning)

/-- The function scope around a scope, itself included. -/
def functionScope (b : Bindings) (scope : ScopeId) : ScopeId :=
  ((b.scopeChain scope).find? fun s => (b.scopes[s]?).any Scope.isFunction).getD scope

end Bindings

end ScriptAnalysis
