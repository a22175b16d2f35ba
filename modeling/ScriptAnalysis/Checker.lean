import ScriptAnalysis.Ast.Names
import ScriptAnalysis.Checking.Statements
import ScriptAnalysis.Order

/-!
# The checker of a program

`Checker` holds the files of a program with what has been learned about
them, and the standpoint from which the next call sets out. A file is
checked once, when something about it is first asked:
`semanticDiagnostics` for its problems, `typeAt` for the type of a node,
`functionSignature` for a function.

The recursion of the rules is tied here. `rules n` are the rules with at
most `n` nested uses. A use goes deeper into the tree of a file or starts to
resolve a symbol or a signature that is not being resolved yet, which bounds
the nesting by `nestingBound`.
-/
namespace ScriptAnalysis

namespace Checking

/-- Stands for the rules when no nested use is left. -/
def noRules : Rules where
  typeNode _ := do
    exhaust
    return .error
  expression _ _ := do
    exhaust
    return .error
  statement _ := do
    exhaust
    return []
  valueType _ := do
    exhaust
    return .error
  declaredType _ := do
    exhaust
    return none
  classTypes _ := do
    exhaust
    return ⟨.error, .error⟩

/-- The rules with at most `n` nested uses. -/
def rules : Nat → Rules
  | 0 => noRules
  | n + 1 =>
    { typeNode := fun node => typeNode (rules n) node
      expression := fun node expected => expression (rules n) node expected
      statement := fun node => statement (rules n) node
      valueType := fun id => valueType (rules n) id
      declaredType := fun id => declaredType (rules n) id
      classTypes := fun id => classTypes (rules n) id }

/-- How many nested uses of the rules a program can lead to. -/
def nestingBound (c : Context) : Nat :=
  let nodes := c.files.foldl (fun n f => n + f.arena.size) 0
  16 * Nat.pow (nodes + c.bindings.symbols.size + 2) 2

end Checking

open Checking

/-- A program, where its checker stands and what is known about it. -/
structure Checker where
  files : Array SourceFile
  bindings : Bindings
  options : Checking.Options
  standpoint : Checking.Standpoint
  state : Checking.State
  deriving Inhabited

/-- Why a node has no type. -/
inductive TypeQueryError where
  | unknownFile (name : String)
  | noType (node : NodeId) (form : Option Form)
  deriving DecidableEq, Repr

/-- What is said of a query that fails. -/
def TypeQueryError.message : TypeQueryError → String
  | unknownFile name => "file is not part of the program: " ++ name
  | noType node form =>
    "node " ++ toString node ++ " (" ++ (form.map Form.kindName).getD "Unknown" ++ ") has no type"

namespace Checker

/-- A checker that has not looked at anything yet; the place of a file in
the list is its index. -/
def ofFiles (files : List SourceFile) (options : Checking.Options) : Checker where
  files := files.toArray
  bindings := Binding.bindProgram files
  options := options
  standpoint :=
    { file := 0
      scope := Bindings.globalScope
      functions := []
      thisTypes := []
      loops := 0
      speculative := 0
      depth := 0
      resolvingValues := []
      resolvingTypes := []
      resolvingSignatures := [] }
  state :=
    { types := .initial
      valueTypes := .empty
      aliasTypes := .empty
      classTypes := .empty
      interfaceTypes := .empty
      signatures := .empty
      arrowTypes := .empty
      contextual := .empty
      memberOwners := .empty
      apparent := .empty
      nodeTypes := (files.map fun f => Array.replicate f.arena.size none).toArray
      diagnostics := Array.replicate files.length []
      checked := Array.replicate files.length false
      exhausted := false }

/-- The index of the last file with a name. -/
def fileId? (k : Checker) (name : String) : Option FileId :=
  Binding.lastIndex? (k.files.toList.map SourceFile.name) name

/-- Where the checker stands in its program. -/
def here (k : Checker) : Context :=
  { k.standpoint with
    files := k.files
    bindings := k.bindings
    options := k.options }

/-- The place at the top level of a file. -/
def context (k : Checker) (file : FileId) : Context :=
  k.here.top file

/-- Runs a step of the checker. -/
def run (k : Checker) (x : Rules → Check α) : α × Checker :=
  let c := k.here
  let ((a, c), s) := x (rules (nestingBound c)) c k.state
  (a, { k with standpoint := c.toStandpoint, state := s })

def types (k : Checker) : TypeTable := k.state.types

/-- Checks a file, unless that has been done. -/
def checkFile (k : Checker) (file : FileId) : Checker :=
  match k.files[file]?, k.state.checked[file]? with
  | some source, some false =>
    let k := { k with state := { k.state with checked := k.state.checked.setIfInBounds file true } }
    (k.run fun self => atTop file <| source.statements.forM fun node => do
      let _ ← self.statement node).2
  | _, _ => k

/-- By position, then by number. -/
def reportOrder (a b : Diagnostic) : Bool :=
  a.start < b.start || (a.start == b.start && a.code ≤ b.code)

/-- Two reports that say the same of one place. -/
def sameReport (a b : Diagnostic) : Bool :=
  a.start == b.start && a.code == b.code && a.message == b.message

/-- Leaves out what repeats the report before it. -/
def dropRepeated : List Diagnostic → List Diagnostic
  | [] => []
  | d :: rest =>
    match dropRepeated rest with
    | [] => [d]
    | e :: kept => if sameReport d e then d :: kept else d :: e :: kept

/-- The problems of names and types in a file, by position. -/
def semanticDiagnostics (k : Checker) (file : FileId) : List Diagnostic × Checker :=
  let k := k.checkFile file
  let all := k.bindings.diagnosticsOf file ++ k.state.diagnostics.getD file []
  (dropRepeated (Order.sort reportOrder all), k)

/-- The type of a node. -/
def typeAt (k : Checker) (file : FileId) (node : NodeId) :
    Except TypeQueryError TypeId × Checker :=
  match k.files[file]? with
  | none => (.error (.unknownFile (toString file)), k)
  | some source =>
    let k := k.checkFile file
    match (k.state.nodeTypes.getD file #[]).getD node none with
    | some type => (.ok type, k)
    | none => (.error (.noType node (source.arena.form? node)), k)

/-- The signature of a function. -/
def functionSignature (k : Checker) (file : FileId) (node : NodeId) :
    Option Signature × Checker :=
  match (k.files[file]?).bind (·.arena.functionOf? node) with
  | none => (none, k)
  | some _ =>
    let k := k.checkFile file
    let scope := (k.bindings.nodeScope? file node).getD (k.bindings.fileScope file)
    let (s, k) := k.run fun self => atDeclaration file scope (signature self node)
    (some s, k)

end Checker

end ScriptAnalysis
