import ScriptAnalysis.Analysis.Frontend

/-!
# A frontend with given answers

`ScriptedFrontend` parses the files of its host and answers everything else
from tables. It isolates the analysis from the checker: any graph of types
can be given, also one that no program has.
-/
namespace ScriptAnalysis

/-- A type by what is told of it. `constructs` are the types of the objects
that it makes. -/
structure ScriptedType where
  display : String
  bases : List TypeId
  isLiteral : Bool
  isCallable : Bool
  constructs : List TypeId
  deriving DecidableEq, Repr, Inhabited

/-- The answers of a frontend. Functions, parameters and nodes are known by
their text. -/
structure ScriptedFrontend where
  types : List ScriptedType
  syncError : Option String
  diagnostics : List Diagnostic
  noOutput : Bool
  artifacts : Nat
  skipped : Bool
  returns : List (String × TypeId)
  parameters : List (String × TypeId)
  nodes : List (String × TypeId)
  files : Table String SourceFile
  /-- How often it was synchronized. -/
  syncs : Nat
  /-- How often it was asked for the type of a node. -/
  queries : Nat
  deriving Inhabited

namespace ScriptedFrontend

/-- Parses the files that a host names and has. -/
def parseAll {σ : Type} (h : Host σ) : List String → StateM σ (Table String SourceFile)
  | [] => return .empty
  | path :: rest => do
    let found ← match ← h.version path with
      | none => pure none
      | some _ => h.snapshot path
    let others ← parseAll h rest
    match found with
    | none => return others
    | some text => return others.insert path (SourceFile.parse path text)

/-- The parameters in front whose types are given. -/
def givenParameters (f : ScriptedFrontend) (source : SourceFile) : List NodeId → List Parameter
  | [] => []
  | node :: rest =>
    match source.arena.parameterOf? node with
    | none => []
    | some p =>
      let name := source.nodeText p.name
      match f.parameters.lookup name with
      | none => []
      | some type => ⟨name, type, p.optional⟩ :: givenParameters f source rest

/-- The signature of a function whose result is given. -/
def signature? (f : ScriptedFrontend) (path : String) (node : NodeId) : Option Signature := do
  let source ← f.files.get? path
  let function ← source.arena.functionOf? node
  let returns ← f.returns.lookup ((function.name.map source.nodeText).getD "")
  return ⟨f.givenParameters source function.parameters, returns⟩

/-- The type that is given for the text of a node. -/
def type? (f : ScriptedFrontend) (path : String) (node : NodeId) : Option TypeId := do
  let source ← f.files.get? path
  f.nodes.lookup (String.ofList (Text.trim Text.isWhite (source.nodeText node).toList))

def emit (f : ScriptedFrontend) (path : String) : Option EmitOutput :=
  if f.noOutput then none
  else (f.files.get? path).map fun source =>
    ⟨f.skipped, List.replicate f.artifacts ⟨path, String.ofList source.text⟩⟩

/-- The tables as a frontend. -/
def frontend : Frontend ScriptedFrontend where
  synchronize h f := do
    let f := { f with syncs := f.syncs + 1 }
    match f.syncError with
    | some cause => return (.error cause, f)
    | none => return (.ok (), { f with files := ← parseAll h (h.roots (← get)) })
  source? f path := f.files.get? path
  diagnostics _ := do return (← get).diagnostics
  emit := emit
  signature path node := do return (← get).signature? path node
  typeAt path node := do
    modify fun f => { f with queries := f.queries + 1 }
    return (← get).type? path node
  display f t := ((f.types[t]?).map ScriptedType.display).getD "any"
  bases f t := ((f.types[t]?).map ScriptedType.bases).getD []
  isLiteral f t := (f.types[t]?).any ScriptedType.isLiteral
  calls f t := if (f.types[t]?).any ScriptedType.isCallable then [⟨[], .void⟩] else []
  constructs f t := (((f.types[t]?).map ScriptedType.constructs).getD []).map fun i => ⟨[], i⟩

end ScriptedFrontend

end ScriptAnalysis
