import ScriptAnalysis.Program

/-!
# Frontends

The analysis of a file asks a frontend about its syntax, its problems, its
output and its types. A frontend is a state `φ` with these answers; the one
that is used is a `Program`.
-/
namespace ScriptAnalysis

/-- What the analysis asks about files and types. A question that may teach
the frontend something is a step over its state. -/
structure Frontend (φ : Type) where
  /-- Brings the frontend up to date with a host, or says why it cannot. -/
  synchronize : {σ : Type} → Host σ → φ → StateM σ (Except String Unit × φ)
  source? : φ → String → Option SourceFile
  diagnostics : String → StateM φ (List Diagnostic)
  emit : φ → String → Option EmitOutput
  signature : String → NodeId → StateM φ (Option Signature)
  /-- The type of a node, when it has one. -/
  typeAt : String → NodeId → StateM φ (Option TypeId)
  display : φ → TypeId → String
  bases : φ → TypeId → List TypeId
  isLiteral : φ → TypeId → Bool
  calls : φ → TypeId → List Signature
  constructs : φ → TypeId → List Signature

namespace Program

/-- A program as a frontend. Before its first synchronization every type is
shown as `any` and has nothing. -/
def frontend : Frontend Program where
  synchronize h p := do
    let (_, p) ← p.synchronize h
    return (.ok (), p)
  source? := sourceFile?
  diagnostics path p := p.diagnostics path
  emit := emit
  signature path node p := p.signatureOf path node
  typeAt path node p :=
    let (t, p) := p.typeAt path node
    (t.toOption, p)
  display p t := (p.checker.map (·.types.display t)).getD "any"
  bases p t := (p.checker.map (·.types.bases t)).getD []
  isLiteral p t := p.checker.any (·.types.isLiteral t)
  calls p t := (p.checker.map (·.types.calls t)).getD []
  constructs p t := (p.checker.map (·.types.constructs t)).getD []

end Program

end ScriptAnalysis
