import ScriptAnalysis.Analysis.Frontend
import ScriptAnalysis.Analysis.TypeDescriptor

/-!
# Exported functions

A consumer can call the functions that a file exports at its top level. It
is told their names, parameters and results. A result of more than one type
cannot be taken over, so a function with such a result is rejected.
-/
namespace ScriptAnalysis

/-- A parameter of an exported function. -/
structure ParameterDescriptor where
  name : String
  types : List TypeDescriptor
  optional : Bool
  deriving DecidableEq, Repr, Inhabited

/-- An exported function. Its name stands at `line` and `character`, both
counted from one. -/
structure FunctionDescriptor where
  name : String
  parameters : List ParameterDescriptor
  returnTypes : List TypeDescriptor
  line : Nat
  character : Nat
  deriving DecidableEq, Repr, Inhabited

/-- A function whose result has more than one type. -/
structure Rejection where
  path : String
  line : Nat
  character : Nat
  name : String
  display : String
  deriving DecidableEq, Repr, Inhabited

/-- What is said of a rejected function. -/
def Rejection.message (r : Rejection) : String :=
  "[TSU] " ++ Path.baseName r.path ++ "(" ++ toString r.line ++ "," ++ toString r.character
    ++ "): Disallowed union return type for '" ++ r.name ++ "' (" ++ r.display ++ ")"

namespace Exports

/-- A function at the top level, with the node of its name. -/
structure Function where
  node : NodeId
  parts : FunctionParts
  name : NodeId
  deriving DecidableEq, Repr, Inhabited

/-- The function that a statement exports: a declaration with a name and a
body. -/
def ofStatement? (f : SourceFile) (node : NodeId) : Option Function :=
  match f.arena.form? node with
  | some (.function .declaration p) =>
    match p.name, p.body with
    | some name, some _ => if p.modifiers.exported then some ⟨node, p, name⟩ else none
    | _, _ => none
  | _ => none

/-- The functions that a file exports, in source order. -/
def functions (f : SourceFile) : List Function :=
  f.statements.filterMap (ofStatement? f)

variable {φ : Type} (F : Frontend φ)

/-- The shown form of a type; `any` when there is none. -/
def displayOf (s : φ) (t : Option TypeId) : String :=
  (t.map (F.display s)).getD "any"

/-- Describes a parameter: by the type that is written, else by the type in
the signature. -/
def parameter (f : SourceFile) (node : NodeId) (inferred : Option TypeId) :
    StateM φ ParameterDescriptor := do
  match f.arena.parameterOf? node with
  | none => return ⟨f.nodeText node, TypeDescriptor.ofDisplay "any", false⟩
  | some p =>
    let written ← match p.ascription with
      | some type => F.typeAt f.name type
      | none => pure none
    let display := displayOf F (← get) (written <|> inferred)
    return ⟨f.nodeText p.name, TypeDescriptor.ofDisplay display,
      p.initializer.isNone && p.optional⟩

/-- Describes an exported function, or rejects it. -/
def describe (f : SourceFile) (g : Function) : StateM φ (Except Rejection FunctionDescriptor) := do
  let name := f.nodeText g.name
  let start := ((f.arena[g.name]?).map Node.pos).getD 0
  let position := f.position start
  let signature ← F.signature f.name g.node
  let display := displayOf F (← get) (signature.map Signature.returnType)
  match TypeDescriptor.ofDisplay display with
  | _ :: _ :: _ =>
    return .error ⟨f.name, position.line + 1, position.character + 1, name, display⟩
  | returnTypes =>
    let inferred := (signature.map Signature.parameters).getD []
    let parameters ← g.parts.parameters.zipIdx.mapM fun (node, i) =>
      parameter F f node ((inferred[i]?).map Parameter.type)
    return .ok ⟨name, parameters, returnTypes, position.line + 1, position.character + 1⟩

/-- Describes the functions that a file exports and gives those that are
rejected. -/
def extract (f : SourceFile) : StateM φ (List FunctionDescriptor × List Rejection) := do
  let results ← (functions f).mapM (describe F f)
  return (results.filterMap Except.toOption,
    results.filterMap fun
      | .error r => some r
      | .ok _ => none)

end Exports

end ScriptAnalysis
