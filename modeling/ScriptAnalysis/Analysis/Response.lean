import ScriptAnalysis.Analysis.Exports
import ScriptAnalysis.Json

/-!
# Responses

What is known of a file after its analysis, and how it is written as JSON.
-/
namespace ScriptAnalysis

/-- A file without problems. `source` is its output; `diagnostics` are about
functions that cannot be taken over. -/
structure Analysis where
  fileName : String
  name : String
  path : String
  source : String
  diagnostics : List String
  exports : List FunctionDescriptor
  dependencies : List String
  deriving DecidableEq, Repr, Inhabited

/-- The answer to a request. -/
inductive Response where
  | success (analysis : Analysis)
  | failure (diagnostics : List String)
  deriving DecidableEq, Repr, Inhabited

def TypeDescriptor.toJson (d : TypeDescriptor) : Json :=
  .object [("name", .string d.name), ("dimensions", .ofNat d.dimensions)]

def ParameterDescriptor.toJson (p : ParameterDescriptor) : Json :=
  .object [
    ("name", .string p.name),
    ("types", .array (p.types.map TypeDescriptor.toJson)),
    ("optional", .bool p.optional)]

def FunctionDescriptor.toJson (f : FunctionDescriptor) : Json :=
  .object [
    ("name", .string f.name),
    ("parameters", .array (f.parameters.map ParameterDescriptor.toJson)),
    ("returnTypes", .array (f.returnTypes.map TypeDescriptor.toJson)),
    ("line", .ofNat f.line),
    ("character", .ofNat f.character)]

def Analysis.toJson (a : Analysis) : Json :=
  .object [
    ("fileName", .string a.fileName),
    ("name", .string a.name),
    ("path", .string a.path),
    ("source", .string a.source),
    ("diagnostics", .strings a.diagnostics),
    ("exports", .array (a.exports.map FunctionDescriptor.toJson)),
    ("dependencies", .strings a.dependencies)]

namespace Response

def toJson : Response → Json
  | success a => a.toJson
  | failure diagnostics => .object [("diagnostics", .strings diagnostics)]

/-- A response on one line. -/
def render (r : Response) : String :=
  r.toJson.render

end Response

end ScriptAnalysis
