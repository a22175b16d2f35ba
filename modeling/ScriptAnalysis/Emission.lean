import ScriptAnalysis.Erasure
import ScriptAnalysis.Json

/-!
# Output files

`emit` makes the files that a script is run from: its text without types,
and on demand a source map. Erasing keeps every character in its place, so
the map sends each line to the same line.
-/
namespace ScriptAnalysis

/-- What is written and where; without `outDir` next to the source. -/
structure EmitOptions where
  noEmit : Bool
  sourceMap : Bool
  outDir : Option String
  deriving DecidableEq, Repr, Inhabited

/-- An output file. -/
structure Artifact where
  fileName : String
  text : String
  deriving DecidableEq, Repr, Inhabited

/-- The files made from a script. `skipped` says that none were wanted. -/
structure EmitOutput where
  skipped : Bool
  artifacts : List Artifact
  deriving DecidableEq, Repr, Inhabited

namespace Emission

/-- The mappings of a text with a number of lines: the first line starts at
the start of the source, and each later one is a line further. -/
def mappings (lines : Nat) : String :=
  "AAAA" ++ String.join (List.replicate (lines - 1) ";AACA")

/-- A source map that sends each line to itself. -/
def sourceMap (output source : String) (text : List Char) : String :=
  (Json.object [
    ("version", .ofNat 3),
    ("file", .string output),
    ("sourceRoot", .string ""),
    ("sources", .array [.string (Path.baseName source)]),
    ("names", .array []),
    ("mappings", .string (mappings (Text.splitWhere (· == '\n') text).length))]).render

/-- A script with the line that names its map. -/
def withMapComment (text : List Char) (mapName : String) : List Char :=
  (if text.isEmpty || text.getLast? = some '\n' then text else text ++ ['\n'])
    ++ ("//# sourceMappingURL=" ++ Path.baseName mapName).toList

/-- The output files of a script. -/
def artifacts (f : SourceFile) (o : EmitOptions) : List Artifact :=
  let script := Path.scriptOutput f.name o.outDir
  let text := Erasure.eraseTypes f
  if o.sourceMap then
    let map := script ++ ".map"
    [⟨script, String.ofList (withMapComment text map)⟩,
      ⟨map, sourceMap (Path.baseName script) f.name f.text⟩]
  else [⟨script, String.ofList text⟩]

/-- Makes the output of a file; a declaration file has none. -/
def emit (f : SourceFile) (o : EmitOptions) : EmitOutput :=
  if o.noEmit then ⟨true, []⟩
  else if Path.isDeclarationFile f.name then ⟨false, []⟩
  else ⟨false, artifacts f o⟩

end Emission

end ScriptAnalysis
