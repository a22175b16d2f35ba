import ScriptAnalysis.FileSystem
import ScriptAnalysis.FileSystem.NativePath
import ScriptAnalysis.Json.Reader
import ScriptAnalysis.Json.Relaxed

/-!
# Configuration files

A configuration file sets options of a project and says which files belong
to it. It may name another file as its base, whose settings hold where it
has none of its own. `ConfigFile.parse` reads one file, `ConfigFile.load` a
file with all its bases.
-/
namespace ScriptAnalysis

/-- The options as they are written; what is not written is absent. -/
structure ConfigOptions where
  strict : Option Bool
  noImplicitAny : Option Bool
  noEmit : Option Bool
  sourceMap : Option Bool
  outDir : Option String
  typeRoots : Option (List String)
  deriving DecidableEq, Repr, Inhabited

/-- What a configuration file says. -/
structure ConfigFile where
  base : Option String
  options : Option ConfigOptions
  included : Option (List String)
  excluded : Option (List String)
  files : Option (List String)
  deriving DecidableEq, Repr, Inhabited

/-- Why a configuration is of no use. -/
inductive ConfigError where
  | invalidProject (path : String) (fault : Fault)
  | noConfig (directory : String)
  | unreadable (path : String) (fault : Fault)
  | malformed (path : String) (error : Json.ReadError)
  | cycle (path : String)
  | invalidGlob (pattern : String)
  deriving DecidableEq, Repr

namespace ConfigFile

/-- What is said of a text that is no configuration. -/
def parseMessage (e : Json.ReadError) : String :=
  "failed to parse tsconfig JSON: " ++ e.mark

end ConfigFile

/-- What is said of an error, the outermost cause first. -/
def ConfigError.message : ConfigError → String
  | invalidProject path fault => "invalid project directory: " ++ path ++ ": " ++ fault.mark
  | noConfig directory => "failed to find tsconfig in: " ++ directory
  | unreadable path fault => "failed to read tsconfig: " ++ path ++ ": " ++ fault.mark
  | malformed path error =>
    "failed to parse tsconfig: " ++ path ++ ": " ++ ConfigFile.parseMessage error
  | cycle path => "tsconfig extends cycle detected at " ++ path
  | invalidGlob pattern => "invalid glob pattern in tsconfig: " ++ pattern ++ ": <glob>"

/-! ## Reading one file -/

namespace ConfigOptions

open Json Reader

def unset : ConfigOptions := ⟨none, none, none, none, none, none⟩

/-- `true` or `false`, which may stand between quotes, in any case and with
white space around it. -/
def switch : Reader Bool := do
  match ← value with
  | .bool b => return b
  | .string s =>
    let cs := Text.lowerAscii (Text.trim Text.isWhite s.toList)
    if cs = "true".toList then return true
    else if cs = "false".toList then return false
    else throw (.invalidBoolean s)
  | _ => fail

def fields : List (String × (ConfigOptions → Reader ConfigOptions)) := [
  ("strict", fun o => do return { o with strict := ← optional switch }),
  ("noImplicitAny", fun o => do return { o with noImplicitAny := ← optional switch }),
  ("noEmit", fun o => do return { o with noEmit := ← optional switch }),
  ("sourceMap", fun o => do return { o with sourceMap := ← optional switch }),
  ("outDir", fun o => do return { o with outDir := ← optional text }),
  ("typeRoots", fun o => do return { o with typeRoots := ← optional texts })]

/-- The options of `o`, and those of `base` where it has none. -/
def orElse (o base : ConfigOptions) : ConfigOptions where
  strict := o.strict <|> base.strict
  noImplicitAny := o.noImplicitAny <|> base.noImplicitAny
  noEmit := o.noEmit <|> base.noEmit
  sourceMap := o.sourceMap <|> base.sourceMap
  outDir := o.outDir <|> base.outDir
  typeRoots := o.typeRoots <|> base.typeRoots

end ConfigOptions

namespace ConfigFile

open Json Reader

def unset : ConfigFile := ⟨none, none, none, none, none⟩

def fields : List (String × (ConfigFile → Reader ConfigFile)) := [
  ("extends", fun c => do return { c with base := ← optional text }),
  ("compilerOptions", fun c => do
    return { c with options := ← optional (record ConfigOptions.fields .unset) }),
  ("include", fun c => do return { c with included := ← optional texts }),
  ("exclude", fun c => do return { c with excluded := ← optional texts }),
  ("files", fun c => do return { c with files := ← optional texts })]

/-- Reads a configuration. Comments and trailing commas are allowed. -/
def parse (cs : List Char) : Except ReadError ConfigFile :=
  Reader.run (record fields unset) (Relaxed.strict cs)

/-! ## Bases -/

/-- What `c` says, and what `base` says where it is silent. -/
def orElse (c base : ConfigFile) : ConfigFile where
  base := none
  options := match c.options, base.options with
    | some o, some b => some (o.orElse b)
    | o, b => o <|> b
  included := c.included <|> base.included
  excluded := c.excluded <|> base.excluded
  files := c.files <|> base.files

/-- The path of the base that a file at `path` names. -/
def basePath (path base : String) : String :=
  NativePath.join ((NativePath.parent? path).getD "")
    (NativePath.withDefaultExtension base "json")

/-- Reads the file at a path with its bases. `visited` are the files whose
base is being read; the first argument bounds how many there are. -/
def loadFrom (fs : FileSystem) : Nat → List String → String → Except ConfigError ConfigFile
  | 0, _, path => throw (.cycle path)
  | n + 1, visited, path => do
    let place := (fs.canonical? path).getD path
    if visited.contains place then throw (.cycle place)
    let cs ← (fs.read path).mapError (.unreadable path)
    let c ← (parse cs).mapError (.malformed path)
    match c.base with
    | none => return c
    | some base => return c.orElse (← loadFrom fs n (place :: visited) (basePath path base))

/-- Reads the file at a path with its bases. No file is read twice, so the
files that are there bound the length of the chain. -/
def load (fs : FileSystem) (path : String) : Except ConfigError ConfigFile :=
  loadFrom fs (fs.size + 1) [] path

end ConfigFile

end ScriptAnalysis
