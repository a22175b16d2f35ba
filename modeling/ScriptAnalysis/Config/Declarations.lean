import ScriptAnalysis.Config.File
import ScriptAnalysis.Glob
import ScriptAnalysis.Path
import ScriptAnalysis.Program

/-!
# The declaration files of a project

Every program of a project knows the declaration files that its
configuration selects: those that are listed, those that the globs include
and do not exclude, and the packages in the type roots.
-/
namespace ScriptAnalysis.Declarations

/-- What is included unless the configuration says otherwise. -/
def defaultIncluded : List String := ["**/*"]

/-- What is excluded unless the configuration says otherwise. -/
def defaultExcluded : List String := ["node_modules", "bower_components", "jspm_packages"]

/-- The globs that a pattern stands for. Below the base directory a pattern
may be written from the root; one without stars also means everything below
what it names. -/
def variants (base pattern : String) : List String :=
  let normal := Path.normalize pattern
  let start := Path.normalize base ++ "/"
  let relative := match start.toList.isPrefixOf? normal.toList with
    | some rest => String.ofList rest
    | none => normal
  if relative.toList.contains '*' then [relative] else [relative, relative ++ "/**"]

/-- Reads the globs of a list of patterns. -/
def globs (base : String) (patterns : List String) : Except ConfigError (List Glob) :=
  (patterns.flatMap (variants base)).mapM fun pattern =>
    (Glob.parse pattern).mapError fun _ => .invalidGlob pattern

/-- Whether some glob describes the file that is reached by these names. -/
def matched (globs : List Glob) (way : List String) : Bool :=
  let path := Path.normalize (String.intercalate "/" way)
  globs.any (·.accepts path)

/-- The packages in a type root that have a declaration file `index.d.ts`. -/
def packages (fs : FileSystem) (root : String) : List String :=
  let files := (fs.list root).filterMap fun name =>
    let index := NativePath.join (NativePath.join root name) "index.d.ts"
    if fs.isFile index then some (Path.normalize index) else none
  Order.sort (fun a b => a ≤ b) files

/-- The declaration files that a configuration in the directory `base`
selects, each once. -/
def find (fs : FileSystem) (base : String) (c : ConfigFile) (o : CompilerOptions) :
    Except ConfigError (List String) := do
  let included ← globs base (c.included.getD defaultIncluded)
  let excluded ← globs base (c.excluded.getD defaultExcluded ++ o.outDir.toList)
  let listed := ((c.files.getD []).filter Path.isDeclarationFile).map fun file =>
    Path.normalize (NativePath.join base file)
  let found := (fs.walk base fun way => !matched excluded way).filterMap fun way =>
    let path := Path.normalize (NativePath.join base (String.intercalate "/" way))
    if Path.isDeclarationFile path && matched included way then some path else none
  return (listed ++ found ++ o.typeRoots.flatMap (packages fs)).eraseDups

end ScriptAnalysis.Declarations
