import ScriptAnalysis.Config.Declarations

/-!
# The configuration of a project

`ProjectConfig.load` finds the configuration file that governs a directory,
which is the nearest one in the directory or above it, and makes of it what
the analysis needs. Paths in a configuration are taken from the directory
that holds it.
-/
namespace ScriptAnalysis

/-- What the analysis of a project needs to know. -/
structure ProjectConfig where
  configPath : String
  projectDir : String
  options : CompilerOptions
  declarations : List String
  deriving DecidableEq, Repr, Inhabited

namespace ProjectConfig

def fileName : String := "tsconfig.json"

/-- Where the packages with declarations are unless the configuration says
otherwise. -/
def defaultTypeRoot : String := "node_modules/@types"

/-- The options of a configuration in the directory `base`. -/
def compilerOptions (c : ConfigFile) (base : String) : CompilerOptions :=
  let o := c.options.getD .unset
  let place (path : String) := Path.normalize (NativePath.join base path)
  { strict := o.strict.getD false
    noImplicitAny := o.noImplicitAny.getD false
    noEmit := o.noEmit.getD false
    sourceMap := o.sourceMap.getD false
    outDir := o.outDir.map place
    typeRoots := (o.typeRoots.getD [defaultTypeRoot]).map place }

/-- The configuration file that governs a directory. -/
def find? (fs : FileSystem) (directory : String) : Option String :=
  ((NativePath.ancestors directory).map (NativePath.join · fileName)).find? fs.isFile

/-- Loads the configuration of a project; `current` is the directory that a
relative path starts from. -/
def load (fs : FileSystem) (current project : String) : Except ConfigError ProjectConfig := do
  let some directory := NativePath.absolute? current project
    | throw (.invalidProject project .invalidInput)
  let some path := find? fs directory | throw (.noConfig directory)
  let c ← ConfigFile.load fs path
  let base := (NativePath.parent? path).getD "/"
  let options := compilerOptions c base
  return ⟨path, directory, options, ← Declarations.find fs base c options⟩

end ProjectConfig

end ScriptAnalysis
