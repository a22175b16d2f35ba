import ScriptAnalysis.Analysis.Dependencies
import ScriptAnalysis.Analysis.Response
import ScriptAnalysis.Registry

/-!
# The analysis of a file

An analyzer takes a file up, brings its frontend up to date and then tells
what the file exports and depends on. A file with problems is answered with
these; an error means that there is no answer.
-/
namespace ScriptAnalysis

/-- Why there is no answer. -/
inductive AnalysisError where
  | unknownTime (e : UnknownTime)
  | notSynchronized (cause : String)
  | noSource (path : String)
  | noOutput (path : String)
  | outputSkipped (path : String)
  | outputCount (n : Nat)
  deriving DecidableEq, Repr

/-- What is said of an error, the outermost cause first. -/
def AnalysisError.message : AnalysisError → String
  | unknownTime e => e.message
  | notSynchronized cause => "failed to synchronize program: " ++ cause
  | noSource path => "failed to get source file: " ++ path
  | noOutput path => "failed to emit: " ++ path
  | outputSkipped path => "emit skipped: " ++ path
  | outputCount n => "unexpected number of output files: " ++ toString n

/-- What is known of a project: the versions of its files, the frontend and
the settings. `projectDir` is normalized. -/
structure Analyzer (φ : Type) where
  registry : Registry
  frontend : φ
  rootType : String
  projectDir : String
  deriving Inhabited

namespace Analyzer

variable {φ : Type}

/-- An analyzer for the project in a directory. -/
def ofProject (registry : Registry) (frontend : φ) (rootType projectDir : String) : Analyzer φ :=
  ⟨registry, frontend, rootType, Path.normalize projectDir⟩

/-- A step of an analysis; what was learned stays when it fails. -/
abbrev Step (φ : Type) := ExceptT AnalysisError (StateM (Analyzer φ))

/-- The normalized path of a file that is asked for. Relative paths are
taken from the project directory. -/
def resolvePath (a : Analyzer φ) (file : String) : String :=
  if file.toList.head?.any Path.isSeparator then Path.normalize file
  else Path.normalize (a.projectDir ++ "/" ++ file)

/-- Asks the frontend. -/
def ask {α : Type} (x : StateM φ α) : Step φ α := do
  let a ← get
  let (r, f) := x.run a.frontend
  set { a with frontend := f }
  return r

/-- Brings the frontend up to date with the files. -/
def synchronize (F : Frontend φ) (fs : FileSystem) : Step φ Unit := do
  let a ← get
  let ((result, f), r) := (F.synchronize (Registry.host fs) a.frontend).run a.registry
  set { a with frontend := f, registry := r }
  match result with
  | .ok () => return
  | .error cause => throw (.notSynchronized cause)

/-- Diagnostics as they are shown. Each is placed in the text of its own
file. -/
def formatAll (F : Frontend φ) (s : φ) (source : SourceFile) (ds : List Diagnostic) :
    List String :=
  ds.map fun d =>
    let text := d.file.bind fun file =>
      if file == source.name then some source.text
      else (F.source? s file).map SourceFile.text
    d.format text

/-- The text of the single output file. -/
def output (F : Frontend φ) (path : String) : Step φ String := do
  match F.emit (← get).frontend path with
  | none => throw (.noOutput path)
  | some o =>
    if o.skipped then throw (.outputSkipped path)
    match o.artifacts with
    | [artifact] => return artifact.text
    | artifacts => throw (.outputCount artifacts.length)

/-- Analyzes a file. -/
def analyze (F : Frontend φ) (fs : FileSystem) (file : String) : Step φ Response := do
  let path := (← get).resolvePath file
  match Registry.modified fs path with
  | .error e => throw (.unknownTime e)
  | .ok time =>
    modify fun a => { a with registry := (a.registry.ensureTracked path time).2 }
    synchronize F fs
    match F.source? (← get).frontend path with
    | none => throw (.noSource path)
    | some source =>
      match ← ask (F.diagnostics path) with
      | [] =>
        let text ← output F path
        modify fun a => { a with registry := a.registry.markAnalyzed path time }
        let (exports, rejections) ← ask (Exports.extract F source)
        let dependencies ← ask (Dependencies.collect F source (← get).rootType)
        return .success
          { fileName := Path.baseName path
            name := Path.stem path
            path := path
            source := text
            diagnostics := rejections.map Rejection.message
            exports := exports
            dependencies := dependencies }
      | ds => return .failure (formatAll F (← get).frontend source ds)

end Analyzer

end ScriptAnalysis
