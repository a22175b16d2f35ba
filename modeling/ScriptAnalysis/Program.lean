import ScriptAnalysis.Checker
import ScriptAnalysis.Emission
import ScriptAnalysis.Host

/-!
# Programs

A program is kept up to date with the files of a host. `synchronize` starts
at the roots, follows the imports of every file it meets and parses a file
only when its version is new. When the list of files with their versions
has not changed, the checker with all that it has learned is kept.

The walk over the files is `gather`. It takes each path once: a path is a
root or was found by an import, which only finds paths that are there, so
the roots and the paths that are there bound the number of steps.
-/
namespace ScriptAnalysis

/-- How a program is checked and what is made of it. -/
structure CompilerOptions where
  strict : Bool
  noImplicitAny : Bool
  noEmit : Bool
  sourceMap : Bool
  outDir : Option String
  typeRoots : List String
  deriving DecidableEq, Repr, Inhabited

namespace CompilerOptions

/-- Strict checking also asks for types where none can be found. -/
def checking (o : CompilerOptions) : Checking.Options :=
  ⟨o.strict, o.strict || o.noImplicitAny⟩

def emission (o : CompilerOptions) : EmitOptions :=
  ⟨o.noEmit, o.sourceMap, o.outDir⟩

end CompilerOptions

/-- The texts named by the imports at the top level of a file. -/
def SourceFile.imports (f : SourceFile) : List String :=
  f.statements.filterMap fun node =>
    match f.arena.form? node with
    | some (.importDeclaration _ source) => source.bind f.arena.literalOf?
    | _ => none

/-- A file in one of its versions. -/
structure FileVersion where
  path : String
  version : String
  deriving DecidableEq, Repr, Inhabited

/-- A parsed file and the version it was parsed from. -/
structure ParsedFile where
  version : String
  source : SourceFile
  deriving Inhabited, DecidableEq

/-- The files of a program, parsed, and the checker over them. The place of
a file in the list is its index in the checker. -/
structure Program where
  options : CompilerOptions
  parsed : Table String ParsedFile
  files : List FileVersion
  checker : Option Checker
  deriving Inhabited

namespace Program

/-- A program without files. -/
def ofOptions (options : CompilerOptions) : Program :=
  ⟨options, .empty, [], none⟩

/-! ## Finding the files -/

/-- What a walk over the files has found: the paths it has been to, the
files of the program, and all files that are parsed. -/
structure Gathered where
  seen : List String
  files : List (FileVersion × SourceFile)
  parsed : Table String ParsedFile
  deriving Inhabited

/-- The file at a path, parsed again only when its version is new. -/
def sourceAt {σ : Type} (h : Host σ) (g : Gathered) (path version : String) :
    StateM σ (Option (SourceFile × Gathered)) := do
  match (g.parsed.get? path).filter (·.version == version) with
  | some file => return some (file.source, g)
  | none =>
    match ← h.snapshot path with
    | none => return none
    | some text =>
      let source := SourceFile.parse path text
      return some (source, { g with parsed := g.parsed.insert path ⟨version, source⟩ })

/-- Takes a path that has not been seen: adds its file, when there is one,
and gives the paths that its imports mean. -/
def visit {σ : Type} (h : Host σ) (g : Gathered) (path : String) :
    StateM σ (List String × Gathered) := do
  let g := { g with seen := path :: g.seen }
  match ← h.version path with
  | none => return ([], g)
  | some version =>
    match ← sourceAt h g path version with
    | none => return ([], g)
    | some (source, g) =>
      let host ← get
      let imported := source.imports.filterMap (Path.resolveModule path · (h.isThere host))
      return (imported.filter (!g.seen.contains ·),
        { g with files := g.files ++ [(⟨path, version⟩, source)] })

/-- Takes the paths of a queue in order, those that their imports mean
after them, and each path once. -/
def gather {σ : Type} (h : Host σ) : Nat → List String → Gathered → StateM σ Gathered
  | 0, _, g => return g
  | n + 1, queue, g =>
    match queue.dropWhile (g.seen.contains ·) with
    | [] => return g
    | path :: rest => do
      let (imported, g) ← visit h g path
      gather h n (rest ++ imported) g

/-- Brings a program up to date; says whether it had to be checked anew. -/
def synchronize {σ : Type} (p : Program) (h : Host σ) : StateM σ (Bool × Program) := do
  let host ← get
  let roots := (h.roots host).map Path.normalize
  let g ← gather h (roots.length + h.fileBound host + 1) roots ⟨[], [], p.parsed⟩
  let files := g.files.map Prod.fst
  let parsed := g.parsed.filter fun path _ => files.any (·.path == path)
  if p.checker.isSome && files == p.files then
    return (false, { p with parsed := parsed })
  else
    return (true, { p with
      parsed := parsed
      files := files
      checker := some (Checker.ofFiles (g.files.map Prod.snd) p.options.checking) })

/-! ## Questions -/

def fileNames (p : Program) : List String :=
  p.files.map FileVersion.path

/-- The index of a file of the program, with the checker. -/
def find? (p : Program) (path : String) : Option (Checker × FileId) := do
  let k ← p.checker
  let id ← k.fileId? (Path.normalize path)
  return (k, id)

/-- A file of the program. -/
def sourceFile? (p : Program) (path : String) : Option SourceFile := do
  let (k, id) ← p.find? path
  k.files[id]?

/-- What is wrong with a file: its syntax, and only when that is right its
names and types. -/
def diagnostics (p : Program) (path : String) : List Diagnostic × Program :=
  match p.find? path, p.sourceFile? path with
  | some (k, id), some source =>
    match source.syntacticDiagnostics with
    | [] =>
      let (ds, k) := k.semanticDiagnostics id
      (ds, { p with checker := some k })
    | ds => (ds, p)
  | _, _ => ([], p)

/-- The output of a file of the program. -/
def emit (p : Program) (path : String) : Option EmitOutput :=
  (p.sourceFile? path).map (Emission.emit · p.options.emission)

/-- The type of a node. -/
def typeAt (p : Program) (path : String) (node : NodeId) :
    Except TypeQueryError TypeId × Program :=
  match p.find? path with
  | none => (.error (.unknownFile (Path.normalize path)), p)
  | some (k, id) =>
    let (t, k) := k.typeAt id node
    (t, { p with checker := some k })

/-- The signature of a function. -/
def signatureOf (p : Program) (path : String) (node : NodeId) : Option Signature × Program :=
  match p.find? path with
  | none => (none, p)
  | some (k, id) =>
    let (s, k) := k.functionSignature id node
    (s, { p with checker := some k })

/-- The types met so far. -/
def types (p : Program) : TypeTable :=
  (p.checker.map Checker.types).getD .initial

end Program

end ScriptAnalysis
