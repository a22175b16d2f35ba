import ScriptAnalysis.Text

/-!
# Paths

Paths are strings with `/` between their segments. Two spellings of one
location are made equal by `normalize`, which works on the text alone and
never asks the file system: it reads the path as a `Location` (rooted or
not, and a list of names) and writes that location back.

* `locate`, `Location.render`, `normalize`: the canonical spelling.
* `directory`, `baseName`, `stem`, `resolve`: parts of a path, and a path
  taken relative to a file.
* `isDeclarationFile`, `isLibrary`: the two classes of files that the
  service treats apart.
* `moduleCandidates`, `resolveModule`: the files that an import may mean.
* `scriptOutput`: where the output of a script goes.
-/
namespace ScriptAnalysis.Path

/-- Both kinds of slash separate segments. -/
def isSeparator (c : Char) : Bool :=
  c == '/' || c == '\\'

/-! ## Locations -/

/-- What a path denotes: names to follow from the root, or from a place
that is not known. Only a location that is not rooted can start with
`..` names. -/
structure Location where
  rooted : Bool
  names : List (List Char)
  deriving DecidableEq, Repr

/-- Follows one segment. The names are kept in reverse order, so the last
one is at hand when `..` removes it. -/
def step (rooted : Bool) (names : List (List Char)) (segment : List Char) :
    List (List Char) :=
  if segment = [] ∨ segment = ['.'] then names
  else if segment = ['.', '.'] then
    match names with
    | last :: rest => if last = ['.', '.'] then if rooted then names else segment :: names else rest
    | [] => if rooted then [] else [segment]
  else segment :: names

/-- The location that a path denotes. -/
def locate (path : List Char) : Location :=
  let rooted := path.head?.any isSeparator
  ⟨rooted, ((Text.splitWhere isSeparator path).foldl (step rooted) []).reverse⟩

/-- The names with a slash between them, a slash in front of a rooted
location, and `.` for the place itself. -/
def Location.render (l : Location) : List Char :=
  let joined := List.intercalate ['/'] l.names
  if l.rooted then '/' :: joined
  else if joined = [] then ['.']
  else joined

/-- The canonical spelling of the location that a path denotes. -/
def normalize (path : String) : String :=
  String.ofList (locate path.toList).render

/-! ## Parts of a path -/

/-- The directory part of a normalized path; `.` when there is none. -/
def directory (path : String) : String :=
  match Text.beforeLast? (· == '/') path.toList with
  | none => "."
  | some [] => "/"
  | some cs => String.ofList cs

/-- `relative` taken from the directory that holds `file`; a path from the
root stands for itself. -/
def resolve (file relative : String) : String :=
  if relative.toList.head? = some '/' then normalize relative
  else normalize (directory file ++ "/" ++ relative)

/-- The last name of a path, trailing slashes aside. -/
def baseName (path : String) : String :=
  String.ofList (Text.afterLast isSeparator (Text.trimEnd isSeparator path.toList))

/-- The last name without its extension; a declaration file loses `.d.ts`
as a whole, and a leading dot starts no extension. -/
def stem (path : String) : String :=
  let name := (baseName path).toList
  match Text.stripSuffix? ".d.ts".toList name with
  | some cs => String.ofList cs
  | none =>
    match Text.beforeLast? (· == '.') name with
    | none => String.ofList name
    | some [] => String.ofList name
    | some cs => String.ofList cs

/-! ## Classes of files -/

def endsWith (suffix : String) (path : String) : Bool :=
  (Text.stripSuffix? suffix.toList path.toList).isSome

def startsWith (start : String) (path : String) : Bool :=
  start.toList.isPrefixOf path.toList

/-- Ambient declaration files are recognised by their name. -/
def isDeclarationFile (path : String) : Bool :=
  endsWith ".d.ts" path

/-- Files of installed packages: below a directory `node_modules`. -/
def isLibrary (path : String) : Bool :=
  (Text.splitWhere isSeparator path.toList).any (· == "node_modules".toList)

/-! ## Modules -/

/-- Only specifiers that name a place resolve. -/
def isRelativeSpecifier (specifier : String) : Bool :=
  startsWith "./" specifier || startsWith "../" specifier || startsWith "/" specifier

/-- The files that `specifier`, imported from `file`, may mean, best first. -/
def moduleCandidates (file specifier : String) : List String :=
  if isRelativeSpecifier specifier then
    let base := resolve file specifier
    if endsWith ".ts" base then [base]
    else [base ++ ".ts", base ++ ".d.ts", base ++ "/index.ts", base ++ "/index.d.ts"]
  else []

/-- The first candidate that is there. -/
def resolveModule (file specifier : String) (isThere : String → Bool) : Option String :=
  (moduleCandidates file specifier).find? isThere

/-! ## Output files -/

/-- The output file of a script: beside it, or in the output directory. -/
def scriptOutput (source : String) (outDir : Option String) : String :=
  let cs := source.toList
  let base := String.ofList <|
    (Text.stripSuffix? ".tsx".toList cs).getD ((Text.stripSuffix? ".ts".toList cs).getD cs)
  match outDir with
  | none => base ++ ".js"
  | some dir =>
    String.ofList (Text.trimEnd (· == '/') dir.toList) ++ "/" ++ baseName base ++ ".js"

end ScriptAnalysis.Path
