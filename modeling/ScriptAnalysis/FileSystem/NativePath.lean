import ScriptAnalysis.Text

/-!
# Paths as they are spelled

These operations keep the spelling of a path as far as they can: only `/`
separates, `..` stays, and nothing is asked of a file system. The messages
about configuration files show paths in this form.
-/
namespace ScriptAnalysis.NativePath

/-- A path in reverse, without the slashes and single dots at its end. The
slash of the root stays. -/
def trimReversed : List Char → List Char
  | ['/'] => ['/']
  | '/' :: rest => trimReversed rest
  | '.' :: rest => if rest.head? = some '/' then trimReversed rest else '.' :: rest
  | cs => cs

/-- The directory that holds what a path names. The root has none. -/
def parent? (path : String) : Option String :=
  let r := trimReversed path.toList.reverse
  if r = [] ∨ r = ['/'] then none
  else some (String.ofList (trimReversed (r.dropWhile (· != '/'))).reverse)

/-- The last name of a path, unless that is a dot, two dots or nothing. -/
def lastName? (path : String) : Option (List Char) :=
  let name := ((trimReversed path.toList.reverse).takeWhile (· != '/')).reverse
  if name = [] ∨ name = ['.'] ∨ name = ['.', '.'] then none else some name

/-- Whether a name has an ending behind a dot. A dot in front of a name
starts no ending. -/
def hasExtension (name : List Char) : Bool :=
  match Text.beforeLast? (· == '.') name with
  | none => false
  | some before => !before.isEmpty

/-- A path whose last name has no ending gets this one. -/
def withDefaultExtension (path extension : String) : String :=
  match lastName? path with
  | none => path
  | some name =>
    if hasExtension name then path
    else String.ofList (trimReversed path.toList.reverse).reverse ++ "." ++ extension

def isAbsolute (path : String) : Bool :=
  path.toList.head? = some '/'

/-- A path taken from a directory; a path from the root stands for itself. -/
def join (directory path : String) : String :=
  if isAbsolute path || directory.isEmpty then path
  else if directory.toList.getLast? = some '/' then directory ++ path
  else directory ++ "/" ++ path

/-- A path and the directories above it, up to the root. -/
def ancestorsWithin : Nat → String → List String
  | 0, path => [path]
  | n + 1, path =>
    match parent? path with
    | none => [path]
    | some above => path :: ancestorsWithin n above

def ancestors (path : String) : List String :=
  ancestorsWithin path.length path

/-- A path from the root, without repeated slashes and single dots. A slash
at the end stays, and so do exactly two in front. A path that is not from
the root is taken from the directory `current`; there is no path for the
empty text. -/
def absolute? (current path : String) : Option String :=
  if path.isEmpty then none
  else
    let cs := path.toList
    let names := (Text.splitWhere (· == '/') cs).filter fun s => s ≠ [] ∧ s ≠ ['.']
    let front := if !isAbsolute path then current
      else if cs.take 2 = ['/', '/'] ∧ cs[2]? ≠ some '/' then "//"
      else "/"
    let full := names.foldl (fun p name => join p (String.ofList name)) front
    some (if cs.getLast? = some '/' then join full "" else full)

end ScriptAnalysis.NativePath
