import ScriptAnalysis.Order
import ScriptAnalysis.Table
import ScriptAnalysis.Text

/-!
# File systems

A file system is a tree of directories and files, kept as a table from
places to what is there. A place is the list of names that leads to it from
the root; `resolve` finds the place that a path means. It goes from name to
name, so `..` is the directory that was left and a file is never passed
through.

The operations fail with a `Fault`, which is the kind of what went wrong. Times
are natural numbers in a unit that the caller chooses.
-/
namespace ScriptAnalysis

/-- The names that lead from the root to a place. -/
abbrev Place := List String

/-- What is at a place. A file whose bytes are no text has no `text`. -/
inductive Entry where
  | file (text : Option (List Char)) (modified : Nat)
  | directory (modified : Nat)
  deriving DecidableEq, Repr, Inhabited

namespace Entry

def modified : Entry → Nat
  | file _ m => m
  | directory m => m

/-- The same entry with another time. -/
def withModified (m : Nat) : Entry → Entry
  | file text _ => file text m
  | directory _ => directory m

end Entry

/-- Why a file system refuses to do something. -/
inductive Fault where
  | notFound
  | notADirectory
  | isADirectory
  | invalidData
  | invalidInput
  | invalidFilename
  deriving DecidableEq, Repr, Inhabited

/-- The name of the kind of a fault. -/
def Fault.kind : Fault → String
  | notFound => "NotFound"
  | notADirectory => "NotADirectory"
  | isADirectory => "IsADirectory"
  | invalidData => "InvalidData"
  | invalidInput => "InvalidInput"
  | invalidFilename => "InvalidFilename"

/-- How a fault is shown as the cause of something else. -/
def Fault.mark (f : Fault) : String :=
  "<io " ++ f.kind ++ ">"

/-- A tree of directories and files. -/
structure FileSystem where
  entries : Table Place Entry
  deriving DecidableEq, Repr, Inhabited

namespace FileSystem

/-- Only the root. -/
def empty : FileSystem := ⟨Table.empty.insert [] (.directory 0)⟩

def entry? (fs : FileSystem) (p : Place) : Option Entry :=
  fs.entries.get? p

def size (fs : FileSystem) : Nat :=
  fs.entries.size

/-! ## Paths -/

/-- The longest name that can be there, in bytes. -/
def maxNameSize : Nat := 255

/-- Goes on from a place by one segment of a path. -/
def step (fs : FileSystem) (p : Place) (segment : List Char) : Except Fault Place :=
  match fs.entry? p with
  | none => throw .notFound
  | some (.file _ _) => throw .notADirectory
  | some (.directory _) =>
    if segment = [] ∨ segment = ['.'] then return p
    else if segment = ['.', '.'] then return p.dropLast
    else if maxNameSize < Text.size segment then throw .invalidFilename
    else
      let next := p ++ [String.ofList segment]
      if (fs.entry? next).isSome then return next else throw .notFound

/-- The place that a path means. Only paths from the root mean one. -/
def resolve (fs : FileSystem) (path : String) : Except Fault Place :=
  let cs := path.toList
  if cs.contains (Char.ofNat 0) then throw .invalidInput
  else if cs.head? = some '/' then (Text.splitWhere (· == '/') cs).tail.foldlM fs.step []
  else throw .notFound

/-- The path of a place. -/
def pathOf (p : Place) : String :=
  "/" ++ String.intercalate "/" p

/-- What a path leads to. -/
def lookup (fs : FileSystem) (path : String) : Except Fault Entry := do
  match fs.entry? (← fs.resolve path) with
  | some e => return e
  | none => throw .notFound

/-! ## Questions -/

def isFile (fs : FileSystem) (path : String) : Bool :=
  match fs.lookup path with
  | .ok (.file _ _) => true
  | _ => false

/-- When something was changed last. -/
def modified (fs : FileSystem) (path : String) : Except Fault Nat := do
  return (← fs.lookup path).modified

/-- The text of a file. -/
def read (fs : FileSystem) (path : String) : Except Fault (List Char) := do
  match ← fs.lookup path with
  | .directory _ => throw .isADirectory
  | .file none _ => throw .invalidData
  | .file (some text) _ => return text

/-- The one spelling of a path that has no detours, when it leads to
something. -/
def canonical? (fs : FileSystem) (path : String) : Option String :=
  match fs.resolve path with
  | .ok p => some (pathOf p)
  | .error _ => none

/-- The names in a directory, in order. -/
def namesIn (fs : FileSystem) (p : Place) : List String :=
  Order.sort (fun a b => a ≤ b) <| fs.entries.keys.filterMap fun q =>
    if q.dropLast = p then q.getLast? else none

/-- The names in the directory at a path; none when there is no directory. -/
def list (fs : FileSystem) (path : String) : List String :=
  match fs.resolve path with
  | .error _ => []
  | .ok p =>
    match fs.entry? p with
    | some (.directory _) => fs.namesIn p
    | _ => []

/-- The files below a directory, directories in order of their names and
nothing that `keep` refuses. Files are named by the way that leads to them,
which `keep` sees too. -/
def filesBelow (fs : FileSystem) (keep : List String → Bool) (base : Place) :
    Nat → List String → List (List String)
  | 0, _ => []
  | n + 1, way => (fs.namesIn (base ++ way)).flatMap fun name =>
    let next := way ++ [name]
    if keep next then
      match fs.entry? (base ++ next) with
      | some (.file _ _) => [next]
      | some (.directory _) => fs.filesBelow keep base n next
      | none => []
    else []

/-- The files below the directory at a path. -/
def walk (fs : FileSystem) (path : String) (keep : List String → Bool) : List (List String) :=
  match fs.resolve path with
  | .error _ => []
  | .ok p => fs.filesBelow keep p (fs.size + 1) []

/-! ## Changes -/

/-- The place that a path would mean if all its names were directories. -/
def placeOf (path : String) : Place :=
  (Text.splitWhere (· == '/') path.toList).foldl (fun p segment =>
    if segment = [] ∨ segment = ['.'] then p
    else if segment = ['.', '.'] then p.dropLast
    else p ++ [String.ofList segment]) []

/-- Makes a directory with those above it. What is there already stays. -/
def makeDirectories (fs : FileSystem) (p : Place) (time : Nat) : FileSystem :=
  (List.range (p.length + 1)).foldl (fun fs k =>
    if (fs.entry? (p.take k)).isSome then fs
    else ⟨fs.entries.insert (p.take k) (.directory time)⟩) fs

/-- Writes a file, with the directories above it. A path that ends in a
slash means a directory. -/
def write (fs : FileSystem) (path : String) (text : Option (List Char)) (time : Nat) :
    FileSystem :=
  let p := placeOf path
  if path.toList.getLast? = some '/' then fs.makeDirectories p time
  else
    let fs := fs.makeDirectories p.dropLast time
    match fs.entry? p with
    | some (.directory _) => fs
    | _ => ⟨fs.entries.insert p (.file text time)⟩

/-- Sets the time of what is at a path. -/
def touch (fs : FileSystem) (path : String) (time : Nat) : FileSystem :=
  match fs.resolve path with
  | .error _ => fs
  | .ok p =>
    match fs.entry? p with
    | none => fs
    | some e => ⟨fs.entries.insert p (e.withModified time)⟩

/-- Removes what is at a path, with all that is below. -/
def remove (fs : FileSystem) (path : String) : FileSystem :=
  match fs.resolve path with
  | .error _ => fs
  | .ok p => ⟨fs.entries.filter fun q _ => !p.isPrefixOf q⟩

end FileSystem

end ScriptAnalysis
