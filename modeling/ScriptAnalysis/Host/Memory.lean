import ScriptAnalysis.Host
import ScriptAnalysis.Table

/-!
# Files held in memory

`MemoryFiles` is a set of files under their paths, with the paths that a
program starts from. A path stands for itself: no two spellings are taken
for one another. It counts how often a text is read, which shows what a
program reads again.
-/
namespace ScriptAnalysis

/-- A text and its version. -/
structure MemoryFile where
  version : String
  text : List Char
  deriving DecidableEq, Repr, Inhabited

/-- Files under their paths. -/
structure MemoryFiles where
  files : Table String MemoryFile
  /-- How often each path has been written. -/
  writes : Table String Nat
  roots : List String
  /-- How often a text has been read. -/
  reads : Nat
  deriving Inhabited

namespace MemoryFiles

def empty : MemoryFiles := ⟨.empty, .empty, [], 0⟩

/-- Writes a file. Without a version of its own it takes the number of
earlier writes to its path. -/
def write (m : MemoryFiles) (path : String) (version : Option String) (text : List Char) :
    String × MemoryFiles :=
  let earlier := (m.writes.get? path).getD 0
  let version := version.getD (toString earlier)
  (version, { m with
    files := m.files.insert path ⟨version, text⟩
    writes := m.writes.insert path (earlier + 1) })

/-- Removes a file; says whether it was there. -/
def remove (m : MemoryFiles) (path : String) : Bool × MemoryFiles :=
  (m.files.contains path, { m with files := m.files.erase path })

def addRoot (m : MemoryFiles) (path : String) : MemoryFiles :=
  { m with roots := m.roots ++ [path] }

def dropRoot (m : MemoryFiles) (path : String) : MemoryFiles :=
  { m with roots := m.roots.filter (· != path) }

/-- The files in memory as the host of a program. -/
def host : Host MemoryFiles where
  roots m := m.roots
  version path := do return ((← get).files.get? path).map MemoryFile.version
  snapshot path := do
    let m ← get
    match m.files.get? path with
    | none => return none
    | some file =>
      set { m with reads := m.reads + 1 }
      return some file.text
  isThere m path := m.files.contains path
  fileBound m := m.files.size

end MemoryFiles

end ScriptAnalysis
