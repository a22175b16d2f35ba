import ScriptAnalysis.FileSystem
import ScriptAnalysis.Host
import ScriptAnalysis.Path
import ScriptAnalysis.Table

/-!
# Versions of files

The registry gives every file a version that grows when the file may have
changed: when its analysis is asked for again, and when its time of change
is later than the one on record. Files of installed packages are read once
and kept.

`Registry.host` makes a registry over a file system the host of a program.
-/
namespace ScriptAnalysis

/-- A version and the time of change it was given for. -/
structure ScriptVersion where
  version : Nat
  modified : Nat
  deriving DecidableEq, Repr, Inhabited

/-- It cannot be told when a file was changed. -/
structure UnknownTime where
  path : String
  deriving DecidableEq, Repr, Inhabited

def UnknownTime.message (e : UnknownTime) : String :=
  "failed to get last modified time for: '" ++ e.path ++ "'"

/-- The files that are known, with their versions. -/
structure Registry where
  /-- The declaration files that belong to every program. -/
  declarations : List String
  /-- The files that were asked for, in the order of the first request. -/
  tracked : List String
  versions : Table String ScriptVersion
  /-- The texts of files of installed packages. -/
  libraries : Table String (List Char)
  deriving DecidableEq, Repr, Inhabited

namespace Registry

def ofDeclarations (paths : List String) : Registry :=
  ⟨paths.map Path.normalize, [], .empty, .empty⟩

/-- When a file was changed last. -/
def modified (fs : FileSystem) (path : String) : Except UnknownTime Nat :=
  (fs.modified path).mapError fun _ => ⟨path⟩

/-- Takes a file up, or gives it a new version when it is known. -/
def ensureTracked (r : Registry) (path : String) (time : Nat) : Nat × Registry :=
  let path := Path.normalize path
  let v : ScriptVersion := match r.versions.get? path with
    | some v => { v with version := v.version + 1 }
    | none => ⟨0, time⟩
  (v.version, { r with
    versions := r.versions.insert path v
    tracked := if r.tracked.contains path then r.tracked else r.tracked ++ [path] })

/-- Records the time that an analysis was made for. -/
def markAnalyzed (r : Registry) (path : String) (time : Nat) : Registry :=
  let path := Path.normalize path
  match r.versions.get? path with
  | some v => { r with versions := r.versions.insert path { v with modified := time } }
  | none => r

def versionOf? (r : Registry) (path : String) : Option ScriptVersion :=
  r.versions.get? (Path.normalize path)

def isTracked (r : Registry) (path : String) : Bool :=
  r.tracked.contains (Path.normalize path)

/-- The files that a program starts from. -/
def roots (r : Registry) : List String :=
  r.declarations ++ r.tracked

/-- The version on record, brought up to date with the file. A file that is
not there has none, and what is on record stays. -/
def refresh (fs : FileSystem) (path : String) : StateM Registry (Option Nat) := do
  match fs.modified path with
  | .error _ => return none
  | .ok time =>
    let r ← get
    let v : ScriptVersion := match r.versions.get? path with
      | some v => if v.modified < time then ⟨v.version + 1, time⟩ else v
      | none => ⟨0, time⟩
    set { r with versions := r.versions.insert path v }
    return some v.version

/-- The version of a file, as text. -/
def scriptVersion (fs : FileSystem) (path : String) : StateM Registry (Option String) := do
  let r ← get
  if r.libraries.contains path then
    return some (toString (((r.versions.get? path).map ScriptVersion.version).getD 0))
  else return (← refresh fs path).map toString

/-- The text of a file. -/
def snapshot (fs : FileSystem) (path : String) : StateM Registry (Option (List Char)) := do
  let r ← get
  match r.libraries.get? path with
  | some text => return some text
  | none =>
    match fs.read path with
    | .error _ => return none
    | .ok text =>
      if Path.isLibrary path then set { r with libraries := r.libraries.insert path text }
      return some text

/-- Whether a file is there, or was when it was kept. -/
def isThere (fs : FileSystem) (r : Registry) (path : String) : Bool :=
  r.libraries.contains path || fs.isFile path

/-- A registry over a file system as the host of a program. -/
def host (fs : FileSystem) : Host Registry where
  roots := roots
  version := scriptVersion fs
  snapshot := snapshot fs
  isThere := isThere fs
  -- what is kept of a file that is still there counts with the file
  fileBound r := (r.libraries.keys.filter (!fs.isFile ·)).length + fs.size

end Registry

end ScriptAnalysis
