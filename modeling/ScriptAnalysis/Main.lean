import ScriptAnalysis.Server

/-!
# The command `script-server`

Reads requests from standard input, a line each, and writes their answers to
standard output. Before a line is answered the files of the project are read
into a `FileSystem`, on which the whole answer is computed.
-/
namespace ScriptAnalysis.Main

/-- Nanoseconds since the epoch; earlier times count as the epoch. -/
def nanoseconds (t : IO.FS.SystemTime) : Nat :=
  t.sec.toNat * 1000000000 + t.nsec.toNat

/-- Adds the file or directory at a path, and what is below a directory when
`deep` is set. What cannot be read is left out. -/
partial def addPath (deep : Bool) (fs : FileSystem) (path : String) : IO FileSystem := do
  try
    let place ← IO.FS.realPath path
    let info ← place.metadata
    let time := nanoseconds info.modified
    match info.type with
    | .dir =>
      let fs := fs.write (path ++ "/") none time
      let entries ← place.readDir
      entries.foldlM (fun fs entry => do
        let child := NativePath.join path entry.fileName
        if deep || !(← entry.path.isDir) then addPath deep fs child else return fs) fs
    | _ =>
      let bytes ← IO.FS.readBinFile path
      return fs.write path (Utf8.decode? bytes.toList) time
  catch _ => return fs

/-- The files that a project can see: all below the directory that holds its
configuration, and those that lie directly in a directory above it. -/
def readProject (current project : String) : IO FileSystem := do
  let directory := (NativePath.absolute? current project).getD current
  let above ← (NativePath.ancestors directory).foldlM (addPath false) FileSystem.empty
  let base := ((ProjectConfig.find? above directory).bind NativePath.parent?).getD directory
  addPath true (← addPath true above base) directory

/-- Answers the lines of the input to its end, or to an error. -/
partial def loop (files : IO FileSystem) (input output : IO.FS.Stream) (s : Server Program) :
    IO UInt32 := do
  let piece ← input.read 65536
  let fs ← files
  let now ← IO.monoMsNow
  let step := if piece.isEmpty then Server.finish Program.frontend fs now
    else Server.feed Program.frontend fs now piece.toList
  let (w, s) := step.run s
  output.putStr w.text
  output.flush
  match w.fatal with
  | some e =>
    IO.eprintln ("Error: " ++ e.message)
    return 1
  | none => if piece.isEmpty then return 0 else loop files input output s

def usage : String :=
  "Usage: script-server [--root-type <ROOT_TYPE>] [--cache-ttl-ms <CACHE_TTL_MS>] <PROJECT_DIR>"

/-- Starts the server for the words of a command line. -/
def run (words : List String) : IO UInt32 := do
  match CommandLine.parse words with
  | .error .helpWanted =>
    IO.println usage
    return 0
  | .error .versionWanted =>
    IO.println "script-server"
    return 0
  | .error _ =>
    IO.eprintln usage
    return 2
  | .ok arguments =>
    let current := (← IO.currentDir).toString
    let files := readProject current arguments.projectDir
    match Server.start (← files) current arguments with
    | .error e =>
      IO.eprintln ("Error: failed to initialize server for " ++ arguments.projectDir ++ ": "
        ++ e.message)
      return 1
    | .ok s => loop files (← IO.getStdin) (← IO.getStdout) s

end ScriptAnalysis.Main

def main (words : List String) : IO UInt32 :=
  ScriptAnalysis.Main.run words
