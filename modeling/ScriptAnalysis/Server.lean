import ScriptAnalysis.Analysis.Analyzer
import ScriptAnalysis.CommandLine
import ScriptAnalysis.Config
import ScriptAnalysis.Json.Reader
import ScriptAnalysis.Server.LineBuffer
import ScriptAnalysis.Server.ResponseCache

/-!
# The server

A request is a line of JSON that names a file, and its answer is a line of
JSON. Answers are kept for a short time under the text that was asked for.
A request that cannot be read, and one for a file that is not there, are
answered too; all other errors end the service.

The file system is an argument of every step: it does not change while a
request is answered.
-/
namespace ScriptAnalysis

/-- A request for the analysis of a file. -/
structure Request where
  file : String
  deriving DecidableEq, Repr, Inhabited

namespace Request

open Json Reader

/-- The field of a request, which has to be there. -/
def fields : List (String × (Option String → Reader (Option String))) :=
  [("file", fun _ => do return some (← text))]

/-- Reads a request. -/
def parse (line : String) : Except ReadError Request := do
  match ← Reader.run (record fields none) line.toList with
  | some file => return ⟨file⟩
  | none => throw .malformed

end Request

/-- Why the service ends. -/
structure Fatal where
  file : String
  cause : AnalysisError
  deriving DecidableEq, Repr

def Fatal.message (e : Fatal) : String :=
  "failed to analyze " ++ e.file ++ ": " ++ e.cause.message

/-- The service: an analyzer, the answers that are kept, the line that is
being received, and the number of requests so far. -/
structure Server (φ : Type) where
  analyzer : Analyzer φ
  cache : ResponseCache
  lines : LineBuffer
  handled : Nat
  deriving Inhabited

namespace Server

variable {φ : Type}

def ofAnalyzer (analyzer : Analyzer φ) (ttl : Nat) : Server φ :=
  ⟨analyzer, .ofTtl ttl, .empty, 0⟩

/-- A step of the service; what was learned stays when it fails. -/
abbrev Step (φ : Type) := ExceptT Fatal (StateM (Server φ))

/-- The answer to a line that is no request. -/
def malformedRequest (e : Json.ReadError) : Response :=
  .failure ["[TSU]: invalid request: " ++ e.mark]

/-- The answer for a file that cannot be found. -/
def unreadableFile (e : UnknownTime) : Response :=
  .failure ["[TSU]: " ++ e.message]

/-- Looks for an answer that is kept. -/
def kept (now : Nat) (file : String) : Step φ (Option String) := do
  let s ← get
  let (found, cache) := s.cache.find now file
  set { s with cache := cache }
  return found

/-- Keeps an answer. -/
def keep (now : Nat) (file response : String) : Step φ Unit :=
  modify fun s => { s with cache := s.cache.insert now file response }

/-- Runs the analyzer. -/
def analyze (F : Frontend φ) (fs : FileSystem) (file : String) :
    Step φ (Except AnalysisError Response) := do
  let s ← get
  let (result, analyzer) := (Analyzer.analyze F fs file).run s.analyzer
  set { s with analyzer := analyzer }
  return result

/-- Answers a request. -/
def answer (F : Frontend φ) (fs : FileSystem) (now : Nat) (request : Request) : Step φ String := do
  match ← kept now request.file with
  | some response => return response
  | none =>
    match ← analyze F fs request.file with
    | .ok response =>
      keep now request.file response.render
      return response.render
    | .error (.unknownTime e) => return (unreadableFile e).render
    | .error cause => throw ⟨request.file, cause⟩

/-- Answers a line; a blank line has no answer. -/
def handleLine (F : Frontend φ) (fs : FileSystem) (now : Nat) (line : String) :
    Step φ (Option String) := do
  if line.toList.all Text.isWhite then return none
  modify fun s => { s with handled := s.handled + 1 }
  match Request.parse line with
  | .error e => return some (malformedRequest e).render
  | .ok request => return some (← answer F fs now request)

/-- What a step has written, and why the service ends if it does. -/
structure Written where
  lines : List String
  fatal : Option Fatal
  deriving DecidableEq, Repr, Inhabited

/-- The text that is written: a line for each answer. -/
def Written.text (w : Written) : String :=
  String.join (w.lines.map (· ++ "\n"))

/-- Answers lines in order, up to an error. -/
def handleAll (F : Frontend φ) (fs : FileSystem) (now : Nat) :
    List String → StateM (Server φ) Written
  | [] => return ⟨[], none⟩
  | line :: rest => do
    match ← (handleLine F fs now line).run with
    | .error e => return ⟨[], some e⟩
    | .ok response =>
      let w ← handleAll F fs now rest
      return { w with lines := response.toList ++ w.lines }

/-- Takes a piece of the input and answers the lines that it completes. -/
def feed (F : Frontend φ) (fs : FileSystem) (now : Nat) (piece : List UInt8) :
    StateM (Server φ) Written := do
  let s ← get
  let (lines, buffer) := s.lines.push piece
  set { s with lines := buffer }
  handleAll F fs now lines

/-- Answers the line that the input ends with, if it has no line feed. -/
def finish (F : Frontend φ) (fs : FileSystem) (now : Nat) : StateM (Server φ) Written := do
  let s ← get
  let (line, buffer) := s.lines.finish
  set { s with lines := buffer }
  handleAll F fs now line.toList

/-- Takes the pieces of an input to its end, up to an error. -/
def serve (F : Frontend φ) (fs : FileSystem) (now : Nat) :
    List (List UInt8) → StateM (Server φ) Written
  | [] => finish F fs now
  | piece :: rest => do
    let first ← feed F fs now piece
    match first.fatal with
    | some _ => return first
    | none =>
      let later ← serve F fs now rest
      return { later with lines := first.lines ++ later.lines }

/-- Starts the service for a project. -/
def start (fs : FileSystem) (current : String) (arguments : ServerArguments) :
    Except ConfigError (Server Program) := do
  let project ← ProjectConfig.load fs current arguments.projectDir
  let analyzer := Analyzer.ofProject (.ofDeclarations project.declarations)
    (.ofOptions project.options) arguments.rootType project.projectDir
  return .ofAnalyzer analyzer arguments.cacheTtl

end Server

end ScriptAnalysis
