import ScriptAnalysis.Path
import ScriptAnalysis.Text.LineMap

/-!
# Diagnostics

A diagnostic is plain data: where something is wrong, what, and how it is
numbered. `Message` is a text with nested elaborations; `Diagnostic.format`
writes the one line that a response carries.

Message templates hold numbered places such as `{0}`; `fillTemplate` puts
the arguments in, one argument after the other.
-/
namespace ScriptAnalysis

/-! ## Messages -/

/-- A text and the elaborations that explain it. -/
inductive Message where
  | mk (text : String) (details : List Message)
  deriving Repr, Inhabited

namespace Message

mutual

/-- Messages are compared with all their elaborations. -/
def decEq : (a b : Message) → Decidable (a = b)
  | mk t ds, mk u es =>
    match String.decEq t u, decEqAll ds es with
    | isTrue ht, isTrue hd => isTrue (by rw [ht, hd])
    | isFalse ht, _ => isFalse fun h => ht (by cases h; rfl)
    | _, isFalse hd => isFalse fun h => hd (by cases h; rfl)

def decEqAll : (as bs : List Message) → Decidable (as = bs)
  | [], [] => isTrue rfl
  | [], _ :: _ => isFalse fun h => by cases h
  | _ :: _, [] => isFalse fun h => by cases h
  | a :: as, b :: bs =>
    match decEq a b, decEqAll as bs with
    | isTrue h, isTrue hs => isTrue (by rw [h, hs])
    | isFalse h, _ => isFalse fun e => h (by cases e; rfl)
    | _, isFalse hs => isFalse fun e => hs (by cases e; rfl)

end

instance : DecidableEq Message := decEq

def text : Message → String
  | mk t _ => t

def details : Message → List Message
  | mk _ ds => ds

/-- A message without elaborations. -/
def plain (t : String) : Message := mk t []

/-- Adds an elaboration behind the others. -/
def elaborate (m detail : Message) : Message :=
  mk m.text (m.details ++ [detail])

/-- `n` levels of indentation, two blanks each. -/
def indentation : Nat → String
  | 0 => ""
  | n + 1 => indentation n ++ "  "

mutual

/-- The message at nesting level `level`: each elaboration starts a line of
its own, indented by its level. -/
def flattenAt (newline : String) (level : Nat) : Message → String
  | mk t ds =>
    (if level = 0 then "" else newline ++ indentation level) ++ t
      ++ flattenAll newline (level + 1) ds

/-- Several messages at one nesting level. -/
def flattenAll (newline : String) (level : Nat) : List Message → String
  | [] => ""
  | d :: ds => flattenAt newline level d ++ flattenAll newline level ds

end

/-- The message and its elaborations as one text. -/
def flatten (m : Message) (newline : String) : String :=
  flattenAt newline 0 m

end Message

/-! ## Templates -/

/-- Puts the arguments, the first of which has number `n`, into their
places. Each argument is put in before the next is looked at. -/
def fillFrom : Nat → List String → List Char → List Char
  | _, [], template => template
  | n, a :: rest, template =>
    fillFrom (n + 1) rest
      (Text.replace ('\x7b' :: (toString n).toList ++ ['\x7d']) a.toList template)

/-- The template with its numbered places filled. -/
def fillTemplate (template : String) (arguments : List String) : String :=
  String.ofList (fillFrom 0 arguments template.toList)

/-! ## Diagnostics -/

inductive Severity where
  | warning
  | error
  | suggestion
  | message
  deriving DecidableEq, Repr, Inhabited

def Severity.text : Severity → String
  | .warning => "warning"
  | .error => "error"
  | .suggestion => "suggestion"
  | .message => "message"

/-- Something to report. Without a file the diagnostic is about the whole
program. `start` and `length` count bytes. -/
structure Diagnostic where
  file : Option String
  start : Nat
  length : Nat
  message : Message
  severity : Severity
  code : Nat
  deriving DecidableEq, Repr, Inhabited

namespace Diagnostic

/-- The position that is shown, 1-based: that of the start, or the first of
the file when its text is not known. -/
def shownPosition (d : Diagnostic) (source : Option (List Char)) : Nat × Nat :=
  match source with
  | none => (1, 1)
  | some cs =>
    let p := (LineMap.ofText cs).position cs d.start
    (p.line + 1, p.character + 1)

/-- The line that a response carries for a diagnostic. `source` is the text
of the diagnostic's file. -/
def format (d : Diagnostic) (source : Option (List Char)) : String :=
  let message := d.message.flatten "\n"
  match d.file with
  | none => "[TS]: " ++ message
  | some file =>
    let shown := d.shownPosition source
    "[TS]: " ++ Path.baseName file ++ "(" ++ toString shown.1 ++ "," ++ toString shown.2 ++ "): "
      ++ d.severity.text ++ " TS" ++ toString d.code ++ ": " ++ message

end Diagnostic

end ScriptAnalysis
