import ScriptAnalysis.Text.Utf8

/-!
# Lines from pieces

Messages are lines, and bytes arrive in pieces of any size. A `LineBuffer`
keeps the bytes after the last line feed until a later piece completes the
line.
-/
namespace ScriptAnalysis

/-- The bytes of a line that is not complete. -/
structure LineBuffer where
  pending : List UInt8
  deriving DecidableEq, Repr, Inhabited

namespace LineBuffer

def empty : LineBuffer := ⟨[]⟩

def lineFeed : UInt8 := 10

def carriageReturn : UInt8 := 13

/-- The lines that end in the bytes, without their line feeds, and what
follows the last line feed. -/
def split : List UInt8 → List (List UInt8) × List UInt8
  | [] => ([], [])
  | b :: rest =>
    let (lines, tail) := split rest
    if b = lineFeed then ([] :: lines, tail)
    else match lines with
      | [] => ([], b :: tail)
      | line :: later => ((b :: line) :: later, tail)

/-- Where bytes are cut does not matter: what a first piece leaves is put in
front of the second. -/
theorem split_append (a b : List UInt8) :
    split (a ++ b) = ((split a).1 ++ (split ((split a).2 ++ b)).1, (split ((split a).2 ++ b)).2) := by
  induction a with
  | nil => simp [split]
  | cons c rest ih =>
    by_cases hc : c = lineFeed
    · simp [split, ih, hc]
    · rcases hr : (split rest).1 with _ | ⟨line, later⟩
      · simp [split, ih, hc, hr]
      · simp [split, ih, hc, hr]

/-- The text of a line; one carriage return at its end belongs to the line
break. -/
def lineText (bytes : List UInt8) : String :=
  String.ofList <| Utf8.decodeLossy <|
    if bytes.getLast? = some carriageReturn then bytes.dropLast else bytes

/-- Takes a piece and gives the lines that it completes. What is pending is
the front of the first of them, or stays in front of the rest. -/
def push (b : LineBuffer) (piece : List UInt8) : List String × LineBuffer :=
  match split piece with
  | ([], tail) => ([], ⟨b.pending ++ tail⟩)
  | (line :: later, tail) => (lineText (b.pending ++ line) :: later.map lineText, ⟨tail⟩)

/-- The line that was begun and never ended, if there is one. -/
def finish (b : LineBuffer) : Option String × LineBuffer :=
  (if b.pending.isEmpty then none else some (lineText b.pending), empty)

def hasPending (b : LineBuffer) : Bool :=
  !b.pending.isEmpty

end LineBuffer

end ScriptAnalysis
