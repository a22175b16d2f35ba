import ScriptAnalysis.Text

/-!
# Lines and columns of a text

`LineMap.ofText` records where each line of a text starts; lines end at a
line feed, at a carriage return followed by a line feed (one break), or at
a lone carriage return. `LineMap.position` turns a byte offset into a
0-based line and a 0-based column counted in UTF-16 units.
-/
namespace ScriptAnalysis

/-- A 0-based line and column; the column counts UTF-16 units. -/
structure Position where
  line : Nat
  character : Nat
  deriving DecidableEq, Repr, Inhabited

/-- The byte offsets at which the lines of a text start, in order. -/
structure LineMap where
  starts : List Nat
  deriving DecidableEq, Repr, Inhabited

namespace LineMap

/-- The offsets right after the line breaks of a text that begins at byte
offset `n`. -/
def breaks : Nat → List Char → List Nat
  | _, [] => []
  | n, '\n' :: cs => (n + 1) :: breaks (n + 1) cs
  | n, '\r' :: cs =>
    if cs.head? = some '\n' then breaks (n + 1) cs else (n + 1) :: breaks (n + 1) cs
  | n, c :: cs => breaks (n + c.utf8Size) cs

def ofText (cs : List Char) : LineMap :=
  ⟨0 :: breaks 0 cs⟩

def lineCount (m : LineMap) : Nat :=
  m.starts.length

/-- Line of a byte offset: the last line that starts at or before it. -/
def lineOf (m : LineMap) (offset : Nat) : Nat :=
  m.starts.countP (· ≤ offset) - 1

/-- Position of a byte offset in the text that the map was built from. An
offset past the end counts as the end; an offset inside a character has
column 0. -/
def position (m : LineMap) (cs : List Char) (offset : Nat) : Position :=
  let line := m.lineOf offset
  let stop := min offset (Text.size cs)
  let start := min (m.starts.getD line 0) stop
  ⟨line, Text.units16 (Text.slice cs start stop)⟩

end LineMap

end ScriptAnalysis
