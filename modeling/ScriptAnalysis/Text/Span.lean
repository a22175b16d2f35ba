import ScriptAnalysis.Order
import ScriptAnalysis.Text

/-!
# Spans of a text

A span is a range of byte offsets, its end not included. `blank` overwrites
the spans of a text with blanks and keeps its line breaks, so that every
character stays on its line and in its column.
-/
namespace ScriptAnalysis

/-- The bytes from `start` up to `stop`; none when `stop` is not behind
`start`. -/
structure Span where
  start : Nat
  stop : Nat
  deriving DecidableEq, Repr, Inhabited

namespace Span

/-- By start, then by end. -/
def before (a b : Span) : Bool :=
  a.start < b.start || (a.start == b.start && a.stop ≤ b.stop)

/-- Joins the spans that touch the one before, which is `last`. -/
def mergeFrom (last : Span) : List Span → List Span
  | [] => [last]
  | s :: rest =>
    if s.start ≤ last.stop then mergeFrom ⟨last.start, max last.stop s.stop⟩ rest
    else last :: mergeFrom s rest

/-- Joins the spans of a sorted list that touch each other. -/
def merge : List Span → List Span
  | [] => []
  | s :: rest => mergeFrom s rest

/-- Blanks out the text that starts at a byte offset. Spans that end at or
before the offset are dropped, so that only the first one left can cover
it. -/
def blankFrom (offset : Nat) (spans : List Span) : List Char → List Char
  | [] => []
  | c :: cs =>
    let left := spans.dropWhile fun s => s.stop ≤ offset
    let covered := left.head?.any fun s => s.start ≤ offset
    let shown := if covered && c != '\n' && c != '\r' then ' ' else c
    shown :: blankFrom (offset + c.utf8Size) left cs

/-- The text with every character of the spans replaced by a blank, line
breaks excepted. The spans may overlap and stand in any order. -/
def blank (spans : List Span) (text : List Char) : List Char :=
  blankFrom 0 (merge (Order.sort before spans)) text

theorem length_blankFrom (offset : Nat) (spans : List Span) (text : List Char) :
    (blankFrom offset spans text).length = text.length := by
  induction text generalizing offset spans with
  | nil => rfl
  | cons c cs ih => simp [blankFrom, ih]

/-- No character is lost or added. -/
theorem length_blank (spans : List Span) (text : List Char) :
    (blank spans text).length = text.length :=
  length_blankFrom 0 _ text

end Span

end ScriptAnalysis
