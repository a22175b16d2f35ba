import ScriptAnalysis.Text.Utf8

/-!
# Globs

A glob describes a set of paths. `?` stands for one byte and `*` for any
number of bytes, slashes excepted; `**` as a whole segment stands for any
number of segments. `[…]` stands for one byte of a class, which a slash can
belong to, and `{…}` with commas for one of several globs.

`Glob.parse` reads a glob and `Glob.accepts` says whether it describes a
path. Both are given by the parts of a glob: a part takes some bytes from
the front of a path, and `remainders` are all the ways to go on.
-/
namespace ScriptAnalysis

/-- A part of a glob. `anySegments` is a `**` in front, `segmentsBelow` one
at the end and `segmentsBetween` one between two slashes; each includes the
slashes next to it. -/
inductive GlobPart where
  | literal (c : Char)
  | anyByte
  | anyBytes
  | anySegments
  | segmentsBelow
  | segmentsBetween
  | oneOf (negated : Bool) (ranges : List (Char × Char))
  | alternatives (branches : List (List GlobPart))
  deriving Repr, Inhabited

/-- Why a text is no glob. -/
inductive GlobError where
  | unclosedClass
  | invalidRange (first last : Char)
  | unclosedAlternatives
  | unopenedAlternatives
  deriving DecidableEq, Repr

namespace Glob

/-! ## Reading -/

/-- A glob that is being read: the open groups of alternatives, innermost
first, each with its branches so far in reverse. The parts of a branch are
in reverse as well. The last group is the glob itself. -/
structure Reading where
  branch : List GlobPart
  finished : List (List GlobPart)
  outer : List (List GlobPart × List (List GlobPart))
  deriving Repr, Inhabited

def Reading.start : Reading := ⟨[], [], []⟩

def Reading.push (r : Reading) (p : GlobPart) : Reading :=
  { r with branch := p :: r.branch }

def Reading.inGroup (r : Reading) : Bool :=
  !r.outer.isEmpty

/-- Two stars that stand for no segments. -/
def Reading.twoStars (r : Reading) : Reading :=
  (r.push .anyBytes).push .anyBytes

/-- Opens a group of alternatives. -/
def Reading.openGroup (r : Reading) : Reading :=
  ⟨[], [], (r.branch, r.finished) :: r.outer⟩

/-- Closes a group of alternatives. -/
def Reading.closeGroup (r : Reading) : Except GlobError Reading :=
  match r.outer with
  | [] => throw .unopenedAlternatives
  | (branch, finished) :: outer =>
    let branches := (r.branch :: r.finished).reverse.map List.reverse
    return ⟨.alternatives branches :: branch, finished, outer⟩

/-- A comma starts the next branch of a group and is a literal elsewhere. -/
def Reading.comma (r : Reading) : Reading :=
  if r.inGroup then { r with branch := [], finished := r.branch :: r.finished }
  else r.push (.literal ',')

/-- Two stars, with the character before them and what follows. Says also
how many of the characters that follow are taken. -/
def Reading.stars (r : Reading) (before : Option Char) (rest : List Char) : Reading × Nat :=
  let next := rest.head?
  if r.branch.isEmpty then
    match next with
    | none => (r.push .anySegments, 0)
    | some '/' => (r.push .anySegments, 1)
    | some _ => (r.twoStars, 0)
  else if before ≠ some '/' && !(r.inGroup && (before = some ',' || before = some '\x7b')) then
    (r.twoStars, 0)
  else
    let replaceLast (p : GlobPart) : Reading :=
      match r.branch with
      | [] => r.push p
      | .anySegments :: _ => r
      | .segmentsBelow :: _ => r
      | _ :: earlier => { r with branch := p :: earlier }
    match next with
    | none => (replaceLast .segmentsBelow, 0)
    | some '/' => (replaceLast .segmentsBetween, 1)
    | some c =>
      if r.inGroup && (c = ',' || c = '\x7d') then (replaceLast .segmentsBelow, 0)
      else (r.twoStars, 0)

/-- A class that is being read. -/
structure ClassReading where
  ranges : List (Char × Char)
  first : Bool
  inRange : Bool
  deriving Repr, Inhabited

/-- One character of a class. A bracket in front and a dash in front or at
the end stand for themselves. The result has no class when the class goes
on. -/
def ClassReading.take (k : ClassReading) (c : Char) :
    Except GlobError (ClassReading × Option (List (Char × Char))) :=
  let single := (⟨(c, c) :: k.ranges, false, false⟩ : ClassReading)
  if c = ']' && !k.first then
    let ranges := if k.inRange then ('-', '-') :: k.ranges else k.ranges
    return (k, some ranges.reverse)
  else if c = '-' && !k.first && !k.inRange then
    return ({ k with inRange := true }, none)
  else if k.inRange then
    match k.ranges with
    | [] => return (single, none)
    | (a, _) :: earlier =>
      if c < a then throw (.invalidRange a c)
      else return (⟨(a, c) :: earlier, false, false⟩, none)
  else return (single, none)

/-- What the next character belongs to. -/
inductive Mode where
  /-- Outside classes; the number of characters still to be passed. -/
  | parts (skip : Nat)
  /-- The first character of a class. -/
  | classStart
  /-- A later character of a class. -/
  | classBody (negated : Bool) (k : ClassReading)
  deriving Repr, Inhabited

/-- Reads the characters in order; `before` is the one in front. -/
def readFrom : Mode → Option Char → Reading → List Char → Except GlobError Reading
  | .parts _, _, r, [] => return r
  | .classStart, _, _, [] => throw .unclosedClass
  | .classBody _ _, _, _, [] => throw .unclosedClass
  | .parts (n + 1), _, r, c :: rest => readFrom (.parts n) (some c) r rest
  | .parts 0, before, r, c :: rest =>
    if c = '?' then readFrom (.parts 0) (some c) (r.push .anyByte) rest
    else if c = '*' then
      if rest.head? = some '*' then
        let (r, taken) := r.stars before rest.tail
        readFrom (.parts (1 + taken)) (some c) r rest
      else readFrom (.parts 0) (some c) (r.push .anyBytes) rest
    else if c = '[' then readFrom .classStart (some c) r rest
    else if c = '\x7b' then readFrom (.parts 0) (some c) r.openGroup rest
    else if c = '\x7d' then do readFrom (.parts 0) (some c) (← r.closeGroup) rest
    else if c = ',' then readFrom (.parts 0) (some c) r.comma rest
    else readFrom (.parts 0) (some c) (r.push (.literal c)) rest
  | .classStart, _, r, c :: rest =>
    if c = '!' || c = '^' then readFrom (.classBody true ⟨[], true, false⟩) (some c) r rest
    else do
      let (k, _) ← ClassReading.take ⟨[], true, false⟩ c
      readFrom (.classBody false k) (some c) r rest
  | .classBody negated k, _, r, c :: rest => do
    match ← k.take c with
    | (_, some ranges) => readFrom (.parts 0) (some c) (r.push (.oneOf negated ranges)) rest
    | (k, none) => readFrom (.classBody negated k) (some c) r rest

/-! ## Paths that are described -/

/-- The slash, as a byte. -/
def slash : UInt8 := 47

/-- The ends of a list, the longest first. -/
def ends : List UInt8 → List (List UInt8)
  | [] => [[]]
  | b :: rest => (b :: rest) :: ends rest

/-- What is left after any number of bytes that are no slash. -/
def afterName : List UInt8 → List (List UInt8)
  | [] => [[]]
  | b :: rest => (b :: rest) :: (if b = slash then [] else afterName rest)

/-- What stands behind each slash. -/
def behindSlashes : List UInt8 → List (List UInt8)
  | [] => []
  | b :: rest => if b = slash then rest :: behindSlashes rest else behindSlashes rest

/-- The ranges of bytes that a range of characters stands for. A character
of several bytes stands for each of them, and the range lies between the
last byte of the first character and the first byte of the last. -/
def byteRanges (range : Char × Char) : List (UInt8 × UInt8) :=
  let first := Utf8.encode [range.1]
  let last := Utf8.encode [range.2]
  if range.1 = range.2 then first.map fun b => (b, b)
  else first.dropLast.map (fun b => (b, b))
    ++ [(first.getLast?.getD 0, last.head?.getD 0)] ++ last.tail.map fun b => (b, b)

/-- Whether a byte belongs to a class. -/
def inClass (negated : Bool) (ranges : List (Char × Char)) (b : UInt8) : Bool :=
  negated != (ranges.flatMap byteRanges).any fun (low, high) => low ≤ b && b ≤ high

mutual

/-- What is left of a path after a part of a glob, in every way. -/
def remaindersOf : GlobPart → List UInt8 → List (List UInt8)
  | .literal c, bytes => ((Utf8.encode [c]).isPrefixOf? bytes).toList
  | .anyByte, bytes =>
    match bytes with
    | b :: rest => if b = slash then [] else [rest]
    | [] => []
  | .anyBytes, bytes => afterName bytes
  | .anySegments, bytes => bytes :: behindSlashes bytes
  | .segmentsBelow, bytes =>
    match bytes with
    | b :: rest => if b = slash then ends rest else []
    | [] => []
  | .segmentsBetween, bytes =>
    match bytes with
    | b :: rest => if b = slash then rest :: behindSlashes rest else []
    | [] => []
  | .oneOf negated ranges, bytes =>
    match bytes with
    | b :: rest => if inClass negated ranges b then [rest] else []
    | [] => []
  | .alternatives branches, bytes =>
    if allEmpty branches then [bytes] else remaindersOfAny branches bytes

/-- What is left after all parts. -/
def remainders : List GlobPart → List UInt8 → List (List UInt8)
  | [], bytes => [bytes]
  | p :: ps, bytes => ((remaindersOf p bytes).flatMap (remainders ps)).eraseDups

/-- What is left after one of several globs; an empty one is not a choice. -/
def remaindersOfAny : List (List GlobPart) → List UInt8 → List (List UInt8)
  | [], _ => []
  | ps :: others, bytes =>
    (if isEmpty ps then [] else remainders ps bytes) ++ remaindersOfAny others bytes

/-- Whether parts describe nothing but the empty text, because they are
none or groups of empty globs. -/
def isEmpty : List GlobPart → Bool
  | [] => true
  | p :: ps => isEmptyPart p && isEmpty ps

def isEmptyPart : GlobPart → Bool
  | .alternatives branches => allEmpty branches
  | _ => false

def allEmpty : List (List GlobPart) → Bool
  | [] => true
  | ps :: others => isEmpty ps && allEmpty others

end

end Glob

/-- A description of paths. -/
structure Glob where
  parts : List GlobPart
  deriving Repr, Inhabited

namespace Glob

/-- Reads a glob. -/
def parse (pattern : String) : Except GlobError Glob := do
  let r ← readFrom (.parts 0) none .start pattern.toList
  if r.inGroup then throw .unclosedAlternatives else return ⟨r.branch.reverse⟩

/-- Whether a glob describes a path. A lone `**` describes all. -/
def accepts (g : Glob) (path : String) : Bool :=
  match g.parts with
  | [.anySegments] => true
  | parts => (remainders parts (Utf8.encode path.toList)).any List.isEmpty

end Glob

end ScriptAnalysis
