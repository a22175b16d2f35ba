/-!
# UTF-8

`decode` reads bytes as characters. Bytes that are no character are read as
gaps: a gap is the longest piece that some character starts with, or a byte
that no character starts with. `decode?` refuses gaps and `decodeLossy`
writes U+FFFD for each. `encode` writes bytes.
-/
namespace ScriptAnalysis.Utf8

/-- A character of which some bytes are still to come: the bits read so far,
the number of bytes to come and the range of the next one. -/
structure Partial where
  bits : Nat
  toCome : Nat
  low : UInt8
  high : UInt8
  deriving DecidableEq, Repr

/-- What a byte starts: a whole character, the first part of one, or
nothing. The ranges of the second byte keep out spellings that are longer
than needed, surrogates, and what lies past the last plane. -/
inductive Start where
  | whole (c : Char)
  | part (p : Partial)
  | nothing
  deriving DecidableEq, Repr

def start (b : UInt8) : Start :=
  if b < 0x80 then .whole (Char.ofNat b.toNat)
  else if b < 0xC2 then .nothing
  else if b < 0xE0 then .part ⟨b.toNat - 0xC0, 1, 0x80, 0xBF⟩
  else if b < 0xF0 then
    .part ⟨b.toNat - 0xE0, 2, if b = 0xE0 then 0xA0 else 0x80, if b = 0xED then 0x9F else 0xBF⟩
  else if b < 0xF5 then
    .part ⟨b.toNat - 0xF0, 3, if b = 0xF0 then 0x90 else 0x80, if b = 0xF4 then 0x8F else 0xBF⟩
  else .nothing

/-- Adds a byte to a part of a character, when the byte can follow. -/
def extend (p : Partial) (b : UInt8) : Option Start :=
  if p.low ≤ b && b ≤ p.high then
    let bits := 64 * p.bits + (b.toNat - 0x80)
    if p.toCome ≤ 1 then some (.whole (Char.ofNat bits))
    else some (.part ⟨bits, p.toCome - 1, 0x80, 0xBF⟩)
  else none

/-- Reads bytes after the part of a character, if there is one. A gap is
`none`. -/
def decodeAfter : Option Partial → List UInt8 → List (Option Char)
  | none, [] => []
  | some _, [] => [none]
  | p, b :: rest =>
    match p.bind (extend · b) with
    | some (.whole c) => some c :: decodeAfter none rest
    | some (.part q) => decodeAfter (some q) rest
    | some .nothing => none :: decodeAfter none rest
    | none =>
      let gap := if p.isSome then [none] else []
      match start b with
      | .whole c => gap ++ some c :: decodeAfter none rest
      | .part q => gap ++ decodeAfter (some q) rest
      | .nothing => gap ++ none :: decodeAfter none rest

/-- The characters of the bytes, with `none` for each gap. -/
def decode (bytes : List UInt8) : List (Option Char) :=
  decodeAfter none bytes

/-- The text that the bytes spell, when they spell one. -/
def decode? (bytes : List UInt8) : Option (List Char) :=
  (decode bytes).mapM id

/-- The text that the bytes spell, with U+FFFD for each gap. -/
def decodeLossy (bytes : List UInt8) : List Char :=
  (decode bytes).map (·.getD '\uFFFD')

/-- The bytes that spell a text. -/
def encode (cs : List Char) : List UInt8 :=
  cs.flatMap String.utf8EncodeChar

end ScriptAnalysis.Utf8
