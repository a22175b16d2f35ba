import ScriptAnalysis.Json
import ScriptAnalysis.Text.CharClass

/-!
# Reading JSON

`Reader` reads from the front of a text and hands on the rest. The readers
accept strict JSON: no comments, no trailing commas, nothing behind the
value.

* `value` reads any value.
* `skipValue` passes a value whose content does not matter; there an escape
  may name half a surrogate pair.
* `record` reads the fields of a record from an object, whose other members
  are passed, or from an array, whose elements are the fields in order.

A reader stops at the first thing that is wrong, so of two faults the one
that comes first in the text is reported.
-/
namespace ScriptAnalysis.Json

/-- Why a text was not accepted. -/
inductive ReadError where
  | malformed
  | invalidBoolean (text : String)
  deriving DecidableEq, Repr

/-- How an error is shown as the cause of something else. -/
def ReadError.mark : ReadError → String
  | malformed => "<json>"
  | invalidBoolean text =>
    "invalid boolean value: '" ++ text ++ "'. Expected true, false, 'true', or 'false'"

/-- Reads from the front of a text. -/
abbrev Reader := StateT (List Char) (Except ReadError)

namespace Reader

def fail : Reader α := throw .malformed

/-- White space between tokens. -/
def isSpace (c : Char) : Bool :=
  c == ' ' || c == '\n' || c == '\t' || c == '\r'

def spaces : Reader Unit :=
  modify (·.dropWhile isSpace)

/-- The next character, which stays. -/
def peek? : Reader (Option Char) := do
  return (← get).head?

/-- The next character that is no white space, which stays. -/
def peekToken? : Reader (Option Char) := do
  spaces
  peek?

/-- Passes the next character. -/
def next : Reader Char := do
  match ← get with
  | [] => fail
  | c :: cs =>
    set cs
    return c

/-- Passes the character `c`. -/
def char (c : Char) : Reader Unit := do
  unless (← next) == c do fail

/-- Passes the characters of a word. -/
def word : List Char → Reader Unit
  | [] => return ()
  | c :: cs => do
    char c
    word cs

/-! ## Numbers -/

def digits : Reader (List Char) := do
  let cs ← get
  set (cs.dropWhile Char.isDigit)
  return cs.takeWhile Char.isDigit

/-- At least one digit. -/
def someDigits : Reader (List Char) := do
  let ds ← digits
  if ds.isEmpty then fail else return ds

/-- Digits without a needless zero in front. -/
def integerDigits : Reader (List Char) := do
  let ds ← someDigits
  if ds.head? = some '0' ∧ 1 < ds.length then fail else return ds

def signPart : Reader (List Char) := do
  if (← peek?) = some '-' then
    let _ ← next
    return ['-']
  else return []

def fractionPart : Reader (List Char) := do
  if (← peek?) = some '.' then
    let _ ← next
    return '.' :: (← someDigits)
  else return []

def exponentPart : Reader (List Char) := do
  match ← peek? with
  | some 'e' | some 'E' =>
    let _ ← next
    let sign ← match ← peek? with
      | some '+' => do
        let _ ← next
        pure ['+']
      | some '-' => do
        let _ ← next
        pure ['-']
      | _ => pure []
    return 'e' :: sign ++ (← someDigits)
  | _ => return []

/-- A number, as it is spelled. -/
def number : Reader String := do
  let sign ← signPart
  let whole ← integerDigits
  let places ← fractionPart
  let exponent ← exponentPart
  return String.ofList (sign ++ whole ++ places ++ exponent)

/-! ## Strings -/

/-- Four hexadecimal digits. -/
def hexEscape : Reader Nat := do
  let a ← next
  let b ← next
  let c ← next
  let d ← next
  if [a, b, c, d].all Text.isHexDigit then return Text.hexNumber [a, b, c, d]
  else fail

def isHighSurrogate (n : Nat) : Bool := 0xD800 ≤ n && n ≤ 0xDBFF

def isLowSurrogate (n : Nat) : Bool := 0xDC00 ≤ n && n ≤ 0xDFFF

/-- The character behind `\u`. A pair of surrogates makes one character; a
half of a pair is refused. -/
def unicodeEscape : Reader Char := do
  let n ← hexEscape
  if isLowSurrogate n then fail
  else if isHighSurrogate n then
    char '\\'
    char 'u'
    let m ← hexEscape
    if isLowSurrogate m then return Char.ofNat (0x10000 + (n - 0xD800) * 0x400 + (m - 0xDC00))
    else fail
  else return Char.ofNat n

/-- What follows a backslash. -/
def escape (lenient : Bool) : Reader Char := do
  match ← next with
  | '"' => return '"'
  | '\\' => return '\\'
  | '/' => return '/'
  | 'b' => return '\x08'
  | 'f' => return '\x0c'
  | 'n' => return '\n'
  | 'r' => return '\r'
  | 't' => return '\t'
  | 'u' =>
    if lenient then
      let n ← hexEscape
      return Char.ofNat n
    else unicodeEscape
  | _ => fail

/-- The characters up to the closing quote; `fuel` bounds their number. -/
def stringBody (lenient : Bool) : Nat → Reader (List Char)
  | 0 => fail
  | fuel + 1 => do
    let c ← next
    if c = '"' then return []
    else if c = '\\' then
      let e ← escape lenient
      return e :: (← stringBody lenient fuel)
    else if c.toNat < 0x20 then fail
    else return c :: (← stringBody lenient fuel)

/-- A string in quotes. -/
def string (lenient : Bool) : Reader String := do
  char '"'
  return String.ofList (← stringBody lenient ((← get).length + 1))

/-! ## Values -/

/-- Elements with commas between them, up to the character `close`; the
opening character has been passed. The first argument bounds their number. -/
def separated (close : Char) (item : β → Reader β) : Nat → Bool → β → Reader β
  | 0, _, _ => fail
  | fuel + 1, first, b => do
    match ← peekToken? with
    | none => fail
    | some c =>
      if c = close then
        if first then do
          let _ ← next
          return b
        else fail
      else do
        let b ← item b
        match ← peekToken? with
        | some ',' => do
          let _ ← next
          spaces
          if (← peek?) = some close then fail
          separated close item fuel false b
        | some d =>
          if d = close then do
            let _ ← next
            return b
          else fail
        | none => fail

/-- A value of any sort, nested less than `depth` deep. -/
def valueWithin (lenient : Bool) : Nat → Reader Json
  | 0 => fail
  | depth + 1 => do
    match ← peekToken? with
    | none => fail
    | some '"' => return .string (← string lenient)
    | some 't' =>
      word "true".toList
      return .bool true
    | some 'f' =>
      word "false".toList
      return .bool false
    | some 'n' =>
      word "null".toList
      return .null
    | some '[' =>
      let _ ← next
      let elements ← separated ']'
        (fun es => do return es.push (← valueWithin lenient depth))
        ((← get).length + 1) true #[]
      return .array elements.toList
    | some '\x7b' =>
      let _ ← next
      let members ← separated '\x7d'
        (fun ms => do
          let key ← string lenient
          spaces
          char ':'
          return ms.push (key, ← valueWithin lenient depth))
        ((← get).length + 1) true #[]
      return .object members.toList
    | some _ => return .number (← number)

/-- A value of any sort. -/
def value : Reader Json := do
  valueWithin false ((← get).length + 1)

/-- Passes a value whose content does not matter. -/
def skipValue : Reader Unit := do
  let _ ← valueWithin true ((← get).length + 1)

/-- What `r` reads, or nothing for `null`. -/
def optional (r : Reader α) : Reader (Option α) := do
  if (← peekToken?) = some 'n' then
    word "null".toList
    return none
  else return some (← r)

/-- A string behind white space. -/
def text : Reader String := do
  spaces
  string false

/-- An array of strings. -/
def texts : Reader (List String) := do
  spaces
  char '['
  let elements ← separated ']' (fun es => do return es.push (← text)) ((← get).length + 1) true #[]
  return elements.toList

/-! ## Records -/

/-- A record that is being read: its value so far and the names of the
fields that were met. -/
structure Partial (σ : Type) where
  value : σ
  met : List String

/-- One member of an object that holds the fields of a record: a known field
is read once, anything else is passed. -/
def member (fields : List (String × (σ → Reader σ))) (p : Partial σ) : Reader (Partial σ) := do
  let key ← string false
  match fields.lookup key with
  | some read =>
    if p.met.contains key then fail
    else
      spaces
      char ':'
      return ⟨← read p.value, key :: p.met⟩
  | none =>
    spaces
    char ':'
    skipValue
    return p

/-- One element of an array that holds the fields of a record in order. -/
def element (fields : List (String × (σ → Reader σ))) (p : Partial σ) : Reader (Partial σ) := do
  match fields[p.met.length]? with
  | some (key, read) => return ⟨← read p.value, key :: p.met⟩
  | none => fail

/-- A record with the given fields, from an object or an array. -/
def record (fields : List (String × (σ → Reader σ))) (start : σ) : Reader σ := do
  match ← peekToken? with
  | some '\x7b' =>
    let _ ← next
    let p ← separated '\x7d' (member fields) ((← get).length + 1) true ⟨start, []⟩
    return p.value
  | some '[' =>
    let _ ← next
    let p ← separated ']' (element fields) ((← get).length + 1) true ⟨start, []⟩
    return p.value
  | _ => fail

/-! ## Whole texts -/

/-- Runs a reader on a text that holds nothing else. -/
def run (r : Reader α) (cs : List Char) : Except ReadError α := do
  let (a, rest) ← StateT.run r cs
  if (rest.dropWhile isSpace).isEmpty then return a else throw .malformed

end Reader

/-- Reads a text that is one JSON value. -/
def parse (cs : List Char) : Except ReadError Json :=
  Reader.run Reader.value cs

end ScriptAnalysis.Json
