/-!
# JSON values and their text

A JSON value keeps its numbers as they are spelled and its members in
order. `render` writes a value on one line without blanks; only quotes,
backslashes and control characters are escaped.
-/
namespace ScriptAnalysis

inductive Json where
  | null
  | bool (value : Bool)
  | number (numeral : String)
  | string (value : String)
  | array (elements : List Json)
  | object (members : List (String × Json))
  deriving Repr, Inhabited, BEq

namespace Json

def ofNat (n : Nat) : Json := .number (toString n)

/-- `null` for a value that is not there. -/
def ofOption (f : α → Json) : Option α → Json
  | none => .null
  | some a => f a

def strings (ss : List String) : Json := .array (ss.map .string)

/-! ## Writing -/

/-- A hexadecimal digit in lower case. -/
def hexDigit (n : Nat) : Char :=
  if n < 10 then Char.ofNat (48 + n) else Char.ofNat (87 + n)

/-- How a character stands inside quotes. -/
def escapeChar (c : Char) : List Char :=
  match c with
  | '"' => ['\\', '"']
  | '\\' => ['\\', '\\']
  | '\n' => ['\\', 'n']
  | '\r' => ['\\', 'r']
  | '\t' => ['\\', 't']
  | '\x08' => ['\\', 'b']
  | '\x0c' => ['\\', 'f']
  | c =>
    if c.toNat < 0x20 then
      ['\\', 'u', '0', '0', hexDigit (c.toNat / 16), hexDigit (c.toNat % 16)]
    else [c]

def quote (s : String) : String :=
  "\"" ++ String.ofList (s.toList.flatMap escapeChar) ++ "\""

mutual

/-- The text of a value. -/
def render : Json → String
  | null => "null"
  | bool true => "true"
  | bool false => "false"
  | number numeral => numeral
  | string value => quote value
  | array elements => "[" ++ renderElements elements ++ "]"
  | object members => "\x7b" ++ renderMembers members ++ "\x7d"

/-- Elements with commas between them. -/
def renderElements : List Json → String
  | [] => ""
  | [v] => render v
  | v :: vs => render v ++ "," ++ renderElements vs

/-- Members with commas between them. -/
def renderMembers : List (String × Json) → String
  | [] => ""
  | [(k, v)] => quote k ++ ":" ++ render v
  | (k, v) :: ms => quote k ++ ":" ++ render v ++ "," ++ renderMembers ms

end

end Json

end ScriptAnalysis
