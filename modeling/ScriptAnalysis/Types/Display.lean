import ScriptAnalysis.Types.Table

/-!
# How types are shown

The text of a type in messages and responses. Primitives have the names
`Number`, `String` and `Boolean`; declared types have the names they were
declared with; what is nested too deeply is left out.
-/
namespace ScriptAnalysis

def Intrinsic.text : Intrinsic → String
  | any => "any"
  | error => "any"
  | unknown => "unknown"
  | never => "never"
  | void => "void"
  | undefined => "undefined"
  | null => "null"
  | number => "Number"
  | string => "String"
  | boolean => "Boolean"

def LiteralValue.text : LiteralValue → String
  | number text => text
  | string text => "\"" ++ text ++ "\""
  | boolean true => "true"
  | boolean false => "false"

namespace TypeTable

/-- How many levels of types inside types are shown. -/
def displayDepth : Nat := 9

/-- Whether a type has to stand in parentheses before `[]`. -/
def needsParens (t : TypeTable) (id : TypeId) : Bool :=
  match t.dataOf id with
  | .union _ => true
  | .object shape => shape.name.isNone && !shape.calls.isEmpty
  | _ => false

def optionalMark (optional : Bool) : String :=
  if optional then "?" else ""

/-- A signature; `inner` shows the types in it. -/
def displaySignature (inner : TypeId → String) (arrow : String) (s : Signature) : String :=
  "(" ++ String.intercalate ", " (s.parameters.map fun p =>
    p.name ++ optionalMark p.optional ++ ": " ++ inner p.type) ++ ")" ++ arrow
    ++ inner s.returnType

/-- An object without a name: a function by its signature, any other by its
members. -/
def displayMembers (inner : TypeId → String) (shape : Shape) : String :=
  match shape.properties, shape.calls, shape.constructs with
  | [], [signature], [] => displaySignature inner " => " signature
  | [], [], _ => "\x7b\x7d"
  | properties, calls, _ =>
    "\x7b " ++ String.join (calls.map fun s => displaySignature inner ": " s ++ "; ")
      ++ String.join (properties.map fun p =>
        p.name ++ optionalMark p.optional ++ ": " ++ inner p.type ++ "; ") ++ "\x7d"

def displayShape (inner : TypeId → String) (shape : Shape) : String :=
  match shape.name with
  | some name => if shape.kind = .constructor then "typeof " ++ name else name
  | none => displayMembers inner shape

/-- The text of a type with `depth` levels. -/
def displayWithin (t : TypeTable) : Nat → TypeId → String
  | 0, _ => "..."
  | depth + 1, id =>
    match t.dataOf id with
    | .intrinsic kind => kind.text
    | .literal value => value.text
    | .array element =>
      let text := displayWithin t depth element
      (if t.needsParens element then "(" ++ text ++ ")" else text) ++ "[]"
    | .union members => String.intercalate " | " (members.map (displayWithin t depth))
    | .object shape => displayShape (displayWithin t depth) shape

/-- The text of a type. -/
def display (t : TypeTable) (id : TypeId) : String :=
  t.displayWithin displayDepth id

end TypeTable

end ScriptAnalysis
