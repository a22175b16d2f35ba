import ScriptAnalysis.Types.Table

/-!
# Members of primitives and arrays

What can be done with a string, a number, a boolean or an array without any
declaration: `s.length`, `xs.push(x)` and the like.
-/
namespace ScriptAnalysis

/-- A value with built-in members. -/
inductive Receiver where
  | array (element : TypeId)
  | string
  | number
  | boolean
  deriving DecidableEq, Repr

namespace Receiver

/-- The receiver that values of a type are. -/
def ofType? (t : TypeTable) (id : TypeId) : Option Receiver :=
  match t.element? id with
  | some element => some (.array element)
  | none =>
    let p := t.primitive id
    if p == .string then some .string
    else if p == .number then some .number
    else if p == .boolean then some .boolean
    else none

/-- The names of the members. -/
def members : Receiver → List String
  | array _ => ["length", "push", "pop", "indexOf", "includes", "join", "slice", "reverse",
      "forEach", "map", "filter"]
  | string => ["length", "charAt", "indexOf", "includes", "startsWith", "endsWith", "substring",
      "toUpperCase", "toLowerCase", "trim", "split", "replace"]
  | number => ["toString", "toFixed"]
  | boolean => ["valueOf"]

def required (name : String) (type : TypeId) : Parameter := ⟨name, type, false⟩

def optional (name : String) (type : TypeId) : Parameter := ⟨name, type, true⟩

open TypeTable

/-- The type `(value: T, index?: number) => R` of a function that is called
for each element. -/
def callback (element returnType : TypeId) : Alloc TypeId :=
  function ⟨[required "value" element, optional "index" .number], returnType⟩

def arraySignature (element : TypeId) : String → Alloc (Option Signature)
  | "push" => return some ⟨[required "item" element], .number⟩
  | "pop" => return some ⟨[], element⟩
  | "indexOf" => return some ⟨[required "searchElement" element], .number⟩
  | "includes" => return some ⟨[required "searchElement" element], .boolean⟩
  | "join" => return some ⟨[optional "separator" .string], .string⟩
  | "slice" => do
    return some ⟨[optional "start" .number, optional "end" .number], ← TypeTable.array element⟩
  | "reverse" => do return some ⟨[], ← TypeTable.array element⟩
  | "forEach" => do
    return some ⟨[required "callbackfn" (← callback element .void)], .void⟩
  | "map" => do
    let f ← callback element .any
    return some ⟨[required "callbackfn" f], ← TypeTable.array .any⟩
  | "filter" => do
    let f ← callback element .any
    return some ⟨[required "predicate" f], ← TypeTable.array element⟩
  | _ => return none

def stringSignature : String → Alloc (Option Signature)
  | "charAt" => return some ⟨[required "pos" .number], .string⟩
  | "indexOf" => return some ⟨[required "searchString" .string], .number⟩
  | "includes" => return some ⟨[required "searchString" .string], .boolean⟩
  | "startsWith" => return some ⟨[required "searchString" .string], .boolean⟩
  | "endsWith" => return some ⟨[required "searchString" .string], .boolean⟩
  | "substring" => return some ⟨[required "start" .number, optional "end" .number], .string⟩
  | "toUpperCase" => return some ⟨[], .string⟩
  | "toLowerCase" => return some ⟨[], .string⟩
  | "trim" => return some ⟨[], .string⟩
  | "split" => do
    return some ⟨[required "separator" .string], ← TypeTable.array .string⟩
  | "replace" =>
    return some ⟨[required "searchValue" .string, required "replaceValue" .string], .string⟩
  | _ => return none

def numberSignature : String → Option Signature
  | "toString" => some ⟨[optional "radix" .number], .string⟩
  | "toFixed" => some ⟨[optional "fractionDigits" .number], .string⟩
  | _ => none

def booleanSignature : String → Option Signature
  | "valueOf" => some ⟨[], .boolean⟩
  | _ => none

/-- The signature of a member that is a method. -/
def signature? (r : Receiver) (member : String) : Alloc (Option Signature) :=
  match r with
  | array element => arraySignature element member
  | string => stringSignature member
  | number => return numberSignature member
  | boolean => return booleanSignature member

/-- The type of a member. -/
def memberType (r : Receiver) (member : String) : Alloc TypeId := do
  if member == "length" then return .number
  match ← r.signature? member with
  | some s => function s
  | none => return .error

end Receiver

end ScriptAnalysis
