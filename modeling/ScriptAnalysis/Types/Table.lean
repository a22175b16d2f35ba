import ScriptAnalysis.Numeral
import ScriptAnalysis.Types.Basic

/-!
# The table of types

`TypeTable` gives every type its index. `intern` gives one structure one
index, which it looks up in `known`; `allocate` gives each object an index of
its own, and `setShape` fills in an object whose members had to refer to it.

`union` is where the laws of unions are kept: no nesting, no repetition, no
`never`, no literal beside its primitive, and both booleans are `boolean`.
-/
namespace ScriptAnalysis

/-- The types by index, and the indices of those that are no objects by
structure. -/
structure TypeTable where
  types : Array TypeData
  known : Table TypeData TypeId
  deriving Repr, Inhabited

namespace TypeTable

def empty : TypeTable := ⟨#[], .empty⟩

def size (t : TypeTable) : Nat := t.types.size

/-- The structure of a type; an index that is not in the table is an error
type. -/
def dataOf (t : TypeTable) (id : TypeId) : TypeData :=
  t.types.getD id (.intrinsic .error)

/-! ## Looking at a type -/

def shape? (t : TypeTable) (id : TypeId) : Option Shape :=
  match t.dataOf id with
  | .object shape => some shape
  | _ => none

def calls (t : TypeTable) (id : TypeId) : List Signature :=
  ((t.shape? id).map Shape.calls).getD []

def constructs (t : TypeTable) (id : TypeId) : List Signature :=
  ((t.shape? id).map Shape.constructs).getD []

def bases (t : TypeTable) (id : TypeId) : List TypeId :=
  ((t.shape? id).map Shape.bases).getD []

def element? (t : TypeTable) (id : TypeId) : Option TypeId :=
  match t.dataOf id with
  | .array element => some element
  | _ => none

/-- The members of a union; any other type is its only member. -/
def unionMembers (t : TypeTable) (id : TypeId) : List TypeId :=
  match t.dataOf id with
  | .union members => members
  | _ => [id]

def isLiteral (t : TypeTable) (id : TypeId) : Bool :=
  match t.dataOf id with
  | .literal _ => true
  | _ => false

/-- The primitive that a literal belongs to; any other type itself. -/
def primitive (t : TypeTable) (id : TypeId) : TypeId :=
  match t.dataOf id with
  | .literal (.number _) => .number
  | .literal (.string _) => .string
  | .literal (.boolean _) => .boolean
  | _ => id

/-! ## Adding types -/

/-- An action that may add types. -/
abbrev Alloc := StateM TypeTable

/-- The index of a structure, which is added if it is new. -/
def intern (data : TypeData) : Alloc TypeId := do
  let t ← get
  match t.known.get? data with
  | some id => return id
  | none =>
    set (⟨t.types.push data, t.known.insert data t.size⟩ : TypeTable)
    return t.size

/-- The types that every table starts with, in the order of `TypeId`. -/
def predefined : List TypeData :=
  [.intrinsic .any, .intrinsic .unknown, .intrinsic .never, .intrinsic .void,
    .intrinsic .undefined, .intrinsic .null, .intrinsic .number, .intrinsic .string,
    .intrinsic .boolean, .intrinsic .error, .literal (.boolean true), .literal (.boolean false)]

/-- A table with the predefined types only. -/
def initial : TypeTable :=
  ((predefined.mapM intern).run empty).2

/-- A new object type. -/
def allocate (shape : Shape) : Alloc TypeId :=
  modifyGet fun t => (t.size, { t with types := t.types.push (.object shape) })

/-- Replaces the shape of an object type; any other type stays. -/
def setShape (id : TypeId) (shape : Shape) : Alloc Unit :=
  modify fun t =>
    match t.dataOf id with
    | .object _ => { t with types := t.types.setIfInBounds id (.object shape) }
    | _ => t

def numberLiteral (text : String) : Alloc TypeId :=
  intern (.literal (.number (Numeral.canonical text)))

def stringLiteral (text : String) : Alloc TypeId :=
  intern (.literal (.string text))

def array (element : TypeId) : Alloc TypeId :=
  intern (.array element)

/-- A function type with one signature. -/
def function (signature : Signature) : Alloc TypeId :=
  allocate { Shape.bare .anonymous none none with calls := [signature] }

/-! ## Unions -/

/-- Adds a type behind the others unless it is among them. -/
def addMember (members : List TypeId) (id : TypeId) : List TypeId :=
  if members.contains id then members else members ++ [id]

/-- The types of a list with unions replaced by their members, each once. -/
def flatten (t : TypeTable) (ids : List TypeId) : List TypeId :=
  (ids.flatMap t.unionMembers).foldl addMember []

/-- Both booleans together are `boolean`, which takes the place of the first
of them unless it is there already. -/
def joinBooleans (members : List TypeId) : List TypeId :=
  if members.contains .trueValue && members.contains .falseValue then
    let isValue := fun id => id == TypeId.trueValue || id == TypeId.falseValue
    let place := members.findIdx isValue
    let others := members.filter fun id => !isValue id
    if others.contains .boolean then others
    else others.take place ++ TypeId.boolean :: others.drop place
  else members

/-- Leaves out the literals whose primitive is a member. -/
def absorb (t : TypeTable) (members : List TypeId) : List TypeId :=
  members.filter fun id => t.primitive id == id || !members.contains (t.primitive id)

/-- The members of the union of some types, none of which fits everywhere. -/
def unionOf (t : TypeTable) (ids : List TypeId) : List TypeId :=
  t.absorb (joinBooleans ((t.flatten ids).filter (· != TypeId.never)))

/-- The union of some types. A type that fits everywhere makes it `any`. -/
def union (ids : List TypeId) : Alloc TypeId := do
  let t ← get
  if (t.flatten ids).any TypeId.isLoose then return .any
  match t.unionOf ids with
  | [] => return .never
  | [id] => return id
  | members => intern (.union members)

/-- The type of a variable that may change: literals become their
primitives, also inside a union. -/
def widen (id : TypeId) : Alloc TypeId := do
  let t ← get
  match t.dataOf id with
  | .literal _ => return t.primitive id
  | .union members => union (members.map t.primitive)
  | _ => return id

end TypeTable

end ScriptAnalysis
