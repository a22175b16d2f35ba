import ScriptAnalysis.Symbol

/-!
# Types

A type is known by its index in a table. The first indices are the types
that need no structure; a literal, an array or a union has an index that
its structure determines; objects are told apart by where they come from.
-/
namespace ScriptAnalysis

/-- Index of a type. -/
abbrev TypeId := Nat

namespace TypeId

def any : TypeId := 0
def unknown : TypeId := 1
def never : TypeId := 2
def void : TypeId := 3
def undefined : TypeId := 4
def null : TypeId := 5
def number : TypeId := 6
def string : TypeId := 7
def boolean : TypeId := 8

/-- What a failed resolution gives. It is shown as `any` and fits
everywhere, so that one error does not bring others. -/
def error : TypeId := 9

def trueValue : TypeId := 10
def falseValue : TypeId := 11

/-- The two types that fit everywhere. -/
def isLoose (t : TypeId) : Bool :=
  t == any || t == error

end TypeId

inductive Intrinsic where
  | any
  | unknown
  | never
  | void
  | undefined
  | null
  | number
  | string
  | boolean
  | error
  deriving DecidableEq, Repr, Inhabited

/-- The value of a literal type; numbers by their canonical text. -/
inductive LiteralValue where
  | number (text : String)
  | string (text : String)
  | boolean (value : Bool)
  deriving DecidableEq, Repr, Inhabited

structure Parameter where
  name : String
  type : TypeId
  optional : Bool
  deriving DecidableEq, Repr, Inhabited

/-- What a call takes and gives. -/
structure Signature where
  parameters : List Parameter
  returnType : TypeId
  deriving DecidableEq, Repr, Inhabited

/-- How many arguments a call has to give: those for the parameters before
the first optional one. -/
def Signature.minArguments (s : Signature) : Nat :=
  (s.parameters.takeWhile fun p => !p.optional).length

structure Property where
  name : String
  type : TypeId
  optional : Bool
  readonly : Bool
  deriving DecidableEq, Repr, Inhabited

/-- Where an object type comes from: the instances of a class, a class
itself, an interface, or an object or function without a name. -/
inductive ObjectKind where
  | instance_
  | constructor
  | interface
  | anonymous
  deriving DecidableEq, Repr, Inhabited

/-- What is known of the objects of a type. `bases` are the types that it
extends; their properties are not repeated. -/
structure Shape where
  kind : ObjectKind
  name : Option String
  symbol : Option SymbolId
  properties : List Property
  calls : List Signature
  constructs : List Signature
  bases : List TypeId
  deriving DecidableEq, Repr, Inhabited

/-- A shape without members. -/
def Shape.bare (kind : ObjectKind) (name : Option String) (symbol : Option SymbolId) : Shape :=
  { kind, name, symbol, properties := [], calls := [], constructs := [], bases := [] }

/-- A property of the shape itself. -/
def Shape.property? (s : Shape) (name : String) : Option Property :=
  s.properties.find? (·.name == name)

/-- The structure of a type. The members of a union are no unions, differ
from each other and stand in the order in which they were first seen. -/
inductive TypeData where
  | intrinsic (kind : Intrinsic)
  | literal (value : LiteralValue)
  | array (element : TypeId)
  | union (members : List TypeId)
  | object (shape : Shape)
  deriving DecidableEq, Repr, Inhabited

end ScriptAnalysis
