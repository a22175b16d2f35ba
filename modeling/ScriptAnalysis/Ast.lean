import ScriptAnalysis.Token

/-!
# Syntax trees

The nodes of a file live in one array, the `Arena`, and refer to each other
by index, so that a node can be named from outside: symbols, scopes and
types are attached to indices.

A node is a span of the text and a `Form`, which says what the node is and
which nodes it is made of. `Form.children` lists those in source order.
-/
namespace ScriptAnalysis

/-- Index of a node in its file's arena. -/
abbrev NodeId := Nat

/-- The modifiers in front of a declaration, a member or a parameter. -/
structure Modifiers where
  exported : Bool := false
  ambient : Bool := false
  isPublic : Bool := false
  isPrivate : Bool := false
  isProtected : Bool := false
  isStatic : Bool := false
  isReadonly : Bool := false
  deriving DecidableEq, Repr, Inhabited

namespace Modifiers

def none : Modifiers := {}

/-- All modifiers of either. -/
def union (a b : Modifiers) : Modifiers where
  exported := a.exported || b.exported
  ambient := a.ambient || b.ambient
  isPublic := a.isPublic || b.isPublic
  isPrivate := a.isPrivate || b.isPrivate
  isProtected := a.isProtected || b.isProtected
  isStatic := a.isStatic || b.isStatic
  isReadonly := a.isReadonly || b.isReadonly

/-- The modifiers that turn a constructor parameter into a property. -/
def declaresProperty (m : Modifiers) : Bool :=
  m.isPublic || m.isPrivate || m.isProtected || m.isReadonly

end Modifiers

/-- How a variable is declared. -/
inductive VariableKind where
  | var
  | letKind
  | const
  deriving DecidableEq, Repr, Inhabited

/-- The sorts of nodes with parameters. -/
inductive FunctionKind where
  | declaration
  | method
  | constructor
  | methodSignature
  | arrow
  | functionType
  deriving DecidableEq, Repr, Inhabited

/-- Functions, methods, constructors, signatures and function types. The
body is a block, or an expression in an arrow function. -/
structure FunctionParts where
  modifiers : Modifiers
  name : Option NodeId
  parameters : List NodeId
  returnType : Option NodeId
  body : Option NodeId
  deriving DecidableEq, Repr, Inhabited

structure ParameterParts where
  modifiers : Modifiers
  name : NodeId
  optional : Bool
  ascription : Option NodeId
  initializer : Option NodeId
  deriving DecidableEq, Repr, Inhabited

structure ClassParts where
  modifiers : Modifiers
  name : NodeId
  heritage : Option NodeId
  members : List NodeId
  deriving DecidableEq, Repr, Inhabited

structure InterfaceParts where
  modifiers : Modifiers
  name : NodeId
  heritage : List NodeId
  members : List NodeId
  deriving DecidableEq, Repr, Inhabited

/-- Properties of classes and of interfaces. -/
structure PropertyParts where
  modifiers : Modifiers
  name : NodeId
  optional : Bool
  ascription : Option NodeId
  initializer : Option NodeId
  deriving DecidableEq, Repr, Inhabited

structure AliasParts where
  modifiers : Modifiers
  name : NodeId
  aliased : NodeId
  deriving DecidableEq, Repr, Inhabited

structure VariableParts where
  kind : VariableKind
  name : NodeId
  ascription : Option NodeId
  initializer : Option NodeId
  deriving DecidableEq, Repr, Inhabited

/-- What a node is and what it is made of. -/
inductive Form where
  -- leaves
  | keyword (word : TokenKind)
  | identifier (text : String)
  | numericLiteral (text : String)
  | stringLiteral (text : String)
  | breakStatement
  | continueStatement
  | emptyStatement
  -- declarations
  | sourceFile (statements : List NodeId)
  | function (kind : FunctionKind) (parts : FunctionParts)
  | parameter (parts : ParameterParts)
  | classDeclaration (parts : ClassParts)
  | interfaceDeclaration (parts : InterfaceParts)
  | propertyDeclaration (parts : PropertyParts)
  | propertySignature (parts : PropertyParts)
  | typeAlias (parts : AliasParts)
  | variableStatement (modifiers : Modifiers) (kind : VariableKind) (declarations : List NodeId)
  | variableDeclaration (parts : VariableParts)
  | importDeclaration (specifiers : List NodeId) (source : Option NodeId)
  | importSpecifier (exportedName : Option NodeId) (name : NodeId)
  -- statements
  | block (statements : List NodeId)
  | expressionStatement (expression : NodeId)
  | returnStatement (expression : Option NodeId)
  | ifStatement (condition : NodeId) (thenBranch elseBranch : Option NodeId)
  | whileStatement (condition : NodeId) (body : Option NodeId)
  | forStatement (initializer condition increment body : Option NodeId)
  | forOfStatement (initializer : Option NodeId) (iterated : NodeId) (body : Option NodeId)
  -- expressions
  | arrayLiteral (elements : List NodeId)
  | objectLiteral (properties : List NodeId)
  | propertyAssignment (name : NodeId) (initializer : Option NodeId)
  | parenthesized (expression : NodeId)
  | call (callee : NodeId) (arguments : List NodeId)
  | newExpression (callee : NodeId) (arguments : List NodeId)
  | propertyAccess (object name : NodeId)
  | elementAccess (object index : NodeId)
  | prefixUnary (operator : TokenKind) (operand : NodeId)
  | postfixUnary (operator : TokenKind) (operand : NodeId)
  | typeOf (expression : NodeId)
  | binary (left : NodeId) (operator : TokenKind) (right : NodeId)
  | conditional (condition whenTrue whenFalse : NodeId)
  | asExpression (expression type : NodeId)
  -- types
  | typeReference (name : NodeId)
  | arrayType (element : NodeId)
  | unionType (members : List NodeId)
  | parenthesizedType (inner : NodeId)
  | literalType (literal : NodeId)
  deriving DecidableEq, Repr, Inhabited

namespace Form

/-- The nodes that a form is made of, in source order. -/
def children : Form → List NodeId
  | keyword _ | identifier _ | numericLiteral _ | stringLiteral _ => []
  | breakStatement | continueStatement | emptyStatement => []
  | sourceFile statements => statements
  | function _ p => p.name.toList ++ p.parameters ++ p.returnType.toList ++ p.body.toList
  | parameter p => p.name :: (p.ascription.toList ++ p.initializer.toList)
  | classDeclaration p => p.name :: (p.heritage.toList ++ p.members)
  | interfaceDeclaration p => p.name :: (p.heritage ++ p.members)
  | propertyDeclaration p | propertySignature p =>
    p.name :: (p.ascription.toList ++ p.initializer.toList)
  | typeAlias p => [p.name, p.aliased]
  | variableStatement _ _ declarations => declarations
  | variableDeclaration p => p.name :: (p.ascription.toList ++ p.initializer.toList)
  | importDeclaration specifiers source => specifiers ++ source.toList
  | importSpecifier exportedName name => exportedName.toList ++ [name]
  | block statements => statements
  | expressionStatement expression => [expression]
  | returnStatement expression => expression.toList
  | ifStatement condition thenBranch elseBranch =>
    condition :: (thenBranch.toList ++ elseBranch.toList)
  | whileStatement condition body => condition :: body.toList
  | forStatement initializer condition increment body =>
    initializer.toList ++ condition.toList ++ increment.toList ++ body.toList
  | forOfStatement initializer iterated body =>
    initializer.toList ++ iterated :: body.toList
  | arrayLiteral elements => elements
  | objectLiteral properties => properties
  | propertyAssignment name initializer => name :: initializer.toList
  | parenthesized expression => [expression]
  | call callee arguments => callee :: arguments
  | newExpression callee arguments => callee :: arguments
  | propertyAccess object name => [object, name]
  | elementAccess object index => [object, index]
  | prefixUnary _ operand => [operand]
  | postfixUnary _ operand => [operand]
  | typeOf expression => [expression]
  | binary left _ right => [left, right]
  | conditional condition whenTrue whenFalse => [condition, whenTrue, whenFalse]
  | asExpression expression type => [expression, type]
  | typeReference name => [name]
  | arrayType element => [element]
  | unionType members => members
  | parenthesizedType inner => [inner]
  | literalType literal => [literal]

/-- The modifiers of a declaration; none for all other forms. -/
def modifiers : Form → Modifiers
  | function _ p => p.modifiers
  | parameter p => p.modifiers
  | classDeclaration p => p.modifiers
  | interfaceDeclaration p => p.modifiers
  | propertyDeclaration p | propertySignature p => p.modifiers
  | typeAlias p => p.modifiers
  | variableStatement m _ _ => m
  | _ => .none

end Form

/-- A form and its span in bytes, from the start of its first token to the
end of its last. -/
structure Node where
  form : Form
  pos : Nat
  stop : Nat
  deriving DecidableEq, Repr, Inhabited

/-- The nodes of one file. -/
abbrev Arena := Array Node

namespace Arena

/-- The form of a node that is there. -/
def form? (a : Arena) (i : NodeId) : Option Form :=
  (a[i]?).map Node.form

/-- The name that an identifier spells. -/
def nameOf? (a : Arena) (i : NodeId) : Option String :=
  match a.form? i with
  | some (.identifier text) => some text
  | _ => none

/-- The text of a string or number. -/
def literalOf? (a : Arena) (i : NodeId) : Option String :=
  match a.form? i with
  | some (.numericLiteral text) => some text
  | some (.stringLiteral text) => some text
  | _ => none

def functionOf? (a : Arena) (i : NodeId) : Option FunctionParts :=
  match a.form? i with
  | some (.function _ p) => some p
  | _ => none

def parameterOf? (a : Arena) (i : NodeId) : Option ParameterParts :=
  match a.form? i with
  | some (.parameter p) => some p
  | _ => none

def modifiers (a : Arena) (i : NodeId) : Modifiers :=
  ((a.form? i).map Form.modifiers).getD .none

/-- The children of a node; none for a node that is not there. -/
def children (a : Arena) (i : NodeId) : List NodeId :=
  ((a.form? i).map Form.children).getD []

/-- The nodes below and including `i`, parents before children and children
in source order; `depth` bounds how deep the walk goes. -/
def preorderWithin (a : Arena) : Nat → NodeId → List NodeId
  | 0, _ => []
  | depth + 1, i => i :: (a.children i).flatMap (preorderWithin a depth)

/-- The nodes below and including `i`. A tree is never deeper than the
number of nodes. -/
def preorder (a : Arena) (i : NodeId) : List NodeId :=
  preorderWithin a a.size i

end Arena

end ScriptAnalysis
