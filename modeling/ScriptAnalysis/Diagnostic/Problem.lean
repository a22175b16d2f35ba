import ScriptAnalysis.Diagnostic

/-!
# What can be wrong with a script

`Problem` lists the causes that the lexer, the parser, the binder and the
checker report. Each has a number, a template and arguments; the wording
stands here and nowhere else.
-/
namespace ScriptAnalysis

/-- The causes of the diagnostics. -/
inductive Problem where
  | unterminatedString
  | unterminatedComment
  | invalidCharacter
  | identifierExpected
  | tokenExpected (text : String)
  | expressionExpected
  | typeExpected
  | declarationOrStatementExpected
  | implementationInAmbientContext
  | breakOutsideLoop
  | continueOutsideLoop
  | returnOutsideFunction
  | duplicateIdentifier (name : String)
  | cannotFindName (name : String)
  | noExportedMember (specifier name : String)
  | cannotFindModule (specifier : String)
  | notAssignable (source target : String)
  | noProperty (name type : String)
  | argumentNotAssignable (source target : String)
  | notCallable
  | notConstructable
  | mustReturnValue
  | propertyMissing (name source target : String)
  | expectedArguments (expected got : String)
  | implementationMissing
  | assignToConstant (name : String)
  | typeUsedAsValue (name : String)
  | valueUsedAsType (name : String)
  | implicitAny (name : String)
  deriving DecidableEq, Repr

namespace Problem

def code : Problem → Nat
  | unterminatedString => 1002
  | unterminatedComment => 1005
  | invalidCharacter => 1127
  | identifierExpected => 1003
  | tokenExpected _ => 1005
  | expressionExpected => 1109
  | typeExpected => 1110
  | declarationOrStatementExpected => 1128
  | implementationInAmbientContext => 1183
  | breakOutsideLoop => 1105
  | continueOutsideLoop => 1104
  | returnOutsideFunction => 1108
  | duplicateIdentifier _ => 2300
  | cannotFindName _ => 2304
  | noExportedMember _ _ => 2305
  | cannotFindModule _ => 2307
  | notAssignable _ _ => 2322
  | noProperty _ _ => 2339
  | argumentNotAssignable _ _ => 2345
  | notCallable => 2349
  | notConstructable => 2351
  | mustReturnValue => 2355
  | propertyMissing _ _ _ => 2741
  | expectedArguments _ _ => 2554
  | implementationMissing => 2391
  | assignToConstant _ => 2588
  | typeUsedAsValue _ => 2693
  | valueUsedAsType _ => 2749
  | implicitAny _ => 7006

def template : Problem → String
  | unterminatedString => "Unterminated string literal."
  | unterminatedComment => "'*/' expected."
  | invalidCharacter => "Invalid character."
  | identifierExpected => "Identifier expected."
  | tokenExpected _ => "'{0}' expected."
  | expressionExpected => "Expression expected."
  | typeExpected => "Type expected."
  | declarationOrStatementExpected => "Declaration or statement expected."
  | implementationInAmbientContext =>
    "An implementation cannot be declared in ambient contexts."
  | breakOutsideLoop =>
    "A 'break' statement can only be used within an enclosing iteration statement."
  | continueOutsideLoop =>
    "A 'continue' statement can only be used within an enclosing iteration statement."
  | returnOutsideFunction => "A 'return' statement can only be used within a function body."
  | duplicateIdentifier _ => "Duplicate identifier '{0}'."
  | cannotFindName _ => "Cannot find name '{0}'."
  | noExportedMember _ _ => "Module '\"{0}\"' has no exported member '{1}'."
  | cannotFindModule _ => "Cannot find module '{0}' or its corresponding type declarations."
  | notAssignable _ _ => "Type '{0}' is not assignable to type '{1}'."
  | noProperty _ _ => "Property '{0}' does not exist on type '{1}'."
  | argumentNotAssignable _ _ =>
    "Argument of type '{0}' is not assignable to parameter of type '{1}'."
  | notCallable => "This expression is not callable."
  | notConstructable => "This expression is not constructable."
  | mustReturnValue =>
    "A function whose declared type is neither 'void' nor 'any' must return a value."
  | propertyMissing _ _ _ =>
    "Property '{0}' is missing in type '{1}' but required in type '{2}'."
  | expectedArguments _ _ => "Expected {0} arguments, but got {1}."
  | implementationMissing =>
    "Function implementation is missing or not immediately following the declaration."
  | assignToConstant _ => "Cannot assign to '{0}' because it is a constant."
  | typeUsedAsValue _ => "'{0}' only refers to a type, but is being used as a value here."
  | valueUsedAsType _ => "'{0}' refers to a value, but is being used as a type here."
  | implicitAny _ => "Parameter '{0}' implicitly has an 'any' type."

def arguments : Problem → List String
  | tokenExpected text => [text]
  | duplicateIdentifier name => [name]
  | cannotFindName name => [name]
  | noExportedMember specifier name => [specifier, name]
  | cannotFindModule specifier => [specifier]
  | notAssignable source target => [source, target]
  | noProperty name type => [name, type]
  | argumentNotAssignable source target => [source, target]
  | propertyMissing name source target => [name, source, target]
  | expectedArguments expected got => [expected, got]
  | assignToConstant name => [name]
  | typeUsedAsValue name => [name]
  | valueUsedAsType name => [name]
  | implicitAny name => [name]
  | _ => []

/-- The wording of a problem. -/
def text (p : Problem) : String :=
  fillTemplate p.template p.arguments

/-- The error that reports a problem in a file. -/
def diagnostic (p : Problem) (file : String) (start length : Nat)
    (details : List Message) : Diagnostic :=
  { file := some file
    start := start
    length := length
    message := .mk p.text details
    severity := .error
    code := p.code }

end Problem

/-- A problem of spelling or grammar, and the bytes it is about. -/
structure SyntaxError where
  start : Nat
  length : Nat
  problem : Problem
  deriving DecidableEq, Repr

end ScriptAnalysis
