import ScriptAnalysis.Ast

/-!
# Names of kinds

The names under which tokens and nodes are shown to a reader.
-/
namespace ScriptAnalysis

/-- The name of a kind of token. -/
def TokenKind.name : TokenKind → String
  | unknown => "Unknown"
  | endOfFile => "EndOfFileToken"
  | number => "NumericLiteral"
  | string => "StringLiteral"
  | identifier => "Identifier"
  | openBrace => "OpenBraceToken"
  | closeBrace => "CloseBraceToken"
  | openParen => "OpenParenToken"
  | closeParen => "CloseParenToken"
  | openBracket => "OpenBracketToken"
  | closeBracket => "CloseBracketToken"
  | dot => "DotToken"
  | semicolon => "SemicolonToken"
  | comma => "CommaToken"
  | less => "LessThanToken"
  | greater => "GreaterThanToken"
  | lessEquals => "LessThanEqualsToken"
  | greaterEquals => "GreaterThanEqualsToken"
  | looseEquals => "EqualsEqualsToken"
  | looseNotEquals => "ExclamationEqualsToken"
  | strictEquals => "EqualsEqualsEqualsToken"
  | strictNotEquals => "ExclamationEqualsEqualsToken"
  | arrow => "EqualsGreaterThanToken"
  | plus => "PlusToken"
  | minus => "MinusToken"
  | asterisk => "AsteriskToken"
  | slash => "SlashToken"
  | percent => "PercentToken"
  | plusPlus => "PlusPlusToken"
  | minusMinus => "MinusMinusToken"
  | exclamation => "ExclamationToken"
  | andAnd => "AmpersandAmpersandToken"
  | orOr => "BarBarToken"
  | bar => "BarToken"
  | question => "QuestionToken"
  | questionQuestion => "QuestionQuestionToken"
  | colon => "ColonToken"
  | equals => "EqualsToken"
  | plusEquals => "PlusEqualsToken"
  | minusEquals => "MinusEqualsToken"
  | asteriskEquals => "AsteriskEqualsToken"
  | slashEquals => "SlashEqualsToken"
  | kwBreak => "BreakKeyword"
  | kwClass => "ClassKeyword"
  | kwConst => "ConstKeyword"
  | kwContinue => "ContinueKeyword"
  | kwElse => "ElseKeyword"
  | kwExport => "ExportKeyword"
  | kwExtends => "ExtendsKeyword"
  | kwFalse => "FalseKeyword"
  | kwFor => "ForKeyword"
  | kwFunction => "FunctionKeyword"
  | kwIf => "IfKeyword"
  | kwImport => "ImportKeyword"
  | kwNew => "NewKeyword"
  | kwNull => "NullKeyword"
  | kwReturn => "ReturnKeyword"
  | kwSuper => "SuperKeyword"
  | kwThis => "ThisKeyword"
  | kwTrue => "TrueKeyword"
  | kwTypeof => "TypeOfKeyword"
  | kwVar => "VarKeyword"
  | kwVoid => "VoidKeyword"
  | kwWhile => "WhileKeyword"
  | kwAny => "AnyKeyword"
  | kwAs => "AsKeyword"
  | kwBoolean => "BooleanKeyword"
  | kwConstructor => "ConstructorKeyword"
  | kwDeclare => "DeclareKeyword"
  | kwFrom => "FromKeyword"
  | kwInterface => "InterfaceKeyword"
  | kwLet => "LetKeyword"
  | kwNever => "NeverKeyword"
  | kwNumber => "NumberKeyword"
  | kwOf => "OfKeyword"
  | kwPrivate => "PrivateKeyword"
  | kwProtected => "ProtectedKeyword"
  | kwPublic => "PublicKeyword"
  | kwReadonly => "ReadonlyKeyword"
  | kwStatic => "StaticKeyword"
  | kwString => "StringKeyword"
  | kwType => "TypeKeyword"
  | kwUndefined => "UndefinedKeyword"
  | kwUnknown => "UnknownKeyword"

def FunctionKind.name : FunctionKind → String
  | declaration => "FunctionDeclaration"
  | method => "MethodDeclaration"
  | constructor => "Constructor"
  | methodSignature => "MethodSignature"
  | arrow => "ArrowFunction"
  | functionType => "FunctionType"

/-- The name of a kind of node. -/
def Form.kindName : Form → String
  | keyword word => word.name
  | identifier _ => "Identifier"
  | numericLiteral _ => "NumericLiteral"
  | stringLiteral _ => "StringLiteral"
  | breakStatement => "BreakStatement"
  | continueStatement => "ContinueStatement"
  | emptyStatement => "EmptyStatement"
  | sourceFile _ => "SourceFile"
  | function kind _ => kind.name
  | parameter _ => "Parameter"
  | classDeclaration _ => "ClassDeclaration"
  | interfaceDeclaration _ => "InterfaceDeclaration"
  | propertyDeclaration _ => "PropertyDeclaration"
  | propertySignature _ => "PropertySignature"
  | typeAlias _ => "TypeAliasDeclaration"
  | variableStatement _ _ _ => "VariableStatement"
  | variableDeclaration _ => "VariableDeclaration"
  | importDeclaration _ _ => "ImportDeclaration"
  | importSpecifier _ _ => "ImportSpecifier"
  | block _ => "Block"
  | expressionStatement _ => "ExpressionStatement"
  | returnStatement _ => "ReturnStatement"
  | ifStatement _ _ _ => "IfStatement"
  | whileStatement _ _ => "WhileStatement"
  | forStatement _ _ _ _ => "ForStatement"
  | forOfStatement _ _ _ => "ForOfStatement"
  | arrayLiteral _ => "ArrayLiteralExpression"
  | objectLiteral _ => "ObjectLiteralExpression"
  | propertyAssignment _ _ => "PropertyAssignment"
  | parenthesized _ => "ParenthesizedExpression"
  | call _ _ => "CallExpression"
  | newExpression _ _ => "NewExpression"
  | propertyAccess _ _ => "PropertyAccessExpression"
  | elementAccess _ _ => "ElementAccessExpression"
  | prefixUnary _ _ => "PrefixUnaryExpression"
  | postfixUnary _ _ => "PostfixUnaryExpression"
  | typeOf _ => "TypeOfExpression"
  | binary _ _ _ => "BinaryExpression"
  | conditional _ _ _ => "ConditionalExpression"
  | asExpression _ _ => "AsExpression"
  | typeReference _ => "TypeReference"
  | arrayType _ => "ArrayType"
  | unionType _ => "UnionType"
  | parenthesizedType _ => "ParenthesizedType"
  | literalType _ => "LiteralType"

end ScriptAnalysis
