/-!
# Tokens

The words and marks that a script is made of. `TokenKind` lists them,
`TokenKind.text` gives the spelling of those that have only one, and the
classes of words (reserved, contextual) and operators (assignment, binary)
are predicates on it.
-/
namespace ScriptAnalysis

inductive TokenKind where
  | unknown
  | endOfFile
  | number
  | string
  | identifier
  -- marks
  | openBrace
  | closeBrace
  | openParen
  | closeParen
  | openBracket
  | closeBracket
  | dot
  | semicolon
  | comma
  | less
  | greater
  | lessEquals
  | greaterEquals
  | looseEquals
  | looseNotEquals
  | strictEquals
  | strictNotEquals
  | arrow
  | plus
  | minus
  | asterisk
  | slash
  | percent
  | plusPlus
  | minusMinus
  | exclamation
  | andAnd
  | orOr
  | bar
  | question
  | questionQuestion
  | colon
  | equals
  | plusEquals
  | minusEquals
  | asteriskEquals
  | slashEquals
  -- reserved words
  | kwBreak
  | kwClass
  | kwConst
  | kwContinue
  | kwElse
  | kwExport
  | kwExtends
  | kwFalse
  | kwFor
  | kwFunction
  | kwIf
  | kwImport
  | kwNew
  | kwNull
  | kwReturn
  | kwSuper
  | kwThis
  | kwTrue
  | kwTypeof
  | kwVar
  | kwVoid
  | kwWhile
  -- contextual keywords
  | kwAny
  | kwAs
  | kwBoolean
  | kwConstructor
  | kwDeclare
  | kwFrom
  | kwInterface
  | kwLet
  | kwNever
  | kwNumber
  | kwOf
  | kwPrivate
  | kwProtected
  | kwPublic
  | kwReadonly
  | kwStatic
  | kwString
  | kwType
  | kwUndefined
  | kwUnknown
  deriving DecidableEq, Repr, Inhabited

namespace TokenKind

/-- The marks, longer spellings before their beginnings. -/
def marks : List TokenKind :=
  [strictEquals, strictNotEquals,
   looseEquals, looseNotEquals, arrow, lessEquals, greaterEquals, plusPlus, plusEquals,
   minusMinus, minusEquals, asteriskEquals, slashEquals, andAnd, orOr, questionQuestion,
   openBrace, closeBrace, openParen, closeParen, openBracket, closeBracket, dot, semicolon, comma,
   colon, percent, less, greater, equals, exclamation, plus, minus, asterisk, slash, bar, question]

/-- Words that can never be a name. -/
def reservedWords : List TokenKind :=
  [kwBreak, kwClass, kwConst, kwContinue, kwElse, kwExport, kwExtends, kwFalse, kwFor, kwFunction,
   kwIf, kwImport, kwNew, kwNull, kwReturn, kwSuper, kwThis, kwTrue, kwTypeof, kwVar, kwVoid,
   kwWhile]

/-- Words that are names outside their keyword position. -/
def contextualWords : List TokenKind :=
  [kwAny, kwAs, kwBoolean, kwConstructor, kwDeclare, kwFrom, kwInterface, kwLet, kwNever, kwNumber,
   kwOf, kwPrivate, kwProtected, kwPublic, kwReadonly, kwStatic, kwString, kwType, kwUndefined,
   kwUnknown]

/-- The spelling of a mark or keyword; a description of the others. -/
def text : TokenKind → String
  | openBrace => "\x7b"
  | closeBrace => "\x7d"
  | openParen => "("
  | closeParen => ")"
  | openBracket => "["
  | closeBracket => "]"
  | dot => "."
  | semicolon => ";"
  | comma => ","
  | less => "<"
  | greater => ">"
  | lessEquals => "<="
  | greaterEquals => ">="
  | looseEquals => "=="
  | looseNotEquals => "!="
  | strictEquals => "==="
  | strictNotEquals => "!=="
  | arrow => "=>"
  | plus => "+"
  | minus => "-"
  | asterisk => "*"
  | slash => "/"
  | percent => "%"
  | plusPlus => "++"
  | minusMinus => "--"
  | exclamation => "!"
  | andAnd => "&&"
  | orOr => "||"
  | bar => "|"
  | question => "?"
  | questionQuestion => "??"
  | colon => ":"
  | equals => "="
  | plusEquals => "+="
  | minusEquals => "-="
  | asteriskEquals => "*="
  | slashEquals => "/="
  | kwBreak => "break"
  | kwClass => "class"
  | kwConst => "const"
  | kwContinue => "continue"
  | kwElse => "else"
  | kwExport => "export"
  | kwExtends => "extends"
  | kwFalse => "false"
  | kwFor => "for"
  | kwFunction => "function"
  | kwIf => "if"
  | kwImport => "import"
  | kwNew => "new"
  | kwNull => "null"
  | kwReturn => "return"
  | kwSuper => "super"
  | kwThis => "this"
  | kwTrue => "true"
  | kwTypeof => "typeof"
  | kwVar => "var"
  | kwVoid => "void"
  | kwWhile => "while"
  | kwAny => "any"
  | kwAs => "as"
  | kwBoolean => "boolean"
  | kwConstructor => "constructor"
  | kwDeclare => "declare"
  | kwFrom => "from"
  | kwInterface => "interface"
  | kwLet => "let"
  | kwNever => "never"
  | kwNumber => "number"
  | kwOf => "of"
  | kwPrivate => "private"
  | kwProtected => "protected"
  | kwPublic => "public"
  | kwReadonly => "readonly"
  | kwStatic => "static"
  | kwString => "string"
  | kwType => "type"
  | kwUndefined => "undefined"
  | kwUnknown => "unknown"
  | identifier => "identifier"
  | endOfFile => "end of file"
  | unknown => "token"
  | number => "token"
  | string => "token"

/-- The keyword that a word spells, if any. -/
def keyword? (word : String) : Option TokenKind :=
  (reservedWords ++ contextualWords).find? (·.text == word)

/-! ## Classes -/

def isReserved (k : TokenKind) : Bool :=
  reservedWords.contains k

def isContextual (k : TokenKind) : Bool :=
  contextualWords.contains k

/-- Tokens that can name a binding. -/
def isName (k : TokenKind) : Bool :=
  k == identifier || k.isContextual

/-- Words of any sort; all of them can name a property. -/
def isWord (k : TokenKind) : Bool :=
  k == identifier || k.isReserved || k.isContextual

def isAssignment : TokenKind → Bool
  | equals | plusEquals | minusEquals | asteriskEquals | slashEquals => true
  | _ => false

/-- How tightly a binary operator binds; 0 for all that is none. -/
def precedence : TokenKind → Nat
  | orOr | questionQuestion => 1
  | andAnd => 2
  | looseEquals | looseNotEquals | strictEquals | strictNotEquals => 3
  | less | greater | lessEquals | greaterEquals | kwAs => 4
  | plus | minus => 5
  | asterisk | slash | percent => 6
  | _ => 0

end TokenKind

/-- One token. The span counts bytes and leaves out what precedes the
token; `value` is the text of a name, the text of a number without its
underscores, or the characters that a string literal stands for. -/
structure Token where
  kind : TokenKind
  start : Nat
  stop : Nat
  afterBreak : Bool
  value : Option String
  deriving DecidableEq, Repr, Inhabited

end ScriptAnalysis
