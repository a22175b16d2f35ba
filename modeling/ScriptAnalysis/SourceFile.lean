import ScriptAnalysis.Order
import ScriptAnalysis.Parsing.Expressions
import ScriptAnalysis.Parsing.Statements
import ScriptAnalysis.Token.Lexer

/-!
# Source files

`SourceFile.parse` turns the text of a file into its syntax tree. The
recursion of the grammar is tied here: `productions n` are the rules of the
grammar with at most `n` nested uses, and a file with `k` tokens never
needs more than `nestingBound k` of them, since each use passes a token or
goes one of the `maxDepth` levels deeper.
-/
namespace ScriptAnalysis

namespace Parsing

/-- Stands for the rules when no nested use is left. -/
def noProductions : Productions where
  statement := do
    exhaust
    return none
  type := do
    exhaust
    missingType
  assignment := do
    exhaust
    missingName
  binary _ := do
    exhaust
    missingName
  unary := do
    exhaust
    missingName
  newExpression := do
    exhaust
    missingName

/-- The rules of the grammar, with at most `n` nested uses. -/
def productions : Nat → Productions
  | 0 => noProductions
  | n + 1 =>
    let self := productions n
    { statement := statement self
      type := type self
      assignment := assignment self
      binary := binary self
      unary := unary self
      newExpression := newExpression self }

/-- How many nested uses of the rules `tokens` tokens can lead to. -/
def nestingBound (tokens : Nat) : Nat :=
  4 * (tokens + maxDepth + 2)

/-- All statements, as one node that spans the file. -/
def file (self : Productions) : Parser NodeId := do
  let statements ← statementsUntil self (· == .endOfFile)
  let stop := (← token).stop
  addNode (.sourceFile statements) 0 stop

/-- Runs the grammar on a list of tokens. -/
def parseTokens (tokens : List Token) : NodeId × State :=
  (file (productions (nestingBound tokens.length))).run (.start tokens)

end Parsing

/-- A parsed file. `errors` are sorted by position; a file that imports or
exports anything is a module. -/
structure SourceFile where
  name : String
  text : List Char
  arena : Arena
  root : NodeId
  errors : List SyntaxError
  isDeclaration : Bool
  isModule : Bool
  deriving Inhabited, DecidableEq

namespace SourceFile

/-- Parses a text. -/
def parse (name : String) (text : List Char) : SourceFile :=
  let scanned := Lexer.scan text
  let (root, s) := Parsing.parseTokens scanned.tokens
  { name := name
    text := text
    arena := s.arena
    root := root
    errors := Order.sort (fun a b => a.start ≤ b.start) (scanned.errors ++ s.errors.toList)
    isDeclaration := Path.isDeclarationFile name
    isModule := s.moduleSyntax }

@[simp] theorem name_parse (name : String) (text : List Char) : (parse name text).name = name :=
  rfl

/-- The statements at the top level. -/
def statements (f : SourceFile) : List NodeId :=
  match f.arena.form? f.root with
  | some (.sourceFile statements) => statements
  | _ => []

/-- Line and column of a byte offset. -/
def position (f : SourceFile) (offset : Nat) : Position :=
  (LineMap.ofText f.text).position f.text offset

/-- The text that a node spans. -/
def nodeText (f : SourceFile) (i : NodeId) : String :=
  match f.arena[i]? with
  | some node => String.ofList (Text.slice f.text node.pos node.stop)
  | none => ""

/-- What is wrong with the spelling and grammar of the file. -/
def syntacticDiagnostics (f : SourceFile) : List Diagnostic :=
  f.errors.map fun e => e.problem.diagnostic f.name e.start e.length []

end SourceFile

end ScriptAnalysis
