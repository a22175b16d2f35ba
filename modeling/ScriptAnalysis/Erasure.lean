import ScriptAnalysis.SourceFile
import ScriptAnalysis.Text.Span

/-!
# Erasing types

A script without its types is a program that can be run. The parts of the
text that only speak of types are blanked out: type ascriptions, question
marks, access modifiers, casts, interfaces, aliases, ambient declarations
and functions without a body.

`erasedSpans` collects those parts by a walk over the tree; the number of
nodes bounds how deep it gets.
-/
namespace ScriptAnalysis.Erasure

/-! ## Parts of the text -/

/-- The span of a node. -/
def nodeSpan (f : SourceFile) (node : NodeId) : List Span :=
  ((f.arena[node]?).map fun n => Span.mk n.pos n.stop).toList

/-- The text up to a byte offset. -/
def textBefore (f : SourceFile) (offset : Nat) : List Char :=
  (Text.takeBytes? offset f.text).getD []

/-- The text from a byte offset on. -/
def textAfter (f : SourceFile) (offset : Nat) : List Char :=
  (Text.dropBytes? offset f.text).getD []

/-- A type with the colon in front of it, if there is one. -/
def ascriptionSpan (f : SourceFile) (type : NodeId) : List Span :=
  match f.arena[type]? with
  | none => []
  | some n =>
    let before := Text.trimEnd Text.isWhite (textBefore f n.pos)
    if before.getLast? = some ':' then [⟨Text.size before - 1, n.stop⟩]
    else [⟨n.pos, n.stop⟩]

/-- The question mark behind a name. -/
def questionSpan (f : SourceFile) (name : NodeId) : List Span :=
  match f.arena[name]? with
  | none => []
  | some n =>
    let after := textAfter f n.stop
    let rest := after.dropWhile Text.isWhite
    if rest.head? = some '?' then
      let at_ := n.stop + Text.size (after.takeWhile Text.isWhite)
      [⟨at_, at_ + 1⟩]
    else []

def isWordChar (c : Char) : Bool :=
  c.isAlphanum || c == '_' || c == '$'

/-- The words that only say who may use a member. -/
def accessWords : List (List Char) :=
  ["public".toList, "private".toList, "protected".toList, "readonly".toList]

/-- The access modifiers at the start of a text; `static` may stand among
them. The first argument bounds the number of words. -/
def accessSpans : Nat → Nat → List Char → List Span
  | 0, _, _ => []
  | fuel + 1, offset, text =>
    let word := text.takeWhile isWordChar
    let isAccess := accessWords.contains word
    if isAccess || word = "static".toList then
      let stop := offset + Text.size word
      let after := text.dropWhile isWordChar
      let gap := after.takeWhile Text.isWhite
      (if isAccess then [⟨offset, stop⟩] else [])
        ++ (if gap.isEmpty then []
          else accessSpans fuel (stop + Text.size gap) (after.dropWhile Text.isWhite))
    else []

/-- The access modifiers of a member or a parameter. -/
def modifierSpans (f : SourceFile) (node : NodeId) : List Span :=
  match f.arena[node]? with
  | none => []
  | some n =>
    let text := textAfter f n.pos
    accessSpans text.length n.pos text

/-! ## The walk -/

/-- The two ways into the walk below a node. -/
structure Walk where
  statement : NodeId → List Span
  expression : NodeId → List Span

def statement? (walk : Walk) (node : Option NodeId) : List Span :=
  node.toList.flatMap walk.statement

def expression? (walk : Walk) (node : Option NodeId) : List Span :=
  node.toList.flatMap walk.expression

def ascription? (f : SourceFile) (type : Option NodeId) : List Span :=
  type.toList.flatMap (ascriptionSpan f)

def parameterSpans (f : SourceFile) (walk : Walk) (node : NodeId) : List Span :=
  match f.arena.parameterOf? node with
  | none => []
  | some p =>
    (if p.modifiers = .none then [] else modifierSpans f node)
      ++ (if p.optional then questionSpan f p.name else [])
      ++ ascription? f p.ascription ++ expression? walk p.initializer

/-- The types of parameters and of the result, and what the body holds. -/
def functionSpans (f : SourceFile) (walk : Walk) (p : FunctionParts) : List Span :=
  let body := match p.body.bind f.arena.form? with
    | some (.block _) => statement? walk p.body
    | _ => expression? walk p.body
  p.parameters.flatMap (parameterSpans f walk) ++ ascription? f p.returnType ++ body

def variableSpans (f : SourceFile) (walk : Walk) (node : NodeId) : List Span :=
  match f.arena.form? node with
  | some (.variableDeclaration p) => ascription? f p.ascription ++ expression? walk p.initializer
  | _ => []

/-- A member of a class. One that is ambient, or a method without a body,
goes as a whole. -/
def memberSpans (f : SourceFile) (walk : Walk) (node : NodeId) : List Span :=
  if (f.arena.modifiers node).ambient then nodeSpan f node
  else match f.arena.form? node with
    | some (.propertyDeclaration p) | some (.propertySignature p) =>
      modifierSpans f node ++ (if p.optional then questionSpan f p.name else [])
        ++ ascription? f p.ascription ++ expression? walk p.initializer
    | some (.function _ p) =>
      if p.body.isNone then nodeSpan f node
      else modifierSpans f node ++ functionSpans f walk p
    | _ => []

/-- The first part of a loop, a declaration or an expression. -/
def loopStartSpans (f : SourceFile) (walk : Walk) (start : Option NodeId) : List Span :=
  match start.bind f.arena.form? with
  | some (.variableStatement _ _ _) => statement? walk start
  | _ => expression? walk start

/-- What goes from a statement that is not ambient. -/
def statementForm (f : SourceFile) (walk : Walk) (node : NodeId) : Form → List Span
  | .interfaceDeclaration _ => nodeSpan f node
  | .typeAlias _ => nodeSpan f node
  | .function .declaration p =>
    if p.body.isNone then nodeSpan f node else functionSpans f walk p
  | .classDeclaration p => p.members.flatMap (memberSpans f walk)
  | .variableStatement _ _ declarations => declarations.flatMap (variableSpans f walk)
  | .block statements => statements.flatMap walk.statement
  | .expressionStatement e => walk.expression e
  | .returnStatement e => expression? walk e
  | .ifStatement condition thenBranch elseBranch =>
    walk.expression condition ++ statement? walk thenBranch ++ statement? walk elseBranch
  | .whileStatement condition body => walk.expression condition ++ statement? walk body
  | .forStatement start condition increment body =>
    loopStartSpans f walk start ++ expression? walk condition ++ expression? walk increment
      ++ statement? walk body
  | .forOfStatement start iterated body =>
    loopStartSpans f walk start ++ walk.expression iterated ++ statement? walk body
  | _ => []

def statementSpans (f : SourceFile) (walk : Walk) (node : NodeId) : List Span :=
  match f.arena.form? node with
  | none => []
  | some form =>
    if form.modifiers.ambient then nodeSpan f node else statementForm f walk node form

/-- What goes from an expression: the target of a cast, and the types of
arrow functions. -/
def expressionSpans (f : SourceFile) (walk : Walk) (node : NodeId) : List Span :=
  match f.arena[node]? with
  | none => []
  | some n =>
    match n.form with
    | .asExpression operand _ =>
      ((f.arena[operand]?).map fun e => Span.mk e.stop n.stop).toList ++ walk.expression operand
    | .function _ p => functionSpans f walk p
    | form => form.children.flatMap walk.expression

/-- The walk below a node, at most `n` levels deep. -/
def walkWithin (f : SourceFile) : Nat → Walk
  | 0 => ⟨fun _ => [], fun _ => []⟩
  | n + 1 =>
    let walk := walkWithin f n
    ⟨statementSpans f walk, expressionSpans f walk⟩

/-- The parts of a file that only speak of types. -/
def erasedSpans (f : SourceFile) : List Span :=
  f.statements.flatMap (walkWithin f (f.arena.size + 1)).statement

/-- The text of a file with its types blanked out. -/
def eraseTypes (f : SourceFile) : List Char :=
  Span.blank (erasedSpans f) f.text

end ScriptAnalysis.Erasure
