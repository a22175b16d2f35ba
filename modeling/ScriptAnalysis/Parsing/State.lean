import ScriptAnalysis.Ast
import ScriptAnalysis.Diagnostic.Problem

/-!
# The state of the parser

The parser walks the tokens of a file from left to right and adds nodes to
an arena. `State` holds what it has done and what is left; `Parser` is a
computation on it.

* `token`, `ahead`, `advance`: the token at hand, those behind it, and the
  step to the next one. The last token, `endOfFile`, is never passed.
* `report`: adds an error, at most one in a row per position.
* `attempt`: runs a parser and undoes it when it fails or reports.
* `nested`: bounds how deep productions nest.
* `iterate`: repeats a parser a bounded number of times.
-/
namespace ScriptAnalysis.Parsing

/-- How deep statements, types and expressions may nest. -/
def maxDepth : Nat := 400

/-- What the parser has done and what is left. `rest` starts with the token
at hand, `remaining` is its length, and `prevStop` is where the last token
passed ends. `exhausted` is set when a bound of the parser itself
(and not of the language) was reached. -/
structure State where
  rest : List Token
  remaining : Nat
  prevStop : Nat
  arena : Arena
  errors : Array SyntaxError
  depth : Nat
  lastError : Option Nat
  moduleSyntax : Bool
  exhausted : Bool
  deriving Inhabited

/-- A computation on the state of the parser. -/
abbrev Parser := StateM State

/-- Nothing done yet. -/
def State.start (tokens : List Token) : State where
  rest := tokens
  remaining := tokens.length
  prevStop := 0
  arena := #[]
  errors := #[]
  depth := 0
  lastError := none
  moduleSyntax := false
  exhausted := false

/-! ## Tokens -/

/-- Stands behind the last token. -/
def noToken : Token := ⟨.endOfFile, 0, 0, false, none⟩

def State.tokenAt (s : State) (n : Nat) : Token :=
  s.rest.getD n noToken

/-- The kind of the token `n` places on. -/
def State.kindAt (s : State) (n : Nat) : TokenKind :=
  (s.tokenAt n).kind

/-- The state after the token at hand, unless that is the last one. -/
def State.advance (s : State) : State :=
  match s.rest with
  | [] => s
  | t :: rest =>
    if t.kind = .endOfFile then s
    else { s with rest := rest, remaining := s.remaining - 1, prevStop := t.stop }

def token : Parser Token := do
  return (← get).tokenAt 0

def kind : Parser TokenKind := do
  return (← get).kindAt 0

def ahead (n : Nat) : Parser TokenKind := do
  return (← get).kindAt n

def isAt (k : TokenKind) : Parser Bool := do
  return (← kind) == k

def afterBreak : Parser Bool := do
  return (← token).afterBreak

/-- Where the token at hand starts. -/
def here : Parser Nat := do
  return (← token).start

def prevStop : Parser Nat := do
  return (← get).prevStop

/-- How many tokens are left; it falls with every token passed. -/
def remaining : Parser Nat := do
  return (← get).remaining

def advance : Parser Unit :=
  modify State.advance

/-! ## Errors -/

/-- Adds an error unless the last one starts at the same place. -/
def State.report (s : State) (start length : Nat) (p : Problem) : State :=
  if s.lastError = some start then s
  else { s with lastError := some start, errors := s.errors.push ⟨start, length, p⟩ }

/-- Reports a problem with the token at hand. -/
def report (p : Problem) : Parser Unit :=
  modify fun s => s.report (s.tokenAt 0).start ((s.tokenAt 0).stop - (s.tokenAt 0).start) p

/-- Passes the token at hand if it is `k`. -/
def accept (k : TokenKind) : Parser Bool := do
  if ← isAt k then
    advance
    return true
  else return false

/-- Passes the token at hand if it is `k`, and reports it otherwise. -/
def expect (k : TokenKind) : Parser Bool := do
  if ← accept k then return true
  else
    report (.tokenExpected k.text)
    return false

/-- A statement can end here: at a semicolon, before a closing brace or the
end of the file, or at a line break. -/
def canEndStatement : Parser Bool := do
  match ← kind with
  | .semicolon | .closeBrace | .endOfFile => return true
  | _ => afterBreak

/-- Passes the end of a statement. -/
def endStatement : Parser Unit := do
  unless ← accept .semicolon do
    unless ← canEndStatement do
      report (.tokenExpected ";")

/-! ## Nodes -/

/-- Adds a node. -/
def addNode (form : Form) (pos stop : Nat) : Parser NodeId :=
  modifyGet fun s => (s.arena.size, { s with arena := s.arena.push ⟨form, pos, stop⟩ })

/-- Adds a node that ends with the last token passed. -/
def finish (pos : Nat) (form : Form) : Parser NodeId := do
  addNode form pos (← prevStop)

/-- A name without characters, where a name is missing. -/
def missingName : Parser NodeId := do
  let pos ← here
  addNode (.identifier "") pos pos

/-- The word at hand as a name. -/
def wordAsName : Parser NodeId := do
  let t ← token
  advance
  addNode (.identifier (t.value.getD t.kind.text)) t.start t.stop

/-- The name of a binding. -/
def bindingName : Parser NodeId := do
  if (← kind).isName then wordAsName
  else
    report .identifierExpected
    missingName

/-- The string or number at hand. -/
def literal : Parser NodeId := do
  let t ← token
  advance
  let text := t.value.getD ""
  addNode (if t.kind = .number then .numericLiteral text else .stringLiteral text) t.start t.stop

/-- The name of a property: any word, a string or a number. -/
def propertyName : Parser NodeId := do
  match ← kind with
  | .string | .number => literal
  | k =>
    if k.isWord then wordAsName
    else
      report .identifierExpected
      missingName

/-- The keyword at hand as a node without children. -/
def keywordNode : Parser NodeId := do
  let t ← token
  advance
  addNode (.keyword t.kind) t.start t.stop

/-! ## Control -/

/-- The part of a state that an abandoned attempt goes back to. -/
structure Mark where
  rest : List Token
  remaining : Nat
  prevStop : Nat
  nodes : Nat
  errors : Nat
  lastError : Option Nat

def State.mark (s : State) : Mark :=
  ⟨s.rest, s.remaining, s.prevStop, s.arena.size, s.errors.size, s.lastError⟩

/-- Back to the mark: later nodes and errors are dropped. What is noted
about modules stays. -/
def State.rewind (s : State) (m : Mark) : State :=
  { s with
    rest := m.rest
    remaining := m.remaining
    prevStop := m.prevStop
    arena := s.arena.take m.nodes
    errors := s.errors.take m.errors
    lastError := m.lastError }

/-- Going back to where one stands changes nothing. -/
theorem State.rewind_mark (s : State) : s.rewind s.mark = s := by
  simp [State.rewind, State.mark]

/-- Runs a parser; if it fails or reports an error, all is as before. -/
def attempt (p : Parser (Option α)) : Parser (Option α) := do
  let m := (← get).mark
  let result ← p
  if result.isSome && (← get).errors.size == m.errors then return result
  else
    modify (·.rewind m)
    return none

/-- Runs a parser one level deeper. At the deepest level the token at hand
is reported and `fallback` runs instead. -/
def nested (p fallback : Parser α) : Parser α := do
  if (← get).depth ≥ maxDepth then
    report .expressionExpected
    fallback
  else
    modify fun s => { s with depth := s.depth + 1 }
    let result ← p
    modify fun s => { s with depth := s.depth - 1 }
    return result

/-- Notes that a bound of the parser itself was reached. -/
def exhaust : Parser Unit :=
  modify fun s => { s with exhausted := true }

/-- Whether a repeated parser goes on, and with what. -/
inductive Turn (β : Type) where
  | again (value : β)
  | done (value : β)

/-- Repeats a parser until it is done, at most `n` times. -/
def iterateUpTo (body : β → Parser (Turn β)) : Nat → β → Parser β
  | 0, b => do
    exhaust
    return b
  | n + 1, b => do
    match ← body b with
    | .again b => iterateUpTo body n b
    | .done b => return b

/-- Repeats a parser that passes a token in every turn but the last. -/
def iterate (b : β) (body : β → Parser (Turn β)) : Parser β := do
  iterateUpTo body ((← get).remaining + 1) b

end ScriptAnalysis.Parsing
