import ScriptAnalysis.Diagnostic.Problem
import ScriptAnalysis.Text.CharClass
import ScriptAnalysis.Token

/-!
# From text to tokens

`scan` cuts a text into tokens and reports what cannot be one. Every token
is found by two steps at the current offset: `skipGap` passes over blanks
and comments, and `lexeme` recognises what stands there.

* `skipGap` walks the characters with a small state (`Gap`): between
  tokens, in a line comment, or in a block comment.
* `numeral`, `quoted`, `mark?` and the longest word recognise the four
  sorts of tokens.
* `scanFrom` repeats the two steps until the text ends; the last token is
  always `endOfFile`.
-/
namespace ScriptAnalysis.Lexer

open Text

/-! ## Between tokens -/

/-- Where a walk over blanks and comments stands. A block comment keeps
the offset at which it was opened and whether it has crossed a line. -/
inductive Gap where
  | blank
  | lineComment
  | blockComment (opened : Nat) (crossed : Bool)
  deriving DecidableEq, Repr

/-- What follows a gap: the rest of the text and its offset, whether the gap
crosses a line, and where a comment was opened that is never closed. -/
structure AfterGap where
  rest : List Char
  offset : Nat
  crossed : Bool
  unclosed : Option Nat
  deriving Repr

/-- Separators that end a line beside line feed and carriage return. -/
def isLineSeparator (c : Char) : Bool :=
  c.toNat == 0x2028 || c.toNat == 0x2029

/-- Characters of a gap that end no line. -/
def isBlank (c : Char) : Bool :=
  isWhite c || c.toNat == 0xFEFF

/-- Passes over blanks and comments. A line comment lasts to the next line
feed; a block comment counts as a line break when it holds one. -/
def skipGap : Gap → Nat → Bool → List Char → AfterGap
  | .blockComment opened _, n, crossed, [] => ⟨[], n, crossed, some opened⟩
  | .blockComment _ inner, n, crossed, '*' :: '/' :: cs =>
    skipGap .blank (n + 2) (crossed || inner) cs
  | .blockComment opened inner, n, crossed, c :: cs =>
    skipGap (.blockComment opened (inner || c == '\n' || c == '\r')) (n + c.utf8Size) crossed cs
  | .lineComment, n, crossed, [] => ⟨[], n, crossed, none⟩
  | .lineComment, n, crossed, c :: cs =>
    if c = '\n' then skipGap .blank (n + 1) true cs
    else skipGap .lineComment (n + c.utf8Size) crossed cs
  | .blank, n, crossed, [] => ⟨[], n, crossed, none⟩
  | .blank, n, crossed, '/' :: '/' :: cs => skipGap .lineComment (n + 2) crossed cs
  | .blank, n, crossed, '/' :: '*' :: cs => skipGap (.blockComment n false) (n + 2) crossed cs
  | .blank, n, crossed, c :: cs =>
    if c = '\n' ∨ c = '\r' ∨ isLineSeparator c then skipGap .blank (n + c.utf8Size) true cs
    else if isBlank c then skipGap .blank (n + c.utf8Size) crossed cs
    else ⟨c :: cs, n, crossed, none⟩

/-! ## Numbers -/

/-- Digits and the underscores between them. -/
def isDigitOrUnderscore (c : Char) : Bool :=
  c.isDigit || c == '_'

/-- The fraction at the front of a text, its point included. -/
def fraction : List Char → List Char
  | '.' :: cs => '.' :: cs.takeWhile isDigitOrUnderscore
  | _ => []

/-- The exponent at the front of a text; there is one only when a digit
follows the mark and its sign. -/
def exponent : List Char → List Char
  | e :: cs =>
    if e = 'e' ∨ e = 'E' then
      let sign := match cs with
        | '+' :: _ => ['+']
        | '-' :: _ => ['-']
        | _ => []
      let digits := cs.drop sign.length
      if digits.head?.any Char.isDigit then e :: sign ++ digits.takeWhile isDigitOrUnderscore
      else []
    else []
  | [] => []

/-- A decimal numeral: digits, a fraction, an exponent. -/
def decimal (cs : List Char) : List Char :=
  let digits := cs.takeWhile isDigitOrUnderscore
  let places := fraction (cs.drop digits.length)
  digits ++ places ++ exponent (cs.drop (digits.length + places.length))

/-- The numeral at the front of a text. -/
def numeral : List Char → List Char
  | '0' :: x :: cs =>
    if x = 'x' ∨ x = 'X' then '0' :: x :: cs.takeWhile isHexDigit else decimal ('0' :: x :: cs)
  | cs => decimal cs

/-- A number starts with a digit, or with a point before a digit. -/
def startsNumber : List Char → Bool
  | '.' :: c :: _ => c.isDigit
  | c :: _ => c.isDigit
  | [] => false

/-! ## Strings -/

/-- What a string literal holds after its opening quote: the characters it
stands for, its length in bytes, what follows, and whether it is closed. -/
structure Quoted where
  value : List Char
  width : Nat
  rest : List Char
  closed : Bool
  deriving Repr

/-- Adds what stands before: `width` bytes that mean the characters `cs`. -/
def Quoted.after (cs : List Char) (width : Nat) (q : Quoted) : Quoted :=
  { q with value := cs ++ q.value, width := width + q.width }

/-- The control character that a letter after a backslash means; any other
character means itself. -/
def escaped : Char → Char
  | 'n' => '\n'
  | 't' => '\t'
  | 'r' => '\r'
  | '0' => '\x00'
  | 'b' => '\x08'
  | 'f' => '\x0c'
  | 'v' => '\x0b'
  | c => c

/-- The character with the given number, when there is one. -/
def scalar? (n : Nat) : Option Char :=
  if h : n.isValidChar then some (Char.ofNatAux n h) else none

/-- The character that four characters after `\u` denote: hexadecimal
digits, the first of which may be a plus sign instead. -/
def unicodeEscape? (a b c d : Char) : Option Char :=
  if (isHexDigit a || a == '+') && isHexDigit b && isHexDigit c && isHexDigit d then
    scalar? (hexNumber [a, b, c, d])
  else none

/-- Reads a string literal up to its closing quote, or up to a line break or
the end of the text when it is not closed. -/
def quoted (quote : Char) : List Char → Quoted
  | [] => ⟨[], 0, [], false⟩
  | ['\\'] => ⟨[], 1, [], false⟩
  | '\\' :: 'u' :: a :: b :: c :: d :: cs =>
    match unicodeEscape? a b c d with
    | some u => (quoted quote cs).after [u] 6
    | none => (quoted quote (a :: b :: c :: d :: cs)).after ['u'] 2
  | '\\' :: '\r' :: '\n' :: cs => (quoted quote cs).after [] 3
  | '\\' :: c :: cs =>
    if c = '\n' ∨ c = '\r' then (quoted quote cs).after [] 2
    else (quoted quote cs).after [escaped c] (1 + c.utf8Size)
  | c :: cs =>
    if c = quote then ⟨[], 1, cs, true⟩
    else if c = '\n' ∨ c = '\r' then ⟨[], 0, c :: cs, false⟩
    else (quoted quote cs).after [c] c.utf8Size

/-! ## Words and marks -/

/-- The first of the marks that the text starts with. -/
def mark? (cs : List Char) : Option TokenKind :=
  TokenKind.marks.find? fun k => k.text.toList.isPrefixOf cs

/-- A word is a keyword or a name. -/
def wordToken (word : List Char) : TokenKind × Option String :=
  match TokenKind.keyword? (String.ofList word) with
  | some k => (k, none)
  | none => (.identifier, some (String.ofList word))

/-! ## One token -/

/-- What stands at the front of a text: its kind and value, its length in
bytes, what follows, and the problem with it if there is one. -/
structure Lexeme where
  kind : TokenKind
  value : Option String
  width : Nat
  rest : List Char
  problem : Option Problem
  deriving Repr

/-- The token at the front of a text that starts with `c`. -/
def lexeme (c : Char) (cs : List Char) : Lexeme :=
  if c = '"' ∨ c = '\'' then
    let q := quoted c cs
    ⟨.string, some (String.ofList q.value), 1 + q.width, q.rest,
      if q.closed then none else some .unterminatedString⟩
  else if startsNumber (c :: cs) then
    let n := numeral (c :: cs)
    ⟨.number, some (String.ofList (n.filter (· ≠ '_'))), size n, (c :: cs).drop n.length, none⟩
  else if isNameStart c then
    let word := (c :: cs).takeWhile isNamePart
    let (kind, value) := wordToken word
    ⟨kind, value, size word, (c :: cs).drop word.length, none⟩
  else match mark? (c :: cs) with
    | some k => ⟨k, none, k.text.length, (c :: cs).drop k.text.length, none⟩
    | none => ⟨.unknown, none, c.utf8Size, cs, some .invalidCharacter⟩

/-! ## The whole text -/

/-- The tokens of a text and what is wrong with it. -/
structure Scanned where
  tokens : List Token
  errors : List SyntaxError
  deriving Repr

/-- Puts a token and the errors found with it in front. -/
def Scanned.push (t : Token) (es : List SyntaxError) (s : Scanned) : Scanned :=
  ⟨t :: s.tokens, es ++ s.errors⟩

/-- An unclosed comment is an error that reaches to the end of the text,
where the gap ends too. -/
def AfterGap.errors (g : AfterGap) : List SyntaxError :=
  match g.unclosed with
  | none => []
  | some opened => [⟨opened, g.offset - opened, .unterminatedComment⟩]

/-- The tokens from offset `n` on. Each token takes at least one character,
so the number of characters bounds the number of rounds. -/
def scanFrom : Nat → Nat → List Char → Scanned
  | 0, n, _ => ⟨[⟨.endOfFile, n, n, false, none⟩], []⟩
  | fuel + 1, n, cs =>
    let gap := skipGap .blank n false cs
    match gap.rest with
    | [] => ⟨[⟨.endOfFile, gap.offset, gap.offset, gap.crossed, none⟩], gap.errors⟩
    | c :: rest =>
      let l := lexeme c rest
      let stop := gap.offset + l.width
      let errors := match l.problem with
        | none => []
        | some p => [⟨gap.offset, l.width, p⟩]
      (scanFrom fuel stop l.rest).push ⟨l.kind, gap.offset, stop, gap.crossed, l.value⟩ errors

/-- The tokens of a text, the last of which is `endOfFile`. -/
def scan (cs : List Char) : Scanned :=
  scanFrom (cs.length + 1) 0 cs

end ScriptAnalysis.Lexer
