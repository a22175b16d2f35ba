import ScriptAnalysis.Text.CharClass

/-!
# JSON with comments

People write comments and a comma behind a last element into configuration
files. `strict` takes both out, which leaves JSON; what stands between
quotes is kept as it is.
-/
namespace ScriptAnalysis.Json.Relaxed

/-- Where in a text a character stands. -/
inductive Within where
  | plain
  | quotes
  | escape
  | lineComment
  | blockComment
  deriving DecidableEq, Repr

/-- Where a character between quotes leads. -/
def afterQuoted (c : Char) : Within :=
  if c = '\\' then .escape else if c = '"' then .plain else .quotes

/-- Leaves out the comments. A line comment ends before a line feed, and the
line feeds of a block comment stay. -/
def stripFrom : Within → List Char → List Char
  | _, [] => []
  | .lineComment, c :: rest =>
    if c = '\n' then c :: stripFrom .plain rest else stripFrom .lineComment rest
  | .blockComment, '*' :: '/' :: rest => stripFrom .plain rest
  | .blockComment, c :: rest =>
    if c = '\n' then c :: stripFrom .blockComment rest else stripFrom .blockComment rest
  | .escape, c :: rest => c :: stripFrom .quotes rest
  | .quotes, c :: rest => c :: stripFrom (afterQuoted c) rest
  | .plain, '/' :: '/' :: rest => stripFrom .lineComment rest
  | .plain, '/' :: '*' :: rest => stripFrom .blockComment rest
  | .plain, c :: rest => c :: stripFrom (if c = '"' then .quotes else .plain) rest

/-- Leaves out the comments. -/
def stripComments (cs : List Char) : List Char :=
  stripFrom .plain cs

/-- Whether the next visible character closes an array or an object. -/
def closesNext (cs : List Char) : Bool :=
  match cs.dropWhile Text.isWhite with
  | c :: _ => c == '\x7d' || c == ']'
  | [] => false

/-- Leaves out the commas in front of a closing bracket. -/
def dropCommasFrom : Within → List Char → List Char
  | _, [] => []
  | .escape, c :: rest => c :: dropCommasFrom .quotes rest
  | .quotes, c :: rest => c :: dropCommasFrom (afterQuoted c) rest
  | _, c :: rest =>
    if c = '"' then c :: dropCommasFrom .quotes rest
    else if c = ',' && closesNext rest then dropCommasFrom .plain rest
    else c :: dropCommasFrom .plain rest

/-- Leaves out the commas in front of a closing bracket. -/
def dropTrailingCommas (cs : List Char) : List Char :=
  dropCommasFrom .plain cs

/-- The JSON text in a text with comments. -/
def strict (cs : List Char) : List Char :=
  dropTrailingCommas (stripComments cs)

end ScriptAnalysis.Json.Relaxed
