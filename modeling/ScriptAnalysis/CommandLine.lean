import ScriptAnalysis.Server.ResponseCache
import ScriptAnalysis.Text

/-!
# The command line

The server is started with a project directory and two options,
`--root-type` and `--cache-ttl-ms`. An option takes the next word or what
follows `=` as its value; after `--` no word is an option.

A word is read in two steps. It is noted when it is met and judged when the
next one is noted, so a word that is no argument at all is reported before
a bad word in front of it. A value that follows `=` is judged at once.
-/
namespace ScriptAnalysis

/-- What the server is started with. -/
structure ServerArguments where
  projectDir : String
  rootType : String
  cacheTtl : Nat
  deriving DecidableEq, Repr, Inhabited

/-- The type at the root of the classes of the consumer. -/
def defaultRootType : String := "UObject"

/-- Why the server is not started. -/
inductive UsageError where
  | missingProject
  | unknownArgument
  | missingValue
  | invalidNumber
  | repeatedOption
  | needlessValue
  | helpWanted
  | versionWanted
  deriving DecidableEq, Repr

namespace CommandLine

/-- The options that take a value. -/
inductive Setting where
  | rootType
  | cacheTtl
  deriving DecidableEq, Repr

/-- A noted word: the project, or an option with the value that has come. -/
inductive Noted where
  | project (dir : String)
  | setting (s : Setting) (value : Option String)
  deriving DecidableEq, Repr

/-- What has been read: the values that were judged and a noted word. -/
structure Reading where
  project : Option String
  rootType : Option String
  cacheTtl : Option Nat
  noted : Option Noted
  deriving DecidableEq, Repr

def Reading.start : Reading := ⟨none, none, none, none⟩

/-- The kinds of words. -/
inductive Word where
  | separator
  | long (name : List Char) (value : Option (List Char))
  | short (flags : List Char)
  | plain
  deriving DecidableEq, Repr

/-- The kind of a word. A lone `-` is no option. -/
def Word.ofText : List Char → Word
  | ['-', '-'] => .separator
  | '-' :: '-' :: rest =>
    match rest.dropWhile (· != '=') with
    | [] => .long rest none
    | _ :: value => .long (rest.takeWhile (· != '=')) (some value)
  | '-' :: c :: rest => .short (c :: rest)
  | _ => .plain

/-- Digits after an optional plus sign, for a number of 64 bits. -/
def number64? (cs : List Char) : Option Nat :=
  let digits := match cs with
    | '+' :: rest => rest
    | _ => cs
  if digits.isEmpty || !digits.all Char.isDigit then none
  else
    let n := digits.foldl (fun n c => 10 * n + (c.toNat - '0'.toNat)) 0
    if n < Nat.pow 2 64 then some n else none

/-- Judges the noted word. -/
def settle (r : Reading) : Except UsageError Reading :=
  let done := { r with noted := none }
  match r.noted with
  | none => return r
  | some (.project dir) =>
    if dir.isEmpty then throw .missingValue else return { done with project := some dir }
  | some (.setting _ none) => throw .missingValue
  | some (.setting .rootType (some value)) =>
    if r.rootType.isSome then throw .repeatedOption
    else return { done with rootType := some value }
  | some (.setting .cacheTtl (some value)) =>
    if r.cacheTtl.isSome then throw .repeatedOption
    else match number64? value.toList with
      | none => throw .invalidNumber
      | some n => return { done with cacheTtl := some n }

/-- Notes a word after judging the one before it. -/
def note (r : Reading) (n : Noted) : Except UsageError Reading := do
  return { ← settle r with noted := some n }

/-- Whether a project has been met. -/
def hasProject (r : Reading) : Bool :=
  match r.noted with
  | some (.project _) => true
  | _ => r.project.isSome

/-- Takes a word as the project. -/
def takeProject (r : Reading) (word : String) : Except UsageError Reading :=
  if hasProject r then throw .unknownArgument else note r (.project word)

/-- Asks for help or the version, which no bad value may stand in front of. -/
def stopWith (r : Reading) (e : UsageError) : Except UsageError Reading := do
  let _ ← settle r
  throw e

/-- Takes an option with the value that follows `=`, if there is one. -/
def takeSetting (r : Reading) (s : Setting) : Option (List Char) → Except UsageError Reading
  | none => note r (.setting s none)
  | some value => do settle (← note r (.setting s (some (String.ofList value))))

/-- Takes an option that is written with its whole name. -/
def takeLong (r : Reading) (name : List Char) (value : Option (List Char)) :
    Except UsageError Reading :=
  if name = "root-type".toList then takeSetting r .rootType value
  else if name = "cache-ttl-ms".toList then takeSetting r .cacheTtl value
  else if name = "help".toList then
    if value.isSome then throw .needlessValue else stopWith r .helpWanted
  else if name = "version".toList then
    if value.isSome then throw .needlessValue else stopWith r .versionWanted
  else throw .unknownArgument

/-- Takes a word with one dash; its first letter decides. -/
def takeShort (r : Reading) (flags : List Char) : Except UsageError Reading :=
  match flags with
  | 'h' :: _ => stopWith r .helpWanted
  | 'V' :: _ => stopWith r .versionWanted
  | _ => throw .unknownArgument

/-- Takes a word that is no option: the value of the option before it, or
the project. -/
def takePlain (r : Reading) (word : String) : Except UsageError Reading :=
  match r.noted with
  | some (.setting s none) => return { r with noted := some (.setting s (some word)) }
  | _ => takeProject r word

/-- Takes the words in order; `only` says that no option can follow. -/
def takeAll : Reading → Bool → List String → Except UsageError Reading
  | r, _, [] => settle r
  | r, true, word :: rest => do takeAll (← takeProject r word) true rest
  | r, false, word :: rest =>
    match Word.ofText word.toList with
    | .separator => takeAll r true rest
    | .long name value => do takeAll (← takeLong r name value) false rest
    | .short flags => do takeAll (← takeShort r flags) false rest
    | .plain => do takeAll (← takePlain r word) false rest

/-- Reads the words after the name of the program. -/
def parse (words : List String) : Except UsageError ServerArguments := do
  let r ← takeAll .start false words
  match r.project with
  | none => throw .missingProject
  | some dir =>
    return ⟨dir, r.rootType.getD defaultRootType, r.cacheTtl.getD ResponseCache.defaultTtl⟩

end CommandLine

/-- The shapes of log lines. -/
inductive LogFormat where
  | text
  | tree
  | json
  deriving DecidableEq, Repr

/-- The format with a name; case does not matter, and every other name
means plain text. -/
def LogFormat.ofName (name : String) : LogFormat :=
  let cs := Text.lowerAscii name.toList
  if cs = "tree".toList then .tree
  else if cs = "json".toList then .json
  else .text

end ScriptAnalysis
