import ScriptAnalysis.Analysis.Frontend

/-!
# Types that a file depends on

A file depends on the types of its nodes that are, or derive from, the root
type of the consumer. A class counts as the type of its objects; functions
and literals do not count.
-/
namespace ScriptAnalysis.Dependencies

/-- How many steps from a type to a base are followed. -/
def maxDepth : Nat := 64

variable {φ : Type} (F : Frontend φ)

/-- Looks for a type that is shown as `root` among the bases of `type`, with
at most `depth` types on the way. Of several bases the last is followed
first, and no type is looked at twice: `visited` are those that were. -/
def search (s : φ) (root : String) : Nat → TypeId → List TypeId → Bool × List TypeId
  | 0, _, visited => (false, visited)
  | depth + 1, type, visited =>
    if visited.contains type then (false, visited)
    else if F.display s type == root then (true, type :: visited)
    else (F.bases s type).reverse.foldl
      (fun (found, visited) base =>
        if found then (found, visited) else search s root depth base visited)
      (false, type :: visited)

/-- Whether a type is the root type or is found to derive from it. -/
def derivesFromRoot (s : φ) (root : String) (type : TypeId) : Bool :=
  (search F s root (maxDepth + 1) type []).1

/-- The type that counts for a type: the type of the objects that it makes,
or else itself. Literals and functions do not count. -/
def trackedType? (s : φ) (type : TypeId) : Option TypeId :=
  if F.isLiteral s type || !(F.calls s type).isEmpty then none
  else some ((((F.constructs s type).head?).map Signature.returnType).getD type)

/-- What was found so far: the names, in the order in which they were met,
and the types that were classified, with the result. -/
structure Findings where
  names : List String
  classified : Table TypeId Bool

namespace Findings

def empty : Findings := ⟨[], .empty⟩

/-- Whether a type is derived from the root type. It is worked out once. -/
def classify (s : φ) (root : String) (type : TypeId) (found : Findings) : Bool × Findings :=
  match found.classified.get? type with
  | some known => (known, found)
  | none =>
    let derives := derivesFromRoot F s root type
    (derives, { found with classified := found.classified.insert type derives })

/-- A name that was met before keeps its place. -/
def addName (name : String) (found : Findings) : Findings :=
  if found.names.contains name then found else { found with names := found.names ++ [name] }

/-- Takes the type of a node into account. -/
def note (s : φ) (root : String) (type : TypeId) (found : Findings) : Findings :=
  match trackedType? F s type with
  | none => found
  | some tracked =>
    match found.classify F s root tracked with
    | (true, found) => found.addName (F.display s tracked)
    | (false, found) => found

end Findings

/-- Asks for the type of a node. A node without a type is passed over. -/
def visit (f : SourceFile) (root : String) (found : Findings) (node : NodeId) :
    StateM φ Findings := do
  match ← F.typeAt f.name node with
  | none => return found
  | some type => return found.note F (← get) root type

/-- Visits the nodes of a stack and all below them, at most so many. The
children of a node are put on top of the stack, the first uppermost. -/
def walk (f : SourceFile) (root : String) : Nat → List NodeId → Findings → StateM φ Findings
  | _, [], found => return found
  | 0, _, found => return found
  | steps + 1, node :: stack, found => do
    let found ← visit F f root found node
    walk f root steps (f.arena.children node ++ stack) found

/-- The names of the types that a file depends on, in the order in which
they are met. A walk visits no node of a file twice, so it has as many steps
as it needs. -/
def collect (f : SourceFile) (root : String) : StateM φ (List String) := do
  return (← walk F f root f.arena.size [f.root] .empty).names

end ScriptAnalysis.Dependencies
