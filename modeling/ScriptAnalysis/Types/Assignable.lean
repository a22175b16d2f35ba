import ScriptAnalysis.Diagnostic.Problem
import ScriptAnalysis.Types.Display
import ScriptAnalysis.Types.Members

/-!
# Assignability

Whether a value of one type may be stored where another is expected. Object
types are compared by their members, not by their names. Types can refer to
themselves, so the comparison ends after `comparisonDepth` levels and then says
yes.

`elaboration?` tells which property stands in the way.
-/
namespace ScriptAnalysis.TypeTable

/-- How many levels of types inside types are compared. -/
def comparisonDepth : Nat := 32

/-- A comparison of two types. -/
abbrev Comparison := TypeId → TypeId → Bool

/-- Pairs that are related whatever the structure of the two types is. -/
def relatedOutright (strict : Bool) (source target : TypeId) : Bool :=
  source == target
    || source.isLoose
    || target == .any || target == .unknown || target == .error
    || source == .never
    || (!strict && (source == .null || source == .undefined))
    || (source == .undefined && target == .void)

/-- A source may take fewer arguments than it is given. Parameters fit when
one of the two types fits the other. -/
def signatureFits (deeper : Comparison) (source target : Signature) : Bool :=
  source.minArguments ≤ target.parameters.length
    && (source.parameters.zip target.parameters).all (fun (s, t) =>
      deeper t.type s.type || deeper s.type t.type)
    && (target.returnType == .void || deeper source.returnType target.returnType)

/-- The properties of the target are there and fit. -/
def propertiesFit (t : TypeTable) (deeper : Comparison) (source target : TypeId) : Bool :=
  (t.properties target).all fun p =>
    match t.property? source p.name with
    | some found => deeper found.type p.type
    | none => p.optional

/-- Objects fit by inheritance, or when their properties fit, a call of the
target's first signature is possible, and the source can be constructed if
the target can. `deepest` compares what stands inside signatures. -/
def objectFits (t : TypeTable) (deeper deepest : Comparison) (source target : TypeId) : Bool :=
  t.derivesFrom source target
    || (t.propertiesFit deeper source target
      && (match t.calls target with
        | [] => true
        | wanted :: _ => (t.calls source).any (signatureFits deepest · wanted))
      && ((t.constructs target).isEmpty || !(t.constructs source).isEmpty))

/-- Any value but a missing one fits an object type without members. -/
def fitsEmptyObject (source : TypeId) (shape : Shape) : Bool :=
  shape.properties.isEmpty && shape.calls.isEmpty && shape.constructs.isEmpty
    && !(source == .null || source == .undefined || source == .void)

/-- Comparison by structure, of types that are no unions. -/
def structureFits (t : TypeTable) (deeper deepest : Comparison) (source target : TypeId) : Bool :=
  match t.dataOf source, t.dataOf target with
  | .literal _, _ => t.primitive source == target
  | .array s, .array e => deeper s e
  | .object _, .object _ => t.objectFits deeper deepest source target
  | .intrinsic _, .object shape => fitsEmptyObject source shape
  | .array _, .object shape => fitsEmptyObject source shape
  | _, _ => false

/-- One level of the comparison: all members of a source union have to fit,
and one member of a target union has to be fitted. -/
def compareLevel (t : TypeTable) (strict : Bool) (deeper deepest : Comparison)
    (source target : TypeId) : Bool :=
  relatedOutright strict source target
    || match t.dataOf source, t.dataOf target with
      | .union members, _ => members.all (deeper · target)
      | _, .union members => members.any (deeper source ·)
      | _, _ => t.structureFits deeper deepest source target

/-- The comparison with a number of levels left. What stands inside the
signature of an object is two levels below it. -/
def assignableWithin (t : TypeTable) (strict : Bool) : Nat → Comparison
  | 0 => fun _ _ => true
  | 1 => t.compareLevel strict (fun _ _ => true) (fun _ _ => true)
  | n + 2 => t.compareLevel strict (assignableWithin t strict (n + 1)) (assignableWithin t strict n)

/-- Whether a value of type `source` may be stored where `target` is
expected. -/
def assignable (t : TypeTable) (strict : Bool) (source target : TypeId) : Bool :=
  t.assignableWithin strict (comparisonDepth + 1) source target

/-! ## Explanations -/

/-- What is wrong with one property of the target, if anything. -/
def propertyElaboration? (t : TypeTable) (strict : Bool) (source target : TypeId) (p : Property) :
    Option Message :=
  match t.property? source p.name with
  | none =>
    if p.optional then none
    else some (.plain (Problem.propertyMissing p.name (t.display source) (t.display target)).text)
  | some found =>
    if t.assignable strict found.type p.type then none
    else
      let detail := Message.plain
        (Problem.notAssignable (t.display found.type) (t.display p.type)).text
      some ((Message.plain ("Types of property '" ++ p.name ++ "' are incompatible.")).elaborate
        detail)

/-- Why an object does not fit: its first missing or unfit property. -/
def elaboration? (t : TypeTable) (strict : Bool) (source target : TypeId) : Option Message :=
  if (t.shape? source).isSome && (t.shape? target).isSome then
    (t.properties target).findSome? (t.propertyElaboration? strict source target)
  else none

end ScriptAnalysis.TypeTable
