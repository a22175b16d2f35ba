import ScriptAnalysis.Types.Table

/-!
# Inherited members

Objects have the properties of the types that they extend; a property of
the type itself hides those of its bases, and an earlier base hides a later
one. Types may extend each other in a circle, so the walk to the bases ends
after `maxBaseDepth` steps.
-/
namespace ScriptAnalysis.TypeTable

/-- How many steps from a type to a base are followed. -/
def maxBaseDepth : Nat := 64

/-- The types from `id` upwards, each before its bases, with at most `n`
types on a path. -/
def lineageWithin (t : TypeTable) : Nat → TypeId → List TypeId
  | 0, _ => []
  | n + 1, id => id :: (t.bases id).flatMap (lineageWithin t n)

/-- A type and all types that it inherits from, each before its bases. -/
def lineage (t : TypeTable) (id : TypeId) : List TypeId :=
  t.lineageWithin (maxBaseDepth + 1) id

/-- The property with a name, the type's own one first, then those of its
bases in order; at most `n` types on a path. -/
def propertyWithin (t : TypeTable) (name : String) : Nat → TypeId → Option Property
  | 0, _ => none
  | n + 1, id =>
    match (t.shape? id).bind (·.property? name) with
    | some property => some property
    | none => (t.bases id).findSome? (propertyWithin t name n)

/-- The property with a name, own or inherited. -/
def property? (t : TypeTable) (id : TypeId) (name : String) : Option Property :=
  t.propertyWithin name (maxBaseDepth + 1) id

/-- Adds a property unless one of its name is there. -/
def addProperty (properties : List Property) (p : Property) : List Property :=
  if properties.any (·.name == p.name) then properties else properties ++ [p]

/-- All properties, own and inherited, one for each name. -/
def properties (t : TypeTable) (id : TypeId) : List Property :=
  ((t.lineage id).flatMap fun i => ((t.shape? i).map Shape.properties).getD []).foldl
    addProperty []

def derivesWithin (t : TypeTable) (target : TypeId) : Nat → TypeId → Bool
  | 0, _ => false
  | n + 1, id => id == target || (t.bases id).any (derivesWithin t target n)

/-- Whether a type is another or inherits from it. -/
def derivesFrom (t : TypeTable) (source target : TypeId) : Bool :=
  t.derivesWithin target (maxBaseDepth + 1) source

end ScriptAnalysis.TypeTable
