import ScriptAnalysis.Text

/-!
# Descriptions of types

A consumer of the analysis knows types by name and by the number of array
levels around them. `TypeDescriptor.ofDisplay` reads both off the shown
form of a type.
-/
namespace ScriptAnalysis

/-- A named type in a number of arrays. -/
structure TypeDescriptor where
  name : String
  dimensions : Nat
  deriving DecidableEq, Repr, Inhabited

namespace TypeDescriptor

/-- What stands between the members of a union. -/
def separator : List Char := " | ".toList

/-- What marks an array. -/
def arrayMark : List Char := "[]".toList

/-- One member of a union. Every mark counts, wherever it stands. -/
def ofMember (member : List Char) : TypeDescriptor :=
  ⟨String.ofList (Text.replace arrayMark [] member), Text.occurrences arrayMark member⟩

/-- The members of a shown type, in order. -/
def ofDisplay (display : String) : List TypeDescriptor :=
  (Text.splitOn separator display.toList).map ofMember

end TypeDescriptor

end ScriptAnalysis
