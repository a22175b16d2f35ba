/-!
# Hosts

A host gives a program its files. Asking it may change what it knows (a
file system is looked at, a text is kept), so its answers are steps over a
state `σ`.
-/
namespace ScriptAnalysis

/-- Where a program gets its files from. -/
structure Host (σ : Type) where
  /-- The files that a program starts from. -/
  roots : σ → List String
  /-- The version of a file; absent when there is no such file. -/
  version : String → StateM σ (Option String)
  /-- The text of a file. -/
  snapshot : String → StateM σ (Option (List Char))
  /-- Whether an import may mean this path. -/
  isThere : σ → String → Bool
  /-- No more than this many paths are there. -/
  fileBound : σ → Nat

end ScriptAnalysis
