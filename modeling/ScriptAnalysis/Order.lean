/-!
# Sorting

A stable sort by insertion: elements that are not told apart keep their
order.
-/
namespace ScriptAnalysis.Order

variable {α : Type}

/-- Puts `x` in front of the first element that it is not behind. -/
def insert (le : α → α → Bool) (x : α) : List α → List α
  | [] => [x]
  | y :: ys => if le x y then x :: y :: ys else y :: insert le x ys

/-- The elements in the order `le`. -/
def sort (le : α → α → Bool) : List α → List α
  | [] => []
  | x :: xs => insert le x (sort le xs)

/-! ## Nothing is lost or added -/

theorem perm_insert (le : α → α → Bool) (x : α) (l : List α) : (insert le x l).Perm (x :: l) := by
  induction l with
  | nil => exact .refl _
  | cons y ys ih =>
    simp only [insert]
    split
    · exact .refl _
    · exact (ih.cons y).trans (.swap x y ys)

theorem perm_sort (le : α → α → Bool) (l : List α) : (sort le l).Perm l := by
  induction l with
  | nil => exact .refl _
  | cons x xs ih => exact (perm_insert le x _).trans (ih.cons x)

/-! ## The order -/

section

variable {le : α → α → Bool} (total : ∀ a b, le a b = true ∨ le b a = true)
  (trans : ∀ a b c, le a b = true → le b c = true → le a c = true)

include total trans

theorem pairwise_insert (x : α) {l : List α} (h : l.Pairwise fun a b => le a b = true) :
    (insert le x l).Pairwise fun a b => le a b = true := by
  induction l with
  | nil => exact List.pairwise_singleton _ _
  | cons y ys ih =>
    obtain ⟨hfirst, hrest⟩ := List.pairwise_cons.1 h
    simp only [insert]
    split
    · rename_i hle
      refine List.pairwise_cons.2 ⟨fun z hz => ?_, h⟩
      rcases List.mem_cons.1 hz with rfl | hz
      · exact hle
      · exact trans x y z hle (hfirst z hz)
    · rename_i hnot
      refine List.pairwise_cons.2 ⟨fun z hz => ?_, ih hrest⟩
      rcases List.mem_cons.1 ((perm_insert le x ys).mem_iff.1 hz) with rfl | hz
      · exact (total z y).resolve_left hnot
      · exact hfirst z hz

/-- No element stands in front of a smaller one. -/
theorem pairwise_sort (l : List α) : (sort le l).Pairwise fun a b => le a b = true := by
  induction l with
  | nil => exact .nil
  | cons x xs ih => exact pairwise_insert total trans x ih

end

end ScriptAnalysis.Order
