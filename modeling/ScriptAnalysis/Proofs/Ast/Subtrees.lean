import Mathlib.Data.Set.Lattice
import Mathlib.Order.CompletePartialOrder
import ScriptAnalysis.Proofs.Ast.Forest

/-!
# The parts of a forest

`a.under nodes` is what stands below and including some nodes. In a forest
the children of one node have nothing below them in common (`Siblings`), so a
walk from the parent to its children goes through separate parts.

**Results.**
* `Forest.siblings`: the children of a node are siblings, and so are some of
  them.
* `Siblings.append`: siblings in two groups have separate parts.
* `Forest.not_mem_under`: a node is not below its children.
-/
namespace ScriptAnalysis.Arena

/-- The nodes below and including some nodes. -/
def under (a : Arena) (nodes : List NodeId) : Set NodeId :=
  {n | ∃ i ∈ nodes, a.Reaches i n}

/-- Nodes with nothing below them in common. -/
def Siblings (a : Arena) (nodes : List NodeId) : Prop :=
  nodes.Pairwise fun i j => Disjoint (a.under [i]) (a.under [j])

section

variable {a : Arena} {i j n p : NodeId} {nodes nodes' : List NodeId}

theorem mem_under_singleton : n ∈ a.under [i] ↔ a.Reaches i n := by
  simp [under]

theorem under_append (nodes nodes' : List NodeId) :
    a.under (nodes ++ nodes') = a.under nodes ∪ a.under nodes' := by
  ext n
  simp only [under, Set.mem_union, Set.mem_ofPred_eq, List.mem_append, or_and_right, exists_or]

theorem under_mono (h : nodes ⊆ nodes') : a.under nodes ⊆ a.under nodes' :=
  fun _ ⟨i, hi, hn⟩ => ⟨i, h hi, hn⟩

theorem self_mem_under (i : NodeId) : i ∈ a.under [i] :=
  mem_under_singleton.2 .refl

/-- What is below the children is below the node. -/
theorem under_children_subset (i : NodeId) : a.under (a.children i) ⊆ a.under [i] :=
  fun _ ⟨_, hc, hn⟩ => mem_under_singleton.2 (.head hc hn)

theorem Siblings.sublist (h : a.Siblings nodes') (hs : nodes.Sublist nodes') : a.Siblings nodes :=
  List.Pairwise.sublist hs h

theorem Siblings.append (h : a.Siblings (nodes ++ nodes')) :
    a.Siblings nodes ∧ a.Siblings nodes' ∧ Disjoint (a.under nodes) (a.under nodes') := by
  obtain ⟨hfirst, hsecond, hacross⟩ := List.pairwise_append.1 h
  refine ⟨hfirst, hsecond, Set.disjoint_left.2 ?_⟩
  rintro n ⟨i, hi, hin⟩ ⟨j, hj, hjn⟩
  exact Set.disjoint_left.1 (hacross i hi j hj) (mem_under_singleton.2 hin)
    (mem_under_singleton.2 hjn)

/-- Of two nodes above a third one is above the other, since a node has one
parent at most. -/
theorem Forest.reaches_or_reaches {roots : List NodeId} (h : a.Forest roots)
    (hi : a.Reaches i n) (hj : a.Reaches j n) : a.Reaches i j ∨ a.Reaches j i := by
  induction hi with
  | refl => exact .inr hj
  | tail hm hn ih =>
    rcases Relation.ReflTransGen.cases_tail hj with rfl | ⟨m, hjm, hmn⟩
    · exact .inl (hm.tail hn)
    · rw [h.parent_unique hmn hn] at hjm
      exact ih hjm

theorem Forest.not_reaches_sibling {roots : List NodeId} (h : a.Forest roots)
    (hi : i ∈ a.children p) (hj : j ∈ a.children p) (hne : i ≠ j) : ¬ a.Reaches i j := by
  intro hreaches
  rcases Relation.ReflTransGen.cases_tail hreaches with rfl | ⟨m, him, hmj⟩
  · exact hne rfl
  · rw [h.parent_unique hmj hj] at him
    exact Nat.lt_irrefl _ (Nat.lt_of_lt_of_le (h.below p i hi) (h.le_of_reaches him))

/-- The children of a node have nothing below them in common. -/
theorem Forest.siblings {roots : List NodeId} (h : a.Forest roots) (p : NodeId) :
    a.Siblings (a.children p) := by
  refine (h.nodup_children p).imp_of_mem fun hi hj hne => Set.disjoint_left.2 fun n hin hjn => ?_
  rcases h.reaches_or_reaches (mem_under_singleton.1 hin) (mem_under_singleton.1 hjn) with hij | hji
  · exact h.not_reaches_sibling hi hj hne hij
  · exact h.not_reaches_sibling hj hi hne.symm hji

theorem Forest.not_mem_under {roots : List NodeId} (h : a.Forest roots) (i : NodeId) :
    i ∉ a.under (a.children i) := by
  rintro ⟨c, hc, hreaches⟩
  exact Nat.lt_irrefl _ (Nat.lt_of_lt_of_le (h.below i c hc) (h.le_of_reaches hreaches))

end

end ScriptAnalysis.Arena
