import Mathlib.Data.List.Nodup
import Mathlib.Data.List.Perm.Subperm
import Mathlib.Logic.Relation
import ScriptAnalysis.Ast

/-!
# Arenas as forests

`Forest a roots`: in the arena `a` every child stands before its parent, and
no node is referred to twice, whether by two nodes, by two fields of one
node or by a node and `roots`. The roots are nodes that somebody holds in
order to refer to them later; `Forest a []` says it of `a` alone.

**Walks.** `Walk a i visited pending` are the states of a walk that starts at
`i`, takes any node that it knows of next and gets to know its children.
Nothing is said about the order, so depth first, breadth first and all in
between are such walks.

**Results.**
* `Forest.push`: a node that takes roots for its children becomes a root in
  their place.
* `Forest.walk`: a walk in a forest meets no node twice, so it comes to an
  end, and then it has met exactly what can be reached.
* `Forest.walk_preorder`: `Arena.preorder` is such a walk, to its end.
-/
namespace ScriptAnalysis.Arena

/-- The child references of all nodes, in all fields. -/
def references (a : Arena) : List NodeId :=
  a.toList.flatMap (·.form.children)

/-- Children stand before their parents, and no node is referred to twice.
`roots` are nodes that are there and that no node refers to. -/
structure Forest (a : Arena) (roots : List NodeId) : Prop where
  below : ∀ i, ∀ c ∈ a.children i, c < i
  once : (a.references ++ roots).Nodup
  there : ∀ r ∈ roots, r < a.size

/-! ## Children and references -/

section

variable {a : Arena} {i j c : NodeId} {roots : List NodeId}

theorem children_of_lt (h : i < a.size) : a.children i = a[i].form.children := by
  simp [children, form?, h]

theorem children_of_le (h : a.size ≤ i) : a.children i = [] := by
  simp [children, form?, h]

theorem children_of_form? {form : Form} (h : a.form? i = some form) :
    a.children i = form.children := by
  simp [children, h]

theorem form?_of_functionOf? {p : FunctionParts} (h : a.functionOf? i = some p) :
    ∃ kind, a.form? i = some (.function kind p) := by
  unfold functionOf? at h
  split at h
  · cases h
    exact ⟨_, ‹_›⟩
  · cases h

theorem form?_of_parameterOf? {p : ParameterParts} (h : a.parameterOf? i = some p) :
    a.form? i = some (.parameter p) := by
  unfold parameterOf? at h
  split at h
  · cases h
    assumption
  · cases h

theorem lt_size_of_mem_children (h : c ∈ a.children i) : i < a.size := by
  by_contra hi
  rw [children_of_le (Nat.le_of_not_lt hi)] at h
  cases h

theorem mem_references : c ∈ a.references ↔ ∃ i, c ∈ a.children i := by
  unfold references
  rw [List.mem_flatMap]
  constructor
  · rintro ⟨node, hnode, hc⟩
    obtain ⟨i, hi, rfl⟩ := List.mem_iff_getElem.1 hnode
    exact ⟨i, by rw [children_of_lt (by simpa using hi)]; simpa using hc⟩
  · rintro ⟨i, hc⟩
    have hi := lt_size_of_mem_children hc
    rw [children_of_lt hi] at hc
    exact ⟨a[i], Array.getElem_mem_toList hi, hc⟩

theorem children_push (a : Arena) (node : Node) (i : NodeId) :
    Arena.children (a.push node) i = if i = a.size then node.form.children else a.children i := by
  unfold children form?
  rw [Array.getElem?_push]
  split <;> rfl

theorem references_push (a : Arena) (node : Node) :
    Arena.references (a.push node) = a.references ++ node.form.children := by
  simp [references]

/-! ## Forests -/

theorem forest_empty : Forest #[] [] :=
  ⟨fun i c hc => (by rw [children_of_le (Nat.zero_le i)] at hc; cases hc), List.nodup_nil,
    fun r hr => (by cases hr)⟩

/-- Roots may be forgotten. -/
theorem Forest.sublist {roots' : List NodeId} (h : Forest a roots) (hs : roots'.Sublist roots) :
    Forest a roots' :=
  ⟨h.below, h.once.sublist (hs.append_left _), fun r hr => h.there r (hs.subset hr)⟩

theorem Forest.lt_size (h : Forest a roots) (hc : c ∈ a.references) : c < a.size := by
  obtain ⟨i, hi⟩ := mem_references.1 hc
  exact Nat.lt_trans (h.below i c hi) (lt_size_of_mem_children hi)

/-- A node that is made of roots is a root in their place. -/
theorem Forest.push (node : Node) (h : Forest a (roots ++ node.form.children)) :
    Forest (a.push node) (roots ++ [a.size]) where
  below i c hc := by
    rw [children_push] at hc
    split at hc
    · rename_i hi
      rw [hi]
      exact h.there c (List.mem_append_right _ hc)
    · exact h.below i c hc
  once := by
    have hmoved : (a.references ++ node.form.children ++ roots).Nodup := by
      rw [List.append_assoc, ((List.perm_append_comm).append_left _).nodup_iff]
      exact h.once
    -- the new node is none of the nodes that were there
    have hnew : a.size ∉ a.references ++ node.form.children ++ roots := fun hmem => by
      simp only [List.mem_append] at hmem
      rcases hmem with (hmem | hmem) | hmem
      · exact Nat.lt_irrefl _ (h.lt_size hmem)
      · exact Nat.lt_irrefl _ (h.there _ (List.mem_append_right _ hmem))
      · exact Nat.lt_irrefl _ (h.there _ (List.mem_append_left _ hmem))
    rw [references_push, ← List.append_assoc]
    exact hmoved.append (List.nodup_singleton _) (List.disjoint_singleton.2 hnew)
  there r hr := by
    rw [Array.size_push]
    rcases List.mem_append.1 hr with hr | hr
    · exact Nat.lt_succ_of_lt (h.there r (List.mem_append_left _ hr))
    · rw [List.mem_singleton.1 hr]
      exact Nat.lt_succ_self _

theorem Forest.nodup_children (h : Forest a roots) (i : NodeId) : (a.children i).Nodup := by
  by_cases hi : i < a.size
  · rw [children_of_lt hi]
    exact (List.nodup_flatMap.1 (List.Nodup.of_append_left h.once)).1 _
      (Array.getElem_mem_toList hi)
  · rw [children_of_le (Nat.le_of_not_lt hi)]
    exact List.nodup_nil

/-- A node has one parent at most. -/
theorem Forest.parent_unique (h : Forest a roots) (hi : c ∈ a.children i) (hj : c ∈ a.children j) :
    i = j := by
  have hdisjoint := (List.nodup_flatMap.1 (List.Nodup.of_append_left h.once)).2
  have apart : ∀ {i j : NodeId}, i < j → c ∈ a.children i → c ∉ a.children j := by
    intro i j hlt hi hj
    have hjs := lt_size_of_mem_children hj
    have his := Nat.lt_trans hlt hjs
    rw [children_of_lt his] at hi
    rw [children_of_lt hjs] at hj
    exact List.pairwise_iff_getElem.1 hdisjoint i j (by simpa using his) (by simpa using hjs) hlt
      (by simpa using hi) (by simpa using hj)
  rcases Nat.lt_trichotomy i j with hlt | heq | hlt
  · exact absurd hj (apart hlt hi)
  · exact heq
  · exact absurd hi (apart hlt hj)

end

/-! ## Walks -/

/-- `j` is `i` or below it. -/
def Reaches (a : Arena) : NodeId → NodeId → Prop :=
  Relation.ReflTransGen fun i c => c ∈ a.children i

/-- A walk that has started at `i` and visited some nodes in this order.
The nodes that it knows of and has not visited are `pending`; it takes any
of them next. -/
inductive Walk (a : Arena) (i : NodeId) : List NodeId → List NodeId → Prop
  | start : Walk a i [] [i]
  | visit {visited pending rest : List NodeId} {j : NodeId} (h : Walk a i visited pending)
      (hj : pending.Perm (j :: rest)) : Walk a i (visited ++ [j]) (a.children j ++ rest)

section

variable {a : Arena} {i j : NodeId} {visited pending : List NodeId}

theorem Forest.le_of_reaches {roots : List NodeId} (h : Forest a roots) (hj : a.Reaches i j) :
    j ≤ i := by
  induction hj with
  | refl => exact Nat.le_refl i
  | tail _ hc ih => exact Nat.le_trans (Nat.le_of_lt (h.below _ _ hc)) ih

/-- What a walk has visited or knows of: nodes below its start, each once,
each but the start as a child of a node that was visited; and all children
of these. -/
structure Met (a : Arena) (i : NodeId) (visited pending : List NodeId) : Prop where
  once : (visited ++ pending).Nodup
  start : i ∈ visited ++ pending
  reached : ∀ j ∈ visited ++ pending, a.Reaches i j
  parent : ∀ j ∈ visited ++ pending, j = i ∨ ∃ p ∈ visited, j ∈ a.children p
  closed : ∀ p ∈ visited, ∀ c ∈ a.children p, c ∈ visited ++ pending

/-- The order of the nodes that are pending does not matter. -/
theorem Met.perm {pending' : List NodeId} (h : Met a i visited pending)
    (hp : pending.Perm pending') : Met a i visited pending' := by
  have hall : ∀ j, j ∈ visited ++ pending' ↔ j ∈ visited ++ pending := fun j =>
    ((hp.append_left visited).mem_iff).symm
  exact
    { once := (hp.append_left visited).nodup_iff.1 h.once
      start := (hall i).2 h.start
      reached := fun j hj => h.reached j ((hall j).1 hj)
      parent := fun j hj => h.parent j ((hall j).1 hj)
      closed := fun p hp c hc => (hall c).2 (h.closed p hp c hc) }

/-- The children of a node that is pending are new to the walk: the start
is above them, and all other nodes have another parent. -/
theorem Met.child_new {rest : List NodeId} (h : Met a i visited (j :: rest)) (hf : Forest a [])
    {c : NodeId} (hc : c ∈ a.children j) : c ∉ visited ++ j :: rest := by
  have hj : j ∈ visited ++ j :: rest := List.mem_append_right _ List.mem_cons_self
  intro hmem
  rcases h.parent c hmem with rfl | ⟨p, hp, hcp⟩
  · exact Nat.lt_irrefl _ (Nat.lt_of_lt_of_le (hf.below j c hc) (hf.le_of_reaches (h.reached j hj)))
  · rw [hf.parent_unique hcp hc] at hp
    exact (List.nodup_append.1 h.once).2.2 j hp j List.mem_cons_self rfl

theorem Met.visit {rest : List NodeId} (h : Met a i visited (j :: rest)) (hf : Forest a []) :
    Met a i (visited ++ [j]) (a.children j ++ rest) := by
  have hj : j ∈ visited ++ j :: rest := List.mem_append_right _ List.mem_cons_self
  have hperm : (visited ++ [j] ++ (a.children j ++ rest)).Perm
      (a.children j ++ (visited ++ j :: rest)) := by
    have hfirst : (visited ++ [j] ++ (a.children j ++ rest)).Perm
        (a.children j ++ (visited ++ [j]) ++ rest) := by
      rw [← List.append_assoc]
      exact List.perm_append_comm.append_right rest
    simpa using hfirst
  have hall : ∀ {x}, x ∈ visited ++ [j] ++ (a.children j ++ rest) ↔
      x ∈ a.children j ∨ x ∈ visited ++ j :: rest := fun {x} => by
    rw [hperm.mem_iff, List.mem_append]
  refine ⟨?_, hall.2 (.inr h.start), fun x hx => ?_, fun x hx => ?_, fun p hp c hc => hall.2 ?_⟩
  · rw [hperm.nodup_iff]
    exact (hf.nodup_children j).append h.once fun c hc hmem => h.child_new hf hc hmem
  · rcases hall.1 hx with hx | hx
    · exact (h.reached j hj).tail hx
    · exact h.reached x hx
  · rcases hall.1 hx with hx | hx
    · exact .inr ⟨j, List.mem_append_right _ (List.mem_singleton_self j), hx⟩
    · exact (h.parent x hx).imp id fun ⟨p, hp, hc⟩ => ⟨p, List.mem_append_left _ hp, hc⟩
  · rcases List.mem_append.1 hp with hp | hp
    · exact .inr (h.closed p hp c hc)
    · rw [List.mem_singleton.1 hp] at hc
      exact .inl hc

theorem Forest.met (hf : Forest a []) (h : Walk a i visited pending) :
    Met a i visited pending := by
  induction h with
  | start =>
    exact
      { once := List.nodup_singleton i
        start := List.mem_singleton_self i
        reached := fun j hj => List.mem_singleton.1 hj ▸ .refl
        parent := fun j hj => .inl (List.mem_singleton.1 hj)
        closed := fun p hp => by cases hp }
  | visit _ hj ih => exact (ih.perm hj).visit hf

/-- A walk in a forest visits no node twice, and none above its start, so it
comes to an end; then it has visited what can be reached. -/
theorem Forest.walk (hf : Forest a []) (h : Walk a i visited pending) :
    visited.Nodup ∧ visited.length ≤ i + 1 ∧
      (pending = [] → ∀ j, j ∈ visited ↔ a.Reaches i j) := by
  have hmet := hf.met h
  have honce := List.Nodup.of_append_left hmet.once
  refine ⟨honce, ?_, ?_⟩
  · have hsub : visited ⊆ List.range (i + 1) := fun j hj =>
      List.mem_range.2 (Nat.lt_succ_of_le
        (hf.le_of_reaches (hmet.reached j (List.mem_append_left _ hj))))
    simpa using (honce.subperm hsub).length_le
  · rintro rfl j
    have hstart := hmet.start
    have hreached := hmet.reached
    have hclosed := hmet.closed
    rw [List.append_nil] at hstart hreached hclosed
    refine ⟨hreached j, fun hj => ?_⟩
    induction hj with
    | refl => exact hstart
    | tail _ hc ih => exact hclosed _ ih _ hc

/-- Walking through some of the pending nodes and all below them, parents
first. -/
theorem Forest.walk_preorderWithin (hf : Forest a []) (depth : Nat) (nodes : List NodeId)
    {rest : List NodeId} (hd : ∀ j ∈ nodes, j < depth) (h : Walk a i visited (nodes ++ rest)) :
    Walk a i (visited ++ nodes.flatMap (a.preorderWithin depth)) rest := by
  induction depth generalizing nodes visited rest with
  | zero =>
    cases nodes with
    | nil => simpa using h
    | cons j nodes => exact absurd (hd j List.mem_cons_self) (Nat.not_lt_zero j)
  | succ depth ihd =>
    induction nodes generalizing visited with
    | nil => simpa using h
    | cons j nodes ih =>
      have hchildren : ∀ c ∈ a.children j, c < depth := fun c hc =>
        Nat.lt_of_lt_of_le (hf.below j c hc) (Nat.le_of_lt_succ (hd j List.mem_cons_self))
      have hbelow := ihd (a.children j) hchildren (h.visit (List.Perm.refl _))
      have hrest := ih (fun k hk => hd k (List.mem_cons_of_mem _ hk)) hbelow
      simpa [preorderWithin] using hrest

/-- The nodes below a node, parents first, are a walk to its end. -/
theorem Forest.walk_preorder (hf : Forest a []) (hi : i < a.size) :
    Walk a i (a.preorder i) [] := by
  have h := hf.walk_preorderWithin a.size [i] (fun j hj => List.mem_singleton.1 hj ▸ hi)
    (show a.Walk i [] ([i] ++ []) from .start)
  simpa [preorder] using h

end

end ScriptAnalysis.Arena
