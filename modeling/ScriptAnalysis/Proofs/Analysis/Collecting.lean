import ScriptAnalysis.Analysis.Scripted
import ScriptAnalysis.Proofs.Analysis.Frontends
import ScriptAnalysis.Proofs.Parsing.Forest

/-!
# What is collected from a file

A collection walks over the nodes of a file with a stack, remembers which
types it has classified, and adds a name when it meets it first. What it
gives depends on none of this: a name is there when some node below the root
counts under it, and the names stand in the order of the first such nodes.

**Hypothesis.** `Steady`: while the types of the nodes are asked for, one
after the other, the frontend does not change its answers.

**Results.**
* `Arena.pairwise_preorder`: the order of a walk, said by the tree alone.
* `walk_eq_foldlM`: the walk with a stack visits the nodes in that order, and
  all of them.
* `Sound.meet`: what a visit adds, whatever was remembered before.
* `Collected.foldl_meet`: by it, what stands in the list after any number of
  visits.
* `collect_exact`: what is collected from a parsed file.
-/
namespace ScriptAnalysis

/-! ## The order of the nodes -/

namespace Arena

variable {a : Arena} {i j : NodeId}

/-- A node comes before what is below it; and what is below a child comes
before what is below a later one. -/
inductive Precedes (a : Arena) (i j : NodeId) : Prop
  | above {child : NodeId} (hchild : child ∈ a.children i) (hj : a.Reaches child j)
  | aside {parent earlier later : NodeId} (hsides : [earlier, later].Sublist (a.children parent))
      (hi : a.Reaches earlier i) (hj : a.Reaches later j)

theorem reaches_of_mem_preorderWithin {depth : Nat} (h : j ∈ a.preorderWithin depth i) :
    a.Reaches i j := by
  induction depth generalizing i with
  | zero => cases h
  | succ depth ih =>
    rcases List.mem_cons.1 h with rfl | h
    · exact .refl
    · obtain ⟨c, hc, hj⟩ := List.mem_flatMap.1 h
      exact .head hc (ih hj)

theorem pairwise_preorderWithin (depth : Nat) (i : NodeId) :
    (a.preorderWithin depth i).Pairwise a.Precedes := by
  induction depth generalizing i with
  | zero => exact .nil
  | succ depth ih =>
    refine List.pairwise_cons.2 ⟨fun j hj => ?_, List.pairwise_flatMap.2 ⟨fun c _ => ih c, ?_⟩⟩
    · obtain ⟨c, hc, hj⟩ := List.mem_flatMap.1 hj
      exact .above hc (reaches_of_mem_preorderWithin hj)
    · refine List.pairwise_iff_forall_sublist.2 fun hsides j hj k hk => ?_
      exact .aside hsides (reaches_of_mem_preorderWithin hj) (reaches_of_mem_preorderWithin hk)

/-- In a walk through a tree nodes come before each other as they stand in
the tree. -/
theorem pairwise_preorder (i : NodeId) : (a.preorder i).Pairwise a.Precedes :=
  pairwise_preorderWithin a.size i

end Arena

namespace Dependencies

variable {φ : Type} {F : Frontend φ} {f : SourceFile} {root : String} {s t : φ}

/-! ## What is meant to be collected -/

/-- A node counts under a name: it has a type, which is neither a literal nor
callable, and the type that is tracked for it is classified as derived from
the root type and shown by that name. Tracked is the type of the objects that
a type makes, or else the type itself. -/
def Counts (F : Frontend φ) (s : φ) (f : SourceFile) (root : String) (node : NodeId)
    (name : String) : Prop :=
  ∃ type tracked, (F.typeAt f.name node s).1 = some type ∧
    F.isLiteral s type = false ∧ F.calls s type = [] ∧
    tracked = (((F.constructs s type).head?).map Signature.returnType).getD type ∧
    derivesFromRoot F s root tracked = true ∧ F.display s tracked = name

/-- In both states the frontend answers alike. -/
structure SameAnswers (F : Frontend φ) (path : String) (s t : φ) : Prop where
  typeAt : ∀ node, (F.typeAt path node t).1 = (F.typeAt path node s).1
  display : F.display t = F.display s
  bases : F.bases t = F.bases s
  isLiteral : F.isLiteral t = F.isLiteral s
  calls : F.calls t = F.calls s
  constructs : F.constructs t = F.constructs s

/-- The state after the types of some nodes were asked for. -/
def askAll (F : Frontend φ) (path : String) (nodes : List NodeId) (s : φ) : φ :=
  nodes.foldl (fun s node => (F.typeAt path node s).2) s

/-- The answers do not change while the nodes of a file are asked for. -/
def Steady (F : Frontend φ) (s : φ) (f : SourceFile) : Prop :=
  ∀ asked, asked <+: f.arena.preorder f.root → SameAnswers F f.name s (askAll F f.name asked s)

/-! ## The walk -/

/-- Walking with a stack is visiting the nodes one after the other, parents
before children. -/
theorem walk_eq_foldlM (hf : f.arena.Forest []) (depth : Nat) (nodes rest : List NodeId)
    (hdepth : ∀ j ∈ nodes, j < depth) (steps : Nat) (found : Findings) :
    walk F f root (steps + (nodes.flatMap (f.arena.preorderWithin depth)).length) (nodes ++ rest)
        found =
      (nodes.flatMap (f.arena.preorderWithin depth)).foldlM (visit F f root) found >>=
        walk F f root steps rest := by
  induction depth generalizing nodes rest steps found with
  | zero =>
    cases nodes with
    | nil => simp
    | cons j nodes => exact absurd (hdepth j List.mem_cons_self) (Nat.not_lt_zero j)
  | succ depth ihd =>
    induction nodes generalizing steps found with
    | nil => simp
    | cons j nodes ih =>
      have hchildren : ∀ c ∈ f.arena.children j, c < depth := fun c hc =>
        Nat.lt_of_lt_of_le (hf.below j c hc) (Nat.le_of_lt_succ (hdepth j List.mem_cons_self))
      have hnodes : ∀ k ∈ nodes, k < depth + 1 := fun k hk => hdepth k (List.mem_cons_of_mem j hk)
      rw [List.flatMap_cons, List.foldlM_append, List.length_append, Arena.preorderWithin,
        List.length_cons, List.foldlM_cons, bind_assoc, bind_assoc]
      -- one step for the node, some for what is below it, and the others for the rest
      rw [show ∀ m k : Nat, steps + (m + 1 + k) = (steps + k + m) + 1 by omega]
      refine congrArg (visit F f root found j >>= ·) (funext fun found => ?_)
      rw [ihd _ _ hchildren]
      refine congrArg (_ >>= ·) (funext fun found => ?_)
      exact ih hnodes steps found

/-- The number of nodes is a bound for the walk from one of them. -/
theorem collect_eq_foldlM (hf : f.arena.Forest []) (hroot : f.root < f.arena.size) :
    collect F f root =
      (f.arena.preorder f.root).foldlM (visit F f root) .empty >>= fun found =>
        pure found.names := by
  obtain ⟨-, hlength, -⟩ := hf.walk (hf.walk_preorder hroot)
  obtain ⟨spare, hspare⟩ := Nat.exists_eq_add_of_le (Nat.le_trans hlength hroot)
  have hdepth : ∀ j ∈ [f.root], j < f.arena.size := fun j hj => List.mem_singleton.1 hj ▸ hroot
  have hwalk : walk F f root _ _ .empty = _ :=
    walk_eq_foldlM hf f.arena.size [f.root] [] hdepth spare .empty
  rw [List.flatMap_singleton, List.append_nil] at hwalk
  unfold collect
  rw [show f.arena.size = spare + (f.arena.preorderWithin f.arena.size f.root).length by
    rw [Nat.add_comm]; exact hspare, hwalk, bind_assoc]
  refine congrArg (_ >>= ·) (funext fun found => ?_)
  unfold walk
  rfl

/-! ## One visit -/

/-- What a visit makes of what was found, by the answers in a state. -/
def meet (F : Frontend φ) (s : φ) (f : SourceFile) (root : String) (found : Findings)
    (node : NodeId) : Findings :=
  match (F.typeAt f.name node s).1 with
  | none => found
  | some type => found.note F s root type

/-- If the answers are those of `s` before and after the question, a visit
finds what it finds by these. -/
theorem visit_run (hbefore : SameAnswers F f.name s t) {node : NodeId}
    (hafter : SameAnswers F f.name s (F.typeAt f.name node t).2) (found : Findings) :
    visit F f root found node t = (meet F s f root found node, (F.typeAt f.name node t).2) := by
  unfold visit meet
  rw [← hbefore.typeAt node]
  show (match (F.typeAt f.name node t).1 with
    | none => (pure found : StateM φ Findings)
    | some type => get >>= fun s => pure (found.note F s root type)) (F.typeAt f.name node t).2 = _
  cases (F.typeAt f.name node t).1 with
  | none => rfl
  | some type =>
    have hnote := note_congr hafter.display hafter.bases hafter.isLiteral hafter.calls
      hafter.constructs root type found
    exact Prod.ext hnote rfl

/-- What is remembered of types that were classified is right. -/
def Sound (F : Frontend φ) (s : φ) (root : String) (found : Findings) : Prop :=
  ∀ type known, found.classified.get? type = some known → known = derivesFromRoot F s root type

theorem Sound.classify {found : Findings} (h : Sound F s root found) (type : TypeId) :
    (found.classify F s root type).1 = derivesFromRoot F s root type ∧
      (found.classify F s root type).2.names = found.names ∧
      Sound F s root (found.classify F s root type).2 := by
  unfold Findings.classify
  cases hget : found.classified.get? type with
  | some known => exact ⟨h type known hget, rfl, h⟩
  | none =>
    refine ⟨rfl, rfl, fun other known hknown => ?_⟩
    rw [Table.get?_insert] at hknown
    split at hknown
    · rename_i heq
      rw [← heq]
      exact (Option.some.inj hknown).symm
    · exact h other known hknown

theorem addName_names (name : String) (found : Findings) :
    (found.addName name).names =
      if name ∈ found.names then found.names else found.names ++ [name] := by
  unfold Findings.addName
  simp only [List.contains_iff_mem]
  split <;> rfl

theorem Sound.addName {found : Findings} (h : Sound F s root found) (name : String) :
    Sound F s root (found.addName name) := by
  unfold Findings.addName
  split
  · exact h
  · exact h

theorem trackedType?_eq_some {type tracked : TypeId} :
    trackedType? F s type = some tracked ↔ F.isLiteral s type = false ∧ F.calls s type = [] ∧
      tracked = (((F.constructs s type).head?).map Signature.returnType).getD type := by
  unfold trackedType?
  cases F.isLiteral s type with
  | true => simp
  | false =>
    cases F.calls s type with
    | nil => simp [eq_comm]
    | cons call rest => simp

theorem counts_iff {node : NodeId} {name : String} :
    Counts F s f root node name ↔ ∃ type tracked, (F.typeAt f.name node s).1 = some type ∧
      trackedType? F s type = some tracked ∧ derivesFromRoot F s root tracked = true ∧
      F.display s tracked = name := by
  unfold Counts
  simp only [trackedType?_eq_some, and_assoc]

/-- What a visit adds: nothing if the node does not count, and otherwise the
name under which it counts, unless it was met before. -/
inductive Adds (F : Frontend φ) (s : φ) (f : SourceFile) (root : String) (node : NodeId)
    (before after : List String) : Prop
  | nothing (hnot : ∀ name, ¬ Counts F s f root node name) (hsame : after = before)
  | name (name : String) (hcounts : Counts F s f root node name)
      (hname : after = if name ∈ before then before else before ++ [name])

/-- What a visit adds does not depend on what was remembered. -/
theorem Sound.meet {found : Findings} (h : Sound F s root found) (node : NodeId) :
    Sound F s root (meet F s f root found node) ∧
      Adds F s f root node found.names (meet F s f root found node).names := by
  have hnot : ∀ name, ¬ (∃ type tracked, (F.typeAt f.name node s).1 = some type ∧
      trackedType? F s type = some tracked ∧ derivesFromRoot F s root tracked = true ∧
      F.display s tracked = name) → ¬ Counts F s f root node name :=
    fun name => mt counts_iff.1
  unfold Dependencies.meet
  cases htype : (F.typeAt f.name node s).1 with
  | none => exact ⟨h, .nothing (fun name => hnot name (by simp [htype])) rfl⟩
  | some type =>
    dsimp only
    unfold Findings.note
    cases htracked : trackedType? F s type with
    | none => exact ⟨h, .nothing (fun name => hnot name (by simp [htype, htracked])) rfl⟩
    | some tracked =>
      dsimp only
      obtain ⟨hderives, hnames, hsound⟩ := h.classify tracked
      rcases hclassify : found.classify F s root tracked with ⟨derives, found'⟩
      rw [hclassify] at hderives hnames hsound
      cases derives with
      | true =>
        refine ⟨hsound.addName _, .name (F.display s tracked) ?_ ?_⟩
        · exact counts_iff.2 ⟨type, tracked, htype, htracked, hderives.symm, rfl⟩
        · rw [addName_names, hnames]
      | false =>
        refine ⟨hsound, .nothing (fun name => hnot name ?_) hnames⟩
        simp [htype, htracked, ← hderives]

/-! ## Many visits -/

/-- What stands in the list after some visits: each name once, exactly those
under which a visited node counts, by the first nodes that count under them. -/
structure Collected (F : Frontend φ) (s : φ) (f : SourceFile) (root : String)
    (visited : List NodeId) (names : List String) : Prop where
  once : names.Nodup
  mem : ∀ name, name ∈ names ↔ ∃ node ∈ visited, Counts F s f root node name
  order : names.Pairwise fun earlier later =>
    ∃ i ∈ visited, Counts F s f root i earlier ∧
      ∀ j ∈ visited, Counts F s f root j later → f.arena.Precedes i j

theorem Counts.unique {node : NodeId} {name name' : String} (h : Counts F s f root node name)
    (h' : Counts F s f root node name') : name = name' := by
  obtain ⟨type, tracked, htype, -, -, htracked, -, hname⟩ := h
  obtain ⟨type', tracked', htype', -, -, htracked', -, hname'⟩ := h'
  obtain rfl := Option.some.inj (htype.symm.trans htype')
  rw [← hname, ← hname', htracked, htracked']

/-- What is said of the order of two names stays true when a node is visited
that comes after all others. -/
theorem order_visit {visited : List NodeId} {node : NodeId} {earlier later : String}
    (hafter : ∀ i ∈ visited, f.arena.Precedes i node)
    (h : ∃ i ∈ visited, Counts F s f root i earlier ∧
      ∀ j ∈ visited, Counts F s f root j later → f.arena.Precedes i j) :
    ∃ i ∈ visited ++ [node], Counts F s f root i earlier ∧
      ∀ j ∈ visited ++ [node], Counts F s f root j later → f.arena.Precedes i j := by
  obtain ⟨i, hi, hcounts, hlater⟩ := h
  refine ⟨i, List.mem_append_left _ hi, hcounts, fun j hj hcounts' => ?_⟩
  rcases List.mem_append.1 hj with hj | hj
  · exact hlater j hj hcounts'
  · rw [List.mem_singleton.1 hj]
    exact hafter i hi

/-- One more visit, of a node that comes after all that were visited. -/
theorem Collected.visit {visited : List NodeId} {names names' : List String} {node : NodeId}
    (h : Collected F s f root visited names) (hadds : Adds F s f root node names names')
    (hafter : ∀ i ∈ visited, f.arena.Precedes i node) :
    Collected F s f root (visited ++ [node]) names' := by
  have hmem : ∀ name, (∃ i ∈ visited ++ [node], Counts F s f root i name) ↔
      name ∈ names ∨ Counts F s f root node name := by
    intro name
    rw [h.mem name]
    simp only [List.mem_append, List.mem_singleton, or_and_right, exists_or, exists_eq_left]
  have horder := h.order.imp (order_visit hafter)
  cases hadds with
  | nothing hnot hsame =>
    subst hsame
    exact
      { once := h.once
        mem := fun name => by rw [hmem name, or_iff_left (hnot name)]
        order := horder }
  | name name hcounts hname =>
    have honly : ∀ other, Counts F s f root node other ↔ other = name := fun other =>
      ⟨fun hother => hother.unique hcounts, fun heq => heq ▸ hcounts⟩
    by_cases hold : name ∈ names
    · rw [if_pos hold] at hname
      subst hname
      refine ⟨h.once, fun other => ?_, horder⟩
      rw [hmem other, honly other]
      exact ⟨.inl, fun hother => hother.elim id fun heq => heq ▸ hold⟩
    · rw [if_neg hold] at hname
      subst hname
      refine ⟨?_, fun other => ?_, ?_⟩
      · exact h.once.append (List.nodup_singleton name) (List.disjoint_singleton.2 hold)
      · rw [hmem other, honly other, List.mem_append, List.mem_singleton]
      · refine List.pairwise_append.2 ⟨horder, List.pairwise_singleton _ _, ?_⟩
        intro earlier hearlier later hlater
        rw [List.mem_singleton.1 hlater]
        obtain ⟨i, hi, hcounts'⟩ := (h.mem earlier).1 hearlier
        -- the new name is met at the last node first
        refine order_visit hafter ⟨i, hi, hcounts', fun j hj hname => ?_⟩
        exact absurd ((h.mem name).2 ⟨j, hj, hname⟩) hold

/-- Visits to nodes in the order of the tree, one after the other. -/
theorem Collected.foldl_meet {visited : List NodeId} {found : Findings}
    (hsound : Sound F s root found) (h : Collected F s f root visited found.names)
    (nodes : List NodeId) (horder : (visited ++ nodes).Pairwise f.arena.Precedes) :
    Collected F s f root (visited ++ nodes) (nodes.foldl (meet F s f root) found).names := by
  induction nodes generalizing visited found with
  | nil => rwa [List.append_nil]
  | cons node nodes ih =>
    obtain ⟨hnext, hadds⟩ := hsound.meet node
    have hafter : ∀ i ∈ visited, f.arena.Precedes i node := fun i hi =>
      (List.pairwise_append.1 horder).2.2 i hi node List.mem_cons_self
    rw [List.append_cons] at horder ⊢
    exact ih hnext (h.visit hadds hafter) horder

theorem collected_nil : Collected F s f root [] Findings.empty.names where
  once := List.nodup_nil
  mem name := by simp [Findings.empty]
  order := .nil

theorem sound_empty : Sound F s root .empty :=
  fun _ _ hget => by cases hget

/-- Visits find the same while the answers stay the same. -/
theorem foldlM_visit (nodes : List NodeId) (found : Findings)
    (h : ∀ asked, asked <+: nodes → SameAnswers F f.name s (askAll F f.name asked t)) :
    (nodes.foldlM (visit F f root) found t).1 = nodes.foldl (meet F s f root) found := by
  induction nodes generalizing found t with
  | nil => rfl
  | cons node nodes ih =>
    have hbefore : SameAnswers F f.name s t := h [] List.nil_prefix
    have hafter : SameAnswers F f.name s (F.typeAt f.name node t).2 :=
      h [node] ((List.prefix_cons_inj node).2 List.nil_prefix)
    rw [List.foldlM_cons, List.foldl_cons]
    show ((nodes.foldlM (visit F f root) (visit F f root found node t).1)
      (visit F f root found node t).2).1 = _
    rw [visit_run hbefore hafter]
    exact ih _ fun asked hasked => h (node :: asked) ((List.prefix_cons_inj node).2 hasked)

/-! ## Parsed files -/

/-- For every frontend and state whose answers do not change during the walk,
every parsed file and every root name.
* No name is collected twice.
* A name is collected exactly if some node that can be reached from the root
  of the file counts under it, whatever the nodes above it are.
* Names stand in the order of the first such nodes: the one for the earlier
  name comes before all nodes that count under the later one. -/
theorem collect_exact (F : Frontend φ) (s : φ) (name : String) (text : List Char)
    (root : String) (hsteady : Steady F s (SourceFile.parse name text)) :
    let f := SourceFile.parse name text
    let names := (collect F f root s).1
    names.Nodup ∧
    (∀ n, n ∈ names ↔ ∃ node, f.arena.Reaches f.root node ∧ Counts F s f root node n) ∧
    names.Pairwise fun earlier later =>
      ∃ i, f.arena.Reaches f.root i ∧ Counts F s f root i earlier ∧
        ∀ j, f.arena.Reaches f.root j → Counts F s f root j later → f.arena.Precedes i j := by
  intro f names
  have hf : f.arena.Forest [] := SourceFile.forest_parse name text
  have hroot : f.root < f.arena.size := by
    rw [← (SourceFile.root_parse name text).1]
    exact Nat.lt_succ_self _
  -- from here on nothing depends on where the file comes from
  change Steady F s f at hsteady
  clear_value f
  have hnames : names =
      ((f.arena.preorder f.root).foldl (meet F s f root) .empty).names := by
    show ((collect F f root) s).1 = _
    rw [collect_eq_foldlM hf hroot]
    exact congrArg Findings.names (foldlM_visit _ _ hsteady)
  have hcollected : Collected F s f root (f.arena.preorder f.root) names := by
    rw [hnames]
    exact .foldl_meet sound_empty collected_nil _ (Arena.pairwise_preorder f.root)
  -- the walk comes to all that can be reached
  obtain ⟨-, -, hreached⟩ := hf.walk (hf.walk_preorder hroot)
  have hall : ∀ node, node ∈ f.arena.preorder f.root ↔ f.arena.Reaches f.root node := hreached rfl
  refine ⟨hcollected.once, fun n => ?_, hcollected.order.imp ?_⟩
  · simp only [hcollected.mem n, hall]
  · rintro earlier later ⟨i, hi, hcounts, hlater⟩
    exact ⟨i, (hall i).1 hi, hcounts, fun j hj => hlater j ((hall j).2 hj)⟩

/-- A question to a frontend with given answers is counted and changes
nothing else. -/
theorem askAll_scripted (path : String) (nodes : List NodeId) (s : ScriptedFrontend) :
    ∃ queries, askAll ScriptedFrontend.frontend path nodes s = { s with queries := queries } := by
  induction nodes generalizing s with
  | nil => exact ⟨s.queries, rfl⟩
  | cons node nodes ih => exact ih { s with queries := s.queries + 1 }

/-- A frontend with given answers does not change them. -/
theorem steady_scripted (s : ScriptedFrontend) (f : SourceFile) :
    Steady ScriptedFrontend.frontend s f := by
  intro asked _
  obtain ⟨queries, hasked⟩ := askAll_scripted f.name asked s
  rw [hasked]
  exact ⟨fun _ => rfl, rfl, rfl, rfl, rfl, rfl⟩

def spawnText : List Char := "spawn(new Maker(one), world);".toList

/-- A class that makes actors, and names of the root type and of a literal
type. No other node has a type. -/
def spawner : ScriptedFrontend :=
  let type := fun display bases => (⟨display, bases, false, false, []⟩ : ScriptedType)
  { (default : ScriptedFrontend) with
    types := [type "UObject" [], type "Actor" [0], { type "Maker" [] with constructs := [1] },
      { type "one" [0] with isLiteral := true }]
    nodes := [("Maker", 2), ("world", 0), ("one", 3)]
    files := Table.empty.insert "a.ts" (SourceFile.parse "a.ts" spawnText) }

/-- The names are found below nodes that have no type, in their order. -/
theorem spawner_collects :
    let f := SourceFile.parse "a.ts" spawnText
    let names := (collect ScriptedFrontend.frontend f "UObject" spawner).1
    Steady ScriptedFrontend.frontend spawner f ∧ names = ["Actor", "UObject"] ∧
      ∃ node, f.arena.Reaches f.root node ∧
        Counts ScriptedFrontend.frontend spawner f "UObject" node "Actor" := by
  intro f names
  have hsteady : Steady ScriptedFrontend.frontend spawner f := steady_scripted spawner f
  have hnames : names = ["Actor", "UObject"] := by
    unfold names f spawner spawnText
    rw [String.toList_ofList]
    decide +kernel
  obtain ⟨-, hmem, -⟩ := collect_exact ScriptedFrontend.frontend spawner "a.ts"
    spawnText "UObject" hsteady
  refine ⟨hsteady, hnames, (hmem "Actor").1 ?_⟩
  show "Actor" ∈ names
  rw [hnames]
  exact List.mem_cons_self

end Dependencies

end ScriptAnalysis
