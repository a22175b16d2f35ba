import ScriptAnalysis.Analysis.Dependencies
import ScriptAnalysis.Analysis.Scripted

/-!
# Which types count as dependencies

`search` looks for the root type among the bases of a type. It goes down to
a depth and looks at no type twice, and these two do not agree: a type that
is first met at the last step is marked as seen, but its bases are not looked
at, and when a shorter way leads to it later it is passed over. So the search
is right about what it finds, but it may miss a root type that is near.

`Steps` is what the graph of bases says. A `Descent` is the way that the
search is on: it never comes to a type twice.

**Results.**
* `search_true`, `search_false`: what one search tells, by recursion on its
  depth.
* `derivesFromRoot_iff`: no root type is missed if no descent has full length.
* `derivesFromRoot_sound_complete`: what is found is there, and what stands on
  each way to a root type that is missed.
-/
namespace ScriptAnalysis.Dependencies

variable {φ : Type} {F : Frontend φ} {s : φ} {root : String}

/-- One type leads to another by a number of steps to a base. -/
inductive Steps (F : Frontend φ) (s : φ) : Nat → TypeId → TypeId → Prop
  | here (type : TypeId) : Steps F s 0 type type
  | step {n : Nat} {type base last : TypeId} (hbase : base ∈ F.bases s type)
      (hrest : Steps F s n base last) : Steps F s (n + 1) type last

/-- A way from `start` down to a type that is new at each step, with the
types before the last one, the latest first. -/
inductive Descent (F : Frontend φ) (s : φ) (start : TypeId) : List TypeId → TypeId → Prop
  | start : Descent F s start [] start
  | step {passed : List TypeId} {type base : TypeId} (h : Descent F s start passed type)
      (hbase : base ∈ F.bases s type) (hnew : base ∉ type :: passed) :
      Descent F s start (type :: passed) base

/-- A descent of full length comes to the type, so that its bases may be
left out. -/
def AtLimit (F : Frontend φ) (s : φ) (start type : TypeId) : Prop :=
  ∃ passed, Descent F s start passed type ∧ passed.length = maxDepth

/-! ## One search -/

/-- What a search does with the next base. -/
def goOn (F : Frontend φ) (s : φ) (root : String) (depth : Nat) (found : Bool × List TypeId)
    (base : TypeId) : Bool × List TypeId :=
  if found.1 then found else search F s root depth base found.2

theorem search_succ (depth : Nat) (type : TypeId) (visited : List TypeId) :
    search F s root (depth + 1) type visited =
      if visited.contains type then (false, visited)
      else if F.display s type == root then (true, type :: visited)
      else (F.bases s type).reverse.foldl (goOn F s root depth) (false, type :: visited) :=
  rfl

theorem foldl_goOn_found (depth : Nat) (bases visited : List TypeId) :
    bases.foldl (goOn F s root depth) (true, visited) = (true, visited) := by
  induction bases with
  | nil => rfl
  | cons base rest ih => exact ih

/-- If something is found then at one of the bases. -/
theorem foldl_goOn_true {depth : Nat} {bases visited : List TypeId}
    (h : (bases.foldl (goOn F s root depth) (false, visited)).1 = true) :
    ∃ base ∈ bases, ∃ visited', (search F s root depth base visited').1 = true := by
  induction bases generalizing visited with
  | nil => cases h
  | cons base rest ih =>
    simp only [List.foldl_cons, goOn, Bool.false_eq_true, if_false] at h
    cases hfirst : search F s root depth base visited with
    | mk found visited' =>
      rw [hfirst] at h
      cases found with
      | true => exact ⟨base, List.mem_cons_self, visited, by rw [hfirst]⟩
      | false =>
        obtain ⟨b, hb, hsearch⟩ := ih h
        exact ⟨b, List.mem_cons_of_mem base hb, hsearch⟩

/-- What is found is there, not deeper than was looked. -/
theorem search_true {depth : Nat} {type : TypeId} {visited : List TypeId}
    (h : (search F s root depth type visited).1 = true) :
    ∃ n < depth, ∃ last, Steps F s n type last ∧ F.display s last = root := by
  induction depth generalizing type visited with
  | zero => cases h
  | succ depth ih =>
    rw [search_succ] at h
    split at h
    · cases h
    · split at h
      · rename_i hroot
        exact ⟨0, Nat.succ_pos depth, type, .here type, eq_of_beq hroot⟩
      · obtain ⟨base, hbase, visited', hsearch⟩ := foldl_goOn_true h
        obtain ⟨n, hn, last, hsteps, hlast⟩ := ih hsearch
        exact ⟨n + 1, by omega, last, .step (List.mem_reverse.1 hbase) hsteps, hlast⟩

/-- A type that was looked at in vain, with all that was looked at by then. -/
structure Vain (F : Frontend φ) (s : φ) (root : String) (start : TypeId) (visited : List TypeId)
    (type : TypeId) : Prop where
  display : F.display s type ≠ root
  bases : AtLimit F s start type ∨ ∀ base ∈ F.bases s type, base ∈ visited

theorem Vain.mono {start type : TypeId} {visited visited' : List TypeId}
    (h : Vain F s root start visited type) (hmore : visited ⊆ visited') :
    Vain F s root start visited' type :=
  ⟨h.display, h.bases.imp_right fun hbases base hbase => hmore (hbases base hbase)⟩

/-- What a search in vain leaves: more types were looked at, all of them in
vain. -/
structure LooksFurther (F : Frontend φ) (s : φ) (root : String) (start : TypeId)
    (visited visited' : List TypeId) : Prop where
  old : visited ⊆ visited'
  new : ∀ type ∈ visited', type ∈ visited ∨ Vain F s root start visited' type

theorem LooksFurther.refl {start : TypeId} (visited : List TypeId) :
    LooksFurther F s root start visited visited :=
  ⟨List.Subset.refl visited, fun _ h => .inl h⟩

theorem LooksFurther.trans {start : TypeId} {visited visited' visited'' : List TypeId}
    (h : LooksFurther F s root start visited visited')
    (h' : LooksFurther F s root start visited' visited'') :
    LooksFurther F s root start visited visited'' := by
  refine ⟨List.Subset.trans h.old h'.old, fun type htype => ?_⟩
  rcases h'.new type htype with hold | hvain
  · exact (h.new type hold).imp_right fun hvain => hvain.mono h'.old
  · exact .inr hvain

/-- If one search in vain looks further, and at its type, then one after the
other they do for all bases. -/
theorem foldl_goOn_false {start : TypeId} {depth : Nat} {bases visited passed : List TypeId}
    (hpassed : passed ⊆ visited)
    (hsearch : ∀ base ∈ bases, ∀ visited, passed ⊆ visited →
      (search F s root depth base visited).1 = false →
      LooksFurther F s root start visited (search F s root depth base visited).2 ∧
        (0 < depth → base ∈ (search F s root depth base visited).2))
    (h : (bases.foldl (goOn F s root depth) (false, visited)).1 = false) :
    LooksFurther F s root start visited
        (bases.foldl (goOn F s root depth) (false, visited)).2 ∧
      (0 < depth → ∀ base ∈ bases,
        base ∈ (bases.foldl (goOn F s root depth) (false, visited)).2) := by
  induction bases generalizing visited with
  | nil => exact ⟨.refl visited, fun _ base hbase => by cases hbase⟩
  | cons base rest ih =>
    obtain ⟨hfirst, hothers⟩ := List.forall_mem_cons.1 hsearch
    simp only [List.foldl_cons, goOn, Bool.false_eq_true, if_false] at h ⊢
    cases hresult : search F s root depth base visited with
    | mk found visited' =>
      rw [hresult] at h
      cases found with
      | true =>
        rw [foldl_goOn_found] at h
        cases h
      | false =>
        obtain ⟨hlook, hmem⟩ := hfirst visited hpassed (by rw [hresult])
        rw [hresult] at hlook hmem
        obtain ⟨hlooks, hmems⟩ := ih (List.Subset.trans hpassed hlook.old) hothers h
        refine ⟨hlook.trans hlooks, fun hdepth b hb => ?_⟩
        rcases List.mem_cons.1 hb with rfl | hb
        · exact hlooks.old (hmem hdepth)
        · exact hmems hdepth b hb

/-- A search in vain at the end of a descent looks further, and at its own
type if any depth is left. The types passed were looked at before. -/
theorem search_false {start : TypeId} {depth : Nat} {type : TypeId} {passed visited : List TypeId}
    (hpassed : passed ⊆ visited) (hlength : passed.length + depth = maxDepth + 1)
    (hdescent : type ∉ passed → Descent F s start passed type)
    (h : (search F s root depth type visited).1 = false) :
    LooksFurther F s root start visited (search F s root depth type visited).2 ∧
      (0 < depth → type ∈ (search F s root depth type visited).2) := by
  induction depth generalizing type passed visited with
  | zero => exact ⟨.refl visited, fun hdepth => by omega⟩
  | succ depth ih =>
    rw [search_succ] at h ⊢
    split at h
    · rename_i hseen
      rw [if_pos hseen]
      exact ⟨.refl visited, fun _ => List.contains_iff_mem.1 hseen⟩
    · rename_i hnew
      rw [if_neg hnew]
      split at h
      · cases h
      · rename_i hroot
        rw [if_neg hroot]
        have hnot : type ∉ passed := fun hmem => hnew (List.contains_iff_mem.2 (hpassed hmem))
        have hway := hdescent hnot
        have hnext : type :: passed ⊆ type :: visited := List.cons_subset_cons type hpassed
        have hbases : ∀ base ∈ (F.bases s type).reverse, ∀ visited', type :: passed ⊆ visited' →
            (search F s root depth base visited').1 = false →
            LooksFurther F s root start visited' (search F s root depth base visited').2 ∧
              (0 < depth → base ∈ (search F s root depth base visited').2) := by
          intro base hbase visited' hsub hvain
          have hlonger : (type :: passed).length + depth = maxDepth + 1 := by
            simp only [List.length_cons]
            omega
          exact ih hsub hlonger (fun hfresh => hway.step (List.mem_reverse.1 hbase) hfresh) hvain
        obtain ⟨hlook, hmems⟩ := foldl_goOn_false hnext hbases h
        refine ⟨⟨fun x hx => hlook.old (List.mem_cons_of_mem type hx), fun x hx => ?_⟩,
          fun _ => hlook.old List.mem_cons_self⟩
        rcases hlook.new x hx with hold | hvain
        · rcases List.mem_cons.1 hold with rfl | hold
          · refine .inr ⟨fun hdisplay => hroot (beq_iff_eq.2 hdisplay), ?_⟩
            rcases Nat.eq_zero_or_pos depth with hzero | hpos
            · exact .inl ⟨passed, hway, by omega⟩
            · exact .inr fun base hbase => hmems hpos base (List.mem_reverse.2 hbase)
          · exact .inl hold
        · exact .inr hvain

/-! ## What is missed -/

/-- From a type that was looked at in vain no way leads to the root type, but
past a type that was looked at too late. -/
theorem atLimit_of_missed {start : TypeId} {visited : List TypeId}
    (hvain : ∀ type ∈ visited, Vain F s root start visited type) {n : Nat} {type last : TypeId}
    (hsteps : Steps F s n type last) (htype : type ∈ visited) (hlast : F.display s last = root) :
    ∃ i j m, i + j = n ∧ 0 < j ∧ Steps F s i type m ∧ Steps F s j m last ∧
      AtLimit F s start m := by
  induction hsteps with
  | here type => exact absurd hlast (hvain type htype).display
  | @step n type base last hbase hrest ih =>
    rcases (hvain type htype).bases with hlimit | hbases
    · exact ⟨0, n + 1, type, by omega, by omega, .here type, .step hbase hrest, hlimit⟩
    · obtain ⟨i, j, m, hsum, hpos, hfirst, hsecond, hlimit⟩ := ih (hbases base hbase) hlast
      exact ⟨i + 1, j, m, by omega, hpos, .step hbase hfirst, hsecond, hlimit⟩

/-- A type that is classified as derived leads to the root type within the
limit. -/
theorem steps_of_derivesFromRoot {type : TypeId} (h : derivesFromRoot F s root type = true) :
    ∃ n ≤ maxDepth, ∃ last, Steps F s n type last ∧ F.display s last = root := by
  obtain ⟨n, hn, last, hsteps, hlast⟩ := search_true h
  exact ⟨n, by omega, last, hsteps, hlast⟩

/-- If a root type is missed, each way to it goes past a type to which a
descent of full length comes. -/
theorem atLimit_of_not_derivesFromRoot {type last : TypeId} {n : Nat}
    (h : derivesFromRoot F s root type = false) (hsteps : Steps F s n type last)
    (hlast : F.display s last = root) : ∃ i j m, i + j = n ∧ 0 < j ∧ Steps F s i type m ∧
      Steps F s j m last ∧ AtLimit F s type m := by
  obtain ⟨hlook, hmem⟩ := search_false (List.Subset.refl []) (by simp) (fun _ => .start) h
  have hvain : ∀ t ∈ (search F s root (maxDepth + 1) type []).2,
      Vain F s root type (search F s root (maxDepth + 1) type []).2 t := by
    intro t ht
    exact (hlook.new t ht).resolve_left List.not_mem_nil
  exact atLimit_of_missed hvain hsteps (hmem (by omega)) hlast

/-- Where no type has a descent of full length, the classification is
reachability within the limit. -/
theorem derivesFromRoot_iff {type : TypeId} (hshort : ∀ m, ¬ AtLimit F s type m) :
    derivesFromRoot F s root type = true ↔
      ∃ n ≤ maxDepth, ∃ last, Steps F s n type last ∧ F.display s last = root := by
  refine ⟨steps_of_derivesFromRoot, ?_⟩
  rintro ⟨n, -, last, hsteps, hlast⟩
  cases hfound : derivesFromRoot F s root type with
  | true => rfl
  | false =>
    obtain ⟨_, _, m, -, -, -, -, hlimit⟩ := atLimit_of_not_derivesFromRoot hfound hsteps hlast
    exact absurd hlimit (hshort m)

/-- For every frontend, state, root name and type.
* A type that is classified as derived leads to a type shown as the root
  within the limit.
* If one that is not does so too, each way goes, before its end, past a type
  to which a descent of full length comes as well. -/
theorem derivesFromRoot_sound_complete (F : Frontend φ) (s : φ) (root : String) (type : TypeId) :
    (derivesFromRoot F s root type = true →
      ∃ n ≤ maxDepth, ∃ last, Steps F s n type last ∧ F.display s last = root) ∧
    (derivesFromRoot F s root type = false → ∀ n last, Steps F s n type last →
      F.display s last = root → ∃ i j m, i + j = n ∧ 0 < j ∧ Steps F s i type m ∧
        Steps F s j m last ∧ AtLimit F s type m) := by
  constructor
  · intro h
    exact steps_of_derivesFromRoot h
  · intro h n last hsteps hlast
    exact atLimit_of_not_derivesFromRoot h hsteps hlast

/-- The root type, a type below it, and a third below both that type and the
first of 63 more, each below the next and the last below the second again. -/
def roundabout : ScriptedFrontend :=
  let type := fun display bases => (⟨display, bases, false, false, []⟩ : ScriptedType)
  { (default : ScriptedFrontend) with
    types := [type "UObject" [], type "Actor" [0], type "Pawn" [1, 3]] ++
      (List.range 63).map fun i => type "Step" [if i = 62 then 1 else i + 4] }

/-- The third type is two steps from the root type. But its last base is
followed first, and comes to the second type at the last step. -/
theorem short_way_missed :
    derivesFromRoot ScriptedFrontend.frontend roundabout "UObject" 2 = false ∧
      Steps ScriptedFrontend.frontend roundabout 2 2 0 ∧
      ScriptedFrontend.frontend.display roundabout 0 = "UObject" := by
  have hfirst : (1 : TypeId) ∈ ScriptedFrontend.frontend.bases roundabout 2 := by decide +kernel
  have hsecond : (0 : TypeId) ∈ ScriptedFrontend.frontend.bases roundabout 1 := by decide +kernel
  exact ⟨by decide +kernel, .step hfirst (.step hsecond (.here 0)), rfl⟩

end ScriptAnalysis.Dependencies
