import ScriptAnalysis.Proofs.Ast.Positions
import ScriptAnalysis.Proofs.Checking.Reports

/-!
# What a visit of an expression leaves behind

`Mark` is what is left behind, the type of a node or the report that a name
stands for nothing. No later step takes a mark away.

**Debts.** `Layout.Owes` lists the marks that the walk owes to a spot: those of
the expressions in it that do not stand too deep. `Visits n scope depth c spots x`
says that the computation `x` at `c` leaves all marks owed to `spots`, if they
stand in `scope` below `depth` expressions and are nodes before `n`. It goes
along with `Reports`: the spots of a computation are those of its parts, one
after the other.

**Results.**
* `Layout.Owes.cases`: what is owed to a spot is owed to itself or to its parts.
* `Told.met`: no step takes a mark away.
* `Visits.bind`, `Visits.forM`, `Visits.mapM`, `Visits.foldlM`, `Visits.moved`: a
  computation visits what its parts visit.
-/
namespace ScriptAnalysis

open Checking

/-! ## Marks -/

/-- What a visit of an expression leaves behind. -/
inductive Mark where
  | typed (node : NodeId)
  | reported (node : NodeId)

namespace Layout

variable (g : Layout)

/-- A name that stands for no value. -/
def Unresolved (node : NodeId) (scope : ScopeId) : Prop :=
  ∃ name, g.arena.form? node = some (.identifier name) ∧ name ≠ "" ∧
    g.bindings.resolve scope name .value = none

/-- The report that a name stands for no value. -/
structure SaysUnresolved (node : NodeId) (d : Diagnostic) : Prop where
  code : d.code = 2304 ∨ d.code = 2693
  start : ∃ entry, g.arena[node]? = some entry ∧ d.start = entry.pos

/-- The mark is there, if there is room for it. -/
def Met (s : State) : Mark → Prop
  | .typed node => node < (s.row g.file).size → s.Typed g.file node
  | .reported node => g.file < s.diagnostics.size → ∃ d ∈ s.log g.file, g.SaysUnresolved node d

/-- The expression `node` stands below a spot, in the scope `inner`, and not
too deep. All classes on the way to any part of the spot declare something. -/
structure Shows (scope : ScopeId) (depth : Nat) (p : Spot) (node : NodeId) (inner : ScopeId) :
    Prop where
  declared : ∀ k q s, g.Below p scope k q s → g.Declares q
  within : ∃ k, g.Below p scope k (.expression node) inner ∧ depth + k < maxExpressionDepth

/-- The marks that the walk owes to a spot. -/
def Owes (scope : ScopeId) (depth : Nat) (p : Spot) : Mark → Prop
  | .typed node => ∃ inner, g.Shows scope depth p node inner
  | .reported node => ∃ inner, g.Shows scope depth p node inner ∧ g.Unresolved node inner

/-- The checker stands in the file and records. -/
structure At (c : Context) : Prop where
  source : c.source = g.source
  bindings : c.bindings = g.bindings
  file : c.file = g.file
  recording : c.recording = true

variable {g} {scope inner : ScopeId} {depth : Nat} {p : Spot} {node : NodeId} {mark : Mark}

theorem At.arena {c : Context} (h : g.At c) : c.arena = g.arena :=
  congrArg SourceFile.arena h.source

theorem At.scopeOf {c : Context} (h : g.At c) (node : NodeId) :
    c.scopeOf node = (g.bindings.nodeScope? g.file node).getD c.scope := by
  unfold Context.scopeOf
  rw [h.bindings, h.file]

/-- The checker may move in the file. -/
theorem At.elsewhere {c c' : Context} (h : g.At c) (hsource : c'.source = c.source)
    (hbindings : c'.bindings = c.bindings) (hfile : c'.file = c.file)
    (hrec : c'.recording = c.recording) : g.At c' :=
  ⟨hsource.trans h.source, hbindings.trans h.bindings, hfile.trans h.file, hrec.trans h.recording⟩

theorem scopeInside_eq {form : Form} (hform : g.arena.form? p.node = some form)
    (hcloses : form.opensScope = false) : g.scopeInside scope p = scope := by
  unfold scopeInside
  rw [hform, Option.any_some, hcloses]
  exact if_neg Bool.false_ne_true

theorem At.scopeInside_eq {c : Context} (h : g.At c) (p : Spot) {form : Form}
    (hform : g.arena.form? p.node = some form) (hopens : form.opensScope = true) :
    g.scopeInside c.scope p = c.scopeOf p.node := by
  unfold scopeInside
  rw [hform, Option.any_some, hopens, if_pos rfl, h.scopeOf]

/-- What stands below a spot is the spot itself or stands below a part. -/
theorem Shows.cases (h : g.Shows scope depth p node inner) :
    p = .expression node ∧ inner = scope ∧ depth < maxExpressionDepth ∨
    ∃ q ∈ p.parts g.arena, g.Shows (g.scopeInside scope p) (depth + p.cost) q node inner := by
  obtain ⟨hdeclared, k, hbelow, hdepth⟩ := h
  cases hbelow with
  | here => exact .inl ⟨rfl, rfl, hdepth⟩
  | part hq hbelow =>
    refine .inr ⟨_, hq, fun k r s hr => hdeclared _ r s (.part hq hr), _, hbelow, ?_⟩
    rwa [Nat.add_assoc]

theorem Shows.lt_depth (h : g.Shows scope depth p node inner) : depth < maxExpressionDepth :=
  have ⟨k, _, hdepth⟩ := h.within
  Nat.lt_of_le_of_lt (Nat.le_add_right depth k) hdepth

/-- The marks of an expression itself. -/
def Own (g : Layout) (scope : ScopeId) (node : NodeId) : Mark → Prop
  | .typed i => i = node
  | .reported i => i = node ∧ g.Unresolved node scope

theorem Owes.cases (h : g.Owes scope depth p mark) :
    (∃ node, p = .expression node ∧ g.Own scope node mark) ∨
    ∃ q ∈ p.parts g.arena, g.Owes (g.scopeInside scope p) (depth + p.cost) q mark := by
  cases mark with
  | typed node =>
    obtain ⟨inner, hshows⟩ := h
    rcases hshows.cases with ⟨rfl, rfl, -⟩ | ⟨q, hq, hshows⟩
    · exact .inl ⟨node, rfl, rfl⟩
    · exact .inr ⟨q, hq, inner, hshows⟩
  | reported node =>
    obtain ⟨inner, hshows, hunresolved⟩ := h
    rcases hshows.cases with ⟨rfl, rfl, -⟩ | ⟨q, hq, hshows⟩
    · exact .inl ⟨node, rfl, rfl, hunresolved⟩
    · exact .inr ⟨q, hq, inner, hshows, hunresolved⟩

/-- The marks that are owed to an expression for what it says and is made of. -/
def OwesInside (g : Layout) (scope : ScopeId) (depth : Nat) (node : NodeId) (mark : Mark) : Prop :=
  mark = .reported node ∧ g.Unresolved node scope ∨
  ∃ q ∈ (Spot.expression node).parts g.arena,
    g.Owes (g.scopeInside scope (.expression node)) depth q mark

theorem Owes.inside (h : g.Owes scope depth (.expression node) mark) :
    mark = .typed node ∨ g.OwesInside scope (depth + 1) node mark := by
  rcases h.cases with ⟨_, hnode, hown⟩ | hpart
  · cases hnode
    cases mark with
    | typed i => exact .inl (congrArg Mark.typed hown)
    | reported i => exact .inr (.inl ⟨congrArg Mark.reported hown.1, hown.2⟩)
  · exact .inr (.inr hpart)

/-- A name has no parts. -/
theorem Owes.own_of_name {name : String} (hname : g.arena.nameOf? node = some name)
    (h : g.Owes scope depth (.expression node) mark) : g.Own scope node mark := by
  rcases h.cases with ⟨_, hnode, hown⟩ | ⟨q, hq, -⟩
  · cases hnode
    exact hown
  · obtain ⟨form, hform, hq⟩ := List.mem_flatMap.1 hq
    unfold Arena.nameOf? at hname
    rw [Option.mem_toList.1 hform] at hname
    cases form with
    | identifier text => cases hq
    | _ => cases hname

theorem Owes.lt_depth (h : g.Owes scope depth p mark) : depth < maxExpressionDepth := by
  cases mark with
  | typed node => exact h.elim fun _ hshows => hshows.lt_depth
  | reported node => exact h.elim fun _ hshows => hshows.1.lt_depth

theorem Owes.declares (h : g.Owes scope depth p mark) : g.Declares p := by
  cases mark with
  | typed node => exact h.elim fun _ hshows => hshows.declared 0 p scope (.here p scope)
  | reported node => exact h.elim fun _ hshows => hshows.1.declared 0 p scope (.here p scope)

end Layout

namespace Checking

/-! ## Visits -/

variable {α β : Type} {g : Layout} {c : Context} {l m : List Diagnostic}

/-- No step takes a mark away. -/
theorem Told.met {s s' : State} {mark : Mark} (h : Told c l m s s') (hfile : c.file = g.file)
    (hmet : g.Met s mark) : g.Met s' mark := by
  cases mark with
  | typed node =>
    intro hnode
    rw [← hfile] at hnode ⊢
    rw [h.room, hfile] at hnode
    exact h.typed node (hfile ▸ hmet hnode)
  | reported node =>
    intro hsize
    rw [h.size] at hsize
    obtain ⟨d, hd, hsays⟩ := hmet hsize
    exact ⟨d, hfile ▸ h.kept d (hfile ▸ hd), hsays⟩

theorem Context.scopeOf_scopeOf (c : Context) (node : NodeId) :
    ({ c with scope := c.scopeOf node } : Context).scopeOf node = c.scopeOf node := by
  show (c.bindings.nodeScope? c.file node).getD (c.scopeOf node) = c.scopeOf node
  unfold Context.scopeOf
  cases c.bindings.nodeScope? c.file node <;> rfl

/-- The computation comes back, takes no mark away and leaves these. -/
def Leaves (g : Layout) (c : Context) (marks : Mark → Prop) (x : Check α) : Prop :=
  ∀ s, (x c s).1.2 = c ∧ (∀ mark, g.Met s mark → g.Met (x c s).2 mark) ∧
    ∀ mark, marks mark → g.Met (x c s).2 mark

/-- The computation leaves the marks that the walk owes to the spots. -/
def Visits (g : Layout) (n : Nat) (scope : ScopeId) (depth : Nat) (c : Context)
    (spots : List Spot) (x : Check α) : Prop :=
  (∀ p ∈ spots, p.node < n) → Leaves g c (fun mark => ∃ p ∈ spots, g.Owes scope depth p mark) x

section

variable {marks marks' : Mark → Prop} {x : Check α} {f : α → Check β}

theorem Leaves.weaken (h : Leaves g c marks x) (hmarks : ∀ mark, marks' mark → marks mark) :
    Leaves g c marks' x :=
  fun s => ⟨(h s).1, (h s).2.1, fun mark hmark => (h s).2.2 mark (hmarks mark hmark)⟩

theorem Leaves.nothing (hfile : c.file = g.file) (hx : Tells c l m x)
    (hnone : ∀ mark, ¬ marks mark) : Leaves g c marks x :=
  fun s => ⟨(hx s).1, fun _ => (hx s).2.met hfile, fun mark hmark => absurd hmark (hnone mark)⟩

theorem Leaves.read {f : Context → Check β} (h : Leaves g c marks (f c)) :
    Leaves g c marks ((MonadReader.read : Check Context) >>= f) :=
  h

theorem Leaves.bind_gives (hx : Leaves g c marks x)
    (hf : ∀ a, Gives c x a → Leaves g c marks' (f a)) :
    Leaves g c (fun mark => marks mark ∨ marks' mark) (x >>= f) := by
  intro s
  obtain ⟨hback, hkept, hmarks⟩ := hx s
  rw [bind_apply, hback]
  obtain ⟨hback', hkept', hmarks'⟩ := hf (x c s).1.1 ⟨s, rfl⟩ (x c s).2
  exact ⟨hback', fun mark h => hkept' mark (hkept mark h), fun mark h =>
    h.elim (fun h => hkept' mark (hmarks mark h)) (hmarks' mark)⟩

theorem Leaves.bind (hx : Leaves g c marks x) (hf : ∀ a, Leaves g c marks' (f a)) :
    Leaves g c (fun mark => marks mark ∨ marks' mark) (x >>= f) :=
  hx.bind_gives fun a _ => hf a

theorem Leaves.moved {go : Context → Context} {back : Context → Context → Context}
    (hx : Leaves g (go c) marks x) (hback : back c (go c) = c) :
    Leaves g c marks (excursion go back x) := by
  intro s
  obtain ⟨hend, hmarks⟩ := hx s
  exact ⟨(congrArg (back c) hend).trans hback, hmarks⟩

end

section

variable {n : Nat} {scope : ScopeId} {depth : Nat} {spots spots' : List Spot} {x : Check α}
  {f : α → Check β}

theorem Visits.none (hat : g.At c) (hx : Tells c l m x) : Visits g n scope depth c [] x :=
  fun _ => .nothing hat.file hx fun _ ⟨_, hp, _⟩ => by cases hp

theorem Visits.quiet (hat : g.At c) (hx : Quiet c x) : Visits g n scope depth c [] x :=
  .none hat hx

theorem Visits.bind_gives (hx : Visits g n scope depth c spots x)
    (hf : ∀ a, Gives c x a → Visits g n scope depth c spots' (f a)) :
    Visits g n scope depth c (spots ++ spots') (x >>= f) := by
  intro hlt
  rw [List.forall_mem_append] at hlt
  refine ((hx hlt.1).bind_gives fun a ha => hf a ha hlt.2).weaken ?_
  rintro mark ⟨p, hp, howes⟩
  exact (List.mem_append.1 hp).imp (fun hp => ⟨p, hp, howes⟩) fun hp => ⟨p, hp, howes⟩

theorem Visits.bind (hx : Visits g n scope depth c spots x)
    (hf : ∀ a, Visits g n scope depth c spots' (f a)) :
    Visits g n scope depth c (spots ++ spots') (x >>= f) :=
  hx.bind_gives fun a _ => hf a

theorem Visits.then_none (hx : Visits g n scope depth c spots x)
    (hf : ∀ a, Visits g n scope depth c [] (f a)) : Visits g n scope depth c spots (x >>= f) := by
  have h := hx.bind hf
  rwa [List.append_nil] at h

theorem Visits.none_bind (hat : g.At c) (hx : Tells c l m x)
    (hf : ∀ a, Visits g n scope depth c spots (f a)) :
    Visits g n scope depth c spots (x >>= f) :=
  (Visits.none hat hx).bind hf

/-- A step that leaves no marks may be taken first, on a condition. -/
theorem Visits.when {p : Prop} [Decidable p] {x : Check Unit} {f : Unit → Check β}
    (hat : g.At c) (hx : Tells c l m x) (hf : Visits g n scope depth c spots (f ())) :
    Visits g n scope depth c spots (if p then x >>= f else f ()) := by
  split
  · exact .none_bind hat hx fun _ => hf
  · exact hf

/-- What is visited below a spot that is no expression is visited there. -/
theorem Visits.of_parts {p : Spot} {m : Nat}
    (hx : Visits g n (g.scopeInside scope p) depth c (p.parts g.arena) x)
    (hforest : g.arena.Forest []) (hcost : p.cost = 0) (hm : m ≤ n + 1) :
    Visits g m scope depth c [p] x := by
  intro hlt
  have hp : p.node < n + 1 := Nat.lt_of_lt_of_le (hlt p List.mem_cons_self) hm
  refine (hx fun q hq => Nat.lt_of_lt_of_le (hforest.lt_of_mem_parts hq) (Nat.le_of_lt_succ hp)).weaken ?_
  rintro mark ⟨q, hq, howes⟩
  obtain rfl := List.mem_singleton.1 hq
  rcases howes.cases with ⟨_, rfl, -⟩ | hpart
  · cases hcost
  · rwa [hcost] at hpart

theorem Visits.read {f : Context → Check β} (h : Visits g n scope depth c spots (f c)) :
    Visits g n scope depth c spots ((MonadReader.read : Check Context) >>= f) :=
  h

theorem Visits.get {f : State → Check β} (h : ∀ s, Visits g n scope depth c spots (f s)) :
    Visits g n scope depth c spots ((MonadState.get : Check State) >>= f) :=
  fun hlt s => h s hlt s

theorem Visits.moved {go : Context → Context} {back : Context → Context → Context}
    (hx : Visits g n scope depth (go c) spots x) (hback : back c (go c) = c) :
    Visits g n scope depth c spots (excursion go back x) :=
  fun hlt => (hx hlt).moved hback

theorem Visits.forM {xs : List α} {f : α → Check PUnit} {parts : α → List Spot}
    (h : ∀ a ∈ xs, Visits g n scope depth c (parts a) (f a)) (hat : g.At c) :
    Visits g n scope depth c (xs.flatMap parts) (xs.forM f) := by
  induction xs with
  | nil => exact .none hat (Quiet.pure _)
  | cons a rest ih =>
    rw [List.flatMap_cons]
    show Visits g n scope depth c _ (f a >>= fun _ => rest.forM f)
    exact (h a List.mem_cons_self).bind fun _ => ih fun b hb => h b (List.mem_cons_of_mem _ hb)

theorem Visits.mapM {xs : List α} {f : α → Check β} {parts : α → List Spot}
    (h : ∀ a, Visits g n scope depth c (parts a) (f a)) (hat : g.At c) :
    Visits g n scope depth c (xs.flatMap parts) (xs.mapM f) := by
  induction xs with
  | nil => exact .none hat (Quiet.pure _)
  | cons a rest ih =>
    rw [List.mapM_cons, List.flatMap_cons]
    exact (h a).bind fun _ => ih.then_none fun _ => .none hat (Quiet.pure _)

theorem Visits.foldlM {xs : List α} {f : β → α → Check β} {parts : α → List Spot}
    (h : ∀ b a, Visits g n scope depth c (parts a) (f b a)) (hat : g.At c) (b : β) :
    Visits g n scope depth c (xs.flatMap parts) (xs.foldlM f b) := by
  induction xs generalizing b with
  | nil => exact .none hat (Quiet.pure _)
  | cons a rest ih =>
    rw [List.foldlM_cons, List.flatMap_cons]
    exact (h b a).bind ih

end

end Checking

end ScriptAnalysis
