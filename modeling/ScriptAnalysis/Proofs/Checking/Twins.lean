import ScriptAnalysis.Proofs.Ast.Forest
import ScriptAnalysis.Proofs.Checking.Walk
import ScriptAnalysis.Proofs.Types.Linking

/-!
# Two runs of the checker

A computation may be run twice, from states that are not the same: one may have
types that the other has not, or know more. `Sides` are two such states, with
some objects of the one linked to objects of the other. A `Tie` is what is to
hold of the two states all along (`Tie.Holds`), and `Tie.Runs` says that two
computations keep it and give what belongs together.

The places may differ in the types that they refer to and in whether anything
is recorded (`Beside`). The record is of no account.

**Looking back.** The second run may look up what the first has to find out.
For that, what the first run has found must still be known when it ends. So a
tie may be `careful`: then it promises something only if the end of the first
run lies before some fixed state (`Tie.Until`), and so each earlier state has
to lie before it too. In a sequence the second part must not forget anything
(`Tie.Moves`).

**Results.**
* `Tie.Runs.bind`, `Tie.Runs.mapM`, `Tie.Runs.foldlM`: the combinators of the
  monad.
* `Tie.Runs.alloc`, `Tie.Runs.quiet`: the steps that change the state.
* `Tie.Runs.excursion`: standing elsewhere.
-/
namespace ScriptAnalysis.Checking

variable {α β γ δ : Type}

/-- Two states side by side. Some objects of the left one stand for objects of
the right one. -/
structure Sides where
  link : TypeId → TypeId → Prop
  left : State
  right : State

/-- The tables of the two states. -/
def Sides.pairing (w : Sides) : Pairing :=
  ⟨w.link, w.left.types, w.right.types⟩

/-- Nothing was found: at most the record has changed. -/
structure SameFindings (s t : State) : Prop where
  types : t.types = s.types
  valueTypes : t.valueTypes = s.valueTypes
  aliasTypes : t.aliasTypes = s.aliasTypes
  classTypes : t.classTypes = s.classTypes
  interfaceTypes : t.interfaceTypes = s.interfaceTypes
  signatures : t.signatures = s.signatures
  arrowTypes : t.arrowTypes = s.arrowTypes
  contextual : t.contextual = s.contextual
  memberOwners : t.memberOwners = s.memberOwners
  apparent : t.apparent = s.apparent

theorem SameFindings.refl (s : State) : SameFindings s s :=
  ⟨rfl, rfl, rfl, rfl, rfl, rfl, rfl, rfl, rfl, rfl⟩

theorem SameFindings.trans {s t u : State} (h : SameFindings s t) (h' : SameFindings t u) :
    SameFindings s u :=
  ⟨h'.types.trans h.types, h'.valueTypes.trans h.valueTypes, h'.aliasTypes.trans h.aliasTypes,
    h'.classTypes.trans h.classTypes, h'.interfaceTypes.trans h.interfaceTypes,
    h'.signatures.trans h.signatures, h'.arrowTypes.trans h.arrowTypes,
    h'.contextual.trans h.contextual, h'.memberOwners.trans h.memberOwners,
    h'.apparent.trans h.apparent⟩

/-! ## Places side by side -/

/-- The place with other types around it. -/
def Context.beside (c : Context) (functions : List (Option TypeId)) (thisTypes : List TypeId)
    (speculative : Nat) : Context :=
  { c with functions := functions, thisTypes := thisTypes, speculative := speculative }

/-- The places differ at most in the types around them, which are alike, and in
whether anything is recorded. -/
structure Beside (p : Pairing) (c c' : Context) : Prop where
  place : c' = c.beside c'.functions c'.thisTypes c'.speculative
  functions : List.Forall₂ (Option.Rel p.Alike) c.functions c'.functions
  thisTypes : List.Forall₂ p.Alike c.thisTypes c'.thisTypes

theorem rel_mono {α β : Type} {R S : α → β → Prop} (hRS : ∀ a b, R a b → S a b) {o : Option α}
    {o' : Option β} (h : Option.Rel R o o') : Option.Rel S o o' := by
  cases h with
  | none => exact .none
  | some hab => exact .some (hRS _ _ hab)

theorem Beside.mono {p p' : Pairing} {c c' : Context} (h : Beside p c c') (hp : p.Grows p') :
    Beside p' c c' where
  place := h.place
  functions := h.functions.imp fun _ _ => rel_mono fun _ _ hab => hab.mono hp
  thisTypes := h.thisTypes.imp fun _ _ hab => hab.mono hp

/-! ### What is around -/

theorem thisOfChain_congr {c c' : Context} (hfiles : c'.files = c.files)
    (hbindings : c'.bindings = c.bindings) (s : State) (scopes : List ScopeId) :
    thisOfChain c' s scopes = thisOfChain c s scopes := by
  have hform : ∀ site, c'.form? site = c.form? site := fun site => by
    unfold Context.form? Context.sourceFile
    rw [hfiles]
  induction scopes with
  | nil => rfl
  | cons id outer ih =>
    unfold thisOfChain
    simp only [hbindings, hform, ih]

theorem thisOfScope_congr {c c' : Context} (hfiles : c'.files = c.files)
    (hbindings : c'.bindings = c.bindings) (s : State) (scope : ScopeId) :
    thisOfScope c' s scope = thisOfScope c s scope := by
  unfold thisOfScope
  rw [hbindings]
  exact thisOfChain_congr hfiles hbindings s _

/-- What `this` means at a place. -/
def thisAt (c : Context) (s : State) : Option TypeId :=
  (thisOfScope c s c.scope).orElse fun _ => c.this

theorem thisAt_congr {c c' : Context} (hfiles : c'.files = c.files)
    (hbindings : c'.bindings = c.bindings) (hscope : c'.scope = c.scope)
    (hthis : c'.thisTypes = c.thisTypes) (s : State) : thisAt c' s = thisAt c s := by
  unfold thisAt Context.this
  rw [thisOfScope_congr hfiles hbindings, hscope, hthis]

/-- The instances of the base class at a place. -/
def superAt (c : Context) (s : State) : TypeId :=
  ((thisAt c s).bind fun this => (s.types.bases this).head?).getD .error

theorem thisAt_alike {w : Sides} {c c' : Context} (hc : Beside w.pairing c c')
    (h : Option.Rel w.pairing.Alike (thisOfScope c w.left c.scope) (thisOfScope c w.right c.scope)) :
    Option.Rel w.pairing.Alike (thisAt c w.left) (thisAt c' w.right) := by
  have hsame : thisOfScope c' w.right c'.scope = thisOfScope c w.right c.scope := by
    rw [hc.place]
    apply thisOfScope_congr <;> rfl
  unfold thisAt
  rw [hsame]
  match thisOfScope c w.left c.scope, thisOfScope c w.right c.scope, h with
  | _, _, .some hab => exact .some hab
  | _, _, .none => exact head?_forall₂ hc.thisTypes

theorem superAt_alike {w : Sides} {c c' : Context} (hw : w.pairing.Linked)
    (h : Option.Rel w.pairing.Alike (thisAt c w.left) (thisAt c' w.right)) :
    w.pairing.Alike (superAt c w.left) (superAt c' w.right) :=
  getD_option (bind_option h fun _ _ hab => head?_forall₂ (hw.bases hab)) hw.error

/-! ## Ties -/

/-- The form is `this` or `super`, which mean the class around. -/
def namesClass : Option Form → Bool
  | some (.keyword .kwThis) => true
  | some (.keyword .kwSuper) => true
  | _ => false

/-- What ties two runs together. -/
structure Tie where
  Holds : Sides → Prop
  At : Context → Prop
  /-- The nodes that may be looked at. -/
  Node : NodeId → Prop
  /-- Arrow functions are looked at too. -/
  arrows : Prop
  careful : Prop
  Until : State → Prop
  walk : Walk
  linked : ∀ {w}, Holds w → w.pairing.Linked
  added : ∀ {w : Sides} {p : Pairing}, Holds w → w.pairing.Adds p → p.Linked →
    Holds ⟨p.link, { w.left with types := p.left }, { w.right with types := p.right }⟩
  noted : ∀ {w l r}, Holds w → SameFindings w.left l → SameFindings w.right r →
    Holds ⟨w.link, l, r⟩
  moved : ∀ {c} (depth speculative : Nat), At c →
    At { c with depth := depth, speculative := speculative }
  free : ¬ careful → ∀ s, Until s
  backs : ∀ {α : Type} {c s} {x : Check α}, careful → At c → walk.Moves c x →
    Until (x c s).2 → Until s
  this : ∀ {w c node}, Holds w → At c → Node node → namesClass (c.arena.form? node) = true →
    Option.Rel w.pairing.Alike (thisOfScope c w.left c.scope) (thisOfScope c w.right c.scope)
  supers : ∀ {w c c' node}, Holds w → At c → Node node → namesClass (c.arena.form? node) = true →
    Beside w.pairing c c' →
    List.Forall₂ w.pairing.SignatureAlike (constructsOfInstance w.left (superAt c w.left))
      (constructsOfInstance w.right (superAt c' w.right))

/-- No arrow function is at the node or below it. -/
def Plain (a : Arena) (node : NodeId) : Prop :=
  ∀ m, a.Reaches node m → isArrow (a.form? m) = false

/-- The node may be looked at from both places. Arrow functions are not only
looked at where something is recorded, so both record or none does. -/
structure Tie.Opens (T : Tie) (c c' : Context) (node : NodeId) : Prop where
  nodes : ∀ m, c.arena.Reaches node m → T.Node m
  even : Plain c.arena node ∨ T.arrows ∧ c.recording = c'.recording

theorem Plain.child {a : Arena} {node m : NodeId} (h : Plain a node) (hm : m ∈ a.children node) :
    Plain a m :=
  fun k hk => h k (.head hm hk)

theorem Tie.Opens.child {T : Tie} {c c' : Context} {node m : NodeId} (h : T.Opens c c' node)
    (hm : m ∈ c.arena.children node) : T.Opens c c' m :=
  ⟨fun k hk => h.nodes k (.head hm hk), h.even.imp_left fun hplain => hplain.child hm⟩

theorem Tie.Opens.inside {T : Tie} {c c' : Context} {node : NodeId} (h : T.Opens c c' node) :
    T.Opens { c with depth := c.depth + 1 } { c' with depth := c'.depth + 1 } node :=
  ⟨h.nodes, h.even⟩

/-- In silence nothing is recorded on either side. -/
theorem Tie.Opens.silent {T : Tie} {c c' : Context} {node : NodeId} (h : T.Opens c c' node) :
    T.Opens { c with speculative := c.speculative + 1 }
      { c' with speculative := c'.speculative + 1 } node :=
  ⟨h.nodes, h.even.imp_right fun harrows => ⟨harrows.1, rfl⟩⟩

variable {T : Tie} {w : Sides} {c c' : Context} {x : Check α} {y : Check β}
  {Q : Pairing → α → β → Prop} {R : Pairing → γ → δ → Prop}

/-- Where it matters, the computation forgets nothing. -/
def Tie.Moves (T : Tie) (c : Context) (x : Check α) : Prop :=
  T.careful → T.walk.Moves c x

/-- The computations keep the tie and come back to where they have started, and
what they give belongs together. -/
def Tie.Runs (T : Tie) (w : Sides) (c c' : Context) (x : Check α) (y : Check β)
    (Q : Pairing → α → β → Prop) : Prop :=
  T.Holds w → Beside w.pairing c c' → T.At c →
    (x c w.left).1.2 = c ∧ (T.Until (x c w.left).2 → (y c' w.right).1.2 = c' ∧
      ∃ link, let w' : Sides := ⟨link, (x c w.left).2, (y c' w.right).2⟩
        w.pairing.Grows w'.pairing ∧ T.Holds w' ∧
          Q w'.pairing (x c w.left).1.1 (y c' w.right).1.1)

namespace Tie.Runs

/-! ## Sequences -/

theorem pure {a : α} {b : β} (h : Q w.pairing a b) :
    T.Runs w c c' (Pure.pure a : Check α) (Pure.pure b) Q :=
  fun hw _ _ => ⟨rfl, fun _ => ⟨rfl, w.link, .refl _, hw, h⟩⟩

/-- What the linked objects are like may be used. -/
theorem linked (h : w.pairing.Linked → T.Runs w c c' x y Q) : T.Runs w c c' x y Q :=
  fun hw => h (T.linked hw) hw

/-- What is known of the types around may be used. -/
theorem placed (h : Beside w.pairing c c' → T.Runs w c c' x y Q) : T.Runs w c c' x y Q :=
  fun hw hc => h hc hw hc

theorem imp {Q' : Pairing → α → β → Prop} (hx : T.Runs w c c' x y Q)
    (h : ∀ p a b, w.pairing.Grows p → p.Linked → Q p a b → Q' p a b) :
    T.Runs w c c' x y Q' := by
  intro hw hc hat
  obtain ⟨hback, hrest⟩ := hx hw hc hat
  refine ⟨hback, fun huntil => ?_⟩
  obtain ⟨hback', link, hgrows, hholds, hq⟩ := hrest huntil
  exact ⟨hback', link, hgrows, hholds, h _ _ _ hgrows (T.linked hholds) hq⟩

theorem bind_gives {f : α → Check γ} {g : β → Check δ} (hx : T.Runs w c c' x y Q)
    (hk : ∀ a, Gives c x a → T.Moves c (f a))
    (hf : ∀ w' : Sides, ∀ a b, w.pairing.Grows w'.pairing → T.Holds w' → Q w'.pairing a b →
      T.Runs w' c c' (f a) (g b) R) :
    T.Runs w c c' (x >>= f) (y >>= g) R := by
  intro hw hc hat
  obtain ⟨hback, hrest⟩ := hx hw hc hat
  rw [bind_apply, hback]
  have hgives : Gives c x (x c w.left).1.1 := ⟨w.left, rfl⟩
  generalize (x c w.left).2 = v at hrest ⊢
  generalize (x c w.left).1.1 = a at hrest hgives ⊢
  -- all that follows the first part is known once the state after it lies before the end
  have hlater : T.Until v → (f a c v).1.2 = c ∧ (T.Until (f a c v).2 →
      ((y >>= g) c' w.right).1.2 = c' ∧ ∃ link,
        let w' : Sides := ⟨link, (f a c v).2, ((y >>= g) c' w.right).2⟩
        w.pairing.Grows w'.pairing ∧ T.Holds w' ∧
          R w'.pairing (f a c v).1.1 ((y >>= g) c' w.right).1.1) := by
    intro huntil
    obtain ⟨hback', link, hgrows, hholds, hq⟩ := hrest huntil
    obtain ⟨hend, hlast⟩ := hf _ a _ hgrows hholds hq hholds (hc.mono hgrows) hat
    refine ⟨hend, fun huntil' => ?_⟩
    obtain ⟨hend', link', hgrows', hholds', hr⟩ := hlast huntil'
    rw [bind_apply, hback']
    exact ⟨hend', link', hgrows.trans hgrows', hholds', hr⟩
  by_cases hcareful : T.careful
  · have hmoves := hk a hgives hcareful
    exact ⟨(hmoves v).1, fun huntil => (hlater (T.backs hcareful hat hmoves huntil)).2 huntil⟩
  · exact hlater (T.free hcareful v)

theorem bind {f : α → Check γ} {g : β → Check δ} (hx : T.Runs w c c' x y Q)
    (hk : ∀ a, T.Moves c (f a))
    (hf : ∀ w' : Sides, ∀ a b, w.pairing.Grows w'.pairing → T.Holds w' → Q w'.pairing a b →
      T.Runs w' c c' (f a) (g b) R) :
    T.Runs w c c' (x >>= f) (y >>= g) R :=
  hx.bind_gives (fun a _ => hk a) hf

/-- What gives a value that is then wrapped. -/
theorem map {f : α → γ} {g : β → δ} (hx : T.Runs w c c' x y Q)
    (h : ∀ p a b, w.pairing.Grows p → p.Linked → Q p a b → R p (f a) (g b)) :
    T.Runs w c c' (x >>= fun a => Pure.pure (f a)) (y >>= fun b => Pure.pure (g b)) R := by
  intro hw hc hat
  obtain ⟨hback, hrest⟩ := hx hw hc hat
  refine ⟨hback, fun huntil => ?_⟩
  obtain ⟨hback', link, hgrows, hholds, hq⟩ := hrest huntil
  exact ⟨hback', link, hgrows, hholds, h _ _ _ hgrows (T.linked hholds) hq⟩

/-- Looking only at what is the same for both. -/
theorem look {f : Context → Check α} {g : Context → Check β}
    (hg : ∀ functions thisTypes speculative,
      g (c.beside functions thisTypes speculative) = g c)
    (h : T.Runs w c c' (f c) (g c) Q) :
    T.Runs w c c' ((MonadReader.read : Check Context) >>= f) ((MonadReader.read : Check Context) >>= g)
      Q := by
  intro hw hc hat
  have hsame : g c' = g c := by
    rw [hc.place]
    exact hg _ _ _
  show (f c c w.left).1.2 = c ∧ (_ → (g c' c' w.right).1.2 = c' ∧ ∃ link,
    let w' : Sides := ⟨link, (f c c w.left).2, (g c' c' w.right).2⟩
    w.pairing.Grows w'.pairing ∧ T.Holds w' ∧ Q w'.pairing _ (g c' c' w.right).1.1)
  rw [hsame]
  exact h hw hc hat

theorem read {f : Context → Check α} {g : Context → Check β} (h : T.Runs w c c' (f c) (g c') Q) :
    T.Runs w c c' ((MonadReader.read : Check Context) >>= f)
      ((MonadReader.read : Check Context) >>= g) Q :=
  h

theorem get {f : State → Check α} {g : State → Check β}
    (h : T.Holds w → T.Runs w c c' (f w.left) (g w.right) Q) :
    T.Runs w c c' ((MonadState.get : Check State) >>= f) ((MonadState.get : Check State) >>= g) Q :=
  fun hw => h hw hw

theorem table {f : TypeTable → Check α} {g : TypeTable → Check β}
    (h : w.pairing.Linked → T.Runs w c c' (f w.pairing.left) (g w.pairing.right) Q) :
    T.Runs w c c' (Checking.table >>= f) (Checking.table >>= g) Q :=
  fun hw => h (T.linked hw) hw

/-! ## Steps -/

theorem alloc {x : TypeTable.Alloc α} {y : TypeTable.Alloc β}
    (h : w.pairing.Linked → w.pairing.Makes x y Q) :
    T.Runs w c c' (Checking.alloc x) (Checking.alloc y) Q := by
  intro hw _ _
  obtain ⟨link, hadds, hlinked, hq⟩ := h (T.linked hw)
  exact ⟨rfl, fun _ => ⟨rfl, link, hadds.grows, T.added hw hadds hlinked, hq⟩⟩

/-- The computation comes back and finds nothing. -/
def Notes (c : Context) (x : Check α) : Prop :=
  ∀ s, (x c s).1.2 = c ∧ SameFindings s (x c s).2

/-- What each side notes for itself. -/
theorem quiet {x y : Check PUnit} (hx : Notes c x) (hy : Notes c' y) :
    T.Runs w c c' x y fun _ _ _ => True := by
  intro hw _ _
  obtain ⟨hback, hsame⟩ := hx w.left
  obtain ⟨hback', hsame'⟩ := hy w.right
  refine ⟨hback, fun _ => ⟨hback', w.link, ?_, T.noted hw hsame hsame', trivial⟩⟩
  show w.pairing.Grows ⟨w.link, (x c w.left).2.types, (y c' w.right).2.types⟩
  rw [hsame.types, hsame'.types]
  exact .refl _

theorem notes_pure (a : α) : Notes c (Pure.pure a : Check α) :=
  fun s => ⟨rfl, .refl s⟩

theorem notes_bind {x : Check α} {f : α → Check β} (hx : Notes c x) (hf : ∀ a, Notes c (f a)) :
    Notes c (x >>= f) := by
  intro s
  obtain ⟨hback, hsame⟩ := hx s
  rw [bind_apply, hback]
  obtain ⟨hback', hsame'⟩ := hf (x c s).1.1 (x c s).2
  exact ⟨hback', hsame.trans hsame'⟩

theorem notes_read {f : Context → Check α} (h : Notes c (f c)) :
    Notes c ((MonadReader.read : Check Context) >>= f) :=
  h

theorem notes_get {f : State → Check α} (h : ∀ s, Notes c (f s)) :
    Notes c ((MonadState.get : Check State) >>= f) :=
  fun s => h s s

theorem notes_table {f : TypeTable → Check α} (h : ∀ t, Notes c (f t)) :
    Notes c (Checking.table >>= f) :=
  fun s => h s.types s

theorem notes_forM_option {o : Option γ} {f : γ → Check PUnit} (h : ∀ a, Notes c (f a)) :
    Notes c (o.forM f) := by
  cases o with
  | none => exact notes_pure _
  | some a => exact h a

theorem notes_record (node : NodeId) (type : TypeId) : Notes c (Checking.record node type) := by
  refine notes_read ?_
  split
  · exact fun _ => ⟨rfl, ⟨rfl, rfl, rfl, rfl, rfl, rfl, rfl, rfl, rfl, rfl⟩⟩
  · exact notes_pure _

theorem notes_reportSpan (start length : Nat) (p : Problem) (details : List Message) :
    Notes c (reportSpan start length p details) := by
  refine notes_read ?_
  split
  · exact fun _ => ⟨rfl, ⟨rfl, rfl, rfl, rfl, rfl, rfl, rfl, rfl, rfl, rfl⟩⟩
  · exact notes_pure _

theorem notes_reportWith (node : NodeId) (p : Problem) (details : List Message) :
    Notes c (reportWith node p details) := by
  refine notes_read ?_
  split
  · exact notes_pure _
  · exact notes_reportSpan _ _ _ _

theorem notes_reportStart (node : NodeId) (length : Nat) (p : Problem) :
    Notes c (reportStart node length p) := by
  refine notes_read ?_
  split
  · exact notes_pure _
  · exact notes_reportSpan _ _ _ _

theorem notes_checkAssignable (source target : TypeId) (node : NodeId) :
    Notes c (checkAssignable source target node) := by
  have hasks : Notes c (Checking.assignable source target) := fun s => ⟨rfl, .refl s⟩
  refine notes_bind hasks fun fits => ?_
  split
  · exact notes_pure _
  · exact notes_table fun t => notes_read (notes_reportWith _ _ _)

theorem notes_exhaust : Notes c exhaust :=
  fun _ => ⟨rfl, ⟨rfl, rfl, rfl, rfl, rfl, rfl, rfl, rfl, rfl, rfl⟩⟩

theorem record (node : NodeId) (type type' : TypeId) :
    T.Runs w c c' (Checking.record node type) (Checking.record node type') fun _ _ _ => True :=
  quiet (notes_record node type) (notes_record node type')

theorem report (node : NodeId) (p p' : Problem) :
    T.Runs w c c' (Checking.report node p) (Checking.report node p') fun _ _ _ => True :=
  quiet (notes_reportWith node p []) (notes_reportWith node p' [])

theorem checkAssignable (source source' target target' : TypeId) (node : NodeId) :
    T.Runs w c c' (Checking.checkAssignable source target node)
      (Checking.checkAssignable source' target' node) fun _ _ _ => True :=
  quiet (notes_checkAssignable source target node) (notes_checkAssignable source' target' node)

/-- The names of types are of no account. -/
theorem display (a b : TypeId) :
    T.Runs w c c' (Checking.display a) (Checking.display b) fun _ _ _ => True :=
  fun hw _ _ => ⟨rfl, fun _ => ⟨rfl, w.link, .refl _, hw, trivial⟩⟩

theorem assignable {a a' b b' : TypeId} (hab : w.pairing.Alike a b) (hab' : w.pairing.Alike a' b') :
    T.Runs w c c' (Checking.assignable a a') (Checking.assignable b b') fun _ fits fits' =>
      fits = fits' := by
  intro hw hc _
  refine ⟨rfl, fun _ => ⟨rfl, w.link, .refl _, hw, ?_⟩⟩
  show w.left.types.assignable c.options.strict a a' = w.right.types.assignable c'.options.strict b b'
  rw [hc.place]
  exact (T.linked hw).assignable _ hab hab'

/-! ## Lists -/

section

variable {S : Pairing → γ → δ → Prop}

theorem mapM {f : γ → Check α} {g : δ → Check β} {xs : List γ} {ys : List δ}
    (hxs : List.Forall₂ (S w.pairing) xs ys)
    (hS : ∀ {p p' a b}, p.Grows p' → S p a b → S p' a b)
    (hQ : ∀ {p p' a b}, p.Grows p' → Q p a b → Q p' a b) (hk : ∀ a, T.Moves c (f a))
    (hf : ∀ w' : Sides, ∀ a ∈ xs, ∀ b, w.pairing.Grows w'.pairing → S w'.pairing a b →
      T.Runs w' c c' (f a) (g b) Q) :
    T.Runs w c c' (xs.mapM f) (ys.mapM g) fun p => List.Forall₂ (Q p) := by
  induction xs generalizing w ys with
  | nil =>
    cases hxs
    exact pure .nil
  | cons a xs ih =>
    cases hxs with
    | cons hab hrest =>
      rw [List.mapM_cons, List.mapM_cons]
      have hmap : T.Moves c (xs.mapM f) := fun hc => .mapM fun a => hk a hc
      refine bind (hf w a List.mem_cons_self _ (.refl _) hab)
        (fun _ hc => (hmap hc).bind fun _ => .pure _) fun w' a' b' hgrows _ hq => ?_
      refine bind (ih (hrest.imp fun _ _ => hS hgrows) fun w'' a ha b hgrows' hab' =>
          hf w'' a (List.mem_cons_of_mem _ ha) b (hgrows.trans hgrows') hab')
        (fun _ _ => .pure _) fun w'' as bs hgrows' _ hqs => ?_
      exact pure (.cons (hQ hgrows' hq) hqs)

theorem forM {f : γ → Check PUnit} {g : δ → Check PUnit} {xs : List γ} {ys : List δ}
    (hxs : List.Forall₂ (S w.pairing) xs ys)
    (hS : ∀ {p p' a b}, p.Grows p' → S p a b → S p' a b) (hk : ∀ a, T.Moves c (f a))
    (hf : ∀ w' : Sides, ∀ a ∈ xs, ∀ b, w.pairing.Grows w'.pairing → S w'.pairing a b →
      T.Runs w' c c' (f a) (g b) fun _ _ _ => True) :
    T.Runs w c c' (xs.forM f) (ys.forM g) fun _ _ _ => True := by
  induction xs generalizing w ys with
  | nil =>
    cases hxs
    exact pure trivial
  | cons a xs ih =>
    cases hxs with
    | @cons _ b _ ys hab hrest =>
      show T.Runs w c c' (f a >>= fun _ => xs.forM f) (g b >>= fun _ => ys.forM g) _
      refine bind (hf w a List.mem_cons_self _ (.refl _) hab)
        (fun _ hc => .forM fun a => hk a hc) fun w' _ _ hgrows _ _ => ?_
      exact ih (hrest.imp fun _ _ => hS hgrows) fun w'' a ha b hgrows' hab' =>
        hf w'' a (List.mem_cons_of_mem _ ha) b (hgrows.trans hgrows') hab'

theorem foldlM {f : α → γ → Check α} {g : β → δ → Check β} {xs : List γ} {ys : List δ}
    (hxs : List.Forall₂ (S w.pairing) xs ys)
    (hS : ∀ {p p' a b}, p.Grows p' → S p a b → S p' a b) (hk : ∀ a e, T.Moves c (f a e))
    (hf : ∀ w' : Sides, ∀ a b, ∀ e ∈ xs, ∀ e', w.pairing.Grows w'.pairing → Q w'.pairing a b →
      S w'.pairing e e' → T.Runs w' c c' (f a e) (g b e') Q) {a : α} {b : β}
    (hab : Q w.pairing a b) : T.Runs w c c' (xs.foldlM f a) (ys.foldlM g b) Q := by
  induction xs generalizing w ys a b with
  | nil =>
    cases hxs
    exact pure hab
  | cons e xs ih =>
    cases hxs with
    | cons he hrest =>
      rw [List.foldlM_cons, List.foldlM_cons]
      refine bind (hf w a b e List.mem_cons_self _ (.refl _) hab he)
        (fun _ hc => .foldlM (fun a e => hk a e hc) _) fun w' a' b' hgrows _ hq => ?_
      exact ih (hrest.imp fun _ _ => hS hgrows) (fun w'' a b e hmem e' hgrows' =>
        hf w'' a b e (List.mem_cons_of_mem _ hmem) e' (hgrows.trans hgrows')) hq

end

section

variable {f g : γ → Check α} {xs : List γ}

/-- Both go through the same list. -/
theorem mapM_same {f : γ → Check α} {g : γ → Check β} {xs : List γ}
    (hQ : ∀ {p p' a b}, p.Grows p' → Q p a b → Q p' a b) (hk : ∀ a, T.Moves c (f a))
    (hf : ∀ w' : Sides, ∀ a ∈ xs, w.pairing.Grows w'.pairing → T.Runs w' c c' (f a) (g a) Q) :
    T.Runs w c c' (xs.mapM f) (xs.mapM g) fun p => List.Forall₂ (Q p) := by
  refine mapM (S := fun _ => Eq) (List.forall₂_same.2 fun _ _ => rfl) (fun _ h => h) hQ hk ?_
  rintro w' a ha _ hgrows rfl
  exact hf w' a ha hgrows

theorem forM_same {f g : γ → Check PUnit} {xs : List γ} (hk : ∀ a, T.Moves c (f a))
    (hf : ∀ w' : Sides, ∀ a ∈ xs, w.pairing.Grows w'.pairing →
      T.Runs w' c c' (f a) (g a) fun _ _ _ => True) :
    T.Runs w c c' (xs.forM f) (xs.forM g) fun _ _ _ => True := by
  refine forM (S := fun _ => Eq) (List.forall₂_same.2 fun _ _ => rfl) (fun _ h => h) hk ?_
  rintro w' a ha _ hgrows rfl
  exact hf w' a ha hgrows

theorem foldlM_same {f : α → γ → Check α} {g : β → γ → Check β} {xs : List γ}
    (hk : ∀ a e, T.Moves c (f a e))
    (hf : ∀ w' : Sides, ∀ a b, ∀ e ∈ xs, w.pairing.Grows w'.pairing → Q w'.pairing a b →
      T.Runs w' c c' (f a e) (g b e) Q) {a : α} {b : β} (hab : Q w.pairing a b) :
    T.Runs w c c' (xs.foldlM f a) (xs.foldlM g b) Q := by
  refine foldlM (S := fun _ => Eq) (List.forall₂_same.2 fun _ _ => rfl) (fun _ h => h) hk ?_ hab
  rintro w' a b e he _ hgrows hab rfl
  exact hf w' a b e he hgrows hab

end

/-! ## Standing elsewhere -/

theorem excursion {go go' : Context → Context} {back : Context → Context → Context}
    (hx : T.Runs w (go c) (go' c') x y Q) (hback : back c (go c) = c)
    (hback' : back c' (go' c') = c') (hat : T.At c → T.At (go c))
    (hgo : Beside w.pairing c c' → Beside w.pairing (go c) (go' c')) :
    T.Runs w c c' (Checking.excursion go back x) (Checking.excursion go' back y) Q := by
  intro hw hc hhere
  obtain ⟨hend, hrest⟩ := hx hw (hgo hc) (hat hhere)
  refine ⟨(congrArg (back c) hend).trans hback, fun huntil => ?_⟩
  obtain ⟨hend', hlast⟩ := hrest huntil
  exact ⟨(congrArg (back c') hend').trans hback', hlast⟩

theorem in_silence (hx : T.Runs w { c with speculative := c.speculative + 1 }
    { c' with speculative := c'.speculative + 1 } x y Q) :
    T.Runs w c c' (silently x) (silently y) Q :=
  hx.excursion rfl rfl (T.moved _ _) fun hc =>
    ⟨congrArg (fun c : Context => { c with speculative := c.speculative + 1 }) hc.place |>.trans rfl,
      hc.functions, hc.thisTypes⟩

theorem in_expression (hx : T.Runs w { c with depth := c.depth + 1 }
    { c' with depth := c'.depth + 1 } x y Q) :
    T.Runs w c c' (inExpression x) (inExpression y) Q :=
  hx.excursion rfl rfl (T.moved _ _) fun hc =>
    ⟨congrArg (fun c : Context => { c with depth := c.depth + 1 }) hc.place |>.trans rfl,
      hc.functions, hc.thisTypes⟩

end Tie.Runs

end ScriptAnalysis.Checking
