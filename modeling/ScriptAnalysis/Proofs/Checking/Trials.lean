import ScriptAnalysis.Proofs.Checking.Overloads
import ScriptAnalysis.Proofs.Checking.Replay

/-!
# Trials that do not influence each other

Each signature of a call is tried on the same arguments. Where these have no
arrow functions, a trial leaves nothing behind that another could notice: the
arguments fit the same signatures whatever was tried before.

**Why.** A trial from a later state is compared with one from the start in two
steps. The later state is in step with what the signature itself would have led
to (`Tried`). From there the arguments are looked at once more, which leads to
nothing new (`Beyond`), so that the states are still in step.

**Results.**
* `InStep.early`: what is in step with a state that knows no more.
* `Repeatable.again_runs`: arguments that are typed again.
* `Parallel.verdict`: the same arguments misfit.
* `Repeatable.fits_afterTrials`: all trials.
-/
namespace ScriptAnalysis.Checking

open Tie (Runs)

/-! ## Back to an earlier state -/

/-- No more is known of the program. There are more types, and members have been
made of types with objects of their own. -/
structure Beyond (e r : State) : Prop where
  types : TypeTable.Extends e.types r.types
  same : SameFindings { e with types := r.types, apparent := r.apparent } r
  kept : ∀ k type, e.apparent.get? k = some type → r.apparent.get? k = some type
  late : ∀ a name type, r.apparent.get? (a, name) = some type →
    e.apparent.get? (a, name) = some type ∨ (Pairing.own (· < e.types.size) r.types).Lost a

theorem Again.beyond {p : Context} {s e : State} {D : TypeId → Prop} {w : Sides}
    (h : Again p s e D w) : Beyond e w.right where
  types := h.types
  same := h.right
  kept := h.kept
  late a name type ha := by
    rcases h.back a name type ha with hold | ⟨b, -, hlost, hba, -⟩
    · exact .inl hold
    · exact .inr (h.late hlost hba)

/-- The links of the objects that were there earlier. -/
def Sides.early (e : State) (w : Sides) : Sides :=
  ⟨fun a b => w.link a b ∧ a < e.types.size, e, w.right⟩

section

variable {e : State} {w : Sides} (he : e.Whole) (h : Beyond e w.left)

include he h

/-- What was alike to a type that was there is alike to it earlier. -/
theorem alike_early {a b : TypeId} (ha : There e.types.size a) (hab : w.pairing.Alike a b) :
    (w.early e).pairing.Alike a b := by
  replace ha := he.types.there_iff.1 ha
  induction hab with
  | leaf hl hr hleaf => exact .leaf (h.types.was ha hl) hr hleaf
  | array hl hr _ ih =>
    have hl := h.types.was ha hl
    exact .array hl hr (ih (Nat.lt_trans (he.before _ _ hl _ (List.mem_singleton_self _)) ha))
  | union hl hr hlength _ ih =>
    have hl := h.types.was ha hl
    exact .union hl hr hlength fun i x y hx hy =>
      ih i x y hx hy (Nat.lt_trans (he.before _ _ hl _ (List.mem_of_getElem? hx)) ha)
  | object hlink => exact .object ⟨hlink, ha⟩

theorem lost_early {a : TypeId} (ha : a < e.types.size) (hlost : w.pairing.Lost a) :
    (w.early e).pairing.Lost a := by
  induction hlost with
  | array hl _ ih =>
    have hl := h.types.was ha hl
    exact .array hl (ih (Nat.lt_trans (he.before _ _ hl _ (List.mem_singleton_self _)) ha))
  | union hl hx _ ih =>
    have hl := h.types.was ha hl
    exact .union hl hx (ih (Nat.lt_trans (he.before _ _ hl _ hx) ha))
  | object hl hnone => exact .object (h.types.was ha hl) fun b hab => hnone b hab.1

/-- What is in step with a state that knows no more is in step with the earlier
one. -/
theorem InStep.early {m m' : Made} (hw : InStep m m' w) :
    InStep e.apparent w.right.apparent (w.early e) := by
  have hearly : ∀ a b, There e.types.size a → w.pairing.Alike a b →
      (w.early e).pairing.Alike a b := fun _ _ => alike_early he h
  have hsingle : ∀ a b, Below e.types.size (single a) → w.pairing.Alike a b →
      (w.early e).pairing.Alike a b := fun a b ha => hearly a b (below_single.1 ha)
  have hlinked : (w.early e).pairing.Linked :=
    { left := he.grounded
      right := hw.linked.right
      left_unique := fun a a' b hab hab' => hw.linked.left_unique a a' b hab.1 hab'.1
      right_unique := fun a b b' hab hab' => hw.linked.right_unique a b b' hab.1 hab'.1
      shapes := by
        rintro a b ⟨hab, ha⟩
        obtain ⟨shape, shape', hs, hs', halike⟩ := hw.linked.shapes a b hab
        have hs := h.types.was ha hs
        exact ⟨shape, shape', hs, hs', halike.imp_there hearly (he.types.shapes a shape hs)⟩ }
  exact
    { linked := hlinked
      values := (h.same.valueTypes ▸ hw.values).imp_holds he.found.values hsingle
      aliases := (h.same.aliasTypes ▸ hw.aliases).imp_holds he.found.aliases hsingle
      classes := (h.same.classTypes ▸ hw.classes).imp_holds he.found.classes
        fun types types' htypes hboth => by
          simp only [ClassTypes.mentions, below_cons] at htypes
          exact ⟨hearly _ _ htypes.1 hboth.instances, hearly _ _ htypes.2.1 hboth.constructors⟩
      interfaces := (h.same.interfaceTypes ▸ hw.interfaces).imp_holds he.found.interfaces hsingle
      signatures := (h.same.signatures ▸ hw.signatures).imp_holds he.found.signatures
        fun _ _ hs hsame => hsame.imp_there hearly hs
      arrows := (h.same.arrowTypes ▸ hw.arrows).imp_holds he.found.arrows hsingle
      contextual := (h.same.contextual ▸ hw.contextual).imp_holds he.found.contextual hsingle
      owners := h.same.memberOwners.symm.trans hw.owners
      covers := fun a name type ha => by
        rcases hw.covers a name type (h.kept _ type ha) with ⟨-, hlost⟩ | ⟨b, type', hab, hb, htype⟩
        · exact .inl ⟨ha, lost_early he h (he.receivers a name type ha) hlost⟩
        · exact .inr ⟨b, type', hearly a b (.inl (he.receivers a name type ha)) hab, hb,
            hsingle _ _ (he.found.apparent _ _ ha) htype⟩
      covered := fun b name type hb => by
        rcases hw.covered b name type hb with ⟨-, hlost⟩ | ⟨a, type', hba, ha, htype⟩
        · exact .inl ⟨hb, hlost.relink (.refl _) fun _ x _ _ hx => ⟨x, hx.1⟩⟩
        · rcases h.late a name type' ha with hold | hlost
          · exact .inr ⟨a, type', (hearly a b (.inl (he.receivers a name type' hold)) hba.swap).swap,
              hold, (hsingle _ _ (he.found.apparent _ _ hold) htype.swap).swap⟩
          · refine .inl ⟨hb, Pairing.Lost.across (p := w.pairing) hlost hba.swap hw.linked rfl ?_⟩
            intro i j hij hlate x hx
            exact hlate (hw.linked.left_unique x i j hx.1 hij ▸ hx.2) }

end

/-! ## Arguments that are typed in two runs -/

section

variable {T : Tie} {self : Rules} (h : Tied T self) {w : Sides} {c c' : Context}

theorem Walked.moves_misfits {walk : Walk} (h : Walked walk self) (pairs : List (NodeId × Parameter)) :
    walk.Moves c (misfits self pairs) := by
  induction pairs with
  | nil => exact .pure _
  | cons pair rest ih =>
    exact Walk.Moves.bind (h.expression _ _ _) fun _ => Walk.Moves.bind (.assignable _ _) fun _ =>
      Walk.Moves.bind ih fun _ => .pure _

include h

/-- Where the parameters are alike, the same arguments misfit. -/
theorem Tied.runs_misfits {pairs pairs' : List (NodeId × Parameter)}
    (hpairs : List.Forall₂ (Tied.Passed w.pairing) pairs pairs')
    (ho : ∀ e ∈ pairs, T.Opens c c' e.1) :
    T.Runs w c c' (misfits self pairs) (misfits self pairs') fun _ => Eq := by
  induction pairs generalizing w pairs' with
  | nil =>
    cases hpairs
    exact .pure rfl
  | cons e rest ih =>
    cases hpairs with
    | @cons _ e' _ rest' he hrest =>
      obtain ⟨argument, a⟩ := e
      obtain ⟨argument', b⟩ := e'
      obtain ⟨heq, hab⟩ := he
      obtain rfl : argument = argument' := heq
      refine Runs.bind (h.typed (ho _ List.mem_cons_self) (.some hab.type)) (fun _ hc => ?_)
        fun w' _ _ hgrows _ htype => ?_
      · exact Walk.Moves.bind (.assignable _ _) fun _ =>
          Walk.Moves.bind ((h.walked hc).moves_misfits _) fun _ => .pure _
      refine Runs.bind (.assignable htype (hab.type.mono hgrows)) (fun _ hc => ?_) ?_
      · exact Walk.Moves.bind ((h.walked hc).moves_misfits _) fun _ => .pure _
      rintro w'' fits _ hgrows' _ rfl
      refine Runs.bind (ih (hrest.imp fun _ _ h => h.mono (hgrows.trans hgrows'))
        fun e he => ho e (List.mem_cons_of_mem _ he)) (fun _ _ => .pure _) ?_
      rintro w₃ others _ _ _ rfl
      exact .pure rfl

/-- The same arguments, with parameters that are there. -/
def Presented (p : Pairing) (e e' : NodeId × Parameter) : Prop :=
  e.1 = e'.1 ∧ e.2.type < p.left.size ∧ e'.2.type < p.right.size

/-- The parameters are of no account where no argument has an arrow function. -/
theorem Tied.runs_typed {pairs pairs' : List (NodeId × Parameter)}
    (hpairs : List.Forall₂ (Presented w.pairing) pairs pairs')
    (ho : ∀ e ∈ pairs, T.Opens c c' e.1) (hplain : ∀ e ∈ pairs, Plain c.arena e.1) :
    T.Runs w c c' (misfits self pairs) (misfits self pairs') fun _ _ _ => True := by
  induction pairs generalizing w pairs' with
  | nil =>
    cases hpairs
    exact .pure trivial
  | cons e rest ih =>
    cases hpairs with
    | @cons _ e' _ rest' he hrest =>
      obtain ⟨argument, a⟩ := e
      obtain ⟨argument', b⟩ := e'
      obtain ⟨heq, ha, hb⟩ := he
      obtain rfl : argument = argument' := heq
      have hexpect : Expect w.pairing (some a.type) (some b.type) :=
        ⟨fun _ h => Option.some.inj h ▸ ha, fun _ h => Option.some.inj h ▸ hb⟩
      refine Runs.bind (h.expression (ho _ List.mem_cons_self) (.inl (hplain _ List.mem_cons_self))
        hexpect) (fun _ hc => ?_) fun w' _ _ hgrows _ _ => ?_
      · exact Walk.Moves.bind (.assignable _ _) fun _ =>
          Walk.Moves.bind ((h.walked hc).moves_misfits _) fun _ => .pure _
      refine Runs.bind (Q := fun _ _ _ => True) ?_ (fun _ hc => ?_) fun w'' _ _ hgrows' _ _ => ?_
      · exact fun hw _ _ => ⟨rfl, fun _ => ⟨rfl, w'.link, .refl _, hw, trivial⟩⟩
      · exact Walk.Moves.bind ((h.walked hc).moves_misfits _) fun _ => .pure _
      have hlater := hgrows.trans hgrows'
      refine Runs.bind (ih (hrest.imp fun _ _ hoffer => ?_)
        (fun e he => ho e (List.mem_cons_of_mem _ he)) fun e he => hplain e (List.mem_cons_of_mem _ he))
        (fun _ _ => .pure _) fun _ _ _ _ _ _ => .pure trivial
      exact ⟨hoffer.1, Nat.lt_of_lt_of_le hoffer.2.1 hlater.left.size,
        Nat.lt_of_lt_of_le hoffer.2.2 hlater.right.size⟩

end

/-! ## Runs from one state -/

/-- Two runs that have set out from `s` are in step. -/
def Parallel (s e t : State) : Prop :=
  ∃ m m' link, InStep m m' ⟨link, e, t⟩ ∧
    (Sides.own (objects s.types) s).pairing.Grows (⟨link, e, t⟩ : Sides).pairing

/-- The arguments may be typed several times from `s` on. -/
structure Repeatable (c : Context) (s : State) (arguments : List NodeId) : Prop where
  whole : s.Whole
  place : Below s.types.size c.mentions
  plain : ∀ e ∈ arguments, Plain c.arena e
  ready : ∀ e ∈ arguments, ∀ m, c.arena.Reaches e m → Ready c s m

section

variable {n : Nat} {c : Context} {s e t : State}

theorem Parallel.refl (hs : s.Whole) : Parallel s s s :=
  ⟨_, _, _, hs.inStep, .refl _⟩

theorem Parallel.early {r : State} (h : Parallel s r t) (he : e.Whole) (her : Beyond e r)
    (hse : TypeTable.Extends s.types e.types) : Parallel s e t := by
  obtain ⟨m, m', link, hstep, hgrows⟩ := h
  refine ⟨_, _, _, InStep.early he (w := ⟨link, r, t⟩) her hstep, ?_, ?_, hse.kept, hgrows.right⟩
  · rintro a b hab
    obtain ⟨⟨shape, hshape⟩, rfl⟩ := hab
    exact ⟨hgrows.link a a ⟨⟨shape, hshape⟩, rfl⟩,
      TypeTable.lt_size_of_getElem? (hse a _ hshape)⟩
  · exact fun a b hab => hgrows.new a b hab.1

variable {pairs pairs' : List (NodeId × Parameter)}

section

variable (hs : s.Whole) (h : Parallel s e t)

include hs h

theorem Parallel.there {i : TypeId} (hi : There s.types.size i) :
    i < e.types.size ∧ i < t.types.size := by
  obtain ⟨_, _, _, -, hgrows⟩ := h
  have hlt := hs.types.there_iff.1 hi
  exact ⟨Nat.lt_of_lt_of_le hlt hgrows.left.size, Nat.lt_of_lt_of_le hlt hgrows.right.size⟩

variable (hc : Below s.types.size c.mentions) (hplain : ∀ e ∈ pairs, Plain c.arena e.1)

include hc hplain

/-- The same arguments with the same parameters. -/
theorem Parallel.same (hpairs : ∀ e ∈ pairs, There s.types.size e.2.type) :
    Parallel s (misfits (rules n) pairs c e).2 (misfits (rules n) pairs c t).2 ∧
      (misfits (rules n) pairs c e).1.1 = (misfits (rules n) pairs c t).1.1 := by
  obtain ⟨m, m', link, hstep, hgrows⟩ := h
  have hthere : ∀ {i}, There s.types.size i → (⟨link, e, t⟩ : Sides).pairing.Alike i i := fun hi =>
    (hs.alike_there hi).mono hgrows
  have hruns : (inStep m m').Runs ⟨link, e, t⟩ c c (misfits (rules n) pairs) (misfits (rules n) pairs)
      fun _ => Eq := (stepped_rules n).tied.runs_misfits
    (List.forall₂_same.2 fun x hx => ⟨rfl, rfl, hthere (hpairs x hx), rfl⟩)
    fun x hx => ⟨fun _ _ => trivial, .inl (hplain x hx)⟩
  obtain ⟨-, hrest⟩ := hruns hstep (beside_self fun i hi => hthere (hc i hi)) trivial
  obtain ⟨-, link', hgrows', hstep', heq⟩ := hrest trivial
  exact ⟨⟨m, m', link', hstep', hgrows.trans hgrows'⟩, heq⟩

omit hplain in
/-- Other parameters for the same arguments. -/
theorem Parallel.typed (hplain : ∀ e ∈ pairs, Plain c.arena e.1)
    (hpairs : List.Forall₂ (fun x y => x.1 = y.1 ∧ There s.types.size x.2.type ∧
      There s.types.size y.2.type) pairs pairs') :
    Parallel s (misfits (rules n) pairs c e).2 (misfits (rules n) pairs' c t).2 := by
  have hthere : ∀ {i}, There s.types.size i → i < e.types.size ∧ i < t.types.size := h.there hs
  obtain ⟨m, m', link, hstep, hgrows⟩ := h
  have hruns : (inStep m m').Runs ⟨link, e, t⟩ c c (misfits (rules n) pairs)
      (misfits (rules n) pairs') fun _ _ _ => True := (stepped_rules n).tied.runs_typed
    (hpairs.imp fun _ _ ⟨heq, hx, hy⟩ => ⟨heq, (hthere hx).1, (hthere hy).2⟩)
    (fun x hx => ⟨fun _ _ => trivial, .inl (hplain x hx)⟩) hplain
  have hbeside : Beside (⟨link, e, t⟩ : Sides).pairing c c := beside_self fun i hi =>
    (hs.alike_there (hc i hi)).mono hgrows
  obtain ⟨-, hrest⟩ := hruns hstep hbeside trivial
  obtain ⟨-, link', hgrows', hstep', -⟩ := hrest trivial
  exact ⟨m, m', link', hstep', hgrows.trans hgrows'⟩

end

/-! ## Runs that are made again -/

variable {arguments : List NodeId} (hr : Repeatable c s arguments)

include hr

theorem Repeatable.whole_misfits
    (hpairs : ∀ e ∈ pairs, e.1 ∈ arguments ∧ There s.types.size e.2.type) :
    (misfits (rules n) pairs c s).2.Whole :=
  (hr.whole.runs hr.place ((stepped_rules n).tied.runs_misfits
    (List.forall₂_same.2 fun x hx => ⟨rfl, rfl, hr.whole.alike_there (hpairs x hx).2, rfl⟩)
    fun x hx => ⟨fun _ _ => trivial, .inl (hr.plain x.1 (hpairs x hx).1)⟩)).1

omit hr in
theorem retained_misfits (pairs : List (NodeId × Parameter)) (t : State) :
    Retained c t (misfits (rules n) pairs c t).2 :=
  ((retained_rules c n).moves_misfits pairs t).2 (Behind.refl c)

section

variable {e : State} (he : e.Whole) (hse : Retained c (misfits (rules n) pairs c s).2 e)

include he hse

/-- Typed again when all is known, the arguments lead to nothing new. -/
theorem Repeatable.again_runs {pairs' : List (NodeId × Parameter)}
    {Q : Pairing → List NodeId → List NodeId → Prop}
    (hruns : ∀ (hse : Retained c s e), (again hr.whole hr.place hse).Runs
      ⟨fun a b => objects s.types a ∧ a = b, s, e⟩ c c (misfits (rules n) pairs)
      (misfits (rules n) pairs') Q) :
    Beyond e (misfits (rules n) pairs' c e).2 ∧ ∃ p, Q p (misfits (rules n) pairs c s).1.1
      (misfits (rules n) pairs' c e).1.1 := by
  have hse' := (retained_misfits pairs s).trans hse
  have hbeside : Beside (⟨fun a b => objects s.types a ∧ a = b, s, e⟩ : Sides).pairing c c :=
    beside_self fun i hi => (hr.whole.alike_there (hr.place i hi)).alone
      (fun _ _ hab => ⟨hab.1, rfl⟩) (.refl _) hse'.types.kept
  obtain ⟨-, hrest⟩ := hruns hse' ⟨_, Again.start hr.whole he hse'⟩ hbeside ⟨c.depth, c.speculative, rfl⟩
  obtain ⟨-, link, -, ⟨D, hagain⟩, hq⟩ := hrest hse
  exact ⟨hagain.beyond, _, hq⟩

end

end

/-! ## One trial after the other -/

section

variable {self : Rules} {n : Nat} {c : Context} {s : State} (h : Follows self n)

include h

theorem Follows.misfits_back (pairs : List (NodeId × Parameter)) : (misfits self pairs c s).1.2 = c := by
  induction pairs generalizing s with
  | nil => rfl
  | cons pair rest ih =>
    rw [h.misfits_cons]
    exact ih

theorem Follows.misfits_append (first rest : List (NodeId × Parameter)) :
    misfits self (first ++ rest) c s =
      (((misfits self first c s).1.1 ++ (misfits self rest c (misfits self first c s).2).1.1, c),
        (misfits self rest c (misfits self first c s).2).2) := by
  induction first generalizing s with
  | nil => exact Prod.ext (Prod.ext rfl (h.misfits_back rest)) rfl
  | cons pair first ih =>
    rw [List.cons_append, h.misfits_cons, ih, h.misfits_cons]
    dsimp only
    split <;> rfl

/-- A trial types some of the arguments. -/
theorem Follows.argumentsFit_typed (pairs : List (NodeId × Parameter)) :
    ∃ k, (argumentsFit self pairs c s).2 = (misfits self (pairs.take k) c s).2 := by
  induction pairs generalizing s with
  | nil => exact ⟨0, rfl⟩
  | cons pair rest ih =>
    rw [h.argumentsFit_cons]
    split
    · obtain ⟨k, hk⟩ := ih (s := (self.expression pair.1 (some pair.2.type) c s).2)
      refine ⟨k + 1, ?_⟩
      rw [List.take_succ_cons, h.misfits_cons]
      exact hk
    · refine ⟨1, ?_⟩
      rw [List.take_succ_cons, List.take_zero, h.misfits_cons]
      rfl

end

/-- The arguments may be offered to the signature. -/
structure Offered (s : State) (arguments : List NodeId) (signature : Signature) : Prop where
  there : ∀ q ∈ signature.parameters, There s.types.size q.type
  enough : arguments.length ≤ signature.parameters.length

section

variable {n : Nat} {c : Context} {s t : State} {arguments : List NodeId} {first second : Signature}

theorem Offered.mem (h : Offered s arguments first) {x : NodeId × Parameter}
    (hx : x ∈ arguments.zip first.parameters) : x.1 ∈ arguments ∧ There s.types.size x.2.type :=
  have ⟨hargument, hparameter⟩ := List.of_mem_zip (show (x.1, x.2) ∈ _ from hx)
  ⟨hargument, h.there x.2 hparameter⟩

/-- Two signatures are offered the same arguments. -/
theorem Offered.same (h : Offered s arguments first) (h' : Offered s arguments second) :
    List.Forall₂ (fun x y => x.1 = y.1 ∧ There s.types.size x.2.type ∧ There s.types.size y.2.type)
      (arguments.zip first.parameters) (arguments.zip second.parameters) := by
  refine List.forall₂_iff_get.2 ⟨?_, fun i hi hi' => ?_⟩
  · rw [List.length_zip, List.length_zip, Nat.min_eq_left h.enough, Nat.min_eq_left h'.enough]
  · have hx := h.mem (List.get_mem (arguments.zip first.parameters) ⟨i, hi⟩)
    have hy := h'.mem (List.get_mem (arguments.zip second.parameters) ⟨i, hi'⟩)
    exact ⟨by simp, hx.2, hy.2⟩

/-- What is known after the first arguments were typed for the signature. -/
def line (n : Nat) (c : Context) (s : State) (arguments : List NodeId) (k : Nat)
    (signature : Signature) : State :=
  (misfits (rules n) ((arguments.zip signature.parameters).take k) c s).2

theorem retained_line (signature : Signature) {k m : Nat} (hk : k ≤ m) :
    Retained c (line n c s arguments k signature) (line n c s arguments m signature) := by
  have hsplit := List.take_append_drop k ((arguments.zip signature.parameters).take m)
  rw [List.take_take, Nat.min_eq_left hk] at hsplit
  unfold line
  rw [← hsplit, (rules_follow n).misfits_append]
  exact retained_misfits _ _

variable (hr : Repeatable c s arguments) (hfirst : Offered s arguments first)

include hr hfirst

theorem Repeatable.whole_line (k : Nat) : (line n c s arguments k first).Whole :=
  hr.whole_misfits fun _ hx => hfirst.mem (List.mem_of_mem_take hx)

/-- Typing arguments that have been typed leads back to where they were typed. -/
theorem Parallel.again {m k : Nat} (h : Parallel s (line n c s arguments m first) t)
    (hsecond : Offered s arguments second) (hk : k ≤ m) :
    Parallel s (line n c s arguments m first)
      (misfits (rules n) ((arguments.zip second.parameters).take k) c t).2 := by
  have hplain : ∀ e ∈ (arguments.zip second.parameters).take k, Plain c.arena e.1 := fun _ hx =>
    hr.plain _ (hsecond.mem (List.mem_of_mem_take hx)).1
  refine (h.same hr.whole hr.place hplain fun _ hx =>
    (hsecond.mem (List.mem_of_mem_take hx)).2).1.early (hr.whole_line hfirst m) ?_
      ((retained_misfits _ s).types)
  refine (hr.again_runs (hr.whole_line hfirst m) (retained_line first hk) (Q := fun _ _ _ => True)
    fun hse => (tied_again hr.whole hr.place hse (hr.whole_line hfirst m) n).runs_typed ?_ ?_ ?_).1
  · refine (List.forall₂_take k (hfirst.same hsecond)).imp fun _ _ ⟨heq, hx, hy⟩ => ⟨heq, ?_, ?_⟩
    · exact hr.whole.types.there_iff.1 hx
    · exact Nat.lt_of_lt_of_le (hr.whole.types.there_iff.1 hy) hse.types.kept.size
  · intro x hx
    have hx := (hfirst.mem (List.mem_of_mem_take hx)).1
    exact ⟨hr.ready x.1 hx, .inl (hr.plain x.1 hx)⟩
  · exact fun x hx => hr.plain _ (hfirst.mem (List.mem_of_mem_take hx)).1

/-- The same arguments misfit as from the start. -/
theorem Parallel.verdict {m : Nat} (h : Parallel s (line n c s arguments m first) t) :
    (misfits (rules n) (arguments.zip first.parameters) c t).1.1 =
      (misfits (rules n) (arguments.zip first.parameters) c s).1.1 := by
  let early := (arguments.zip first.parameters).take m
  let late := (arguments.zip first.parameters).drop m
  have hmem : ∀ {x}, x ∈ early ∨ x ∈ late → x.1 ∈ arguments ∧ There s.types.size x.2.type :=
    fun hx => hfirst.mem (hx.elim List.mem_of_mem_take List.mem_of_mem_drop)
  have hagain := h.again hr hfirst hfirst (Nat.le_refl m)
  have hwhole := hr.whole_line (n := n) hfirst m
  -- the first arguments have been typed in both runs, and are typed again from where that has led
  have hearly : (misfits (rules n) early c t).1.1 = (misfits (rules n) early c s).1.1 := by
    have hsame : (misfits (rules n) early c (line n c s arguments m first)).1.1 =
        (misfits (rules n) early c t).1.1 := (h.same hr.whole hr.place
      (fun x hx => hr.plain _ (hmem (.inl hx)).1) fun x hx => (hmem (.inl hx)).2).2
    have hruns : ∀ hse : Retained c s (line n c s arguments m first),
        (Checking.again hr.whole hr.place hse).Runs
          ⟨fun a b => objects s.types a ∧ a = b, s, line n c s arguments m first⟩ c c
          (misfits (rules n) early) (misfits (rules n) early) fun _ => Eq := fun hse =>
      (tied_again hr.whole hr.place hse hwhole n).runs_misfits
        (List.forall₂_same.2 fun x hx => ⟨rfl, rfl, (hr.whole.alike_there (hmem (.inl hx)).2).alone
          (fun _ _ hab => ⟨hab.1, rfl⟩) (.refl _) hse.types.kept, rfl⟩)
        fun x hx => ⟨hr.ready x.1 (hmem (.inl hx)).1, .inl (hr.plain x.1 (hmem (.inl hx)).1)⟩
    obtain ⟨-, _, heq⟩ := hr.again_runs hwhole (.refl c _) hruns
    exact hsame.symm.trans heq.symm
  have hlate : (misfits (rules n) late c (line n c s arguments m first)).1.1 =
      (misfits (rules n) late c (misfits (rules n) early c t).2).1.1 := (hagain.same hr.whole hr.place
    (fun x hx => hr.plain _ (hmem (.inr hx)).1) fun x hx => (hmem (.inr hx)).2).2
  have hsplit : arguments.zip first.parameters = early ++ late := (List.take_append_drop m _).symm
  have hrules := rules_follow n
  rw [hsplit, hrules.misfits_append, hrules.misfits_append]
  exact congrArg₂ _ hearly hlate.symm

end

/-! ## All trials -/

/-- However the first `m` arguments are typed from `s`, that leads to a state in
step with `t`. -/
def Tried (n : Nat) (c : Context) (s : State) (arguments : List NodeId) (signatures : List Signature)
    (m : Nat) (t : State) : Prop :=
  ∀ signature ∈ signatures, Parallel s (line n c s arguments m signature) t

section

variable {n : Nat} {c : Context} {s t : State} {arguments : List NodeId} {signatures : List Signature}
  (hr : Repeatable c s arguments) (hall : ∀ signature ∈ signatures, Offered s arguments signature)

include hr

theorem Repeatable.tried_start : Tried n c s arguments signatures 0 s :=
  fun _ _ => .refl hr.whole

include hall

/-- Whichever signature is tried, and however far the trial gets. -/
theorem Tried.step {m : Nat} (h : Tried n c s arguments signatures m t) {signature : Signature}
    (hmem : signature ∈ signatures) (k : Nat) :
    Tried n c s arguments signatures (max m k)
      (misfits (rules n) ((arguments.zip signature.parameters).take k) c t).2 := by
  intro other hother
  rcases Nat.le_total k m with hk | hk
  · rw [Nat.max_eq_left hk]
    exact (h other hother).again hr (hall other hother) (hall signature hmem) hk
  · rw [Nat.max_eq_right hk]
    have hagain := (h other hother).again hr (hall other hother) (hall signature hmem) (Nat.le_refl m)
    have hsplit : ∀ {α : Type} (l : List α), l.take k = l.take m ++ (l.drop m).take (k - m) := fun l => by
      rw [← List.take_add, Nat.add_sub_cancel' hk]
    have hline : line n c s arguments k other = (misfits (rules n)
        (((arguments.zip other.parameters).drop m).take (k - m)) c (line n c s arguments m other)).2 := by
      unfold line
      rw [hsplit, (rules_follow n).misfits_append]
    rw [hsplit, (rules_follow n).misfits_append, hline]
    refine hagain.typed hr.whole hr.place (fun x hx => ?_)
      (List.forall₂_take _ (List.forall₂_drop m ((hall other hother).same (hall signature hmem))))
    exact hr.plain _ ((hall other hother).mem (List.mem_of_mem_drop (List.mem_of_mem_take hx))).1

end

/-- The same place, where nothing is recorded. -/
abbrev Context.silent (c : Context) : Context :=
  { c with speculative := c.speculative + 1 }

section

variable {n : Nat} {c : Context} {s t : State} {arguments : List NodeId} {signatures : List Signature}
  (hr : Repeatable c s arguments) (hall : ∀ signature ∈ signatures, Offered s arguments signature)

include hr

theorem Repeatable.silent : Repeatable c.silent s arguments where
  whole := hr.whole
  place := hr.place
  plain := hr.plain
  ready e he m hm := by
    have hready := hr.ready e he m hm
    refine ⟨fun hform => ⟨(hready.classes hform).members, ?_⟩, hready.parameters⟩
    have hnear : Near c c.silent := ⟨c.depth, c.speculative + 1, rfl⟩
    rw [hnear.superAt]
    exact (hready.classes hform).base

/-- Recording is of no account for what misfits. -/
theorem Repeatable.argumentsFit_iff {signature : Signature} (h : Offered s arguments signature) :
    ArgumentsFit (rules n) c arguments s signature ↔
      (misfits (rules n) (arguments.zip signature.parameters) c s).1.1 = [] := by
  have hruns : (inStep s.apparent s.apparent).Runs (.own (objects s.types) s) c c.silent
      (misfits (rules n) (arguments.zip signature.parameters))
      (misfits (rules n) (arguments.zip signature.parameters)) fun _ => Eq :=
    (stepped_rules n).tied.runs_misfits
      (List.forall₂_same.2 fun x hx => ⟨rfl, rfl, hr.whole.alike_there (h.mem hx).2, rfl⟩)
      fun x hx => ⟨fun _ _ => trivial, .inl (hr.plain x.1 (h.mem hx).1)⟩
  have hself := beside_self fun i hi => hr.whole.alike_there (hr.place i hi)
  obtain ⟨-, hrest⟩ := hruns hr.whole.inStep ⟨rfl, hself.functions, hself.thisTypes⟩ trivial
  obtain ⟨-, -, -, -, heq⟩ := hrest trivial
  exact (congrArg (· = []) heq).symm.to_iff

include hall

theorem Tried.afterTrials {m : Nat} (h : Tried n c.silent s arguments signatures m t)
    {before : List Signature} (hbefore : before ⊆ signatures) :
    ∃ m, Tried n c.silent s arguments signatures m
      (Checking.afterTrials (rules n) c arguments t before) := by
  induction before generalizing m t with
  | nil => exact ⟨m, h⟩
  | cons signature rest ih =>
    obtain ⟨hmem, hrest⟩ := List.cons_subset.1 hbefore
    obtain ⟨k, hk⟩ := (rules_follow n).argumentsFit_typed (c := c.silent) (s := t)
      (arguments.zip signature.parameters)
    have hstep := h.step hr.silent hall hmem k
    rw [← hk] at hstep
    exact ih hstep hrest

/-- What was tried before does not influence whether a signature fits. -/
theorem Repeatable.fits_afterTrials {before : List Signature} (hbefore : before ⊆ signatures)
    {signature : Signature} (hmem : signature ∈ signatures) :
    ArgumentsFit (rules n) c arguments (afterTrials (rules n) c arguments s before) signature ↔
      (misfits (rules n) (arguments.zip signature.parameters) c s).1.1 = [] := by
  obtain ⟨m, htried⟩ := (hr.silent.tried_start (n := n)).afterTrials hr hall hbefore
  have hverdict := (htried signature hmem).verdict hr.silent (hall signature hmem)
  exact (congrArg (· = []) hverdict).to_iff.trans (hr.argumentsFit_iff (hall signature hmem))

end

end ScriptAnalysis.Checking
