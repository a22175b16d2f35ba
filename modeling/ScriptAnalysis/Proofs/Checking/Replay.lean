import ScriptAnalysis.Proofs.Checking.Recall
import ScriptAnalysis.Proofs.Checking.Whole

/-!
# A run that is made again

An expression is looked at twice, the second time when all is known that was
found out the first time. What was asked about symbols is looked up then. All
other types are made again, so the two types of the expression are alike.

**What is the same.** Objects that were made for symbols are the same in both
runs, those that were made for the expression itself have partners
(`Again.sorts`). A member of a primitive or an array is looked up if its
receiver is made of the former, and made on both sides otherwise.

**Where it holds.** The meaning of `this` and `super` must not be found out on
the way (`ClassesKnown`), and a function type that is being resolved has to
have declared parameters (`Ready`). Arrow functions are left out: they are
remembered by themselves.

**Results.**
* `Again.learn`: what the first run finds out is known in the second.
* `tied_again`: all expressions.
-/
namespace ScriptAnalysis.Checking

open Tie (Runs)

theorem Retained.of_findings {p : Context} {s t : State} (h : SameFindings s t) : Retained p s t where
  types := h.types ▸ .refl _
  values := .of_eq h.valueTypes
  aliases := .of_eq h.aliasTypes
  signatures := .of_eq h.signatures
  classes := .of_eq h.classTypes
  interfaces := .of_eq h.interfaceTypes
  members := .of_eq h.apparent
  owned site := by
    rw [h.memberOwners]
    exact id
  owners site owner := by
    rw [h.memberOwners]
    exact .inl

theorem SameFindings.types_apparent {s t u : State}
    (h : SameFindings { s with types := t.types, apparent := t.apparent } u) :
    SameFindings { s with types := u.types, apparent := u.apparent } u :=
  { h with types := rfl, apparent := rfl }

/-- An expression that was looked at from `s` on is looked at again, now that
all is known that is known at `e`. The objects in `D` were made while symbols
were asked about: those are the same in both runs. The others were made by the
expression itself, and are made again. -/
structure Again (p : Context) (s e : State) (D : TypeId → Prop) (w : Sides) : Prop where
  linked : w.pairing.Linked
  within : InStep w.left.apparent w.left.apparent (.own D w.left)
  since : ∀ a, objects s.types a → D a
  left : Retained p s w.left
  known : ∀ a, D a → w.link a a
  sorts : ∀ a b, w.link a b → D a ∧ a = b ∨ ¬ D a ∧ e.types.size ≤ b
  types : TypeTable.Extends e.types w.right.types
  right : SameFindings { e with types := w.right.types, apparent := w.right.apparent } w.right
  kept : ∀ k type, e.apparent.get? k = some type → w.right.apparent.get? k = some type
  paired : ∀ a name type, w.left.apparent.get? (a, name) = some type →
    (Sides.own D w.left).pairing.Alike a a ∨ ∃ b type', w.pairing.Alike a b ∧
      w.right.apparent.get? (b, name) = some type' ∧ w.pairing.Alike type type'
  back : ∀ b name type, w.right.apparent.get? (b, name) = some type →
    e.apparent.get? (b, name) = some type ∨ ∃ a type', (Sides.own D w.left).pairing.Lost a ∧
      w.pairing.Alike a b ∧ w.left.apparent.get? (a, name) = some type'

namespace Again

variable {p c c' : Context} {s e : State} {D : TypeId → Prop} {w : Sides}

section

variable (h : Again p s e D w)

include h

theorem answers : SameAnswers e w.right :=
  ⟨h.right.valueTypes, h.right.aliasTypes, h.right.classTypes, h.right.interfaceTypes,
    h.right.signatures⟩

theorem not_new {a b : TypeId} (hab : w.link a b) : a < w.left.types.size :=
  have ⟨_, _, hs, _⟩ := h.linked.shapes a b hab
  TypeTable.lt_size_of_getElem? hs

/-- What was made anew refers to objects of its own. -/
theorem late {a b : TypeId} (hlost : (Sides.own D w.left).pairing.Lost a) (hab : w.pairing.Alike a b) :
    (Pairing.own (· < e.types.size) w.right.types).Lost b :=
  Pairing.Lost.across (p := w.pairing) hlost hab h.linked rfl fun i j hij hnot _ hx =>
    Nat.not_lt.2 ((h.sorts i j hij).resolve_left fun hsame => hnot hsame.1).2 hx.1

/-- Types were added on both sides. -/
theorem added {q : Pairing} (hadds : w.pairing.Adds q) (hq : q.Linked) :
    Again p s e D
      ⟨q.link, { w.left with types := q.left }, { w.right with types := q.right }⟩ := by
  have hgrows := hadds.grows
  obtain ⟨hown, hownlinked⟩ := h.within.linked.extended hq.left hq.left hadds.left hadds.left
  exact
    { linked := hq
      within := h.within.grow hown.grows (fun _ _ => .inl) hownlinked (.refl _) (.refl _)
      since := h.since
      left := { h.left with types := h.left.types.trans hadds.left }
      known := fun a ha => hadds.link a a (h.known a ha)
      sorts := fun a b hab => by
        rcases hadds.new a b hab with hold | ⟨hnew, hlate⟩
        · exact h.sorts a b hold
        · refine .inr ⟨fun hd => ?_, Nat.le_trans h.types.kept.size hlate⟩
          exact Nat.lt_irrefl _ (Nat.lt_of_lt_of_le (h.not_new (h.known a hd)) hnew)
      types := h.types.trans hadds.right
      right := { h.right with types := rfl }
      kept := h.kept
      paired := fun a name type ha => by
        rcases h.paired a name type ha with hself | ⟨b, type', hab, hb, htype⟩
        · exact .inl (hself.mono hown.grows)
        · exact .inr ⟨b, type', hab.mono hgrows, hb, htype.mono hgrows⟩
      back := fun b name type hb => by
        rcases h.back b name type hb with hold | ⟨a, type', hlost, hab, ha⟩
        · exact .inl hold
        · exact .inr ⟨a, type', hlost.mono hown.grows, hab.mono hgrows, ha⟩ }

/-- Each side has noted something for itself. -/
theorem noted {l r : State} (hl : SameFindings w.left l) (hr : SameFindings w.right r) :
    Again p s e D ⟨w.link, l, r⟩ := by
  have hpairing : (⟨w.link, l, r⟩ : Sides).pairing = w.pairing := by
    unfold Sides.pairing
    rw [hl.types, hr.types]
  have hown : (Sides.own D l).pairing = (Sides.own D w.left).pairing := by
    unfold Sides.own Sides.pairing
    rw [hl.types]
  exact
    { linked := hpairing ▸ h.linked
      within := by
        have hsame := (inStep w.left.apparent w.left.apparent).noted h.within hl hl
        rwa [← hl.apparent] at hsame
      since := h.since
      left := h.left.trans (.of_findings hl)
      known := h.known
      sorts := h.sorts
      types := hr.types ▸ h.types
      right := (h.right.trans hr).types_apparent
      kept := fun k type hk => by
        rw [hr.apparent]
        exact h.kept k type hk
      paired := fun a name type ha => by
        rw [hpairing, hown, hr.apparent]
        exact h.paired a name type (hl.apparent ▸ ha)
      back := fun b name type hb => by
        rw [hpairing, hown, hl.apparent]
        exact h.back b name type (hr.apparent ▸ hb) }

/-- Something was asked about on the left side, and all that was found out is
known in the end. -/
theorem learn {l : State} {link' : TypeId → TypeId → Prop} (hl : Retained p w.left l)
    (he : Retained p l e)
    (hgrows : (Sides.own D w.left).pairing.Grows (⟨link', l, l⟩ : Sides).pairing)
    (hstep : InStep w.left.apparent w.left.apparent ⟨link', l, l⟩) :
    let D' : TypeId → Prop := fun a => ∃ b, link' a b
    let w' : Sides := ⟨fun a b => w.link a b ∨ D' a ∧ a = b, l, w.right⟩
    w.pairing.Grows w'.pairing ∧ Again p s e D' w' ∧
      ∀ i j, (⟨link', l, l⟩ : Sides).pairing.Alike i j → w'.pairing.Alike i i := by
  intro D' w'
  have hold : ∀ a, D a → D' a := fun a ha => ⟨a, hgrows.link a a ⟨ha, rfl⟩⟩
  have hnew : ∀ a, D' a → D a ∨ w.left.types.size ≤ a := by
    rintro a ⟨b, hab⟩
    exact (hgrows.new a b hab).imp_left And.left
  have hearly : ∀ a, D' a → a < e.types.size := by
    rintro a ⟨b, hab⟩
    obtain ⟨shape, -, hshape, -⟩ := hstep.linked.shapes a b hab
    exact TypeTable.lt_size_of_getElem? (he.types a _ hshape)
  have hextends : TypeTable.Extends l.types w.right.types := he.types.trans h.types
  have hgrows' : w.pairing.Grows w'.pairing := by
    refine ⟨fun _ _ => .inl, ?_, hl.types.kept, .refl _⟩
    rintro a b (hab | ⟨ha, rfl⟩)
    · exact .inl hab
    · exact (hnew a ha).imp_left (h.known a)
  have halone : ∀ i j, (⟨link', l, l⟩ : Sides).pairing.Alike i j → w'.pairing.Alike i i :=
    fun i j hij => hij.alone (fun a b hab => .inr ⟨⟨b, hab⟩, rfl⟩) (.refl _) hextends.kept
  -- a linked object that is known to the left side is none of the new ones
  have hother : ∀ a b, w.link a b → ¬ D a → ¬ D' a := by
    intro a b hab hnot hd
    rcases hnew a hd with ha | hlate
    · exact hnot ha
    · exact Nat.not_lt.2 hlate (h.not_new hab)
  refine ⟨hgrows', ?_, halone⟩
  exact
    { linked :=
        { left := hstep.linked.left
          right := h.linked.right
          left_unique := by
            rintro a a' b (hab | ⟨ha, rfl⟩) (hab' | ⟨ha', rfl⟩)
            · exact h.linked.left_unique a a' b hab hab'
            · rcases h.sorts a a' hab with ⟨-, rfl⟩ | ⟨-, hlate⟩
              · rfl
              · exact absurd (hearly a' ha') (Nat.not_lt.2 hlate)
            · rcases h.sorts a' a hab' with ⟨-, rfl⟩ | ⟨-, hlate⟩
              · rfl
              · exact absurd (hearly a ha) (Nat.not_lt.2 hlate)
            · rfl
          right_unique := by
            rintro a b b' (hab | ⟨ha, rfl⟩) (hab' | ⟨ha', rfl⟩)
            · exact h.linked.right_unique a b b' hab hab'
            · rcases h.sorts a b hab with ⟨-, rfl⟩ | ⟨hnot, -⟩
              · rfl
              · exact absurd ha' (hother a b hab hnot)
            · rcases h.sorts a b' hab' with ⟨-, rfl⟩ | ⟨hnot, -⟩
              · rfl
              · exact absurd ha (hother a b' hab' hnot)
            · rfl
          shapes := by
            rintro a b (hab | ⟨⟨b', hab'⟩, rfl⟩)
            · obtain ⟨shape, shape', hs, hs', halike⟩ := h.linked.shapes a b hab
              exact ⟨shape, shape', hl.types a _ hs, hs', halike.imp fun _ _ hij => hij.mono hgrows'⟩
            · obtain ⟨shape, shape', hs, -, halike⟩ := hstep.linked.shapes a b' hab'
              exact ⟨shape, shape, hs, hextends a _ hs, halike.alone halone⟩ }
      within := hstep.own fun _ => .rfl
      since := fun a ha => hold a (h.since a ha)
      left := h.left.trans hl
      known := fun a ha => .inr ⟨ha, rfl⟩
      sorts := by
        rintro a b (hab | hab)
        · rcases h.sorts a b hab with ⟨ha, rfl⟩ | ⟨hnot, hlate⟩
          · exact .inl ⟨hold a ha, rfl⟩
          · exact .inr ⟨hother a b hab hnot, hlate⟩
        · exact .inl hab
      types := h.types
      right := h.right
      kept := h.kept
      paired := by
        intro a name type ha
        rcases hstep.covers a name type ha with ⟨hbefore, hlost⟩ | ⟨b, type', hab, -, -⟩
        · rcases h.paired a name type hbefore with hself | ⟨b, type', hab, hb, htype⟩
          · exact absurd (hself.mono hgrows) (hlost.not_alike hstep.linked)
          · exact .inr ⟨b, type', hab.mono hgrows', hb, htype.mono hgrows'⟩
        · exact .inl (hab.alone (fun a b hlink => ⟨⟨b, hlink⟩, rfl⟩) (.refl _) (.refl _))
      back := by
        intro b name type hb
        rcases h.back b name type hb with hold' | ⟨a, type', hlost, hab, ha⟩
        · exact .inl hold'
        · refine .inr ⟨a, type', ?_, hab.mono hgrows', hl.members.known _ _ ha⟩
          refine hlost.relink hl.types.kept fun i j shape hshape hij => ?_
          rcases hnew i hij.1 with hd | hlate
          · exact ⟨i, hd, rfl⟩
          · exact absurd hlate (Nat.not_le.2 (TypeTable.lt_size_of_getElem? hshape)) }

variable {α : Type}

/-- A question that is asked again. The first answer is made of what was made
while symbols were asked about, since nothing else was needed to find it. -/
theorem ask {x y : Check α} {Q : Pairing → α → α → Prop} (hbehind : Behind p c)
    (hc : ∀ i ∈ c.mentions, (Sides.own D w.left).pairing.Alike i i)
    (hx : (inStep w.left.apparent w.left.apparent).Runs (.own D w.left) c c x x Q)
    (hmoves : (memory p).Moves c x)
    (hrecall : Retained p (x c w.left).2 e → Answers c' w.right y (x c w.left).1.1)
    (hQ : ∀ {q q' : Pairing} {a b}, (∀ i j, q.Alike i j → q'.Alike i i) → Q q a b → Q q' a a) :
    (x c w.left).1.2 = c ∧ (Retained p (x c w.left).2 e → (y c' w.right).1.2 = c' ∧
      ∃ link, let w' : Sides := ⟨link, (x c w.left).2, (y c' w.right).2⟩
        w.pairing.Grows w'.pairing ∧ (∃ D, Again p s e D w') ∧
          Q w'.pairing (x c w.left).1.1 (y c' w.right).1.1) := by
  obtain ⟨hback, hrest⟩ := hx h.within (beside_self hc) trivial
  refine ⟨hback, fun huntil => ?_⟩
  obtain ⟨-, link', hgrows, hstep, hq⟩ := hrest trivial
  obtain ⟨hanswer, hsame⟩ := hrecall huntil
  obtain ⟨hgrows', hagain, halone⟩ := h.learn ((hmoves w.left).2 hbehind) huntil hgrows hstep
  have hpairing : ∀ {link l r}, SameFindings w.right r →
      (⟨link, l, r⟩ : Sides).pairing = (⟨link, l, w.right⟩ : Sides).pairing := by
    intro link l r hr
    unfold Sides.pairing
    rw [hr.types]
  refine ⟨congrArg Prod.snd hanswer, _, ?_, ⟨_, hagain.noted (.refl _) hsame⟩, ?_⟩
  · rw [hpairing hsame]
    exact hgrows'
  · rw [hpairing hsame, congrArg Prod.fst hanswer]
    exact hQ halone hq

end

end Again

/-! ## Classes around -/

/-- The classes around a place are known, and so is the base class. -/
structure ClassesKnown (p : Context) (s : State) : Prop where
  members : ∀ id ∈ p.bindings.scopeChain p.scope, ∀ scope, p.bindings.scopes[id]? = some scope →
    ∀ file node, scope.file = some file → scope.node = some node → ∀ owner,
      p.HasMember owner ⟨file, node⟩ ∨ s.memberOwners.get? ⟨file, node⟩ = some owner →
        (s.classTypes.get? owner).isSome
  base : ∀ symbol, (s.types.shape? (superAt p s)).bind Shape.symbol = some symbol →
    (s.classTypes.get? symbol).isSome

section

variable {p c : Context} {s t : State}

/-- What `this` means is known from the start. -/
theorem thisOfScope_retained (h : ClassesKnown p s) (hst : Retained p s t) :
    thisOfScope p t p.scope = thisOfScope p s p.scope := by
  have hmembers := h.members
  unfold thisOfScope
  generalize p.bindings.scopeChain p.scope = chain at hmembers
  induction chain with
  | nil => rfl
  | cons id outer ih =>
    obtain ⟨hfirst, hrest⟩ := List.forall_mem_cons.1 hmembers
    have hsame := ih hrest
    unfold thisOfChain
    cases hscope : p.bindings.scopes[id]? with
    | none => rfl
    | some scope =>
      dsimp only
      split
      · rename_i node _ hnode
        split
        · rfl
        · rename_i file hfile
          have hknown := hfirst scope hscope file node hfile hnode
          have howner : t.memberOwners.get? ⟨file, node⟩ = s.memberOwners.get? ⟨file, node⟩ := by
            cases ht : t.memberOwners.get? ⟨file, node⟩ with
            | some owner =>
              rcases hst.owners _ owner ht with hs | ⟨hnone, hmember⟩
              · exact hs.symm
              · exact absurd (hknown owner (.inl hmember)) (by simp [hnone])
            | none =>
              cases hs : s.memberOwners.get? ⟨file, node⟩ with
              | none => rfl
              | some owner =>
                have howned := hst.owned ⟨file, node⟩ (by simp [hs])
                simp [ht] at howned
          rw [howner]
          split
          · rename_i owner ho
            obtain ⟨types, htypes⟩ := Option.isSome_iff_exists.1 (hknown owner (.inr ho))
            rw [htypes, hst.classes.known owner types htypes]
          · rw [hsame]
      · exact hsame

/-- The class around is looked up in what is known of classes and members. -/
theorem thisOfScope_same (howners : t.memberOwners = s.memberOwners)
    (hclasses : t.classTypes = s.classTypes) (scope : ScopeId) :
    thisOfScope p t scope = thisOfScope p s scope := by
  unfold thisOfScope
  induction p.bindings.scopeChain scope with
  | nil => rfl
  | cons id outer ih =>
    unfold thisOfChain
    simp only [howners, hclasses, ih]

theorem there_thisAt (hs : s.Closed) (hp : Below s.types.size p.mentions) {i : TypeId}
    (hi : thisAt p s = some i) : There s.types.size i := by
  unfold thisAt at hi
  cases hscope : thisOfScope p s p.scope with
  | some j =>
    rw [hscope] at hi
    cases hi
    exact below_thisOfScope hs p p.scope i (by simp [hscope])
  | none =>
    rw [hscope] at hi
    exact hp i (List.mem_append_right _ (List.mem_of_head? hi))

theorem shape?_extends {t t' : TypeTable} (h : TypeTable.Extends t t') {i : TypeId} (hi : i < t.size) :
    t'.shape? i = t.shape? i := by
  unfold TypeTable.shape?
  rw [h.dataOf hi]

/-- So is the base class. -/
theorem superAt_retained (h : ClassesKnown p s) (hst : Retained p s t) (hs : s.Closed)
    (hp : Below s.types.size p.mentions) : superAt p t = superAt p s := by
  have hthis : thisAt p t = thisAt p s := by
    unfold thisAt
    rw [thisOfScope_retained h hst]
  unfold superAt
  rw [hthis]
  cases hi : thisAt p s with
  | none => rfl
  | some i =>
    have hlt := hs.types.there_iff.1 (there_thisAt hs hp hi)
    show ((t.types.bases i).head?).getD .error = ((s.types.bases i).head?).getD .error
    unfold TypeTable.bases
    rw [shape?_extends hst.types hlt]

theorem there_superAt (hs : s.Closed) : There s.types.size (superAt p s) := by
  unfold superAt
  cases thisAt p s with
  | none => exact there_error
  | some i =>
    have hbases := hs.types.bases i
    show There _ (((s.types.bases i).head?).getD .error)
    cases hhead : s.types.bases i with
    | nil => exact there_error
    | cons j rest => exact hbases j (hhead ▸ List.mem_cons_self)

end

/-! ## The tie -/

/-- The place, as deep inside of expressions and as silent as can be. -/
def Near (p c : Context) : Prop :=
  ∃ depth speculative, c = { p with depth := depth, speculative := speculative }

/-- The node may be looked at again. If it is `this` or `super`, the classes
around are known. If it is a function whose signature is being resolved, its
parameters are declared. -/
structure Ready (p : Context) (s : State) (node : NodeId) : Prop where
  classes : namesClass (p.arena.form? node) = true → ClassesKnown p s
  parameters : p.site node ∈ p.resolvingSignatures → ∀ k q,
    p.arena.form? node = some (.function k q) → ∀ m ∈ q.parameters, (p.declared? m).isSome

theorem Near.asking {p c : Context} (h : Near p c) : Asking p c := by
  obtain ⟨depth, speculative, rfl⟩ := h
  exact ⟨⟨rfl, rfl⟩, rfl, rfl, List.Subset.refl _, fun _ => .inl⟩

theorem Near.thisOfScope {p c : Context} (h : Near p c) (t : State) :
    thisOfScope c t c.scope = Checking.thisOfScope p t p.scope := by
  obtain ⟨depth, speculative, rfl⟩ := h
  show Checking.thisOfScope { p with depth := depth, speculative := speculative } t p.scope = _
  apply thisOfScope_congr <;> rfl

theorem Near.superAt {p c : Context} (h : Near p c) (t : State) : superAt c t = Checking.superAt p t := by
  obtain ⟨depth, speculative, rfl⟩ := h
  have hthis : thisAt { p with depth := depth, speculative := speculative } t = thisAt p t := by
    apply thisAt_congr <;> rfl
  unfold Checking.superAt
  rw [hthis]

theorem Near.arena {p c : Context} (h : Near p c) : c.arena = p.arena := by
  obtain ⟨depth, speculative, rfl⟩ := h
  rfl

section

variable {p c c' : Context} {s e : State} {D : TypeId → Prop} {w : Sides} (hs : s.Whole)
  (hp : Below s.types.size p.mentions) (hse : Retained p s e)

namespace Again

include hs in
/-- All objects that are there from the start are the same. -/
theorem start (he : e.Whole) (hse : Retained p s e) :
    Again p s e (objects s.types) ⟨fun a b => objects s.types a ∧ a = b, s, e⟩ where
  linked := ((Pairing.linked_own hs.grounded fun _ => .rfl).extended hs.grounded he.grounded
    (.refl _) hse.types).2
  within := hs.inStep
  since _ := id
  left := .refl p s
  known _ ha := ⟨ha, rfl⟩
  sorts _ _ := .inl
  types := .refl _
  right := .refl e
  kept _ _ := id
  paired a _ type ha := .inl (hs.alike_there (.inl (hs.receivers a _ type ha)))
  back _ _ _ := .inl

variable (h : Again p s e D w)

include hs h

/-- What was there from the start is made of the objects that are the same. -/
theorem own_old {i : TypeId} (hi : There s.types.size i) :
    (Sides.own D w.left).pairing.Alike i i :=
  (hs.alike_there hi).alone (fun a _ hab => ⟨h.since a hab.1, rfl⟩) h.left.types.kept h.left.types.kept

include hse

theorem old {i : TypeId} (hi : There s.types.size i) : w.pairing.Alike i i :=
  (hs.alike_there hi).alone (fun a _ hab => h.known a (h.since a hab.1)) h.left.types.kept
    (hse.types.trans h.types).kept

theorem this (hk : ClassesKnown p s) (hc : Near p c) :
    Option.Rel w.pairing.Alike (thisOfScope c w.left c.scope) (thisOfScope c w.right c.scope) := by
  rw [hc.thisOfScope, hc.thisOfScope, thisOfScope_retained hk h.left,
    thisOfScope_same (s := e) h.right.memberOwners h.right.classTypes, thisOfScope_retained hk hse]
  cases hi : thisOfScope p s p.scope with
  | none => exact .none
  | some i => exact .some (h.old hs hse (below_thisOfScope hs.toClosed p p.scope i (by simp [hi])))

include hp

theorem supers (hk : ClassesKnown p s) (hc : Near p c) (hbeside : Beside w.pairing c c') :
    List.Forall₂ w.pairing.SignatureAlike (constructsOfInstance w.left (superAt c w.left))
      (constructsOfInstance w.right (superAt c' w.right)) := by
  have hab : w.pairing.Alike (superAt c w.left) (superAt c' w.right) :=
    superAt_alike h.linked (thisAt_alike hbeside (h.this hs hse hk hc))
  have hleft : superAt c w.left = superAt p s :=
    (hc.superAt _).trans (superAt_retained hk h.left hs.toClosed hp)
  have hsymbol : (w.left.types.shape? (superAt c w.left)).bind Shape.symbol =
      (w.right.types.shape? (superAt c' w.right)).bind Shape.symbol := by
    match w.left.types.shape? (superAt c w.left), w.right.types.shape? (superAt c' w.right),
      h.linked.shape? hab with
    | _, _, .none => rfl
    | _, _, .some hshape => exact hshape.symbol
  have hfirst : (w.left.types.shape? (superAt c w.left)).bind Shape.symbol =
      (s.types.shape? (superAt p s)).bind Shape.symbol := by
    rw [hleft, shape?_extends h.left.types (hs.types.there_iff.1 (there_superAt hs.toClosed))]
  unfold constructsOfInstance
  rw [← hsymbol, hfirst]
  cases hfound : (s.types.shape? (superAt p s)).bind Shape.symbol with
  | none => exact .nil
  | some symbol =>
    obtain ⟨types, htypes⟩ := Option.isSome_iff_exists.1 (hk.base symbol hfound)
    have hboth := hs.found.classes symbol types htypes
    simp only [ClassTypes.mentions, below_cons] at hboth
    have hr : w.right.classTypes.get? symbol = some types := by
      rw [h.right.classTypes]
      exact hse.classes.known symbol types htypes
    dsimp only
    rw [h.left.classes.known symbol types htypes, hr]
    exact h.linked.constructs (h.old hs hse hboth.2.1)

end Again

/-- A run that is made again. -/
def again : Tie where
  Holds w := ∃ D, Again p s e D w
  At := Near p
  Node := Ready p s
  arrows := False
  careful := True
  Until v := Retained p v e
  walk := memory p
  linked := fun ⟨_, h⟩ => h.linked
  added := fun ⟨D, h⟩ hadds hq => ⟨D, h.added hadds hq⟩
  noted := fun ⟨D, h⟩ hl hr => ⟨D, h.noted hl hr⟩
  moved := by
    rintro _ depth speculative ⟨_, _, rfl⟩
    exact ⟨depth, speculative, rfl⟩
  free h := absurd trivial h
  backs _ hc hmoves huntil := ((hmoves _).2 hc.asking.behind).trans huntil
  this := fun ⟨_, h⟩ hc hnode hform => h.this hs hse (hnode.classes (hc.arena ▸ hform)) hc
  supers := fun ⟨_, h⟩ hc hnode hform hbeside =>
    h.supers hs hp hse (hnode.classes (hc.arena ▸ hform)) hc hbeside

namespace Again

/-! ## Members -/

section

variable (h : Again p s e D w)

include h

/-- A member was made on both sides for a type of the expression itself. -/
theorem remember {a b type type' : TypeId} {name : String}
    (hleft : w.left.apparent.get? (a, name) = none)
    (hright : w.right.apparent.get? (b, name) = none)
    (hlost : (Sides.own D w.left).pairing.Lost a) (hab : w.pairing.Alike a b)
    (htype : w.pairing.Alike type type') :
    Again p s e D
      ⟨w.link, { w.left with apparent := w.left.apparent.insert (a, name) type },
        { w.right with apparent := w.right.apparent.insert (b, name) type' }⟩ := by
  -- a member has a partner where its receiver has one
  have hpartner : ∀ {x y name'}, w.pairing.Alike x y → (x, name') ≠ (a, name) → (y, name') ≠ (b, name) := by
    intro x y name' hxy hne heq
    obtain ⟨rfl, rfl⟩ := Prod.mk.inj heq
    exact hne (congrArg (·, name') (h.linked.unique_left hxy hab))
  obtain ⟨hcovers, hcovered⟩ := covers_self (s := w.left) (D := D)
    (w.left.apparent.insert (a, name) type) fun x name' known hx => by
      rw [Table.get?_insert] at hx
      split at hx
      · rename_i heq
        cases heq
        exact .inl hlost
      · exact h.within.made_own hx
  exact
    { h with
      linked := h.linked
      within := { h.within with covers := hcovers, covered := hcovered }
      left := { h.left with members := h.left.members.insert (h.left.members.new hleft) List.not_mem_nil _ }
      right := { h.right with apparent := rfl }
      kept := fun k known hk => by
        show (w.right.apparent.insert (b, name) type').get? k = some known
        rw [Table.get?_insert, if_neg, h.kept k known hk]
        rintro rfl
        cases hright.symm.trans (h.kept _ known hk)
      paired := fun x name' known hx => by
        replace hx : (w.left.apparent.insert (a, name) type).get? (x, name') = some known := hx
        rw [Table.get?_insert] at hx
        split at hx
        · rename_i heq
          cases heq
          cases hx
          refine .inr ⟨b, type', hab, ?_, htype⟩
          show (w.right.apparent.insert (b, name) type').get? (b, name) = some type'
          rw [Table.get?_insert, if_pos rfl]
        · rename_i hne
          rcases h.paired x name' known hx with hself | ⟨y, known', hxy, hy, hknown⟩
          · exact .inl hself
          · refine .inr ⟨y, known', hxy, ?_, hknown⟩
            show (w.right.apparent.insert (b, name) type').get? (y, name') = some known'
            rw [Table.get?_insert, if_neg (fun heq => hpartner hxy (fun h => hne h.symm) heq.symm), hy]
      back := fun y name' known hy => by
        replace hy : (w.right.apparent.insert (b, name) type').get? (y, name') = some known := hy
        rw [Table.get?_insert] at hy
        split at hy
        · rename_i heq
          cases heq
          exact .inr ⟨a, type, hlost, hab, (Table.get?_insert ..).trans (if_pos rfl)⟩
        · rcases h.back y name' known hy with hold | ⟨x, known', hx, hxy, hfound⟩
          · exact .inl hold
          · by_cases heq : (a, name) = (x, name')
            · exact .inr ⟨x, type, hx, hxy, (Table.get?_insert ..).trans (if_pos heq)⟩
            · exact .inr ⟨x, known', hx, hxy,
                ((Table.get?_insert ..).trans (if_neg heq)).trans hfound⟩ }

end

/-! ## Questions that are asked again -/

variable {α : Type}

theorem asks {x y : Check α} {Q : Pairing → α → α → Prop}
    (hx : ∀ m w, (inStep m m).Runs w c c x x Q) (hmoves : (memory p).Moves c x)
    (hrecall : Near p c → ∀ l t, Retained p (x c l).2 e → SameAnswers e t →
      ∀ functions thisTypes speculative,
        Answers (c.beside functions thisTypes speculative) t y (x c l).1.1)
    (hQ : ∀ {q q' : Pairing} {a b}, (∀ i j, q.Alike i j → q'.Alike i i) → Q q a b → Q q' a a) :
    (again hs hp hse).Runs w c c' x y Q := by
  rintro ⟨D, h⟩ hbeside hc
  have hmentions : c.mentions = p.mentions := by
    obtain ⟨depth, speculative, rfl⟩ := hc
    rfl
  refine h.ask hc.asking.behind (fun i hi => h.own_old hs (hp i (hmentions ▸ hi))) (hx _ _) hmoves ?_ hQ
  intro huntil
  rw [hbeside.place]
  exact hrecall hc _ _ huntil h.answers _ _ _

theorem made_hit {receiver : Receiver} {id type : TypeId} {name : String}
    (h : s.apparent.get? (id, name) = some type) :
    made receiver id name c s = ((some type, c), s) := by
  unfold made
  rw [get_bind, h]
  rfl

theorem made_miss {receiver : Receiver} {id : TypeId} {name : String}
    (h : s.apparent.get? (id, name) = none) :
    made receiver id name c s = ((some (receiver.memberType name s.types).1, c),
      { s with
        types := (receiver.memberType name s.types).2
        apparent := s.apparent.insert (id, name) (receiver.memberType name s.types).1 }) := by
  unfold made
  rw [get_bind, h]
  rfl

/-- After a member was asked for it has been made. -/
theorem made_known (receiver : Receiver) (id : TypeId) (name : String) (c : Context) (s : State) :
    ∃ type, (made receiver id name c s).1 = (some type, c) ∧
      (made receiver id name c s).2.apparent.get? (id, name) = some type := by
  cases hknown : s.apparent.get? (id, name) with
  | some known =>
    rw [made_hit hknown]
    exact ⟨known, rfl, hknown⟩
  | none =>
    rw [made_miss hknown]
    exact ⟨_, rfl, (Table.get?_insert ..).trans (if_pos rfl)⟩

theorem moves_made (receiver : Receiver) (id : TypeId) (name : String) :
    (memory p).Moves c (made receiver id name) := by
  refine Walk.Moves.get_from fun s => ?_
  split
  · exact .pure _
  · rename_i hnew
    exact .learn (Walk.Moves.alloc (TypeTable.grows_memberType _ _) s) fun _ _ => .member hnew _

/-- A member of a type that is the same in both runs is looked up, any other is
made on both sides or on none. -/
theorem runs_made (he : e.Whole) {receiver receiver' : Receiver}
    (hreceiver : w.pairing.ReceiverAlike receiver receiver') {a b : TypeId}
    (hab : w.pairing.Alike a b) (name : String)
    (hown : ∀ D, (Sides.own D w.left).pairing.Linked → (Sides.own D w.left).pairing.Alike a a →
      (Sides.own D w.left).pairing.ReceiverAlike receiver receiver) :
    (again hs hp hse).Runs w c c' (made receiver a name) (made receiver' b name)
      fun p => Option.Rel p.Alike := by
  rintro ⟨D, h⟩ hbeside hc
  rcases Pairing.alike_or_lost h.linked.left D (h.linked.lt_left hab) with hself | hlost
  · have hmoves : (memory p).Moves c (made receiver a name) := moves_made receiver a name
    have hmentions : c.mentions = p.mentions := by
      obtain ⟨depth, speculative, rfl⟩ := hc
      rfl
    refine h.ask hc.asking.behind (fun i hi => h.own_old hs (hp i (hmentions ▸ hi)))
      (InStep.runs_made (hown D h.within.linked hself) hself name) hmoves (fun huntil => ?_)
      fun hall hq => left_option hq hall
    obtain ⟨type, hanswer, hknown⟩ := made_known receiver a name c w.left
    have hle : Retained p w.left e := ((hmoves w.left).2 hc.asking.behind).trans huntil
    obtain rfl : a = b := h.linked.unique (hself.alone (fun x _ hx => h.known x hx.1) (.refl _)
      (hle.types.trans h.types).kept) hab
    rw [hanswer]
    exact .of_eq (made_hit (h.kept _ _ (huntil.members.known _ _ hknown)))
  · cases hleft : w.left.apparent.get? (a, name) with
    | some type =>
      rcases h.paired a name type hleft with hself | ⟨b', type', hab', hb', htype⟩
      · exact absurd hself (hlost.not_alike h.within.linked)
      · obtain rfl : b = b' := h.linked.unique hab hab'
        rw [made_hit hleft, made_hit hb']
        exact ⟨rfl, fun _ => ⟨rfl, w.link, .refl _, ⟨D, h⟩, .some htype⟩⟩
    | none =>
      have hright : w.right.apparent.get? (b, name) = none := by
        cases hb : w.right.apparent.get? (b, name) with
        | none => rfl
        | some type =>
          rcases h.back b name type hb with hold | ⟨a', type', -, hab', ha'⟩
          · have hlate : e.types.size ≤ b := (h.late hlost hab).le h.linked.right
            exact absurd (he.receivers b name type hold) (Nat.not_lt.2 hlate)
          · rw [h.linked.unique_left hab hab'] at hleft
            cases hleft.symm.trans ha'
      obtain ⟨link, hadds, hlinked, htype⟩ := h.linked.makes_memberType hreceiver name
      have hlost' : (Sides.own D { w.left with
          types := (receiver.memberType name w.left.types).2 }).pairing.Lost a :=
        hlost.mono ⟨fun _ _ hij => hij, fun _ _ => .inl, hadds.left.kept, hadds.left.kept⟩
      have hlast := (h.added hadds hlinked).remember hleft hright hlost' (hab.mono hadds.grows) htype
      rw [made_miss hleft, made_miss hright]
      exact ⟨rfl, fun _ => ⟨rfl, link, hadds.grows, ⟨D, hlast⟩, .some htype⟩⟩

theorem runs_memberType (he : e.Whole) {a b : TypeId} (name : String) (hab : w.pairing.Alike a b) :
    (again hs hp hse).Runs w c c' (memberType a name) (memberType b name)
      fun p => Option.Rel p.Alike := by
  unfold memberType
  refine .linked fun hlinked => ?_
  rw [hlinked.isLoose hab]
  split
  · exact .pure (.some hab)
  refine .table fun hp' => ?_
  rcases both_or_none (hp'.property? hab name) with ⟨hnone, hnone'⟩ | ⟨_, _, hl, hr, hproperty⟩
  · rw [hnone, hnone']
    have hrel := hp'.ofType? hab
    dsimp only
    generalize Receiver.ofType? w.pairing.right b = found at hrel ⊢
    cases hleft : Receiver.ofType? w.pairing.left a with
    | none =>
      rw [hleft] at hrel
      cases hrel
      exact .pure .none
    | some receiver =>
      rw [hleft] at hrel
      cases hrel with | some hreceiver =>
      have hown : ∀ D, (Sides.own D w.left).pairing.Linked →
          (Sides.own D w.left).pairing.Alike a a →
          (Sides.own D w.left).pairing.ReceiverAlike receiver receiver := by
        intro D hlinked hself
        have hsame := hlinked.ofType? hself
        rw [show Receiver.ofType? (Sides.own D w.left).pairing.left a = some receiver from hleft,
          show Receiver.ofType? (Sides.own D w.left).pairing.right a = some receiver from hleft] at hsame
        cases hsame with | some hsame => exact hsame
      dsimp only
      rw [Pairing.Linked.members_receiver hreceiver]
      split
      · cases hreceiver with
        | array hxy => exact runs_made hs hp hse he (.array hxy) hab name hown
        | string => exact runs_made hs hp hse he .string (hp'.primitive hab) name fun _ _ _ => .string
        | number => exact runs_made hs hp hse he .number (hp'.primitive hab) name fun _ _ _ => .number
        | boolean => exact runs_made hs hp hse he .boolean (hp'.primitive hab) name fun _ _ _ => .boolean
      · exact .pure .none
  · rw [hl, hr]
    exact .pure (.some hproperty.type)

end Again

/-! ## All expressions -/

open Again in
/-- Looked at again, an expression gets a type like the one it got. -/
theorem tied_again (he : e.Whole) (n : Nat) : Tied (again hs hp hse) (rules n) := by
  have hwalked : ∀ n, (again hs hp hse).careful → Walked (memory p) (rules n) :=
    fun n _ => retained_rules p n
  have hvalue : ∀ n {w c c'} id, (again hs hp hse).Runs w c c' ((rules n).valueType id)
      ((rules n).valueType id) Pairing.Alike := fun n _ _ _ id =>
    asks hs hp hse (fun _ _ => (stepped_rules n).valueType id) ((retained_rules p n).valueType _ id)
      (fun hc _ _ hlater ht => (recalls_rules p n).valueType hc.asking hlater ht)
      fun hall => hall _ _
  have hdeclared : ∀ n {w c c'} id, (again hs hp hse).Runs w c c' ((rules n).declaredType id)
      ((rules n).declaredType id) fun p => Option.Rel p.Alike := fun n _ _ _ id =>
    asks hs hp hse (fun _ _ => (stepped_rules n).declaredType id)
      ((retained_rules p n).moves_declaredType id)
      (fun hc _ _ hlater ht => (recalls_rules p n).declaredType hc.asking hlater ht)
      fun hall hq => left_option hq hall
  have hsignature : ∀ n {w c c' node q}, (again hs hp hse).Opens c c' node →
      c.arena.form? node = some (.function .functionType q) →
      (again hs hp hse).Runs w c c' (signature (rules n) node) (signature (rules n) node)
        Pairing.SignatureAlike := fun n _ _ _ node q ho hform =>
    asks hs hp hse (fun _ _ => (stepped_rules n).runs_signature (InStep.opens rfl node))
      ((retained_rules p n).moves_signature node)
      (fun hc _ _ hlater ht functions thisTypes speculative =>
        have hready : Ready p s node := ho.nodes node .refl
        (recalls_rules p n).signature (retained_rules p n) hc.asking ht functions thisTypes
          speculative hform
          (by
            obtain ⟨depth, speculative, rfl⟩ := hc
            exact fun hresolving => hready.parameters hresolving _ q hform)
          hlater)
      fun hall hq => hq.alone hall
  induction n with
  | zero =>
    exact
      { walked := hwalked 0
        typeNode := fun _ => .bind (.quiet Runs.notes_exhaust Runs.notes_exhaust)
          (fun _ _ => .pure _) fun _ _ _ _ _ _ => .error
        expression := fun _ _ _ => .bind (.quiet Runs.notes_exhaust Runs.notes_exhaust)
          (fun _ _ => .pure _) fun _ _ _ _ _ _ => .linked fun hq => .pure (hq.sim hq.error)
        superSignatures := fun _ _ =>
          .bind (Q := fun _ a b => a = .error ∧ b = .error)
            (.bind (.quiet Runs.notes_exhaust Runs.notes_exhaust) (fun _ _ => .pure _)
              fun _ _ _ _ _ _ => .pure ⟨rfl, rfl⟩)
            (fun _ _ => .get fun _ => .pure _)
            fun _ _ _ _ ⟨_, h⟩ ⟨ha, hb⟩ => .get fun _ => .pure <| by
              rw [ha, hb, Tied.constructsOfInstance_error h.linked.left.founded,
                Tied.constructsOfInstance_error h.linked.right.founded]
              exact .nil
        valueType := hvalue 0
        declaredType := hdeclared 0
        signature := hsignature 0
        memberType := fun name hab => runs_memberType hs hp hse he name hab
        arrow := fun harrows => absurd harrows id }
  | succ n ih =>
    exact
      { walked := hwalked _
        typeNode := ih.runs_typeNode
        expression := ih.runs_expression
        superSignatures := Tied.runs_superSignatures (rules n) rfl
        valueType := hvalue _
        declaredType := hdeclared _
        signature := hsignature _
        memberType := fun name hab => runs_memberType hs hp hse he name hab
        arrow := fun harrows => absurd harrows id }

end

end ScriptAnalysis.Checking
