import ScriptAnalysis.Proofs.Checking.Tables
import ScriptAnalysis.Proofs.Checking.TwinExpressions

/-!
# Two runs in step

Two states are in step if the same things have been found out, and what was
found is alike. Only types may have been added on one side, for themselves.
From states in step the checker goes to states in step, whatever it does: so
what it finds out does not depend on how many types there are or on the indices
that they have.

**Members of primitives and arrays** are made when they are asked for, also for
an array type that has nothing alike on the other side. Such members are left
out of account (`Covers`).

**Results.**
* `inStep`: the tie.
* `inStep_rules`: all rules keep it.
-/
namespace ScriptAnalysis.Checking

open Tie (Runs)

/-! ## What is found -/

section

variable {κ ν : Type} [DecidableEq κ] {R S : ν → ν → Prop} {t t' : Table κ ν}

/-- The tables have the same keys, and what they have for them belongs
together. -/
def Matches (R : ν → ν → Prop) (t t' : Table κ ν) : Prop :=
  ∀ k, Option.Rel R (t.get? k) (t'.get? k)

theorem Matches.imp (h : Matches R t t') (hRS : ∀ a b, R a b → S a b) : Matches S t t' :=
  fun k => rel_mono hRS (h k)

theorem Matches.insert (h : Matches R t t') (k : κ) {v v' : ν} (hv : R v v') :
    Matches R (t.insert k v) (t'.insert k v') := by
  intro k'
  rw [Table.get?_insert, Table.get?_insert]
  split
  · exact .some hv
  · exact h k'

end

/-- The types of a class, in two runs. -/
structure ClassAlike (p : Pairing) (types types' : ClassTypes) : Prop where
  instances : p.Alike types.instanceType types'.instanceType
  constructors : p.Alike types.constructorType types'.constructorType

/-- The members that have been made of primitives and arrays. -/
abbrev Made := Table (TypeId × String) TypeId

/-- The members that have been made for a type of the left table have been made
for one of the right table too. Only those that were made before may be for a type
that none is alike. -/
def Covers (p : Pairing) (before found found' : Made) : Prop :=
  ∀ a name type, found.get? (a, name) = some type →
    before.get? (a, name) = some type ∧ p.Lost a ∨
      ∃ b type', p.Alike a b ∧ found'.get? (b, name) = some type' ∧ p.Alike type type'

/-- The same was found out in both runs. Some members were made before. -/
structure InStep (m m' : Made) (w : Sides) : Prop where
  linked : w.pairing.Linked
  values : Matches w.pairing.Alike w.left.valueTypes w.right.valueTypes
  aliases : Matches w.pairing.Alike w.left.aliasTypes w.right.aliasTypes
  classes : Matches (ClassAlike w.pairing) w.left.classTypes w.right.classTypes
  interfaces : Matches w.pairing.Alike w.left.interfaceTypes w.right.interfaceTypes
  signatures : Matches w.pairing.SignatureAlike w.left.signatures w.right.signatures
  arrows : Matches w.pairing.Alike w.left.arrowTypes w.right.arrowTypes
  contextual : Matches w.pairing.Alike w.left.contextual w.right.contextual
  owners : w.left.memberOwners = w.right.memberOwners
  covers : Covers w.pairing m w.left.apparent w.right.apparent
  covered : Covers w.pairing.swap m' w.right.apparent w.left.apparent

section

variable {p p' : Pairing}

theorem ClassAlike.mono {types types' : ClassTypes} (h : ClassAlike p types types')
    (hp : p.Grows p') : ClassAlike p' types types' :=
  ⟨h.instances.mono hp, h.constructors.mono hp⟩

theorem Covers.mono {m found found' : Made} (h : Covers p m found found') (hp : p.Grows p') :
    Covers p' m found found' := by
  intro a name type ha
  rcases h a name type ha with ⟨hbefore, hlost⟩ | ⟨b, type', hab, hb, htype⟩
  · exact .inl ⟨hbefore, hlost.mono hp⟩
  · exact .inr ⟨b, type', hab.mono hp, hb, htype.mono hp⟩

theorem Covers.insert {m found found' : Made} (h : Covers p m found found') (hp : p.Linked)
    {a b : TypeId} (name : String) {type type' : TypeId} (hab : p.Alike a b)
    (htype : p.Alike type type') :
    Covers p m (found.insert (a, name) type) (found'.insert (b, name) type') := by
  intro x other known hx
  rw [Table.get?_insert] at hx
  split at hx
  · rename_i heq
    cases heq
    cases hx
    exact .inr ⟨b, type', hab, by rw [Table.get?_insert, if_pos rfl], htype⟩
  · rename_i hne
    rcases h x other known hx with hlost | ⟨y, known', hxy, hy, hknown⟩
    · exact .inl hlost
    · refine .inr ⟨y, known', hxy, ?_, hknown⟩
      rw [Table.get?_insert, if_neg, hy]
      -- the right key is another since the left one is
      intro heq
      obtain ⟨rfl, rfl⟩ := Prod.mk.inj heq
      exact hne (congrArg (·, name) (hp.unique_left hab hxy))

end

/-- What belongs together does so later too. -/
theorem InStep.grow {w w' : Sides} (h : InStep m m' w) (hgrows : w.pairing.Grows w'.pairing)
    (hnew : ∀ a b, w'.link a b → w.link a b ∨ w.right.types.size ≤ b)
    (hlinked : w'.pairing.Linked)
    (hleft : SameFindings { w.left with types := w'.left.types } w'.left)
    (hright : SameFindings { w.right with types := w'.right.types } w'.right) : InStep m m' w' where
  linked := hlinked
  values := by
    rw [hleft.valueTypes, hright.valueTypes]
    exact h.values.imp fun _ _ hab => hab.mono hgrows
  aliases := by
    rw [hleft.aliasTypes, hright.aliasTypes]
    exact h.aliases.imp fun _ _ hab => hab.mono hgrows
  classes := by
    rw [hleft.classTypes, hright.classTypes]
    exact h.classes.imp fun _ _ hab => hab.mono hgrows
  interfaces := by
    rw [hleft.interfaceTypes, hright.interfaceTypes]
    exact h.interfaces.imp fun _ _ hab => hab.mono hgrows
  signatures := by
    rw [hleft.signatures, hright.signatures]
    exact h.signatures.imp fun _ _ hs => hs.imp fun _ _ hab => hab.mono hgrows
  arrows := by
    rw [hleft.arrowTypes, hright.arrowTypes]
    exact h.arrows.imp fun _ _ hab => hab.mono hgrows
  contextual := by
    rw [hleft.contextual, hright.contextual]
    exact h.contextual.imp fun _ _ hab => hab.mono hgrows
  owners := by
    rw [hleft.memberOwners, hright.memberOwners]
    exact h.owners
  covers := by
    rw [hleft.apparent, hright.apparent]
    exact h.covers.mono hgrows
  covered := by
    rw [hleft.apparent, hright.apparent]
    exact h.covered.mono (hgrows.swap hnew)

/-- A member of a primitive or an array, which is made when it is asked for. -/
def made (receiver : Receiver) (id : TypeId) (name : String) : Check (Option TypeId) := do
  match (← get).apparent.get? (id, name) with
  | some known => return some known
  | none =>
    let type ← alloc (receiver.memberType name)
    modify fun s => { s with apparent := s.apparent.insert (id, name) type }
    return some type

/-! ## The tie -/

section

variable {m m' : Made} {w : Sides} {c c' : Context}

theorem thisOfScope_inStep (h : InStep m m' w) (scope : ScopeId) :
    Option.Rel w.pairing.Alike (thisOfScope c w.left scope) (thisOfScope c w.right scope) := by
  unfold thisOfScope
  induction c.bindings.scopeChain scope with
  | nil => exact .none
  | cons id outer ih =>
    unfold thisOfChain
    split
    · exact .none
    · split
      · split
        · exact .none
        · rw [h.owners]
          split
          · exact map_option (h.classes _) fun _ _ htypes => htypes.instances
          · split
            · exact ih
            · exact .none
      · exact ih

theorem constructsOfInstance_inStep (h : InStep m m' w) {a b : TypeId} (hab : w.pairing.Alike a b) :
    List.Forall₂ w.pairing.SignatureAlike (constructsOfInstance w.left a)
      (constructsOfInstance w.right b) := by
  unfold constructsOfInstance
  have hsymbol : (w.left.types.shape? a).bind Shape.symbol =
      (w.right.types.shape? b).bind Shape.symbol := by
    match w.left.types.shape? a, w.right.types.shape? b, h.linked.shape? hab with
    | _, _, .none => rfl
    | _, _, .some hs => exact hs.symbol
  rw [hsymbol]
  split
  · exact .nil
  · rename_i symbol _
    match w.left.classTypes.get? symbol, w.right.classTypes.get? symbol, h.classes symbol with
    | _, _, .none => exact .nil
    | _, _, .some htypes => exact h.linked.constructs htypes.constructors

/-- Two runs in step. -/
def inStep (m m' : Made) : Tie where
  Holds := InStep m m'
  At _ := True
  Node _ := True
  arrows := True
  careful := False
  Until _ := True
  walk := tableWalk
  linked h := h.linked
  added h hadds hlinked := h.grow hadds.grows
    (fun a b hab => (hadds.new a b hab).imp_right And.right) hlinked (.refl _) (.refl _)
  noted {w l r} h hl hr := by
    have hsame : w.pairing = Sides.pairing ⟨w.link, l, r⟩ := by
      unfold Sides.pairing
      rw [hl.types, hr.types]
    exact h.grow (hsame ▸ .refl _) (fun _ _ => .inl) (hsame ▸ h.linked) { hl with types := rfl }
      { hr with types := rfl }
  moved _ _ _ := trivial
  free _ _ := trivial
  backs h := h.elim
  this h _ _ _ := thisOfScope_inStep h _
  supers h _ _ _ hc := constructsOfInstance_inStep h
    (superAt_alike h.linked (thisAt_alike hc (thisOfScope_inStep h _)))

end

namespace InStep

variable {α β γ δ : Type} {m m' : Made} {w : Sides} {c c' : Context} {x : Check α} {y : Check β}
  {Q : Pairing → α → β → Prop} {R : Pairing → γ → δ → Prop}

/-- Nothing has to be looked back on. -/
theorem carefree (x : Check α) : (inStep m m').Moves c x :=
  fun h => False.elim h

theorem bind {f : α → Check γ} {g : β → Check δ} (hx : (inStep m m').Runs w c c' x y Q)
    (hf : ∀ w' : Sides, ∀ a b, w.pairing.Grows w'.pairing → InStep m m' w' → Q w'.pairing a b →
      (inStep m m').Runs w' c c' (f a) (g b) R) :
    (inStep m m').Runs w c c' (x >>= f) (y >>= g) R :=
  Runs.bind hx (fun _ => carefree _) hf

/-- Something is remembered on both sides. -/
theorem remember {f g : State → State} (hf : (f w.left).types = w.left.types)
    (hg : (g w.right).types = w.right.types)
    (h : InStep m m' w → InStep m m' ⟨w.link, f w.left, g w.right⟩) :
    (inStep m m').Runs w c c' (modify f : Check PUnit) (modify g : Check PUnit) fun _ _ _ => True := by
  intro hw _ _
  refine ⟨rfl, fun _ => ⟨rfl, w.link, ?_, h hw, trivial⟩⟩
  show w.pairing.Grows ⟨w.link, (f w.left).types, (g w.right).types⟩
  rw [hf, hg]
  exact .refl _

/-- A member is known on both sides or on none. -/
theorem apparent (h : InStep m m' w) {a b : TypeId} (hab : w.pairing.Alike a b) (name : String) :
    Option.Rel w.pairing.Alike (w.left.apparent.get? (a, name)) (w.right.apparent.get? (b, name)) := by
  cases hl : w.left.apparent.get? (a, name) with
  | some type =>
    rcases h.covers a name type hl with ⟨-, hlost⟩ | ⟨b', type', hab', hb', htype⟩
    · exact absurd hab (hlost.not_alike h.linked)
    · rw [h.linked.unique hab hab', hb']
      exact .some htype
  | none =>
    cases hr : w.right.apparent.get? (b, name) with
    | none => exact .none
    | some type' =>
      rcases h.covered b name type' hr with ⟨-, hlost⟩ | ⟨a', type, hba, ha, -⟩
      · exact absurd hab.swap (hlost.not_alike h.linked.swap)
      · rw [h.linked.unique_left hab hba.swap] at hl
        cases hl.symm.trans ha

theorem remember_apparent (h : InStep m m' w) {a b type type' : TypeId} (name : String)
    (hab : w.pairing.Alike a b) (htype : w.pairing.Alike type type') :
    InStep m m' ⟨w.link, { w.left with apparent := w.left.apparent.insert (a, name) type },
      { w.right with apparent := w.right.apparent.insert (b, name) type' }⟩ where
  linked := h.linked
  values := h.values
  aliases := h.aliases
  classes := h.classes
  interfaces := h.interfaces
  signatures := h.signatures
  arrows := h.arrows
  contextual := h.contextual
  owners := h.owners
  covers := h.covers.insert h.linked name hab htype
  covered := h.covered.insert h.linked.swap name hab.swap htype.swap

/-- A member is made once for each type. -/
theorem runs_made {receiver receiver' : Receiver} (hreceiver : w.pairing.ReceiverAlike receiver receiver')
    {a b : TypeId} (hab : w.pairing.Alike a b) (name : String) :
    (inStep m m').Runs w c c' (made receiver a name) (made receiver' b name)
      fun p => Option.Rel p.Alike := by
  refine .get fun hw => ?_
  match w.left.apparent.get? (a, name), w.right.apparent.get? (b, name), hw.apparent hab name with
  | _, _, .some hknown => exact .pure (.some hknown)
  | _, _, .none =>
    refine bind (.alloc fun hp => hp.makes_memberType hreceiver name) fun w' _ _ hgrows _ htype => ?_
    refine bind (remember rfl rfl fun hw =>
      hw.remember_apparent name (hab.mono hgrows) htype) fun _ _ _ hgrows' _ _ => ?_
    exact .pure (Option.Rel.some (htype.mono hgrows'))

theorem runs_memberType {a b : TypeId} (name : String) (hab : w.pairing.Alike a b) :
    (inStep m m').Runs w c c' (memberType a name) (memberType b name) fun p => Option.Rel p.Alike := by
  unfold memberType
  refine .linked fun hlinked => ?_
  rw [hlinked.isLoose hab]
  split
  · exact .pure (.some hab)
  refine .table fun hp => ?_
  rcases both_or_none (hp.property? hab name) with ⟨hl, hr⟩ | ⟨_, _, hl, hr, hproperty⟩
  · rw [hl, hr]
    rcases both_or_none (hp.ofType? hab) with ⟨hl, hr⟩ | ⟨receiver, receiver', hl, hr, hreceiver⟩
    · rw [hl, hr]
      exact .pure .none
    · rw [hl, hr]
      dsimp only
      rw [Pairing.Linked.members_receiver hreceiver]
      split
      · cases hreceiver with
        | array hxy => exact runs_made (.array hxy) hab name
        | string => exact runs_made .string (hp.primitive hab) name
        | number => exact runs_made .number (hp.primitive hab) name
        | boolean => exact runs_made .boolean (hp.primitive hab) name
      · exact .pure .none
  · rw [hl, hr]
    exact .pure (.some hproperty.type)

/-! ## Standing elsewhere -/

/-- Nothing keeps a node from being looked at if both sides record or none does. -/
theorem opens (h : c.recording = c'.recording) (node : NodeId) : (inStep m m').Opens c c' node :=
  ⟨fun _ _ => trivial, .inr ⟨trivial, h⟩⟩

theorem in_scope {scope : ScopeId}
    (hx : (inStep m m').Runs w { c with scope := scope } { c' with scope := scope } x y Q) :
    (inStep m m').Runs w c c' (inScope scope x) (inScope scope y) Q :=
  hx.excursion rfl rfl id fun hc =>
    ⟨congrArg (fun c : Context => { c with scope := scope }) hc.place, hc.functions, hc.thisTypes⟩

theorem in_function {declared declared' : Option TypeId}
    (hdeclared : Option.Rel w.pairing.Alike declared declared')
    (hx : (inStep m m').Runs w { c with functions := declared :: c.functions, loops := 0 }
      { c' with functions := declared' :: c'.functions, loops := 0 } x y Q) :
    (inStep m m').Runs w c c' (inFunction declared x) (inFunction declared' y) Q := by
  refine hx.excursion rfl ?_ id fun hc => ⟨?_, .cons hdeclared hc.functions, hc.thisTypes⟩
  · rfl
  · exact congrArg (fun c : Context =>
      { c with functions := declared' :: c'.functions, loops := 0 }) hc.place

theorem in_loop (hx : (inStep m m').Runs w { c with loops := c.loops + 1 }
    { c' with loops := c'.loops + 1 } x y Q) :
    (inStep m m').Runs w c c' (inLoopBody x) (inLoopBody y) Q :=
  hx.excursion rfl rfl id fun hc =>
    ⟨congrArg (fun c : Context => { c with loops := c.loops + 1 }) hc.place, hc.functions,
      hc.thisTypes⟩

theorem in_class {a b : TypeId} (hab : w.pairing.Alike a b)
    (hx : (inStep m m').Runs w { c with thisTypes := a :: c.thisTypes }
      { c' with thisTypes := b :: c'.thisTypes } x y Q) :
    (inStep m m').Runs w c c' (inClass a x) (inClass b y) Q :=
  hx.excursion rfl rfl id fun hc =>
    ⟨congrArg (fun c : Context => { c with thisTypes := b :: c'.thisTypes }) hc.place,
      hc.functions, .cons hab hc.thisTypes⟩

theorem resolving_value {id : SymbolId}
    (hx : (inStep m m').Runs w { c with resolvingValues := id :: c.resolvingValues }
      { c' with resolvingValues := id :: c'.resolvingValues } x y Q) :
    (inStep m m').Runs w c c' (resolvingValue id x) (resolvingValue id y) Q :=
  hx.excursion (by simp) (by simp) (fun h => h) fun hc =>
    ⟨congrArg (fun c : Context => { c with resolvingValues := id :: c.resolvingValues }) hc.place,
      hc.functions, hc.thisTypes⟩

theorem resolving_type {id : SymbolId}
    (hx : (inStep m m').Runs w { c with resolvingTypes := id :: c.resolvingTypes }
      { c' with resolvingTypes := id :: c'.resolvingTypes } x y Q) :
    (inStep m m').Runs w c c' (resolvingType id x) (resolvingType id y) Q :=
  hx.excursion (by simp) (by simp) (fun h => h) fun hc =>
    ⟨congrArg (fun c : Context => { c with resolvingTypes := id :: c.resolvingTypes }) hc.place,
      hc.functions, hc.thisTypes⟩

theorem resolving_signature {site : Site}
    (hx : (inStep m m').Runs w { c with resolvingSignatures := site :: c.resolvingSignatures }
      { c' with resolvingSignatures := site :: c'.resolvingSignatures } x y Q) :
    (inStep m m').Runs w c c' (resolvingSignature site x) (resolvingSignature site y) Q :=
  hx.excursion (by simp) (by simp) (fun h => h) fun hc =>
    ⟨congrArg (fun c : Context => { c with resolvingSignatures := site :: c.resolvingSignatures })
      hc.place, hc.functions, hc.thisTypes⟩

/-- At the top of a file no types are around. -/
theorem at_top {file : FileId} (hx : (inStep m m').Runs w (c.top file) (c'.top file) x y Q) :
    (inStep m m').Runs w c c' (atTop file x) (atTop file y) Q :=
  hx.excursion rfl rfl id fun hc =>
    ⟨(congrArg (·.top file) hc.place).trans rfl, .nil, .nil⟩

/-- At a declaration neither side records. -/
theorem at_declaration {file : FileId} {scope : ScopeId}
    (hx : ∀ c c' : Context, c.recording = c'.recording → (inStep m m').Runs w c c' x y Q) :
    (inStep m m').Runs w c c' (atDeclaration file scope x) (atDeclaration file scope y) Q := by
  refine .placed fun hc => .read (.get fun hw => ?_)
  have hthis : Option.Rel w.pairing.Alike (thisOfScope c w.left scope)
      (thisOfScope c' w.right scope) := by
    have hsame : thisOfScope c' w.right scope = thisOfScope c w.right scope := by
      rw [hc.place]
      apply thisOfScope_congr <;> rfl
    rw [hsame]
    exact thisOfScope_inStep hw scope
  refine Runs.excursion (hx _ _ rfl) rfl rfl id fun hc => ⟨?_, .nil, ?_⟩
  · exact congrArg (fun k : Context => { k with
      file := file
      scope := scope
      functions := []
      thisTypes := (thisOfScope c' w.right scope).toList
      loops := 0
      speculative := c'.speculative + 1 }) hc.place
  · show List.Forall₂ _ (thisOfScope c w.left scope).toList (thisOfScope c' w.right scope).toList
    match thisOfScope c w.left scope, thisOfScope c' w.right scope, hthis with
    | _, _, .none => exact .nil
    | _, _, .some hab => exact .cons hab .nil

end InStep

/-! ## Rules -/

/-- The rules keep two runs in step. -/
structure Stepped (r : Rules) : Prop where
  typeNode : ∀ {m m' w c c' node}, (inStep m m').Opens c c' node →
    (inStep m m').Runs w c c' (r.typeNode node) (r.typeNode node) Pairing.Alike
  expression : ∀ {m m' w c c' node expected expected'}, (inStep m m').Opens c c' node →
    (Plain c.arena node ∨ Option.Rel w.pairing.Alike expected expected') →
    Expect w.pairing expected expected' →
    (inStep m m').Runs w c c' (r.expression node expected) (r.expression node expected')
      fun p => p.Sim (Option.Rel w.pairing.Alike expected expected')
  superSignatures : ∀ {m m' w c c' node}, (inStep m m').Opens c c' node →
    c.arena.form? node = some (.keyword .kwSuper) →
    (inStep m m').Runs w c c' (superSignatures r node) (superSignatures r node)
      fun p => List.Forall₂ p.SignatureAlike
  statement : ∀ {m m' w c c'} node, c.recording = c'.recording →
    (inStep m m').Runs w c c' (r.statement node) (r.statement node) fun p => List.Forall₂ p.Alike
  valueType : ∀ {m m' w c c'} id, (inStep m m').Runs w c c' (r.valueType id) (r.valueType id)
    Pairing.Alike
  declaredType : ∀ {m m' w c c'} id, (inStep m m').Runs w c c' (r.declaredType id) (r.declaredType id)
    fun p => Option.Rel p.Alike
  classTypes : ∀ {m m' w c c'} id, (inStep m m').Runs w c c' (r.classTypes id) (r.classTypes id)
    ClassAlike

namespace Stepped

open InStep

variable {self : Rules} (h : Stepped self) {m m' : Made} {w : Sides} {c c' : Context}

include h

/-- An expression of which the same is expected. -/
theorem typed {node : NodeId} {expected expected' : Option TypeId} (ho : (inStep m m').Opens c c' node)
    (hex : Option.Rel w.pairing.Alike expected expected') :
    (inStep m m').Runs w c c' (self.expression node expected) (self.expression node expected')
      Pairing.Alike :=
  .linked fun hp => (h.expression ho (.inr hex) (.of_alike hp hex)).imp
    fun _ _ _ _ _ hab => hab.alike hex

/-! ### Functions -/

theorem runs_functionBody {node : NodeId} (hrec : c.recording = c'.recording)
    {declared declared' : Option TypeId}
    (hdeclared : Option.Rel w.pairing.Alike declared declared') :
    (inStep m m').Runs w c c' (functionBody self node declared) (functionBody self node declared')
      fun p => List.Forall₂ p.Alike := by
  refine .look (fun _ _ _ => rfl) ?_
  split
  · exact .pure .nil
  · rename_i body _
    refine in_scope (in_function hdeclared ?_)
    split
    · exact .pure .nil
    · refine .map (.mapM_same (fun hp hs => hs.imp fun _ _ hab => hab.mono hp) (fun _ => carefree _)
        fun w' node _ _ => h.statement node (by exact hrec)) fun _ _ _ _ _ hs => ?_
      exact List.rel_flatten hs
    · refine InStep.bind (h.typed (opens (by exact hrec) _) hdeclared) fun w' a b _ _ hab => ?_
      refine InStep.bind (.quiet (Runs.notes_forM_option fun _ => Runs.notes_checkAssignable _ _ _)
        (Runs.notes_forM_option fun _ => Runs.notes_checkAssignable _ _ _)) fun _ _ _ hgrows _ _ => ?_
      exact .pure (.cons (hab.mono hgrows) .nil)

omit h in
theorem runs_inferredReturn {returned returned' : List TypeId}
    (hreturned : List.Forall₂ w.pairing.Alike returned returned') :
    (inStep m m').Runs w c c' (inferredReturn returned) (inferredReturn returned') Pairing.Alike := by
  unfold inferredReturn
  rw [isEmpty_forall₂ hreturned]
  split
  · exact .linked fun hp => .pure hp.void
  · refine InStep.bind (.mapM hreturned (fun hp hab => hab.mono hp) (fun hp hab => hab.mono hp)
      (fun _ => carefree _) fun w' _ _ _ _ hab => .alloc fun hp => hp.makes_widen hab) ?_
    exact fun _ _ _ _ _ hxs => .alloc fun hp => hp.makes_union hxs

theorem runs_parameterType {node : NodeId} (ho : (inStep m m').Opens c c' node) :
    (inStep m m').Runs w c c' (parameterType self node) (parameterType self node) Pairing.Alike := by
  refine .look (fun _ _ _ => rfl) ?_
  split
  · exact .error
  · rename_i p hp
    have hchildren := Arena.children_of_form? (Arena.form?_of_parameterOf? hp)
    split
    · rename_i type _ htype
      refine h.typeNode (ho.child ?_)
      simp [hchildren, Form.children, htype]
    · rename_i value _ hvalue
      refine InStep.bind (h.typed (ho.child ?_) .none) fun _ _ _ _ _ hab =>
        .alloc fun hp => hp.makes_widen hab
      simp [hchildren, Form.children, hvalue]
    · exact .get fun hw => .pure (getD_option (hw.contextual _) hw.linked.any)

theorem runs_parameterInfo {node : NodeId} (ho : (inStep m m').Opens c c' node) :
    (inStep m m').Runs w c c' (parameterInfo self node) (parameterInfo self node)
      Pairing.ParameterAlike := by
  refine .look (fun _ _ _ => rfl) ?_
  split
  · exact .linked fun hp => .pure ⟨rfl, hp.error, rfl⟩
  · split
    · exact .map (h.valueType _) fun _ _ _ _ _ hab => ⟨rfl, hab, rfl⟩
    · exact .map (h.runs_parameterType ho) fun _ _ _ _ _ hab => ⟨rfl, hab, rfl⟩

theorem runs_returnType {node : NodeId} {kind : FunctionKind} {p : FunctionParts}
    (hform : c.arena.form? node = some (.function kind p)) (ho : (inStep m m').Opens c c' node) :
    (inStep m m').Runs w c c' (returnType self node kind p) (returnType self node kind p)
      Pairing.Alike := by
  unfold returnType
  split
  · rename_i type htype
    refine .look (fun _ _ _ => rfl) (in_scope (h.typeNode ?_))
    have hchild : (inStep m m').Opens c c' type :=
      ho.child (by simp [Arena.children_of_form? hform, Form.children, htype])
    exact ⟨hchild.nodes, hchild.even⟩
  · split
    · exact .linked fun hp => .pure hp.void
    · split
      · exact InStep.bind (Q := fun p => List.Forall₂ p.Alike)
          (.in_silence (h.runs_functionBody (by rfl) .none)) fun _ _ _ _ _ hs => runs_inferredReturn hs
      · exact .linked fun hp => .pure hp.any

theorem runs_signature {node : NodeId} (ho : (inStep m m').Opens c c' node) :
    (inStep m m').Runs w c c' (signature self node) (signature self node) Pairing.SignatureAlike := by
  refine .look (fun _ _ _ => rfl) (.get fun hw => ?_)
  match w.left.signatures.get? (c.site node), w.right.signatures.get? (c.site node),
    hw.signatures (c.site node) with
  | _, _, .some hs => exact .pure hs
  | _, _, .none =>
    dsimp only
    split
    · rename_i kind p hform
      have hchildren := Arena.children_of_form? hform
      refine InStep.bind (in_scope (.mapM_same (fun hp hab => hab.imp fun _ _ h => h.mono hp)
        (fun _ => carefree _) fun w' q hq _ => h.runs_parameterInfo ?_)) fun w₁ a b _ _ hps => ?_
      · have hchild : (inStep m m').Opens c c' q := ho.child (by simp [hchildren, Form.children, hq])
        exact ⟨hchild.nodes, hchild.even⟩
      · split
        · exact .linked fun hp => .pure ⟨hps, hp.any⟩
        · refine InStep.bind (resolving_signature (h.runs_returnType hform ⟨ho.nodes, ho.even⟩))
            fun w₂ type type' hgrows _ htype => ?_
          have hs : w₂.pairing.SignatureAlike ⟨a, type⟩ ⟨b, type'⟩ :=
            ⟨hps.imp fun _ _ hp => hp.imp fun _ _ h => h.mono hgrows, htype⟩
          refine InStep.bind (remember rfl rfl fun hw =>
            { hw with signatures := hw.signatures.insert _ hs }) fun _ _ _ hgrows' _ _ => ?_
          exact .pure (hs.imp fun _ _ h => h.mono hgrows')
    · exact .linked fun hp => .pure ⟨.nil, hp.error⟩

theorem runs_functionsType {nodes : List NodeId}
    (ho : ∀ node ∈ nodes, (inStep m m').Opens c c' node) :
    (inStep m m').Runs w c c' (functionsType self nodes) (functionsType self nodes)
      Pairing.Alike := by
  refine InStep.bind (.mapM_same (fun hp hs => hs.imp fun _ _ h => h.mono hp) (fun _ => carefree _)
    fun w' node hnode _ => h.runs_signature (ho node hnode)) fun _ _ _ _ _ hs => ?_
  exact .alloc fun hp => hp.makes_allocate ⟨rfl, rfl, rfl, .nil, hs, .nil, .nil⟩

/-! ### Checking functions -/

theorem runs_ascription {type : Option NodeId} (hrec : c.recording = c'.recording) :
    (inStep m m').Runs w c c' (ascription self type) (ascription self type)
      fun p => Option.Rel p.Alike :=
  .ascription fun _ _ => h.typeNode (opens hrec _)

theorem runs_initializer {initializer : Option NodeId} (hrec : c.recording = c'.recording)
    {annotated annotated' : Option TypeId} (name : NodeId)
    (hannotated : Option.Rel w.pairing.Alike annotated annotated') :
    (inStep m m').Runs w c c' (checkInitializer self initializer annotated name)
      (checkInitializer self initializer annotated' name) fun _ _ _ => True := by
  cases initializer with
  | none => exact .pure trivial
  | some value =>
    refine InStep.bind (h.typed (opens hrec value) hannotated) fun _ _ _ _ _ _ => ?_
    exact .quiet (Runs.notes_forM_option fun _ => Runs.notes_checkAssignable _ _ _)
      (Runs.notes_forM_option fun _ => Runs.notes_checkAssignable _ _ _)

theorem runs_checkParameter (arrow : Bool) {node : NodeId} (hrec : c.recording = c'.recording) :
    (inStep m m').Runs w c c' (checkParameter self arrow node) (checkParameter self arrow node)
      fun _ _ _ => True := by
  refine .look (fun _ _ _ => rfl) ?_
  split
  · exact .pure trivial
  · rename_i p _
    extract_lets rest
    have hrest : ∀ (w : Sides) type type', (inStep m m').Runs w c c' (rest type) (rest type')
        fun _ _ _ => True := by
      intro w type type'
      refine InStep.bind (h.runs_ascription hrec) fun w' _ _ _ _ hannotated => ?_
      refine InStep.bind (h.runs_initializer hrec _ hannotated) fun _ _ _ _ _ _ => ?_
      have hnotes : ∀ (c' : Context) (type : TypeId) (annotated : Option TypeId), Runs.Notes c' (do
            let given := arrow && (← get).contextual.contains (c.site node)
            if c.options.noImplicitAny && annotated.isNone && p.initializer.isNone && !given then
              report p.name (.implicitAny ((c.arena.nameOf? p.name).getD ""))
            record node type
            record p.name type) := by
        intro c' type annotated
        refine Runs.notes_get fun s => ?_
        dsimp only
        split
        · exact Runs.notes_bind (Runs.notes_reportWith _ _ _) fun _ =>
            Runs.notes_bind (Runs.notes_record _ _) fun _ => Runs.notes_record _ _
        · exact Runs.notes_bind (Runs.notes_record _ _) fun _ => Runs.notes_record _ _
      exact .quiet (hnotes _ _ _) (hnotes _ _ _)
    split
    · exact InStep.bind (h.valueType _) fun _ _ _ _ _ _ => hrest _ _ _
    · exact InStep.bind (.in_silence (h.runs_parameterType (opens (by rfl) _)))
        fun _ _ _ _ _ _ => hrest _ _ _

theorem runs_checkFunction {node : NodeId} (hrec : c.recording = c'.recording) :
    (inStep m m').Runs w c c' (checkFunction self node) (checkFunction self node)
      fun _ _ _ => True := by
  refine .look (fun _ _ _ => rfl) ?_
  split
  · exact .pure trivial
  · refine in_scope (InStep.bind (.forM_same (fun _ => carefree _) fun _ _ _ _ =>
      h.runs_checkParameter _ (by exact hrec)) fun _ _ _ _ _ _ => ?_)
    refine InStep.bind (h.runs_ascription (by exact hrec)) fun _ _ _ _ _ hdeclared => ?_
    split
    · exact .pure trivial
    · refine InStep.bind (h.runs_functionBody (by exact hrec) hdeclared) fun _ _ _ _ _ _ => ?_
      -- whether a value has to be returned is at most reported
      refine .quiet ?_ ?_
      all_goals
        split
        · refine Runs.notes_table fun t => ?_
          split
          · exact Runs.notes_reportWith _ _ _
          · exact Runs.notes_pure _
        · exact Runs.notes_pure _

/-! ### Arrow functions -/

omit h in
theorem runs_takeContext (node : NodeId) {expected expected' : Option TypeId}
    (hex : Option.Rel w.pairing.Alike expected expected') :
    (inStep m m').Runs w c c' (takeContext node expected) (takeContext node expected')
      fun _ _ _ => True := by
  refine .look (fun _ _ _ => rfl) (.table fun hp => ?_)
  have hfirst : Option.Rel w.pairing.SignatureAlike
      (expected.bind fun type => (w.pairing.left.calls type).head?)
      (expected'.bind fun type => (w.pairing.right.calls type).head?) :=
    bind_option hex fun _ _ hab => head?_forall₂ (hp.calls hab)
  cases c.arena.functionOf? node with
  | none => exact .pure trivial
  | some p =>
    match expected.bind fun type => (w.pairing.left.calls type).head?,
      expected'.bind fun type => (w.pairing.right.calls type).head?, hfirst with
    | _, _, .none => exact .pure trivial
    | some s, some s', .some hs =>
      have hpairs : List.Forall₂ (Tied.Passed w.pairing) (p.parameters.zip s.parameters)
        (p.parameters.zip s'.parameters) := Tied.passed_zip _ hs.parameters
      refine .forM hpairs (fun hp h => h.mono hp) (fun _ => carefree _) ?_
      rintro w' ⟨parameter, a⟩ - ⟨parameter', b⟩ hgrows ⟨heq, hab⟩
      obtain rfl : parameter = parameter' := heq
      dsimp only
      split
      · exact .pure trivial
      · exact remember rfl rfl fun hw =>
          { hw with contextual := hw.contextual.insert _ hab.type }

theorem runs_arrowType {node : NodeId} (ho : (inStep m m').Opens c c' node)
    {expected expected' : Option TypeId} (hex : Option.Rel w.pairing.Alike expected expected') :
    (inStep m m').Runs w c c' (arrowType self node expected) (arrowType self node expected')
      Pairing.Alike := by
  refine .look (fun _ _ _ => rfl) (.get fun hw => ?_)
  match w.left.arrowTypes.get? (c.site node), w.right.arrowTypes.get? (c.site node),
    hw.arrows (c.site node) with
  | _, _, .some hab => exact .pure hab
  | _, _, .none =>
    refine InStep.bind (runs_takeContext node hex) fun _ _ _ _ _ _ => ?_
    refine InStep.bind (h.runs_signature ho) fun _ _ _ _ _ hs => ?_
    refine InStep.bind (.alloc fun hp => hp.makes_function hs) fun w' a b _ _ hab => ?_
    refine InStep.bind (remember rfl rfl fun hw =>
      { hw with arrows := hw.arrows.insert _ hab }) fun _ _ _ hgrows _ _ => ?_
    exact .pure (hab.mono hgrows)

theorem runs_checkArrow {node : NodeId} (hrec : c.recording = c'.recording)
    (ho : (inStep m m').Opens c c' node) {expected expected' : Option TypeId}
    (hex : Option.Rel w.pairing.Alike expected expected') :
    (inStep m m').Runs w c c' (checkArrow self node expected) (checkArrow self node expected')
      Pairing.Alike := by
  refine InStep.bind (h.runs_arrowType ho hex) fun w' a b _ _ hab => .read ?_
  dsimp only
  rw [← hrec]
  split
  · exact InStep.bind (h.runs_checkFunction hrec) fun _ _ _ hgrows _ _ => .pure (hab.mono hgrows)
  · exact .pure hab

/-- All that is needed for expressions. -/
theorem tied : Tied (inStep m m') self where
  walked hcareful := hcareful.elim
  typeNode := h.typeNode
  expression := h.expression
  superSignatures := h.superSignatures
  valueType := h.valueType
  declaredType := h.declaredType
  signature ho _ := h.runs_signature ho
  memberType := runs_memberType
  arrow _ hrec ho _ hex := h.runs_checkArrow hrec ho hex

end Stepped

end ScriptAnalysis.Checking
