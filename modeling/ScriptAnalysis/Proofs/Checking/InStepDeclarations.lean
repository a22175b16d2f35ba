import ScriptAnalysis.Proofs.Checking.InStep

/-!
# Declarations in step

Interfaces and classes are entered before their members are known, so on both
sides an object is made first and linked, and filled in later. All else that a
symbol stands for is remembered when it is known.

**Results.**
* `Stepped.runs_interfaceType`, `Stepped.runs_classTypes`: objects that are
  filled in.
* `Stepped.runs_valueType`, `Stepped.runs_declaredType`: what a symbol stands for.
* `stepped_rules`: all rules keep two runs in step.
-/
namespace ScriptAnalysis.Checking

open Tie (Runs)

/-! ## Shapes -/

section

variable {p p' : Pairing} {s s' : Shape} {q q' : Property}

theorem shapeAlike_bare (kind : ObjectKind) (name : Option String) (symbol : Option SymbolId) :
    p.ShapeAlike (.bare kind name symbol) (.bare kind name symbol) :=
  ⟨rfl, rfl, rfl, .nil, .nil, .nil, .nil⟩

theorem shapeAlike_concat (hs : p.ShapeAlike s s') (hq : p.PropertyAlike q q') :
    p.ShapeAlike { s with properties := s.properties ++ [q] }
      { s' with properties := s'.properties ++ [q'] } :=
  { hs with properties := List.rel_append hs.properties (.cons hq .nil) }

theorem shapeAlike_upsert (hs : p.ShapeAlike s s') (hq : p.PropertyAlike q q') :
    p.ShapeAlike (upsertProperty s q) (upsertProperty s' q') := by
  have hname := hq.name
  unfold upsertProperty
  rw [hname, any_forall₂ hs.properties fun _ _ hr => by rw [hr.name]]
  split
  · exact hs
  · split
    · refine { hs with properties := map_forall₂ hs.properties fun r r' hr => ?_ }
      rw [hr.name]
      split
      · exact hq
      · exact hr
    · exact shapeAlike_concat hs hq

theorem isTaken_alike (hs : p.ShapeAlike s s') (name : String) : isTaken s name = isTaken s' name := by
  have hfound : (s.property? name).isSome = (s'.property? name).isSome :=
    isSome_option (find?_forall₂ hs.properties fun _ _ hr => by rw [hr.name])
  unfold isTaken
  rw [hfound]

/-- The shapes of a class, in two runs. -/
structure ShapesAlike (p : Pairing) (s s' : ClassShapes) : Prop where
  instances : p.link s.types.instanceType s'.types.instanceType
  constructors : p.link s.types.constructorType s'.types.constructorType
  instanceShape : p.ShapeAlike s.instanceShape s'.instanceShape
  constructorShape : p.ShapeAlike s.constructorShape s'.constructorShape

theorem ShapesAlike.mono {s s' : ClassShapes} (hs : ShapesAlike p s s') (hp : p.Grows p') :
    ShapesAlike p' s s' where
  instances := hp.link _ _ hs.instances
  constructors := hp.link _ _ hs.constructors
  instanceShape := hs.instanceShape.imp fun _ _ hab => hab.mono hp
  constructorShape := hs.constructorShape.imp fun _ _ hab => hab.mono hp

theorem ShapesAlike.upsert {s s' : ClassShapes} (hs : ShapesAlike p s s') (isStatic : Bool)
    (hq : p.PropertyAlike q q') : ShapesAlike p (s.upsert isStatic q) (s'.upsert isStatic q') := by
  unfold ClassShapes.upsert
  split
  · exact { hs with constructorShape := shapeAlike_upsert hs.constructorShape hq }
  · exact { hs with instanceShape := shapeAlike_upsert hs.instanceShape hq }

end

namespace InStep

variable {m m' : Made} {w : Sides} {c c' : Context}

/-- Linked objects are filled in with alike shapes. -/
theorem runs_setShape {a b : TypeId} (hab : w.pairing.link a b) {s s' : Shape}
    (hs : w.pairing.ShapeAlike s s') :
    (inStep m m').Runs w c c' (alloc (TypeTable.setShape a s)) (alloc (TypeTable.setShape b s'))
      fun _ _ _ => True := by
  intro hw _ _
  obtain ⟨hgrows, hlinked⟩ := hw.linked.setShape hab hs
  exact ⟨rfl, fun _ => ⟨rfl, w.link, hgrows,
    hw.grow hgrows (fun _ _ => .inl) hlinked (.refl _) (.refl _), trivial⟩⟩

theorem runs_publish {s s' : ClassShapes} (hs : ShapesAlike w.pairing s s') :
    (inStep m m').Runs w c c' s.publish s'.publish fun _ _ _ => True := by
  refine InStep.bind (runs_setShape hs.instances hs.instanceShape) fun _ _ _ hgrows _ _ => ?_
  have hs' := hs.mono hgrows
  exact runs_setShape hs'.constructors hs'.constructorShape

end InStep

namespace Stepped

open InStep

variable {self : Rules} (h : Stepped self) {m m' : Made} {w : Sides} {c c' : Context}

include h

/-! ## Aliases and interfaces -/

theorem runs_aliasType (id : SymbolId) (symbol : Symbol) :
    (inStep m m').Runs w c c' (aliasType self id symbol) (aliasType self id symbol)
      Pairing.Alike := by
  refine .get fun hw => ?_
  match w.left.aliasTypes.get? id, w.right.aliasTypes.get? id, hw.aliases id with
  | _, _, .some hab => exact .pure hab
  | _, _, .none =>
    refine .look (fun _ _ _ => rfl) ?_
    split
    · exact .error
    · extract_lets rest
      have hrest : ∀ (w : Sides) a b, w.pairing.Alike a b →
          (inStep m m').Runs w c c' (rest a) (rest b) Pairing.Alike := fun w a b hab =>
        InStep.bind (remember rfl rfl fun hw => { hw with aliases := hw.aliases.insert id hab })
          fun _ _ _ hgrows _ _ => .pure (hab.mono hgrows)
      split
      · exact .linked fun hp => hrest _ _ _ hp.error
      · split
        · exact InStep.bind (resolving_type (at_declaration fun _ _ hrec => h.typeNode (opens hrec _)))
            fun _ _ _ _ _ => hrest _ _ _
        · exact .linked fun hp => hrest _ _ _ hp.error

theorem runs_addBase (heritage : NodeId) (hrec : c.recording = c'.recording) {s s' : Shape}
    (hs : w.pairing.ShapeAlike s s') :
    (inStep m m').Runs w c c' (addBase self s heritage) (addBase self s' heritage)
      Pairing.ShapeAlike := by
  refine InStep.bind (h.typeNode (opens hrec _)) fun w' a b hgrows _ hab => .table fun hp => ?_
  replace hs := hs.imp fun _ _ hab => hab.mono hgrows
  rw [isSome_option (hp.shape? hab), hp.contains hs.bases hab]
  split
  · exact .pure { hs with bases := List.rel_append hs.bases (.cons hab .nil) }
  · exact .pure hs

theorem runs_addSignatureProperty (p : PropertyParts) (hrec : c.recording = c'.recording)
    {s s' : Shape} (hs : w.pairing.ShapeAlike s s') :
    (inStep m m').Runs w c c' (addSignatureProperty self s p) (addSignatureProperty self s' p)
      Pairing.ShapeAlike := by
  refine .look (fun _ _ _ => rfl) ?_
  dsimp only
  rw [isTaken_alike hs]
  split
  · exact .pure hs
  · refine InStep.bind (h.runs_ascription hrec) fun w' _ _ hgrows _ htype => .linked fun hp => ?_
    exact .pure (shapeAlike_concat (hs.imp fun _ _ hab => hab.mono hgrows)
      ⟨rfl, getD_option htype hp.any, rfl, rfl⟩)

theorem runs_addInterfaceMember (member : NodeId) (hrec : c.recording = c'.recording)
    {acc acc' : Shape × Table String (List NodeId)} (hs : w.pairing.ShapeAlike acc.1 acc'.1)
    (hmethods : acc.2 = acc'.2) :
    (inStep m m').Runs w c c' (addInterfaceMember self acc member)
      (addInterfaceMember self acc' member)
      fun p acc acc' => p.ShapeAlike acc.1 acc'.1 ∧ acc.2 = acc'.2 := by
  refine .look (fun _ _ _ => rfl) ?_
  dsimp only
  rw [hmethods]
  split
  · exact .map (h.runs_addSignatureProperty _ hrec hs) fun _ _ _ _ _ hs => ⟨hs, rfl⟩
  · exact .pure ⟨hs, rfl⟩
  · exact .pure ⟨hs, hmethods⟩

theorem runs_addInterfaceMethod (entry : String × List NodeId) (hrec : c.recording = c'.recording)
    {s s' : Shape} (hs : w.pairing.ShapeAlike s s') :
    (inStep m m').Runs w c c' (addInterfaceMethod self s entry) (addInterfaceMethod self s' entry)
      Pairing.ShapeAlike := by
  unfold addInterfaceMethod
  dsimp only
  rw [isTaken_alike hs]
  split
  · exact .pure hs
  · refine .look (fun _ _ _ => rfl) ?_
    refine InStep.bind (h.runs_functionsType fun _ _ => opens hrec _) fun _ _ _ hgrows _ hab => ?_
    exact .pure (shapeAlike_concat (hs.imp fun _ _ hab => hab.mono hgrows) ⟨rfl, hab, rfl, rfl⟩)

theorem runs_addInterface (declaration : Site) {s s' : Shape} (hs : w.pairing.ShapeAlike s s') :
    (inStep m m').Runs w c c' (addInterface self s declaration) (addInterface self s' declaration)
      Pairing.ShapeAlike := by
  refine .look (fun _ _ _ => rfl) (at_declaration fun k k' hrec => ?_)
  split
  · rename_i p _
    have hbases : (inStep m m').Runs w k k' (p.heritage.foldlM (addBase self) s)
        (p.heritage.foldlM (addBase self) s') Pairing.ShapeAlike :=
      .foldlM_same (fun _ _ => carefree _) (fun _ _ _ e _ _ hs => h.runs_addBase e hrec hs) hs
    refine InStep.bind hbases fun w₁ t t' _ _ ht => ?_
    have hmembers : (inStep m m').Runs w₁ k k'
        (p.members.foldlM (addInterfaceMember self) (t, .empty))
        (p.members.foldlM (addInterfaceMember self) (t', .empty))
        fun p acc acc' => p.ShapeAlike acc.1 acc'.1 ∧ acc.2 = acc'.2 :=
      .foldlM_same (fun _ _ => carefree _)
        (fun _ _ _ e _ _ hs => h.runs_addInterfaceMember e hrec hs.1 hs.2) ⟨ht, rfl⟩
    refine InStep.bind hmembers fun w₂ acc acc' _ _ hacc => ?_
    obtain ⟨shape, methods⟩ := acc
    obtain ⟨shape', methods'⟩ := acc'
    obtain ⟨hs, rfl⟩ : _ ∧ methods = methods' := hacc
    exact .foldlM_same (fun _ _ => carefree _)
      (fun _ _ _ e _ _ hs => h.runs_addInterfaceMethod e hrec hs) hs
  · exact .pure hs

theorem runs_interfaceType (id : SymbolId) (symbol : Symbol) :
    (inStep m m').Runs w c c' (interfaceType self id symbol) (interfaceType self id symbol)
      Pairing.Alike := by
  refine .get fun hw => ?_
  match w.left.interfaceTypes.get? id, w.right.interfaceTypes.get? id, hw.interfaces id with
  | _, _, .some hab => exact .pure hab
  | _, _, .none =>
    refine .look (fun _ _ _ => rfl) ?_
    refine InStep.bind (.alloc fun hp => hp.makes_object (shapeAlike_bare _ _ _))
      fun w₁ a b _ _ hab => ?_
    refine InStep.bind (remember rfl rfl fun hw =>
      { hw with interfaces := hw.interfaces.insert id (.object hab) }) fun w₂ _ _ hgrows _ _ => ?_
    replace hab := hgrows.link _ _ hab
    refine InStep.bind (Q := fun p s s' => p.link a b ∧ p.ShapeAlike s s')
      (.foldlM_same (fun _ _ => carefree _) (fun w' s s' d _ _ hs => ?_)
        ⟨hab, shapeAlike_bare _ _ _⟩) fun _ _ _ _ _ hlast => .pure (.object hlast.1)
    refine InStep.bind (h.runs_addInterface d hs.2) fun w₃ t t' hgrows _ ht => ?_
    have hab := hgrows.link _ _ hs.1
    refine InStep.bind (runs_setShape hab ht) fun _ _ _ hgrows _ _ => ?_
    exact .pure ⟨hgrows.link _ _ hab, ht.imp fun _ _ hab => hab.mono hgrows⟩

/-! ## Classes -/

/-- The shapes of a class and what is known of its base, in two runs. -/
def BaseAlike (p : Pairing) (x y : ClassShapes × Option TypeId) : Prop :=
  ShapesAlike p x.1 y.1 ∧ Option.Rel p.Alike x.2 y.2

theorem runs_addBaseClass (heritage : Option NodeId) (hrec : c.recording = c'.recording)
    {s s' : ClassShapes} (hs : ShapesAlike w.pairing s s') :
    (inStep m m').Runs w c c' (addBaseClass self s heritage) (addBaseClass self s' heritage)
      BaseAlike := by
  unfold addBaseClass
  split
  · exact .pure ⟨hs, .none⟩
  refine InStep.bind (h.typeNode (opens hrec _)) fun w₁ a b hgrows _ hab => .table fun hp => ?_
  replace hs := hs.mono hgrows
  match w₁.pairing.left.shape? a, w₁.pairing.right.shape? b, hp.shape? hab with
  | _, _, .none => exact .pure ⟨hs, .none⟩
  | some shape, some shape', .some hshape =>
    dsimp only
    rw [hshape.kind, hshape.symbol]
    split
    · exact .pure ⟨hs, .none⟩
    have hinstance : ShapesAlike w₁.pairing
        { s with instanceShape := { s.instanceShape with bases := s.instanceShape.bases ++ [a] } }
        { s' with
          instanceShape := { s'.instanceShape with bases := s'.instanceShape.bases ++ [b] } } :=
      { hs with instanceShape := { hs.instanceShape with
          bases := List.rel_append hs.instanceShape.bases (.cons hab .nil) } }
    split
    · exact .pure ⟨hinstance, .none⟩
    · refine InStep.bind (h.classTypes _) fun w₂ types types' hgrows _ htypes => ?_
      have hs₂ := hinstance.mono hgrows
      refine .pure ⟨{ hs₂ with constructorShape := { hs₂.constructorShape with bases := ?_ } },
        .some htypes.constructors⟩
      exact List.rel_append hs₂.constructorShape.bases (.cons htypes.constructors .nil)

/-- The shapes of a class and its members by sort, in two runs. -/
def SortedAlike (p : Pairing) (x y : ClassShapes × ClassMembers) : Prop :=
  ShapesAlike p x.1 y.1 ∧ x.2 = y.2

theorem runs_addClassMember (member : NodeId) (hrec : c.recording = c'.recording)
    {acc acc' : ClassShapes × ClassMembers} (hacc : SortedAlike w.pairing acc acc') :
    (inStep m m').Runs w c c' (addClassMember self acc member) (addClassMember self acc' member)
      SortedAlike := by
  obtain ⟨s, ms⟩ := acc
  obtain ⟨s', ms'⟩ := acc'
  obtain ⟨hs, rfl⟩ : ShapesAlike w.pairing s s' ∧ ms = ms' := hacc
  refine .look (fun _ _ _ => rfl) ?_
  dsimp only
  split
  · refine InStep.bind (h.runs_ascription hrec) fun w₁ _ _ hgrows _ htype => .linked fun hp => ?_
    replace hs := hs.mono hgrows
    cases htype with
    | none => exact .pure ⟨hs.upsert _ ⟨rfl, hp.any, rfl, rfl⟩, rfl⟩
    | some htype => exact .pure ⟨hs.upsert _ ⟨rfl, htype, rfl, rfl⟩, rfl⟩
  · exact .pure ⟨hs, rfl⟩
  · exact .pure ⟨hs, rfl⟩
  · exact .pure ⟨hs, rfl⟩

theorem runs_addParameterProperty (constructor parameter : NodeId)
    (hrec : c.recording = c'.recording) {s s' : ClassShapes} (hs : ShapesAlike w.pairing s s') :
    (inStep m m').Runs w c c' (addParameterProperty self constructor s parameter)
      (addParameterProperty self constructor s' parameter) ShapesAlike := by
  refine .look (fun _ _ _ => rfl) ?_
  split
  · exact .pure hs
  · split
    · refine InStep.bind (in_scope (h.runs_parameterType (opens (by exact hrec) _)))
        fun _ _ _ hgrows _ hab => ?_
      exact .pure ((hs.mono hgrows).upsert false ⟨rfl, hab, rfl, rfl⟩)
    · exact .pure hs

theorem runs_addParameterProperties (constructor : NodeId) (hrec : c.recording = c'.recording)
    {s s' : ClassShapes} (hs : ShapesAlike w.pairing s s') :
    (inStep m m').Runs w c c' (addParameterProperties self s constructor)
      (addParameterProperties self s' constructor) ShapesAlike :=
  .look (fun _ _ _ => rfl) (.foldlM_same (fun _ _ => carefree _)
    (fun _ _ _ e _ _ hs => h.runs_addParameterProperty constructor e hrec hs) hs)

theorem runs_methodType (nodes : List NodeId) (hrec : c.recording = c'.recording) :
    (inStep m m').Runs w c c' (methodType self nodes) (methodType self nodes) Pairing.Alike :=
  .look (fun _ _ _ => rfl) (h.runs_functionsType fun _ _ => opens hrec _)

theorem runs_addMethod (entry : String × List NodeId) (hrec : c.recording = c'.recording)
    {s s' : ClassShapes} (hs : ShapesAlike w.pairing s s') :
    (inStep m m').Runs w c c' (addMethod self s entry) (addMethod self s' entry)
      ShapesAlike := by
  refine .look (fun _ _ _ => rfl) ?_
  dsimp only
  split
  · exact InStep.bind (h.runs_methodType _ hrec) fun _ _ _ hgrows _ hab =>
      .pure ((hs.mono hgrows).upsert _ ⟨rfl, hab, rfl, rfl⟩)
  · exact .linked fun hp => .pure (hs.upsert _ ⟨rfl, hp.any, rfl, rfl⟩)

theorem runs_inferProperty (p : PropertyParts) (hrec : c.recording = c'.recording)
    {s s' : ClassShapes} (hs : ShapesAlike w.pairing s s') :
    (inStep m m').Runs w c c' (inferProperty self s p) (inferProperty self s' p)
      ShapesAlike := by
  unfold inferProperty
  extract_lets rest rest'
  have hrest : ∀ (w₁ : Sides) a b, w.pairing.Grows w₁.pairing → w₁.pairing.Alike a b →
      (inStep m m').Runs w₁ c c' (rest a) (rest' b) ShapesAlike := by
    intro w₁ a b hgrows hab
    refine .look (fun _ _ _ => rfl) ?_
    have hproperty : w₁.pairing.PropertyAlike (classProperty c.arena p a) (classProperty c.arena p b) :=
      ⟨rfl, hab, rfl, rfl⟩
    have hs₁ := (hs.mono hgrows).upsert p.modifiers.isStatic hproperty
    exact InStep.bind (runs_publish hs₁) fun _ _ _ hgrows _ _ => .pure (hs₁.mono hgrows)
  split
  · exact .linked fun hp => hrest _ _ _ (.refl _) hp.any
  · refine InStep.bind (h.typed (opens hrec _) .none) fun w₁ _ _ hgrows _ hab => ?_
    exact InStep.bind (.alloc fun hp => hp.makes_widen hab) fun _ _ _ hgrows' _ hab =>
      hrest _ _ _ (hgrows.trans hgrows') hab

theorem runs_inferMethod (entry : String × List NodeId) (hrec : c.recording = c'.recording)
    {s s' : ClassShapes} (hs : ShapesAlike w.pairing s s') :
    (inStep m m').Runs w c c' (inferMethod self s entry) (inferMethod self s' entry)
      ShapesAlike := by
  unfold inferMethod
  dsimp only
  refine InStep.bind (h.runs_methodType _ hrec) fun w₁ a b hgrows _ hab => ?_
  refine .look (fun _ _ _ => rfl) ?_
  have hproperty : w₁.pairing.PropertyAlike ⟨entry.1, a, false, false⟩ ⟨entry.1, b, false, false⟩ :=
    ⟨rfl, hab, rfl, rfl⟩
  have hs₁ := (hs.mono hgrows).upsert (isStaticMethod c.arena entry.2) hproperty
  exact InStep.bind (runs_publish hs₁) fun _ _ _ hgrows _ _ => .pure (hs₁.mono hgrows)

theorem runs_constructSignatures {types types' : ClassTypes} (constructors : List NodeId)
    (hrec : c.recording = c'.recording)
    (hinstance : w.pairing.Alike types.instanceType types'.instanceType)
    {base base' : Option TypeId} (hbase : Option.Rel w.pairing.Alike base base') :
    (inStep m m').Runs w c c' (constructSignatures self types constructors base)
      (constructSignatures self types' constructors base')
      fun p => List.Forall₂ p.SignatureAlike := by
  refine .look (fun _ _ _ => rfl) ?_
  extract_lets visible rest rest'
  have hrest : ∀ (w₁ : Sides) ss ss', w.pairing.Grows w₁.pairing →
      List.Forall₂ w₁.pairing.SignatureAlike ss ss' →
      (inStep m m').Runs w₁ c c' (rest ss) (rest' ss') fun p => List.Forall₂ p.SignatureAlike := by
    intro w₁ ss ss' hgrows hss
    replace hinstance := hinstance.mono hgrows
    show (inStep m m').Runs w₁ c c' (if _ then _ else _) (if _ then _ else _) _
    rw [isEmpty_forall₂ hss]
    split
    · exact .pure (.cons ⟨.nil, hinstance⟩ .nil)
    · exact .pure (map_forall₂ hss fun _ _ hs => ⟨hs.parameters, hinstance⟩)
  split
  · exact InStep.bind (.mapM_same (fun hp hs => hs.imp fun _ _ h => h.mono hp)
      (fun _ => carefree _) fun w' node _ _ => h.runs_signature (opens hrec _))
      fun _ _ _ hgrows _ hss => hrest _ _ _ hgrows hss
  · cases hbase with
    | none => exact hrest _ _ _ (.refl _) .nil
    | some hside => exact .table fun hp => hrest _ _ _ (.refl _) (hp.constructs hside)

theorem runs_buildClass (id : SymbolId) (p : ClassParts) (hrec : c.recording = c'.recording)
    {types types' : ClassTypes} (hinstance : w.pairing.link types.instanceType types'.instanceType)
    (hconstructor : w.pairing.link types.constructorType types'.constructorType) :
    (inStep m m').Runs w c c' (buildClass self id types p) (buildClass self id types' p)
      fun _ _ _ => True := by
  refine .look (fun _ _ _ => rfl) ?_
  have howners : (inStep m m').Runs w c c'
      (p.members.forM fun member =>
        modify fun s => { s with memberOwners := s.memberOwners.insert (c.site member) id })
      (p.members.forM fun member =>
        modify fun s => { s with memberOwners := s.memberOwners.insert (c.site member) id })
      fun _ _ _ => True :=
    .forM_same (fun _ => carefree _) fun w' member _ _ => remember rfl rfl fun hw =>
      { hw with owners := congrArg (·.insert (c.site member) id) hw.owners }
  refine InStep.bind howners fun w₁ _ _ hgrows _ _ => ?_
  replace hinstance := hgrows.link _ _ hinstance
  replace hconstructor := hgrows.link _ _ hconstructor
  refine in_class (.object hinstance) (.table fun hp => ?_)
  extract_lets s s'
  have hs : ShapesAlike w₁.pairing s s' :=
    ⟨hinstance, hconstructor, getD_option (hp.shape? (.object hinstance)) (shapeAlike_bare _ _ _),
      getD_option (hp.shape? (.object hconstructor)) (shapeAlike_bare _ _ _)⟩
  replace hrec : ({ c with thisTypes := types.instanceType :: c.thisTypes } : Context).recording =
    ({ c' with thisTypes := types'.instanceType :: c'.thisTypes } : Context).recording := hrec
  generalize { c with thisTypes := types.instanceType :: c.thisTypes } = k at hrec ⊢
  generalize { c' with thisTypes := types'.instanceType :: c'.thisTypes } = k' at hrec ⊢
  refine InStep.bind (h.runs_addBaseClass _ hrec hs) fun w₂ x y hgrows₂ _ hbase => ?_
  obtain ⟨s₁, base⟩ := x
  obtain ⟨s₁', base'⟩ := y
  obtain ⟨hs₁, hbase⟩ : ShapesAlike w₂.pairing s₁ s₁' ∧ Option.Rel w₂.pairing.Alike base base' := hbase
  have hsorted : (inStep m m').Runs w₂ k k'
      (p.members.foldlM (addClassMember self) (s₁, ⟨.empty, [], []⟩))
      (p.members.foldlM (addClassMember self) (s₁', ⟨.empty, [], []⟩)) SortedAlike :=
    .foldlM_same (fun _ _ => carefree _) (fun _ _ _ e _ _ hs => h.runs_addClassMember e hrec hs)
      ⟨hs₁, rfl⟩
  refine InStep.bind hsorted fun w₃ x y hgrows₃ _ hacc => ?_
  obtain ⟨s₂, members⟩ := x
  obtain ⟨s₂', members'⟩ := y
  obtain ⟨hs₂, rfl⟩ : ShapesAlike w₃.pairing s₂ s₂' ∧ members = members' := hacc
  have hparameters : (inStep m m').Runs w₃ k k'
      (members.constructors.foldlM (addParameterProperties self) s₂)
      (members.constructors.foldlM (addParameterProperties self) s₂') ShapesAlike :=
    .foldlM_same (fun _ _ => carefree _)
      (fun _ _ _ e _ _ hs => h.runs_addParameterProperties e hrec hs) hs₂
  refine InStep.bind hparameters fun w₄ s₃ s₃' hgrows₄ _ hs₃ => ?_
  have hmethods : (inStep m m').Runs w₄ k k'
      (members.methods.entries.foldlM (addMethod self) s₃)
      (members.methods.entries.foldlM (addMethod self) s₃') ShapesAlike :=
    .foldlM_same (fun _ _ => carefree _) (fun _ _ _ e _ _ hs => h.runs_addMethod e hrec hs) hs₃
  refine InStep.bind hmethods fun w₅ s₄ s₄' hgrows₅ _ hs₄ => ?_
  refine InStep.bind (runs_publish hs₄) fun w₆ _ _ hgrows₆ _ _ => ?_
  have huntyped : (inStep m m').Runs w₆ k k' (members.untyped.foldlM (inferProperty self) s₄)
      (members.untyped.foldlM (inferProperty self) s₄') ShapesAlike :=
    .foldlM_same (fun _ _ => carefree _) (fun _ _ _ e _ _ hs => h.runs_inferProperty e hrec hs)
      (hs₄.mono hgrows₆)
  refine InStep.bind huntyped fun w₇ s₅ s₅' hgrows₇ _ hs₅ => ?_
  generalize members.methods.entries.filter (fun e => !isAnnotatedMethod c.arena e.2) = pending
  have hpending : (inStep m m').Runs w₇ k k' (pending.foldlM (inferMethod self) s₅)
      (pending.foldlM (inferMethod self) s₅') ShapesAlike :=
    .foldlM_same (fun _ _ => carefree _) (fun _ _ _ e _ _ hs => h.runs_inferMethod e hrec hs) hs₅
  refine InStep.bind hpending fun w₈ s₆ s₆' hgrows₈ _ hs₆ => ?_
  have hgrown := hgrows₃.trans (hgrows₄.trans (hgrows₅.trans (hgrows₆.trans (hgrows₇.trans hgrows₈))))
  have hlinked : w₈.pairing.link types.instanceType types'.instanceType :=
    hgrown.link _ _ (hgrows₂.link _ _ hinstance)
  refine InStep.bind (h.runs_constructSignatures _ hrec (.object hlinked)
    (rel_mono (fun _ _ hab => hab.mono hgrown) hbase)) fun w₉ _ _ hgrows₉ _ hss => ?_
  have hs₇ := hs₆.mono hgrows₉
  exact runs_publish { hs₇ with constructorShape := { hs₇.constructorShape with constructs := hss } }

theorem runs_classTypes (id : SymbolId) :
    (inStep m m').Runs w c c' (Checking.classTypes self id) (Checking.classTypes self id)
      ClassAlike := by
  refine .get fun hw => ?_
  match w.left.classTypes.get? id, w.right.classTypes.get? id, hw.classes id with
  | _, _, .some htypes => exact .pure htypes
  | _, _, .none =>
    refine .look (fun _ _ _ => rfl) ?_
    split
    · exact .linked fun hp => .pure ⟨hp.error, hp.error⟩
    rename_i symbol _
    refine InStep.bind (.alloc fun hp => hp.makes_object (shapeAlike_bare _ _ _))
      fun w₁ a b _ _ hab => ?_
    refine InStep.bind (.alloc fun hp => hp.makes_object (shapeAlike_bare _ _ _))
      fun w₂ k k' hgrows _ hk => ?_
    replace hab := hgrows.link _ _ hab
    refine InStep.bind (remember rfl rfl fun hw =>
      { hw with classes := hw.classes.insert id ⟨.object hab, .object hk⟩ })
      fun w₃ _ _ hgrows _ _ => ?_
    replace hab := hgrows.link _ _ hab
    replace hk := hgrows.link _ _ hk
    have hknown : ∀ {w : Sides}, w₃.pairing.Grows w.pairing →
        ClassAlike w.pairing ⟨a, k⟩ ⟨b, k'⟩ := fun hgrows =>
      ⟨.object (hgrows.link _ _ hab), .object (hgrows.link _ _ hk)⟩
    split
    · exact .pure (hknown (.refl _))
    extract_lets interfaces finish rest finish' rest'
    have hrest : ∀ {w : Sides}, w₃.pairing.Grows w.pairing → ∀ u u',
        (inStep m m').Runs w c c' (rest u) (rest' u') ClassAlike := by
      intro w hgrows u u'
      show (inStep m m').Runs w c c' (if _ then _ else _) (if _ then _ else _) _
      split
      · exact .pure (hknown hgrows)
      · refine .table fun hp => ?_
        have hlink := hgrows.link _ _ hab
        have hinterfaces : (inStep m m').Runs w c c'
            (interfaces.foldlM (addInterface self)
              ((w.pairing.left.shape? a).getD (.bare .instance_ none none)))
            (interfaces.foldlM (addInterface self)
              ((w.pairing.right.shape? b).getD (.bare .instance_ none none))) Pairing.ShapeAlike :=
          .foldlM_same (fun _ _ => carefree _) (fun _ _ _ d _ _ hs => h.runs_addInterface d hs)
            (getD_option (hp.shape? (.object hlink)) (shapeAlike_bare _ _ _))
        refine InStep.bind hinterfaces fun w' s s' hgrows' _ hs => ?_
        refine InStep.bind (runs_setShape (hgrows'.link _ _ hlink) hs) fun _ _ _ hgrows'' _ _ => ?_
        exact .pure (hknown (hgrows.trans (hgrows'.trans hgrows'')))
    split
    · exact InStep.bind (at_declaration fun _ _ hrec => h.runs_buildClass id _ hrec hab hk)
        fun _ u u' hgrows _ _ => hrest hgrows u u'
    · exact hrest (.refl _) () ()

/-! ## Symbols -/

theorem runs_declaredType (id : SymbolId) :
    (inStep m m').Runs w c c' (Checking.declaredType self id) (Checking.declaredType self id)
      fun p => Option.Rel p.Alike := by
  refine .look (fun _ _ _ => rfl) ?_
  split
  · exact .pure .none
  · split
    · split
      · exact .pure .none
      · split
        · exact .linked fun hp => .pure (.some hp.error)
        · exact resolving_type (h.declaredType _)
    · split
      · exact .map (h.classTypes id) fun _ _ _ _ _ htypes => .some htypes.instances
      · split
        · exact .map (h.runs_interfaceType id _) fun _ _ _ _ _ hab => .some hab
        · split
          · exact .map (h.runs_aliasType id _) fun _ _ _ _ _ hab => .some hab
          · exact .pure .none

theorem runs_variableType (node : NodeId) (hrec : c.recording = c'.recording) :
    (inStep m m').Runs w c c' (variableType self node) (variableType self node)
      Pairing.Alike := by
  refine .look (fun _ _ _ => rfl) ?_
  split
  · split
    · exact h.typeNode (opens hrec _)
    · refine InStep.bind (h.typed (opens hrec _) .none) fun w' a b _ _ hab => .table fun hp => .pure ?_
      unfold iteratedElement
      match w'.pairing.left.element? a, w'.pairing.right.element? b, hp.element? hab with
      | _, _, .some helement => exact helement
      | _, _, .none =>
        dsimp only
        rw [hp.beq_eq (hp.primitive hab) hp.string, hp.beq_predefined hab (by decide)]
        split
        · exact hp.string
        · split
          · exact hp.error
          · exact hp.any
    · exact .linked fun hp => .pure hp.any
    · refine InStep.bind (h.typed (opens hrec _) .none) fun w' a b _ _ hab => .linked fun hp => ?_
      split
      · exact .pure hab
      · rw [hp.beq_predefined hab (by decide), hp.beq_predefined hab (by decide)]
        split
        · exact .pure hp.any
        · exact .alloc fun hp => hp.makes_widen hab
  · exact .error

theorem runs_functionType (declarations : List Site) :
    (inStep m m').Runs w c c' (functionType self declarations) (functionType self declarations)
      Pairing.Alike := by
  refine .look (fun _ _ _ => rfl) (InStep.bind (.mapM_same
    (fun hp hs => hs.imp fun _ _ h => h.mono hp) (fun _ => carefree _) fun w' e _ _ =>
      at_declaration fun _ _ hrec => h.runs_signature (opens hrec _)) fun _ _ _ _ _ hss => ?_)
  exact .alloc fun hp => hp.makes_allocate ⟨rfl, rfl, rfl, .nil, hss, .nil, .nil⟩

theorem runs_importedType (id : SymbolId) :
    (inStep m m').Runs w c c' (importedType self id) (importedType self id) Pairing.Alike := by
  refine .look (fun _ _ _ => rfl) ?_
  split
  · split
    · exact h.valueType _
    · exact .error
  · exact .error

theorem runs_findValueType (id : SymbolId) :
    (inStep m m').Runs w c c' (findValueType self id) (findValueType self id) Pairing.Alike := by
  refine .look (fun _ _ _ => rfl) ?_
  split
  · exact .error
  · split
    · refine .linked fun hp => .pure (hp.predefined ?_)
      unfold builtinType
      split
      · decide
      · split <;> decide
    · split
      · exact h.runs_importedType id
      · split
        · exact .map (h.classTypes id) fun _ _ _ _ _ htypes => htypes.constructors
        · split
          · exact h.runs_functionType _
          · split
            · exact .error
            · dsimp only
              split
              · exact at_declaration fun _ _ hrec => h.runs_variableType _ hrec
              · split
                · exact at_declaration fun _ _ hrec => h.runs_parameterType (opens hrec _)
                · exact .error

theorem runs_valueType (id : SymbolId) :
    (inStep m m').Runs w c c' (Checking.valueType self id) (Checking.valueType self id)
      Pairing.Alike := by
  refine .get fun hw => ?_
  match w.left.valueTypes.get? id, w.right.valueTypes.get? id, hw.values id with
  | _, _, .some hab => exact .pure hab
  | _, _, .none =>
    refine .look (fun _ _ _ => rfl) ?_
    split
    · exact .linked fun hp => .pure hp.any
    · refine InStep.bind (resolving_value (h.runs_findValueType id)) fun _ _ _ _ _ hab => ?_
      exact InStep.bind (remember rfl rfl fun hw => { hw with values := hw.values.insert id hab })
        fun _ _ _ hgrows _ _ => .pure (hab.mono hgrows)

/-! ## Statements -/

theorem runs_statement? (node : Option NodeId) (hrec : c.recording = c'.recording) :
    (inStep m m').Runs w c c' (statement? self node) (statement? self node)
      fun p => List.Forall₂ p.Alike := by
  cases node with
  | none => exact .pure .nil
  | some node => exact h.statement node hrec

theorem runs_statements (nodes : List NodeId) (hrec : c.recording = c'.recording) :
    (inStep m m').Runs w c c' (statements self nodes) (statements self nodes)
      fun p => List.Forall₂ p.Alike :=
  .map (.mapM_same (fun hp hs => hs.imp fun _ _ hab => hab.mono hp) (fun _ => carefree _)
    fun _ node _ _ => h.statement node hrec) fun _ _ _ _ _ hs => List.rel_flatten hs

theorem runs_lookAt (node : Option NodeId) (hrec : c.recording = c'.recording) :
    (inStep m m').Runs w c c' (lookAt self node) (lookAt self node) fun _ _ _ => True := by
  cases node with
  | none => exact .pure trivial
  | some node => exact InStep.bind (h.typed (opens hrec node) .none) fun _ _ _ _ _ _ => .pure trivial

theorem runs_loopBody (body : Option NodeId) (hrec : c.recording = c'.recording) :
    (inStep m m').Runs w c c' (loopBody self body) (loopBody self body)
      fun p => List.Forall₂ p.Alike :=
  in_loop (h.runs_statement? body (by exact hrec))

theorem runs_loopStart (start : Option NodeId) (hrec : c.recording = c'.recording) :
    (inStep m m').Runs w c c' (loopStart self start) (loopStart self start)
      fun p => List.Forall₂ p.Alike := by
  cases start with
  | none => exact .pure .nil
  | some node =>
    refine .look (fun _ _ _ => rfl) ?_
    split
    · exact h.statement node hrec
    · exact InStep.bind (h.typed (opens hrec node) .none) fun _ _ _ _ _ _ => .pure .nil

theorem runs_checkReturn (node : NodeId) (value : Option NodeId) (hrec : c.recording = c'.recording) :
    (inStep m m').Runs w c c' (checkReturn self node value) (checkReturn self node value)
      fun p => List.Forall₂ p.Alike := by
  refine .placed fun hc => .read ?_
  have hreturns : Option.Rel (Option.Rel w.pairing.Alike) c.returns c'.returns :=
    head?_forall₂ hc.functions
  match c.returns, c'.returns, hreturns with
  | _, _, .none =>
    refine InStep.bind (.quiet (Runs.notes_reportStart _ _ _) (Runs.notes_reportStart _ _ _))
      fun _ _ _ _ _ _ => ?_
    exact InStep.bind (h.runs_lookAt value hrec) fun _ _ _ _ _ _ => .pure .nil
  | some declared, some declared', .some hdeclared =>
    cases value with
    | none => exact .pure .nil
    | some value =>
      refine InStep.bind (h.typed (opens hrec value) hdeclared) fun _ _ _ _ _ hab => ?_
      refine InStep.bind (.quiet (Runs.notes_forM_option fun _ => Runs.notes_checkAssignable _ _ _)
        (Runs.notes_forM_option fun _ => Runs.notes_checkAssignable _ _ _)) fun _ _ _ hgrows _ _ => ?_
      exact .pure (.cons (hab.mono hgrows) .nil)

omit h in
theorem runs_checkJump (node : NodeId) (length : Nat) (p : Problem) :
    (inStep m m').Runs w c c' (checkJump node length p) (checkJump node length p)
      fun _ _ _ => True := by
  have hnotes : ∀ c : Context, Runs.Notes c (checkJump node length p) := by
    intro c
    refine Runs.notes_read ?_
    split
    · exact Runs.notes_pure _
    · exact Runs.notes_reportStart _ _ _
  exact .quiet (hnotes c) (hnotes c')

omit h in
/-- The types of a node and of its name are of no account. -/
theorem notes_named (node name : NodeId) (type : TypeId) :
    Runs.Notes c (record node type >>= fun _ => record name type) :=
  Runs.notes_bind (Runs.notes_record _ _) fun _ => Runs.notes_record _ _

omit h in
theorem notes_maybeNamed (node : NodeId) (name : Option NodeId) (type : TypeId) :
    Runs.Notes c (record node type >>= fun _ => record? name type) :=
  Runs.notes_bind (Runs.notes_record _ _) fun _ => Runs.notes_forM_option fun _ => Runs.notes_record _ _

theorem runs_checkVariable (node : NodeId) (hrec : c.recording = c'.recording) :
    (inStep m m').Runs w c c' (checkVariable self node) (checkVariable self node)
      fun _ _ _ => True := by
  refine .look (fun _ _ _ => rfl) ?_
  split
  · extract_lets rest
    have hrest : ∀ (w : Sides) type type', (inStep m m').Runs w c c' (rest type) (rest type')
        fun _ _ _ => True := by
      intro w type type'
      refine InStep.bind (h.runs_ascription hrec) fun _ _ _ _ _ hannotated => ?_
      refine InStep.bind (h.runs_initializer hrec _ hannotated) fun _ _ _ _ _ _ => ?_
      exact .quiet (notes_named _ _ _) (notes_named _ _ _)
    split
    · exact InStep.bind (h.valueType _) fun _ _ _ _ _ _ => hrest _ _ _
    · exact InStep.bind (.in_silence (h.runs_variableType _ (by rfl))) fun _ _ _ _ _ _ => hrest _ _ _
  · exact .pure trivial

theorem runs_checkFunctionDeclaration (node : NodeId) (p : FunctionParts)
    (hrec : c.recording = c'.recording) :
    (inStep m m').Runs w c c' (checkFunctionDeclaration self node p)
      (checkFunctionDeclaration self node p) fun _ _ _ => True := by
  refine .look (fun _ _ _ => rfl) ?_
  extract_lets ambient symbol rest
  have hsymbol : (inStep m m').Runs w c c'
      (symbol.forM fun symbol => do
        let type ← self.valueType symbol
        record node type
        record? p.name type)
      (symbol.forM fun symbol => do
        let type ← self.valueType symbol
        record node type
        record? p.name type) fun _ _ _ => True := by
    cases symbol with
    | none => exact .pure trivial
    | some symbol =>
      exact InStep.bind (h.valueType symbol) fun _ _ _ _ _ _ =>
        .quiet (notes_maybeNamed _ _ _) (notes_maybeNamed _ _ _)
  have hrest : ∀ (w : Sides) u, (inStep m m').Runs w c c' (rest u) (rest u) fun _ _ _ => True :=
    fun _ _ => h.runs_checkFunction hrec
  refine InStep.bind hsymbol fun w' _ _ _ _ _ => ?_
  split
  · split
    · exact InStep.bind (.quiet (Runs.notes_reportStart _ _ _) (Runs.notes_reportStart _ _ _))
        fun _ _ _ _ _ _ => hrest _ ()
    · exact hrest _ ()
  · split
    · exact InStep.bind (.quiet (Runs.notes_forM_option fun _ => Runs.notes_reportWith _ _ _)
        (Runs.notes_forM_option fun _ => Runs.notes_reportWith _ _ _)) fun _ _ _ _ _ _ => hrest _ ()
    · exact hrest _ ()

/-! ### Classes -/

omit h in
theorem runs_ownPropertyType (a b : TypeId) (name : String) :
    (inStep m m').Runs w c c' (ownPropertyType a name) (ownPropertyType b name)
      fun _ _ _ => True :=
  fun hw _ _ => ⟨rfl, fun _ => ⟨rfl, w.link, .refl _, hw, trivial⟩⟩

theorem runs_checkProperty (types types' : ClassTypes) (member : NodeId) (p : PropertyParts)
    (hrec : c.recording = c'.recording) :
    (inStep m m').Runs w c c' (checkProperty self types member p) (checkProperty self types' member p)
      fun _ _ _ => True := by
  refine .look (fun _ _ _ => rfl) (InStep.bind (runs_ownPropertyType _ _ _) fun _ _ _ _ _ _ => ?_)
  refine InStep.bind (h.runs_ascription hrec) fun _ _ _ _ _ hannotated => ?_
  refine InStep.bind (h.runs_initializer hrec _ hannotated) fun _ _ _ _ _ _ => ?_
  exact .quiet (notes_named _ _ _) (notes_named _ _ _)

omit h in
theorem runs_checkMethodName (types types' : ClassTypes) (members : List NodeId) (ambient : Bool)
    (p : FunctionParts) :
    (inStep m m').Runs w c c' (checkMethodName types members ambient p)
      (checkMethodName types' members ambient p) fun _ _ _ => True := by
  refine .look (fun _ _ _ => rfl) ?_
  dsimp only
  split
  · exact InStep.bind (.quiet (Runs.notes_forM_option fun _ => Runs.notes_reportWith _ _ _)
      (Runs.notes_forM_option fun _ => Runs.notes_reportWith _ _ _))
      fun _ _ _ _ _ _ => runs_ownPropertyType _ _ _
  · exact runs_ownPropertyType _ _ _

theorem runs_checkMember (types types' : ClassTypes) (k : ClassParts) (ambient : Bool)
    (member : NodeId) (hrec : c.recording = c'.recording) :
    (inStep m m').Runs w c c' (checkMember self types k ambient member)
      (checkMember self types' k ambient member) fun _ _ _ => True := by
  refine .look (fun _ _ _ => rfl) ?_
  split
  · exact h.runs_checkProperty _ _ _ _ hrec
  · split
    · rename_i kind p _ _
      have hrecord : ∀ (w : Sides) type type', (inStep m m').Runs w c c'
          (do record member type; record? p.name type; checkFunction self member)
          (do record member type'; record? p.name type'; checkFunction self member)
          fun _ _ _ => True := fun w type type' =>
        InStep.bind (.record _ _ _) fun _ _ _ _ _ _ =>
          InStep.bind (.quiet (Runs.notes_forM_option fun _ => Runs.notes_record _ _)
            (Runs.notes_forM_option fun _ => Runs.notes_record _ _)) fun _ _ _ _ _ _ =>
              h.runs_checkFunction hrec
      dsimp only
      split
      · refine InStep.bind (.quiet (Runs.notes_forM_option fun _ => Runs.notes_reportStart _ _ _)
          (Runs.notes_forM_option fun _ => Runs.notes_reportStart _ _ _)) fun _ _ _ _ _ _ => ?_
        split
        · exact hrecord _ _ _
        · exact InStep.bind (runs_checkMethodName _ _ _ _ _) fun _ _ _ _ _ _ => hrecord _ _ _
      · split
        · exact hrecord _ _ _
        · exact InStep.bind (runs_checkMethodName _ _ _ _ _) fun _ _ _ _ _ _ => hrecord _ _ _
    · exact .pure trivial
  · exact .pure trivial

theorem runs_typed? (node : Option NodeId) (hrec : c.recording = c'.recording) :
    (inStep m m').Runs w c c'
      (node.forM fun node => do let _ ← self.typeNode node)
      (node.forM fun node => do let _ ← self.typeNode node) fun _ _ _ => True := by
  cases node with
  | none => exact .pure trivial
  | some node => exact InStep.bind (h.typeNode (opens hrec node)) fun _ _ _ _ _ _ => .pure trivial

theorem runs_checkClass (node : NodeId) (p : ClassParts) (hrec : c.recording = c'.recording) :
    (inStep m m').Runs w c c' (checkClass self node p) (checkClass self node p)
      fun _ _ _ => True := by
  refine .look (fun _ _ _ => rfl) ?_
  split
  · exact .pure trivial
  · refine InStep.bind (h.classTypes _) fun w₁ types types' _ _ htypes => ?_
    refine InStep.bind (.record _ _ _) fun w₂ _ _ hgrows₂ _ _ => ?_
    refine InStep.bind (.record _ _ _) fun w₃ _ _ hgrows₃ _ _ => ?_
    refine InStep.bind (h.runs_typed? _ hrec) fun w₄ _ _ hgrows₄ _ _ => ?_
    exact in_class (htypes.instances.mono (hgrows₂.trans (hgrows₃.trans hgrows₄)))
      (.forM_same (fun _ => carefree _) fun _ member _ _ =>
        h.runs_checkMember types types' p _ member (by exact hrec))

/-! ### Interfaces, aliases and imports -/

theorem runs_declaredTypeOf (node : NodeId) :
    (inStep m m').Runs w c c' (declaredTypeOf self node) (declaredTypeOf self node)
      fun p => Option.Rel p.Alike := by
  refine .look (fun _ _ _ => rfl) ?_
  split
  · exact .pure .none
  · exact h.declaredType _

theorem runs_signatureParameter (node : NodeId) (hrec : c.recording = c'.recording) :
    (inStep m m').Runs w c c' (signatureParameter self node) (signatureParameter self node)
      fun _ _ _ => True :=
  h.tied.runs_signatureParameter (opens hrec node)

theorem runs_checkSignatureMember (declared declared' : TypeId) (member : NodeId)
    (hrec : c.recording = c'.recording) :
    (inStep m m').Runs w c c' (checkSignatureMember self declared member)
      (checkSignatureMember self declared' member) fun _ _ _ => True := by
  have hproperty : ∀ p : PropertyParts, (inStep m m').Runs w c c'
      (do
        let type := (← ascription self p.ascription).getD .any
        record member type
        record p.name type)
      (do
        let type := (← ascription self p.ascription).getD .any
        record member type
        record p.name type) fun _ _ _ => True := fun p =>
    InStep.bind (h.runs_ascription hrec) fun _ _ _ _ _ _ =>
      .quiet (notes_named _ _ _) (notes_named _ _ _)
  refine .look (fun _ _ _ => rfl) ?_
  dsimp only
  split
  · exact hproperty _
  · exact hproperty _
  · refine InStep.bind (.forM_same (fun _ => carefree _) fun _ node _ _ =>
      h.runs_signatureParameter node hrec) fun _ _ _ _ _ _ => ?_
    refine InStep.bind (h.runs_ascription hrec) fun _ _ _ _ _ _ => ?_
    refine InStep.bind (runs_ownPropertyType _ _ _) fun _ _ _ _ _ _ => ?_
    exact .quiet (notes_maybeNamed _ _ _) (notes_maybeNamed _ _ _)
  · exact .pure trivial

theorem runs_checkInterface (node : NodeId) (p : InterfaceParts) (hrec : c.recording = c'.recording) :
    (inStep m m').Runs w c c' (checkInterface self node p) (checkInterface self node p)
      fun _ _ _ => True := by
  refine InStep.bind (h.runs_declaredTypeOf node) fun _ _ _ _ _ _ => ?_
  refine InStep.bind (.record _ _ _) fun _ _ _ _ _ _ => ?_
  refine InStep.bind (.record _ _ _) fun _ _ _ _ _ _ => ?_
  refine InStep.bind (.forM_same (fun _ => carefree _) fun _ node _ _ =>
    InStep.bind (h.typeNode (opens hrec node)) fun _ _ _ _ _ _ => .pure trivial)
    fun _ _ _ _ _ _ => ?_
  exact .forM_same (fun _ => carefree _) fun _ member _ _ =>
    h.runs_checkSignatureMember _ _ member hrec

theorem runs_checkAlias (node : NodeId) (p : AliasParts) (hrec : c.recording = c'.recording) :
    (inStep m m').Runs w c c' (checkAlias self node p) (checkAlias self node p)
      fun _ _ _ => True := by
  refine InStep.bind (h.runs_declaredTypeOf node) fun _ _ _ _ _ _ => ?_
  refine InStep.bind (h.typeNode (opens hrec _)) fun _ _ _ _ _ _ => ?_
  exact .quiet (Runs.notes_forM_option fun _ => notes_named _ _ _)
    (Runs.notes_forM_option fun _ => notes_named _ _ _)

theorem runs_checkSpecifier (specifier : String) (node : NodeId) :
    (inStep m m').Runs w c c' (checkSpecifier self specifier node)
      (checkSpecifier self specifier node) fun _ _ _ => True := by
  refine .look (fun _ _ _ => rfl) ?_
  split
  · split
    · exact .report _ _ _
    · extract_lets rest
      have hrest : ∀ (w : Sides) type type', (inStep m m').Runs w c c' (rest type) (rest type')
          fun _ _ _ => True := fun w type type' =>
        InStep.bind (.record _ _ _) fun _ _ _ _ _ _ =>
          .quiet (notes_maybeNamed _ _ _) (notes_maybeNamed _ _ _)
      split
      · exact InStep.bind (h.valueType _) fun _ _ _ _ _ _ => hrest _ _ _
      · exact InStep.bind (h.declaredType _) fun _ _ _ _ _ _ => hrest _ _ _
  · exact .pure trivial

theorem runs_checkImport (specifiers : List NodeId) (source : Option NodeId) :
    (inStep m m').Runs w c c' (checkImport self specifiers source)
      (checkImport self specifiers source) fun _ _ _ => True := by
  refine .look (fun _ _ _ => rfl) ?_
  dsimp only
  split
  · exact .quiet (Runs.notes_forM_option fun _ => Runs.notes_reportWith _ _ _)
      (Runs.notes_forM_option fun _ => Runs.notes_reportWith _ _ _)
  · exact .forM_same (fun _ => carefree _) fun _ node _ _ => h.runs_checkSpecifier _ node

/-! ### All statements -/

theorem runs_checkStatement (node : NodeId) (form : Form) (hrec : c.recording = c'.recording) :
    (inStep m m').Runs w c c' (checkStatement self node form) (checkStatement self node form)
      fun p => List.Forall₂ p.Alike := by
  have hnothing : ∀ {x : Check Unit}, (inStep m m').Runs w c c' x x (fun _ _ _ => True) →
      (inStep m m').Runs w c c' (returningNothing x) (returningNothing x)
        fun p => List.Forall₂ p.Alike := fun hx =>
    InStep.bind hx fun _ _ _ _ _ _ => .pure .nil
  unfold checkStatement
  split
  · exact hnothing (h.runs_checkFunctionDeclaration node _ hrec)
  · exact hnothing (h.runs_checkClass node _ hrec)
  · exact hnothing (h.runs_checkInterface node _ hrec)
  · exact hnothing (h.runs_checkAlias node _ hrec)
  · exact hnothing (.forM_same (fun _ => carefree _) fun _ e _ _ => h.runs_checkVariable e hrec)
  · exact hnothing (h.runs_checkImport _ _)
  · exact .look (fun _ _ _ => rfl) (in_scope (h.runs_statements _ (by exact hrec)))
  · exact hnothing (h.runs_lookAt _ hrec)
  · exact h.runs_checkReturn node _ hrec
  · refine InStep.bind (h.runs_lookAt _ hrec) fun _ _ _ _ _ _ => ?_
    refine InStep.bind (h.runs_statement? _ hrec) fun _ _ _ _ _ ha => ?_
    exact InStep.bind (h.runs_statement? _ hrec) fun _ _ _ hgrows _ hb =>
      .pure (List.rel_append (ha.imp fun _ _ hab => hab.mono hgrows) hb)
  · exact InStep.bind (h.runs_lookAt _ hrec) fun _ _ _ _ _ _ => h.runs_loopBody _ hrec
  · refine .look (fun _ _ _ => rfl) (in_scope ?_)
    refine InStep.bind (h.runs_loopStart _ (by exact hrec)) fun _ _ _ _ _ ha => ?_
    refine InStep.bind (h.runs_lookAt _ (by exact hrec)) fun _ _ _ hgrows _ _ => ?_
    refine InStep.bind (h.runs_lookAt _ (by exact hrec)) fun _ _ _ hgrows' _ _ => ?_
    exact InStep.bind (h.runs_loopBody _ (by exact hrec)) fun _ _ _ hgrows'' _ hb =>
      .pure (List.rel_append (ha.imp fun _ _ hab =>
        hab.mono (hgrows.trans (hgrows'.trans hgrows''))) hb)
  · refine .look (fun _ _ _ => rfl) (in_scope ?_)
    refine InStep.bind (h.runs_lookAt _ (by exact hrec)) fun _ _ _ _ _ _ => ?_
    refine InStep.bind (h.runs_loopStart _ (by exact hrec)) fun _ _ _ _ _ ha => ?_
    exact InStep.bind (h.runs_loopBody _ (by exact hrec)) fun _ _ _ hgrows _ hb =>
      .pure (List.rel_append (ha.imp fun _ _ hab => hab.mono hgrows) hb)
  · exact hnothing (runs_checkJump _ _ _)
  · exact hnothing (runs_checkJump _ _ _)
  · exact .pure .nil

theorem runs_statement (node : NodeId) (hrec : c.recording = c'.recording) :
    (inStep m m').Runs w c c' (Checking.statement self node) (Checking.statement self node)
      fun p => List.Forall₂ p.Alike := by
  refine .look (fun _ _ _ => rfl) ?_
  split
  · exact .pure .nil
  · exact h.runs_checkStatement node _ hrec

/-- The rules with one more nested use keep two runs in step. -/
theorem next : Stepped
    { typeNode := Checking.typeNode self
      expression := Checking.expression self
      statement := Checking.statement self
      valueType := Checking.valueType self
      declaredType := Checking.declaredType self
      classTypes := Checking.classTypes self } where
  typeNode := h.tied.runs_typeNode
  expression := h.tied.runs_expression
  superSignatures ho hsuper := Tied.runs_superSignatures self rfl ho hsuper
  statement := h.runs_statement
  valueType := h.runs_valueType
  declaredType := h.runs_declaredType
  classTypes := h.runs_classTypes

end Stepped

open InStep in
theorem stepped_noRules : Stepped noRules where
  typeNode _ := InStep.bind (.quiet Runs.notes_exhaust Runs.notes_exhaust) fun _ _ _ _ _ _ => .error
  expression _ _ _ := InStep.bind (.quiet Runs.notes_exhaust Runs.notes_exhaust)
    fun _ _ _ _ _ _ => .linked fun hp => .pure (hp.sim hp.error)
  superSignatures _ _ := InStep.bind
    (InStep.bind (.quiet Runs.notes_exhaust Runs.notes_exhaust) fun _ _ _ _ _ _ => .error)
    fun _ _ _ _ _ hab => .get fun hw => .pure (constructsOfInstance_inStep hw hab)
  statement _ _ := InStep.bind (.quiet Runs.notes_exhaust Runs.notes_exhaust)
    fun _ _ _ _ _ _ => .pure .nil
  valueType _ := InStep.bind (.quiet Runs.notes_exhaust Runs.notes_exhaust) fun _ _ _ _ _ _ => .error
  declaredType _ := InStep.bind (.quiet Runs.notes_exhaust Runs.notes_exhaust)
    fun _ _ _ _ _ _ => .pure .none
  classTypes _ := InStep.bind (.quiet Runs.notes_exhaust Runs.notes_exhaust)
    fun _ _ _ _ _ _ => .linked fun hp => .pure ⟨hp.error, hp.error⟩

/-- All rules keep two runs in step. -/
theorem stepped_rules (n : Nat) : Stepped (rules n) := by
  induction n with
  | zero => exact stepped_noRules
  | succ n ih => exact ih.next

end ScriptAnalysis.Checking
