import ScriptAnalysis.Checker
import ScriptAnalysis.Proofs.Checking.Closing

/-!
# All rules keep the state closed

The rules need each other, so that what they give is there is proved for all of
them together: `Yielding` says it of the nested uses, and from that it follows
for each rule with one more nested use (`Yielding.next_expression` and the like,
and before them the steps that they are made of). The bound on nested uses needs
no care, since rules that are used up give only predefined types.

The type that an expression is expected to have is only looked at. It need not
be there, and nothing is asked of it. The declared type of a function is another
matter: `return` hands it on, so that the place where the body is checked refers
to it.

**Results.**
* `below_upsertProperty`, `below_upsert`: what goes into structures.
* `Yielding.next`: one more nested use.
* `yielding_rules`: the rules with any number of nested uses.
-/
namespace ScriptAnalysis.Checking

/-- The rules keep closed states closed and give types that are there. -/
structure Yielding (r : Rules) : Prop where
  typeNode : ∀ n c node, Yields n c single (r.typeNode node)
  expression : ∀ n c node expected, Yields n c single (r.expression node expected)
  statement : ∀ n c node, Yields n c id (r.statement node)
  valueType : ∀ n c id, Yields n c single (r.valueType id)
  declaredType : ∀ n c id, Yields n c Option.toList (r.declaredType id)
  classTypes : ∀ n c id, Yields n c ClassTypes.mentions (r.classTypes id)

/-- Used up rules give predefined types. -/
theorem yielding_noRules : Yielding noRules where
  typeNode _ _ _ := Yields.exhaust.andThen fun _ => .predefined (by decide)
  expression _ _ _ _ := Yields.exhaust.andThen fun _ => .predefined (by decide)
  statement _ _ _ := Yields.exhaust.andThen fun _ => .pure below_nil
  valueType _ _ _ := Yields.exhaust.andThen fun _ => .predefined (by decide)
  declaredType _ _ _ := Yields.exhaust.andThen fun _ => .pure below_nil
  classTypes _ _ _ := Yields.exhaust.andThen fun _ => .pure <|
    below_cons.2 ⟨there_error, below_single.2 there_error⟩

/-! ## What is put together -/

section

variable {n : Nat}

theorem below_toList {type : TypeId} : Below n (some type).toList ↔ There n type := by
  simp

/-- A type in place of a missing one. -/
theorem There.getD {o : Option TypeId} {other : TypeId} (ho : Below n o.toList)
    (h : There n other) : There n (o.getD other) := by
  cases o with
  | none => exact h
  | some type => exact below_toList.1 ho

theorem there_keywordType (word : TokenKind) : There n (keywordType word) := by
  unfold keywordType
  split <;> exact there_predefined (by decide)

/-- A structure with one more property. -/
theorem below_addProperty {shape : Shape} {p : Property} (h : Below n shape.mentions)
    (hp : There n p.type) :
    Below n { shape with properties := shape.properties ++ [p] : Shape }.mentions := by
  obtain ⟨hproperties, hrest⟩ := below_shape.1 h
  refine below_shape.2 ⟨fun q hq => ?_, hrest⟩
  rcases List.mem_append.1 hq with hq | hq
  · exact hproperties q hq
  · exact List.mem_singleton.1 hq ▸ hp

/-- A structure with one more base. -/
theorem below_addBase {shape : Shape} {base : TypeId} (h : Below n shape.mentions)
    (hbase : There n base) :
    Below n { shape with bases := shape.bases ++ [base] : Shape }.mentions := by
  obtain ⟨hproperties, hcalls, hconstructs, hbases⟩ := below_shape.1 h
  exact below_shape.2 ⟨hproperties, hcalls, hconstructs,
    below_append.2 ⟨hbases, below_single.2 hbase⟩⟩

theorem below_upsertProperty {shape : Shape} {p : Property} (h : Below n shape.mentions)
    (hp : There n p.type) : Below n (upsertProperty shape p).mentions := by
  unfold upsertProperty
  split
  · exact h
  · split
    · obtain ⟨hproperties, hrest⟩ := below_shape.1 h
      refine below_shape.2 ⟨fun q hq => ?_, hrest⟩
      obtain ⟨old, hold, rfl⟩ := List.mem_map.1 hq
      split
      · exact hp
      · exact hproperties old hold
    · exact below_addProperty h hp

/-- The types that a class in the making refers to. -/
def ClassShapes.mentions (s : ClassShapes) : List TypeId :=
  s.types.mentions ++ s.instanceShape.mentions ++ s.constructorShape.mentions

theorem below_classShapes {s : ClassShapes} : Below n s.mentions ↔
    Below n s.types.mentions ∧ Below n s.instanceShape.mentions ∧
      Below n s.constructorShape.mentions := by
  simp only [ClassShapes.mentions, below_append, and_assoc]

theorem below_upsert {s : ClassShapes} {p : Property} (h : Below n s.mentions)
    (hp : There n p.type) (isStatic : Bool) : Below n (s.upsert isStatic p).mentions := by
  obtain ⟨htypes, hinstance, hconstructor⟩ := below_classShapes.1 h
  unfold ClassShapes.upsert
  split
  · exact below_classShapes.2 ⟨htypes, hinstance, below_upsertProperty hconstructor hp⟩
  · exact below_classShapes.2 ⟨htypes, below_upsertProperty hinstance hp, hconstructor⟩

end

/-- Makes shapes known that refer to types that are there. -/
theorem Yields.publish {n : Nat} {c : Context} {s : ClassShapes} (h : Below n s.mentions) :
    Yields n c nothing s.publish := by
  obtain ⟨-, hinstance, hconstructor⟩ := below_classShapes.1 h
  exact (Yields.alloc (TypeTable.fair_setShape hinstance)).andThen fun _ =>
    .alloc (TypeTable.fair_setShape hconstructor)

theorem Yields.allocate {n : Nat} {c : Context} {shape : Shape} (h : Below n shape.mentions) :
    Yields n c single (Checking.alloc (TypeTable.allocate shape)) :=
  .alloc (TypeTable.fair_allocate h)

namespace Yielding

variable {self : Rules} {n : Nat} {c : Context} (h : Yielding self)

include h

/-! ## Functions -/

theorem ascription (type : Option NodeId) : Yields n c Option.toList (ascription self type) := by
  cases type with
  | none => exact .pure below_nil
  | some node => exact (h.typeNode n c node).bind fun _ _ _ htype => .pure htype

theorem functionBody (node : NodeId) {declared : Option TypeId} (hd : Below n declared.toList) :
    Yields n c id (functionBody self node declared) := by
  refine Yields.read ?_
  split
  · exact .pure below_nil
  · refine .in_scope (.in_function hd ?_)
    split
    · exact .pure below_nil
    · refine (Yields.mapM fun _ _ => h.statement _ _ _).bind fun _ _ _ htypes => .pure ?_
      rwa [List.flatMap_id] at htypes
    · refine (h.expression _ _ _ _).bind fun type m _ htype => ?_
      exact (Yields.forM_option fun _ _ => .checkAssignable _ _ _).andThen fun _ => .pure htype

theorem parameterType (node : NodeId) : Yields n c single (parameterType self node) := by
  refine Yields.read ?_
  split
  · exact .predefined (by decide)
  · split
    · exact h.typeNode _ _ _
    · exact (h.expression _ _ _ _).bind fun _ _ _ htype => .widen (below_single.1 htype)
    · refine Yields.get fun s hs _ => .pure (below_single.2 ?_)
      cases hgiven : s.contextual.get? (c.site node) with
      | none => exact there_predefined (by decide)
      | some type => exact below_single.1 (hs.found.contextual _ type hgiven)

theorem parameterInfo (node : NodeId) :
    Yields n c (fun p => single p.type) (parameterInfo self node) := by
  refine Yields.read ?_
  split
  · exact .pure (below_single.2 there_error)
  · split
    · exact (h.valueType _ _ _).bind fun _ _ _ htype => .pure htype
    · exact (h.parameterType _).bind fun _ _ _ htype => .pure htype

theorem returnType (node : NodeId) (kind : FunctionKind) (p : FunctionParts) :
    Yields n c single (returnType self node kind p) := by
  unfold Checking.returnType
  split
  · exact Yields.read (.in_scope (h.typeNode _ _ _))
  · split
    · exact .predefined (by decide)
    · split
      · exact (Yields.in_silence (h.functionBody node below_nil)).bind fun _ _ _ hreturned =>
          .inferredReturn hreturned
      · exact .predefined (by decide)

theorem signature (node : NodeId) : Yields n c Signature.mentions (signature self node) := by
  refine Yields.read (Yields.get fun s hs _ => ?_)
  split
  · rename_i known hknown
    exact .pure (hs.found.signatures _ known hknown)
  · split
    · refine (Yields.in_scope (.mapM fun _ _ => h.parameterInfo _)).bind fun parameters m _ hp => ?_
      have hparameters : ∀ p ∈ parameters, There m p.type := fun p hmem =>
        below_single.1 (below_flatMap.1 hp p hmem)
      split
      · exact .pure (below_signature.2 ⟨there_any, hparameters⟩)
      · refine (Yields.resolving_signature (h.returnType _ _ _)).bind fun type k hk htype => ?_
        have hresult : Below k (Signature.mentions ⟨parameters, type⟩) :=
          below_signature.2 ⟨below_single.1 htype, fun p hmem => (hparameters p hmem).mono hk⟩
        exact Yields.andThen (.remember (fun _ => rfl) fun _ _ hm hs => { hs with
          signatures := hs.signatures.insert (hresult.mono hm) _ }) fun _ => .pure hresult
    · exact .pure (below_single.2 there_error)

theorem functionsType (nodes : List NodeId) : Yields n c single (functionsType self nodes) := by
  refine (Yields.mapM fun _ _ => h.signature _).bind fun signatures m _ hs => .allocate ?_
  exact below_withCalls (below_flatMap.1 hs)

theorem initializer (value : Option NodeId) (annotated : Option TypeId) (name : NodeId) :
    Yields n c nothing (checkInitializer self value annotated name) :=
  .forM_option fun _ _ => (h.expression _ _ _ _).andThen fun _ =>
    .forM_option fun _ _ => .checkAssignable _ _ _

theorem checkParameter (arrow : Bool) (node : NodeId) :
    Yields n c nothing (checkParameter self arrow node) := by
  refine Yields.read ?_
  split
  · exact .pure below_nil
  · extract_lets rest
    have hrest : ∀ type, Yields n c nothing (rest type) := by
      intro type
      refine (h.ascription _).andThen fun annotated => ?_
      refine (h.initializer _ _ _).andThen fun _ => Yields.get fun s _ hn => ?_
      refine Yields.later ?_ hn
      dsimp only
      split
      · exact (Yields.report _ _).andThen fun _ => (Yields.record _ _).andThen fun _ => .record _ _
      · exact (Yields.record _ _).andThen fun _ => .record _ _
    split
    · exact (h.valueType _ _ _).andThen hrest
    · exact (Yields.in_silence (h.parameterType _)).andThen hrest

theorem checkFunction (node : NodeId) : Yields n c nothing (checkFunction self node) := by
  refine Yields.read ?_
  split
  · exact .pure below_nil
  · refine .in_scope ?_
    refine (Yields.forM fun _ _ => h.checkParameter _ _).andThen fun _ => ?_
    refine (h.ascription _).bind fun declared m _ hdeclared => ?_
    split
    · exact .pure below_nil
    · refine (h.functionBody _ hdeclared).andThen fun returned => ?_
      split
      · refine Yields.table fun t _ _ => ?_
        split
        · exact .report _ _
        · exact .pure below_nil
      · exact .pure below_nil

/-! ## Types that are spelled out -/

theorem typeReference (node : NodeId) : Yields n c single (typeReference self node) := by
  refine Yields.read ?_
  split
  · exact .predefined (by decide)
  · split
    · exact .predefined (by decide)
    · extract_lets rest
      have hrest : ∀ type m, n ≤ m → Below m (single type) → Yields m c single (rest type) :=
        fun type m _ htype => (Yields.record _ _).andThen fun _ => .pure htype
      have herror : ∀ m, Yields m c single (Pure.pure TypeId.error : Check TypeId) := fun _ =>
        .predefined (by decide)
      split
      · refine (h.declaredType _ _ _).bind fun found m hm hfound => ?_
        have hlater := fun type k (hk : m ≤ k) => hrest type k (Nat.le_trans hm hk)
        split
        · exact Yields.bind (.pure (below_single.2 (below_toList.1 hfound))) hlater
        · exact (Yields.report _ _).andThen fun _ => (herror m).bind hlater
      · split
        · exact (Yields.report _ _).andThen fun _ => (herror n).bind hrest
        · exact (Yields.report _ _).andThen fun _ => (herror n).bind hrest

theorem signatureParameter (node : NodeId) :
    Yields n c nothing (signatureParameter self node) := by
  refine Yields.read ?_
  split
  · exact .pure below_nil
  · exact (h.ascription _).andThen fun _ => (Yields.record _ _).andThen fun _ => .record _ _

theorem typeOfForm (node : NodeId) (form : Form) :
    Yields n c single (typeOfForm self node form) := by
  unfold Checking.typeOfForm
  split
  · exact .pure (below_single.2 (there_keywordType _))
  · exact Yields.read ((Yields.literalType _ _).bind fun _ _ _ htype =>
      (Yields.record _ _).andThen fun _ => .pure htype)
  · exact (h.typeNode _ _ _).bind fun _ _ _ htype =>
      .alloc (TypeTable.fair_array (below_single.1 htype))
  · exact h.typeNode _ _ _
  · exact (Yields.mapM fun _ _ => h.typeNode _ _ _).bind fun _ _ _ htypes =>
      .union (below_flatMap_single.1 htypes)
  · refine (Yields.forM fun _ _ => h.signatureParameter _).andThen fun _ => ?_
    exact (h.signature _).bind fun _ _ _ hs => .alloc (TypeTable.fair_function hs)
  · exact h.typeReference _
  · exact .predefined (by decide)

theorem next_typeNode (node : NodeId) : Yields n c single (Checking.typeNode self node) := by
  refine Yields.read ?_
  split
  · exact .predefined (by decide)
  · exact (h.typeOfForm _ _).bind fun _ _ _ htype =>
      (Yields.record _ _).andThen fun _ => .pure htype

theorem aliasType (id : SymbolId) (symbol : Symbol) :
    Yields n c single (aliasType self id symbol) := by
  refine Yields.get fun s hs hn => ?_
  split
  · rename_i known hknown
    exact .pure (hs.found.aliases _ known hknown)
  · refine Yields.read ?_
    split
    · exact .predefined (by decide)
    · extract_lets rest
      have hrest : ∀ type m, s.types.size ≤ m → Below m (single type) →
          Yields m c single (rest type) := by
        intro type m _ htype
        exact Yields.andThen (.remember (fun _ => rfl) fun _ _ hm hs => { hs with
          aliases := hs.aliases.insert (htype.mono hm) _ }) fun _ => .pure htype
      split
      · exact (Yields.predefined (by decide)).bind hrest
      · split
        · refine Yields.bind (Yields.resolving_type ?_) hrest
          exact .at_declaration fun _ _ _ => h.typeNode _ _ _
        · exact (Yields.predefined (by decide)).bind hrest

/-! ## Interfaces -/

theorem addBase {shape : Shape} (hshape : Below n shape.mentions) (heritage : NodeId) :
    Yields n c Shape.mentions (addBase self shape heritage) := by
  refine (h.typeNode _ _ _).bind fun base m hm hbase => Yields.table fun t _ ht => ?_
  have hlater := hshape.mono (Nat.le_trans hm ht)
  split
  · exact .pure (below_addBase hlater ((below_single.1 hbase).mono ht))
  · exact .pure hlater

theorem addSignatureProperty {shape : Shape} (hshape : Below n shape.mentions)
    (p : PropertyParts) : Yields n c Shape.mentions (addSignatureProperty self shape p) := by
  refine Yields.read ?_
  dsimp only
  split
  · exact .pure hshape
  · refine (h.ascription _).bind fun type m hm htype => .pure ?_
    exact below_addProperty (hshape.mono hm) (There.getD htype there_any)

theorem addInterfaceMember {acc : Shape × Table String (List NodeId)}
    (hacc : Below n acc.1.mentions) (member : NodeId) :
    Yields n c (fun acc => acc.1.mentions) (addInterfaceMember self acc member) := by
  refine Yields.read ?_
  dsimp only
  split
  · exact (h.addSignatureProperty hacc _).bind fun _ _ _ hshape => .pure hshape
  · exact .pure hacc
  · exact .pure hacc

theorem addInterfaceMethod {shape : Shape} (hshape : Below n shape.mentions)
    (entry : String × List NodeId) :
    Yields n c Shape.mentions (addInterfaceMethod self shape entry) := by
  unfold Checking.addInterfaceMethod
  dsimp only
  split
  · exact .pure hshape
  · refine Yields.read ((h.functionsType _).bind fun type m hm htype => .pure ?_)
    exact below_addProperty (hshape.mono hm) (below_single.1 htype)

theorem addInterface {shape : Shape} (hshape : Below n shape.mentions) (declaration : Site) :
    Yields n c Shape.mentions (addInterface self shape declaration) := by
  refine Yields.read (.at_declaration fun m c' hm => ?_)
  split
  · refine (Yields.foldlM (fun _ a _ _ hb => h.addBase hb a) (hshape.mono hm)).bind ?_
    intro shape k _ hshape
    refine (Yields.foldlM (fun _ a _ _ hb => h.addInterfaceMember hb a) hshape).bind ?_
    intro acc l _ hacc
    exact .foldlM (fun _ a _ _ hb => h.addInterfaceMethod hb a) hacc
  · exact .pure (hshape.mono hm)

theorem interfaceType (id : SymbolId) (symbol : Symbol) :
    Yields n c single (interfaceType self id symbol) := by
  refine Yields.get fun s hs hn => ?_
  split
  · rename_i known hknown
    exact .pure (hs.found.interfaces _ known hknown)
  · refine Yields.read ((Yields.allocate below_bare).bind fun type m _ htype => ?_)
    refine Yields.andThen (.remember (fun _ => rfl) fun _ _ hm hs => { hs with
      interfaces := hs.interfaces.insert (htype.mono hm) _ }) fun _ => ?_
    have hadd : ∀ (shape : Shape) (d : Site) k, m ≤ k → Below k shape.mentions →
        Yields k c Shape.mentions (do
          let shape ← Checking.addInterface self shape d
          alloc (TypeTable.setShape type shape)
          return shape) := fun shape d k _ hshape =>
      (h.addInterface hshape d).bind fun shape l _ hshape =>
        (Yields.alloc (TypeTable.fair_setShape hshape)).andThen fun _ => .pure hshape
    exact (Yields.foldlM hadd below_bare).andThen fun _ => .pure htype

/-! ## Classes -/

/-- What a class in the making and its base refer to. -/
theorem addBaseClass {s : ClassShapes} (hs : Below n s.mentions) (heritage : Option NodeId) :
    Yields n c (fun r => r.1.mentions) (addBaseClass self s heritage) := by
  unfold Checking.addBaseClass
  split
  · exact .pure hs
  · refine (h.typeNode _ _ _).bind fun base m hm hbase => Yields.table fun t _ ht => ?_
    have hlater := hs.mono (Nat.le_trans hm ht)
    split
    · exact .pure hlater
    · split
      · exact .pure hlater
      · obtain ⟨htypes, hinstance, hconstructor⟩ := below_classShapes.1 hlater
        have hextended := below_addBase hinstance ((below_single.1 hbase).mono ht)
        dsimp only
        split
        · exact .pure (below_classShapes.2 ⟨htypes, hextended, hconstructor⟩)
        · refine (h.classTypes _ _ _).bind fun types k hk hbelow => .pure ?_
          have hside : There k types.constructorType :=
            (below_cons.1 (below_cons.1 hbelow).2).1
          exact below_classShapes.2 ⟨htypes.mono hk, hextended.mono hk,
            below_addBase (hconstructor.mono hk) hside⟩

theorem addClassMember {acc : ClassShapes × ClassMembers} (hacc : Below n acc.1.mentions)
    (member : NodeId) :
    Yields n c (fun acc => acc.1.mentions) (addClassMember self acc member) := by
  refine Yields.read ?_
  dsimp only
  split
  · refine (h.ascription _).bind fun type m hm htype => ?_
    split
    · exact .pure (below_upsert (hacc.mono hm) (below_toList.1 htype) _)
    · exact .pure (below_upsert (hacc.mono hm) there_any _)
  · exact .pure hacc
  · exact .pure hacc
  · exact .pure hacc

theorem addParameterProperty (constructor : NodeId) {s : ClassShapes} (hs : Below n s.mentions)
    (node : NodeId) :
    Yields n c ClassShapes.mentions (addParameterProperty self constructor s node) := by
  refine Yields.read ?_
  split
  · exact .pure hs
  · split
    · refine (Yields.in_scope (h.parameterType _)).bind fun type m hm htype => .pure ?_
      exact below_upsert (hs.mono hm) (below_single.1 htype) _
    · exact .pure hs

theorem addParameterProperties {s : ClassShapes} (hs : Below n s.mentions)
    (constructor : NodeId) :
    Yields n c ClassShapes.mentions (addParameterProperties self s constructor) :=
  Yields.read (.foldlM (fun _ a _ _ hb => h.addParameterProperty constructor hb a) hs)

theorem methodType (nodes : List NodeId) : Yields n c single (methodType self nodes) :=
  Yields.read (h.functionsType _)

theorem addMethod {s : ClassShapes} (hs : Below n s.mentions) (entry : String × List NodeId) :
    Yields n c ClassShapes.mentions (addMethod self s entry) := by
  refine Yields.read ?_
  dsimp only
  split
  · exact (h.methodType _).bind fun type m hm htype =>
      .pure (below_upsert (hs.mono hm) (below_single.1 htype) _)
  · exact (Yields.predefined (by decide)).bind fun type m hm htype =>
      .pure (below_upsert (hs.mono hm) (below_single.1 htype) _)

theorem inferProperty {s : ClassShapes} (hs : Below n s.mentions) (p : PropertyParts) :
    Yields n c ClassShapes.mentions (inferProperty self s p) := by
  unfold Checking.inferProperty
  extract_lets rest
  have hrest : ∀ type m, n ≤ m → Below m (single type) →
      Yields m c ClassShapes.mentions (rest type) := by
    intro type m hm htype
    have hupsert := below_upsert (p := classProperty c.arena p type) (hs.mono hm)
      (below_single.1 htype)
    exact Yields.read ((Yields.publish (hupsert _)).andThen fun _ => .pure (hupsert _))
  split
  · exact (Yields.predefined (by decide)).bind hrest
  · refine (h.expression _ _ _ _).bind fun type m hm htype => ?_
    exact (Yields.widen (below_single.1 htype)).bind fun type k hk =>
      hrest type k (Nat.le_trans hm hk)

theorem inferMethod {s : ClassShapes} (hs : Below n s.mentions) (entry : String × List NodeId) :
    Yields n c ClassShapes.mentions (inferMethod self s entry) := by
  refine (h.methodType _).bind fun type m hm htype => Yields.read ?_
  have hupsert := below_upsert (p := ⟨entry.1, type, false, false⟩) (hs.mono hm)
    (below_single.1 htype) (isStaticMethod c.arena entry.2)
  exact (Yields.publish hupsert).andThen fun _ => .pure hupsert

theorem constructSignatures {types : ClassTypes} (htypes : Below n types.mentions)
    (constructors : List NodeId) (base : Option TypeId) :
    Yields n c (List.flatMap Signature.mentions)
      (constructSignatures self types constructors base) := by
  refine Yields.read ?_
  extract_lets visible rest
  have hrest : ∀ found m, n ≤ m → Below m (found.flatMap Signature.mentions) →
      Yields m c (List.flatMap Signature.mentions) (rest found) := by
    intro found m hm hfound
    have hinstance : There m types.instanceType := (below_cons.1 (htypes.mono hm)).1
    show Yields m c _ (if _ then _ else _)
    split
    · refine .pure (below_flatMap.2 fun s hs => ?_)
      rw [List.mem_singleton.1 hs]
      exact below_single.2 hinstance
    · refine .pure (below_flatMap.2 fun s hs => ?_)
      obtain ⟨old, hold, rfl⟩ := List.mem_map.1 hs
      have hparameters := (below_signature.1 (below_flatMap.1 hfound old hold)).2
      exact below_signature.2 ⟨hinstance, hparameters⟩
  split
  · exact (Yields.mapM fun _ _ => h.signature _).bind hrest
  · split
    · refine Yields.table fun t ht hn => ?_
      refine Yields.bind (.pure (below_flatMap.2 (ht.constructs _))) fun found m hm => ?_
      exact hrest found m (Nat.le_trans hn hm)
    · exact Yields.bind (.pure below_nil) hrest

/-- The shapes grow from what the table has, and each version that is made known
refers to what is there by then. -/
theorem buildClass (id : SymbolId) {types : ClassTypes} (htypes : Below n types.mentions)
    (p : ClassParts) : Yields n c nothing (buildClass self id types p) := by
  have hinstances : There n types.instanceType := (below_cons.1 htypes).1
  refine Yields.read (Yields.andThen (.forM fun _ _ => ?_) fun _ => ?_)
  · exact .remember (fun _ => rfl) fun _ _ _ hs => { hs with }
  refine .in_class hinstances (Yields.table fun t ht hn => ?_)
  have hstart : Below t.size (ClassShapes.mentions
      { types := types
        instanceShape := (t.shape? types.instanceType).getD (.bare .instance_ none none)
        constructorShape := (t.shape? types.constructorType).getD (.bare .constructor none none) }) :=
    below_classShapes.2 ⟨htypes.mono hn, ht.shapeOr _ below_bare, ht.shapeOr _ below_bare⟩
  refine Yields.bind (h.addBaseClass hstart _) fun r m hm hs => ?_
  refine Yields.bind (.foldlM (fun _ a _ _ hb => h.addClassMember hb a) hs) fun r k hk hs => ?_
  refine Yields.bind (.foldlM (fun _ a _ _ hb => h.addParameterProperties hb a) hs) ?_
  intro s k₁ hk₁ hs
  refine Yields.bind (.foldlM (fun _ a _ _ hb => h.addMethod hb a) hs) fun s k₂ hk₂ hs => ?_
  refine (Yields.publish hs).andThen fun _ => ?_
  refine Yields.bind (.foldlM (fun _ a _ _ hb => h.inferProperty hb a) hs) fun s k₃ hk₃ hs => ?_
  refine Yields.bind (.foldlM (fun _ a _ _ hb => h.inferMethod hb a) hs) fun s k₄ hk₄ hs => ?_
  have hlater : n ≤ k₄ := by omega
  refine (h.constructSignatures (htypes.mono hlater) _ _).bind fun constructs k₅ hk₅ hfound => ?_
  obtain ⟨hown, hinstance, hconstructor⟩ := below_classShapes.1 (hs.mono hk₅)
  obtain ⟨hproperties, hcalls, -, hbases⟩ := below_shape.1 hconstructor
  exact .publish (below_classShapes.2 ⟨hown, hinstance,
    below_shape.2 ⟨hproperties, hcalls, below_flatMap.1 hfound, hbases⟩⟩)

theorem next_classTypes (id : SymbolId) :
    Yields n c ClassTypes.mentions (Checking.classTypes self id) := by
  refine Yields.get fun s hs hn => ?_
  split
  · rename_i known hknown
    exact .pure (hs.found.classes _ known hknown)
  · refine Yields.read ?_
    split
    · exact .pure (below_cons.2 ⟨there_error, below_single.2 there_error⟩)
    · refine (Yields.allocate below_bare).bind fun instanceType m _ hinstance => ?_
      refine (Yields.allocate below_bare).bind fun constructorType k hk hconstructor => ?_
      -- both types are there before the class is put together, which may ask for them
      have htypes : Below k (ClassTypes.mentions ⟨instanceType, constructorType⟩) :=
        below_cons.2 ⟨(below_single.1 hinstance).mono hk, hconstructor⟩
      refine Yields.andThen (.remember (fun _ => rfl) fun _ _ hm hs => { hs with
        classes := hs.classes.insert (htypes.mono hm) _ }) fun _ => ?_
      split
      · exact .pure htypes
      · extract_lets interfaces finish rest
        have hfinish : ∀ done, Yields k c ClassTypes.mentions (finish done) := fun _ =>
          .pure htypes
        have hrest : ∀ done, Yields k c ClassTypes.mentions (rest done) := by
          intro done
          show Yields k c _ (if _ then _ else _)
          split
          · exact hfinish ()
          · refine Yields.table fun t ht hsize => ?_
            have hstart := ht.shapeOr instanceType (@below_bare t.size .instance_ none none)
            refine Yields.bind (.foldlM (fun _ a _ _ hb => h.addInterface hb a) hstart) ?_
            intro shape l hl hshape
            exact (Yields.alloc (TypeTable.fair_setShape hshape)).andThen fun done =>
              (hfinish done).later (Nat.le_trans hsize hl)
        split
        · exact Yields.andThen
            (.at_declaration fun _ _ hm => h.buildClass _ (htypes.mono hm) _) hrest
        · exact hrest ()

theorem next_declaredType (id : SymbolId) :
    Yields n c Option.toList (Checking.declaredType self id) := by
  refine Yields.read ?_
  split
  · exact .pure below_nil
  · split
    · split
      · exact .pure below_nil
      · split
        · exact .pure (below_toList.2 there_error)
        · exact .resolving_type (h.declaredType _ _ _)
    · split
      · exact (h.classTypes _ _ _).bind fun _ _ _ htypes =>
          .pure (below_toList.2 (below_cons.1 htypes).1)
      · split
        · exact (h.interfaceType _ _).bind fun _ _ _ htype => .pure htype
        · split
          · exact (h.aliasType _ _).bind fun _ _ _ htype => .pure htype
          · exact .pure below_nil

/-! ## Values -/

omit h in
theorem there_iteratedElement {t : TypeTable} (ht : t.Closed) (iterated : TypeId) :
    There t.size (iteratedElement t iterated) := by
  unfold iteratedElement
  split
  · rename_i element helement
    exact ht.element? helement
  · split
    · exact there_predefined (by decide)
    · split
      · exact there_error
      · exact there_any

theorem variableType (node : NodeId) : Yields n c single (variableType self node) := by
  refine Yields.read ?_
  split
  · split
    · exact h.typeNode _ _ _
    · exact (h.expression _ _ _ _).andThen fun type => Yields.table fun t ht _ =>
        .pure (below_single.2 (there_iteratedElement ht type))
    · exact .predefined (by decide)
    · refine (h.expression _ _ _ _).bind fun type m _ htype => ?_
      split
      · exact .pure htype
      · split
        · exact .predefined (by decide)
        · exact .widen (below_single.1 htype)
  · exact .predefined (by decide)

theorem functionType (declarations : List Site) :
    Yields n c single (functionType self declarations) := by
  refine Yields.read ((Yields.mapM fun e _ => .at_declaration fun _ _ _ =>
    h.signature e.1.node).bind fun signatures m _ hs => ?_)
  exact .allocate (below_withCalls (below_flatMap.1 hs))

theorem importedType (id : SymbolId) : Yields n c single (importedType self id) := by
  refine Yields.read ?_
  split
  · split
    · exact h.valueType _ _ _
    · exact .predefined (by decide)
  · exact .predefined (by decide)

theorem findValueType (id : SymbolId) : Yields n c single (findValueType self id) := by
  refine Yields.read ?_
  split
  · exact .predefined (by decide)
  · split
    · refine .pure (below_single.2 ?_)
      unfold builtinType
      split
      · exact there_predefined (by decide)
      · split
        · exact there_predefined (by decide)
        · exact there_any
    · split
      · exact h.importedType id
      · split
        · exact (h.classTypes _ _ _).bind fun _ _ _ htypes =>
            .pure (below_cons.1 htypes).2
        · split
          · exact h.functionType _
          · split
            · exact .predefined (by decide)
            · dsimp only
              split
              · exact .at_declaration fun _ _ _ => h.variableType _
              · split
                · exact .at_declaration fun _ _ _ => h.parameterType _
                · exact .predefined (by decide)

theorem next_valueType (id : SymbolId) : Yields n c single (Checking.valueType self id) := by
  refine Yields.get fun s hs _ => ?_
  split
  · rename_i known hknown
    exact .pure (hs.found.values _ known hknown)
  · refine Yields.read ?_
    split
    · exact .predefined (by decide)
    · refine (Yields.resolving_value (h.findValueType id)).bind fun type m _ htype => ?_
      exact Yields.andThen (.remember (fun _ => rfl) fun _ _ hm hs => { hs with
        values := hs.values.insert (htype.mono hm) _ }) fun _ => .pure htype

/-! ## Expressions -/

theorem checkName (node : NodeId) : Yields n c single (checkName self node) := by
  refine Yields.read ?_
  dsimp only
  split
  · exact .predefined (by decide)
  · split
    · exact h.valueType _ _ _
    · split
      · exact (Yields.report _ _).andThen fun _ => .predefined (by decide)
      · exact (Yields.report _ _).andThen fun _ => .predefined (by decide)

theorem checkPropertyAccess (object name : NodeId) :
    Yields n c single (checkPropertyAccess self object name) := by
  refine (h.expression _ _ _ _).bind fun objectType m _ hobject => Yields.read ?_
  extract_lets text rest
  split
  · exact .predefined (by decide)
  · have hrest : ∀ type k, m ≤ k → Below k (single type) → Yields k c single (rest type) :=
      fun type k _ htype => (Yields.record _ _).andThen fun _ => .pure htype
    refine (Yields.propertyType (below_single.1 hobject) _).bind fun found k hk hfound => ?_
    have hlater := fun type l (hl : k ≤ l) => hrest type l (Nat.le_trans hk hl)
    split
    · exact Yields.bind (.pure (below_single.2 (below_toList.1 hfound))) hlater
    · refine (Yields.display _).andThen fun _ => (Yields.report _ _).andThen fun _ => ?_
      exact (Yields.predefined (by decide)).bind hlater

theorem checkElementAccess (object index : NodeId) :
    Yields n c single (checkElementAccess self object index) := by
  refine (h.expression _ _ _ _).bind fun objectType m _ hobject => ?_
  refine (h.expression _ _ _ _).bind fun indexType k hk _ => ?_
  replace hobject := (below_single.1 hobject).mono hk
  split
  · exact .pure (below_single.2 hobject)
  · refine Yields.table fun t ht hn => ?_
    split
    · rename_i element helement
      exact .pure (below_single.2 (ht.element? helement))
    · split
      · exact .predefined (by decide)
      · split
        · exact (Yields.propertyType (hobject.mono hn) _).bind fun _ _ _ hfound =>
            .pure (below_single.2 (There.getD hfound there_any))
        · exact .predefined (by decide)

theorem checkArray (elements : List NodeId) (expected : Option TypeId) :
    Yields n c single (checkArray self elements expected) := by
  refine Yields.table fun t ht _ => ?_
  have harray : ∀ type m, t.size ≤ m → Below m (single type) →
      Yields m c single (alloc (TypeTable.array type)) := fun _ _ _ htype =>
    .alloc (TypeTable.fair_array (below_single.1 htype))
  refine (Yields.mapM fun e _ => (h.expression _ _ _ _).bind fun _ _ _ htype =>
    .widen (below_single.1 htype)).bind fun types m hm htypes => ?_
  have hlater := fun type k (hk : m ≤ k) => harray type k (Nat.le_trans hm hk)
  dsimp only
  split
  · refine Yields.bind (.pure (below_single.2 (There.mono ?_ hm))) hlater
    refine There.getD ?_ there_any
    cases helement : expected.bind t.element? with
    | none => exact below_nil
    | some element =>
      obtain ⟨type, -, hof⟩ := Option.bind_eq_some_iff.1 helement
      exact below_toList.2 (ht.element? hof)
  · exact (Yields.union (below_flatMap_single.1 htypes)).bind hlater

theorem addLiteralProperty (expected : Option TypeId) {shape : Shape}
    (hshape : Below n shape.mentions) (element : NodeId) :
    Yields n c Shape.mentions (addLiteralProperty self expected shape element) := by
  refine Yields.read ?_
  extract_lets a
  split
  · refine Yields.table fun t _ hn => ?_
    extract_lets wanted rest
    have hrest : ∀ found m, t.size ≤ m → Below m (single found) →
        Yields m c Shape.mentions (rest found) := by
      intro found m hm hfound
      refine (Yields.widen (below_single.1 hfound)).bind fun type k hk htype => ?_
      refine (Yields.record _ _).andThen fun _ => (Yields.record _ _).andThen fun _ => .pure ?_
      obtain ⟨hproperties, hothers⟩ := below_shape.1 (hshape.mono (hn.trans (hm.trans hk)))
      refine below_shape.2 ⟨fun q hq => ?_, hothers⟩
      rcases List.mem_append.1 hq with hq | hq
      · exact hproperties q (List.mem_of_mem_filter hq)
      · rw [List.mem_singleton.1 hq]
        exact below_single.1 htype
    split
    · exact (h.expression _ _ _ _).bind hrest
    · exact (h.checkName _).bind hrest
  · exact .pure hshape

theorem checkObject (properties : List NodeId) (expected : Option TypeId) :
    Yields n c single (checkObject self properties expected) :=
  Yields.bind (.foldlM (fun _ a _ _ hb => h.addLiteralProperty expected hb a) below_bare)
    fun _ _ _ hshape => .allocate hshape

theorem checkArguments (arguments : List NodeId) :
    Yields n c nothing (checkArguments self arguments) :=
  .forM fun _ _ => (h.expression _ _ _ _).andThen fun _ => .pure below_nil

theorem argumentsFit (pairs : List (NodeId × Parameter)) :
    Yields n c nothing (argumentsFit self pairs) := by
  induction pairs with
  | nil => exact .pure below_nil
  | cons pair rest ih =>
    refine (h.expression _ _ _ _).andThen fun type => (Yields.assignable _ _).andThen fun fits => ?_
    split
    · exact ih
    · exact .pure below_nil

/-- The signature that is found is one of those that were looked through. -/
theorem findSignature (arguments : List NodeId) {signatures : List Signature}
    (hs : ∀ s ∈ signatures, Below n s.mentions) :
    Yields n c Signature.mentionsOf (findSignature self arguments signatures) := by
  induction signatures with
  | nil => exact .pure below_nil
  | cons s rest ih =>
    obtain ⟨hfirst, hrest⟩ := List.forall_mem_cons.1 hs
    refine (Yields.in_silence (h.argumentsFit _)).andThen fun fits => ?_
    split
    · exact .pure (by simpa [Signature.mentionsOf] using hfirst)
    · exact ih hrest

theorem checkArgument (argument : NodeId) (p : Parameter) :
    Yields n c nothing (checkArgument self argument p) := by
  refine (h.expression _ _ _ _).andThen fun type => (Yields.assignable _ _).andThen fun fits => ?_
  split
  · exact .pure below_nil
  · exact Yields.table fun _ _ _ => Yields.read (.reportWith _ _ _)

theorem resolveCall (node : NodeId) {signatures : List Signature}
    (hs : ∀ s ∈ signatures, Below n s.mentions) (arguments : List NodeId) :
    Yields n c single (resolveCall self node signatures arguments) := by
  unfold Checking.resolveCall
  split
  · refine (Yields.report _ _).andThen fun _ => (h.checkArguments _).andThen fun _ => .pure ?_
    cases signatures with
    | nil => exact below_single.2 there_error
    | cons s rest =>
      exact below_single.2 (below_signature.1 (hs s List.mem_cons_self)).1
  · rename_i first others hfitting
    have hall : ∀ s ∈ first :: others, Below n s.mentions := fun s hmem =>
      hs s (List.mem_of_mem_filter (hfitting ▸ hmem))
    have hfirst := hall first List.mem_cons_self
    extract_lets rest
    have hrest : ∀ chosen m, n ≤ m → Below m chosen.mentions → Yields m c single (rest chosen) :=
      fun chosen m _ hchosen =>
        (Yields.forM fun _ _ => h.checkArgument _ _).andThen fun _ =>
          .pure (below_single.2 (below_signature.1 hchosen).1)
    split
    · exact Yields.bind (.pure hfirst) hrest
    · refine (h.findSignature _ hall).bind fun found m hm hfound => Yields.bind (.pure ?_)
        fun chosen k hk => hrest chosen k (Nat.le_trans hm hk)
      cases found with
      | none => exact hfirst.mono hm
      | some s => simpa [Signature.mentionsOf] using hfound

theorem checkSuperCall (node callee : NodeId) (arguments : List NodeId) :
    Yields n c single (checkSuperCall self node callee arguments) := by
  refine (h.expression _ _ _ _).andThen fun base => Yields.get fun s hs _ => ?_
  have hsignatures : ∀ g ∈ constructsOfInstance s base, Below s.types.size g.mentions := by
    intro g hg
    unfold constructsOfInstance at hg
    split at hg
    · cases hg
    · split at hg
      · cases hg
      · exact hs.types.constructs _ g hg
  dsimp only
  split
  · exact (h.checkArguments _).andThen fun _ => .predefined (by decide)
  · exact (h.resolveCall _ hsignatures _).andThen fun _ => .predefined (by decide)

theorem checkCall (node callee : NodeId) (arguments : List NodeId) :
    Yields n c single (checkCall self node callee arguments) := by
  refine Yields.read ?_
  split
  · exact h.checkSuperCall _ _ _
  · refine (h.expression _ _ _ _).bind fun type m _ htype => ?_
    split
    · exact (h.checkArguments _).andThen fun _ => .pure htype
    · refine Yields.table fun t ht hn => ?_
      split
      · exact (Yields.report _ _).andThen fun _ =>
          (h.checkArguments _).andThen fun _ => .predefined (by decide)
      · exact h.resolveCall _ (ht.calls type) _

theorem checkNew (node callee : NodeId) (arguments : List NodeId) :
    Yields n c single (checkNew self node callee arguments) := by
  refine (h.expression _ _ _ _).bind fun type m _ htype => ?_
  split
  · exact (h.checkArguments _).andThen fun _ => .pure htype
  · refine Yields.table fun t ht hn => ?_
    split
    · exact (Yields.report _ _).andThen fun _ =>
        (h.checkArguments _).andThen fun _ => .predefined (by decide)
    · exact h.resolveCall _ (ht.constructs type) _

theorem checkPrefix (operator : TokenKind) (operand : NodeId) :
    Yields n c single (checkPrefix self operator operand) := by
  refine Yields.read ?_
  split
  · exact (h.expression _ _ _ _).andThen fun _ => .predefined (by decide)
  · exact (h.expression _ _ _ _).andThen fun _ => .alloc (TypeTable.fair_numberLiteral _)
  · exact (h.expression _ _ _ _).andThen fun _ =>
      (Yields.checkTarget _).andThen fun _ => .predefined (by decide)
  · exact (h.expression _ _ _ _).andThen fun _ =>
      (Yields.checkTarget _).andThen fun _ => .predefined (by decide)
  · exact (h.expression _ _ _ _).andThen fun _ => .predefined (by decide)

theorem checkAssignment (left right : NodeId) :
    Yields n c single (checkAssignment self left right) := by
  refine (h.expression _ _ _ _).andThen fun target =>
    (Yields.checkTarget _).andThen fun writable => ?_
  refine (h.expression _ _ _ _).bind fun value m _ hvalue => ?_
  dsimp only
  split
  · exact (Yields.checkAssignable _ _ _).andThen fun _ => .pure hvalue
  · exact .pure hvalue

theorem checkUpdate (left : NodeId) (operator : TokenKind) (right : NodeId) :
    Yields n c single (checkUpdate self left operator right) := by
  refine (h.expression _ _ _ _).andThen fun target => (Yields.checkTarget _).andThen fun _ => ?_
  refine (h.expression _ _ _ _).andThen fun value => ?_
  split
  · exact Yields.table fun t _ _ => .pure (below_single.2 (there_additionType t _ _))
  · exact .predefined (by decide)

theorem checkBinary (left : NodeId) (operator : TokenKind) (right : NodeId) :
    Yields n c single (checkBinary self left operator right) := by
  unfold Checking.checkBinary
  split
  · exact h.checkAssignment _ _
  any_goals exact h.checkUpdate _ _ _
  refine (h.expression _ _ _ _).bind fun l m _ hl => (h.expression _ _ _ _).bind fun r k hk hr => ?_
  exact .operatorType _ ((below_single.1 hl).mono hk) (below_single.1 hr)

theorem arrowType (node : NodeId) (expected : Option TypeId) :
    Yields n c single (arrowType self node expected) := by
  refine Yields.read (Yields.get fun s hs _ => ?_)
  split
  · rename_i known hknown
    exact .pure (hs.found.arrows _ known hknown)
  · refine (Yields.takeContext _ _).andThen fun _ => (h.signature _).bind fun g m _ hg => ?_
    refine (Yields.alloc (TypeTable.fair_function hg)).bind fun type k _ htype => ?_
    exact Yields.andThen (.remember (fun _ => rfl) fun _ _ hm hs => { hs with
      arrows := hs.arrows.insert (htype.mono hm) _ }) fun _ => .pure htype

theorem checkArrow (node : NodeId) (expected : Option TypeId) :
    Yields n c single (checkArrow self node expected) := by
  refine (h.arrowType _ _).bind fun type m _ htype => Yields.read ?_
  dsimp only
  split
  · exact (h.checkFunction _).andThen fun _ => .pure htype
  · exact .pure htype

theorem expressionType (node : NodeId) (expected : Option TypeId) (form : Form) :
    Yields n c single (expressionType self node expected form) := by
  unfold Checking.expressionType
  split
  · exact .alloc (TypeTable.fair_numberLiteral _)
  · exact .alloc (TypeTable.fair_stringLiteral _)
  · exact .predefined (by decide)
  · exact .predefined (by decide)
  · exact .predefined (by decide)
  · exact Yields.thisType.bind fun _ _ _ hthis =>
      .pure (below_single.2 (There.getD hthis there_any))
  · exact .superType
  · exact h.checkName _
  · exact h.expression _ _ _ _
  · exact h.checkArray _ _
  · exact h.checkObject _ _
  · exact h.checkCall _ _ _
  · exact h.checkNew _ _ _
  · exact h.checkPropertyAccess _ _
  · exact h.checkElementAccess _ _
  · exact h.checkPrefix _ _
  · exact (h.expression _ _ _ _).andThen fun _ =>
      (Yields.checkTarget _).andThen fun _ => .predefined (by decide)
  · exact (h.expression _ _ _ _).andThen fun _ => .predefined (by decide)
  · exact h.checkBinary _ _ _
  · refine (h.expression _ _ _ _).andThen fun _ => ?_
    refine (h.expression _ _ _ _).bind fun l m _ hl => ?_
    refine (h.expression _ _ _ _).bind fun r k hk hr => ?_
    exact .union (below_cons.2 ⟨(below_single.1 hl).mono hk, hr⟩)
  · exact h.checkArrow _ _
  · refine (h.typeNode _ _ _).bind fun _ _ _ htarget => ?_
    exact (h.expression _ _ _ _).andThen fun _ => .pure htarget
  · exact .predefined (by decide)

theorem next_expression (node : NodeId) (expected : Option TypeId) :
    Yields n c single (Checking.expression self node expected) := by
  refine Yields.read ?_
  split
  · exact .predefined (by decide)
  · refine Yields.bind (Yields.in_expression ?_) fun type m _ htype =>
      (Yields.record _ _).andThen fun _ => .pure htype
    split
    · exact .predefined (by decide)
    · exact h.expressionType _ _ _

/-! ## Statements -/

theorem statement? (node : Option NodeId) : Yields n c id (statement? self node) := by
  cases node with
  | none => exact .pure below_nil
  | some node => exact h.statement _ _ _

theorem statements (nodes : List NodeId) : Yields n c id (statements self nodes) := by
  refine (Yields.mapM fun _ _ => h.statement _ _ _).bind fun types m _ htypes => .pure ?_
  rwa [List.flatMap_id] at htypes

theorem lookAt (node : Option NodeId) : Yields n c nothing (lookAt self node) :=
  .forM_option fun _ _ => (h.expression _ _ _ _).andThen fun _ => .pure below_nil

theorem loopBody (node : Option NodeId) : Yields n c id (loopBody self node) :=
  .in_loop (h.statement? node)

theorem loopStart (start : Option NodeId) : Yields n c id (loopStart self start) := by
  unfold Checking.loopStart
  split
  · exact .pure below_nil
  · refine Yields.read ?_
    split
    · exact h.statement _ _ _
    · exact (h.expression _ _ _ _).andThen fun _ => .pure below_nil

theorem checkReturn (node : NodeId) (value : Option NodeId) :
    Yields n c id (checkReturn self node value) := by
  refine Yields.read ?_
  split
  · exact (Yields.reportStart _ _ _).andThen fun _ => (h.lookAt _).andThen fun _ => .pure below_nil
  · split
    · exact .pure below_nil
    · refine (h.expression _ _ _ _).bind fun type m _ htype => ?_
      exact (Yields.forM_option fun _ _ => .checkAssignable _ _ _).andThen fun _ => .pure htype

theorem checkVariable (node : NodeId) : Yields n c nothing (checkVariable self node) := by
  refine Yields.read ?_
  split
  · extract_lets rest
    have hrest : ∀ type, Yields n c nothing (rest type) := fun type =>
      (h.ascription _).andThen fun _ => (h.initializer _ _ _).andThen fun _ =>
        (Yields.record _ _).andThen fun _ => .record _ _
    split
    · exact (h.valueType _ _ _).andThen hrest
    · exact (Yields.in_silence (h.variableType _)).andThen hrest
  · exact .pure below_nil

theorem checkFunctionDeclaration (node : NodeId) (p : FunctionParts) :
    Yields n c nothing (checkFunctionDeclaration self node p) := by
  refine Yields.read ?_
  extract_lets ambient symbol rest
  have hrest : ∀ r, Yields n c nothing (rest r) := fun _ => h.checkFunction node
  refine (Yields.forM_option fun id _ => ?_).andThen fun _ => ?_
  · exact (h.valueType _ _ _).andThen fun _ => (Yields.record _ _).andThen fun _ => .record? _ _
  · split
    · split
      · exact (Yields.reportStart _ _ _).andThen hrest
      · exact hrest ()
    · split
      · exact (Yields.forM_option fun _ _ => .report _ _).andThen hrest
      · exact hrest ()

theorem checkProperty (types : ClassTypes) (member : NodeId) (p : PropertyParts) :
    Yields n c nothing (checkProperty self types member p) := by
  refine Yields.read ((Yields.ownPropertyType _ _).andThen fun type => ?_)
  refine (h.ascription _).andThen fun _ => (h.initializer _ _ _).andThen fun _ => ?_
  exact (Yields.record _ _).andThen fun _ => .record _ _

omit h in
theorem checkMethodName (types : ClassTypes) (members : List NodeId) (ambient : Bool)
    (p : FunctionParts) : Yields n c single (checkMethodName types members ambient p) := by
  refine Yields.read ?_
  dsimp only
  split
  · exact (Yields.forM_option fun _ _ => .report _ _).andThen fun _ => .ownPropertyType _ _
  · exact .ownPropertyType _ _

theorem checkMember (types : ClassTypes) (k : ClassParts) (ambient : Bool) (member : NodeId) :
    Yields n c nothing (checkMember self types k ambient member) := by
  refine Yields.read ?_
  split
  · exact h.checkProperty _ _ _
  · split
    · extract_lets ambient' record rest
      have hrecord : ∀ type, Yields n c nothing (record type) := fun type =>
        (Yields.record _ _).andThen fun _ => (Yields.record? _ _).andThen fun _ =>
          h.checkFunction member
      have hrest : ∀ r, Yields n c nothing (rest r) := by
        intro r
        show Yields n c _ (if _ then _ else _)
        split
        · exact .pure_bind (hrecord _)
        · exact (checkMethodName _ _ _ _).andThen hrecord
      split
      · exact (Yields.forM_option fun _ _ => .reportStart _ _ _).andThen hrest
      · exact hrest ()
    · exact .pure below_nil
  · exact .pure below_nil

theorem checkClass (node : NodeId) (p : ClassParts) :
    Yields n c nothing (checkClass self node p) := by
  refine Yields.read ?_
  split
  · exact .pure below_nil
  · refine (h.classTypes _ _ _).bind fun types m _ htypes => ?_
    refine (Yields.record _ _).andThen fun _ => (Yields.record _ _).andThen fun _ => ?_
    refine (Yields.forM_option fun _ _ =>
      (h.typeNode _ _ _).andThen fun _ => .pure below_nil).andThen fun _ => ?_
    exact .in_class (below_cons.1 htypes).1 (.forM fun _ _ => h.checkMember _ _ _ _)

theorem declaredTypeOf (node : NodeId) :
    Yields n c Option.toList (declaredTypeOf self node) := by
  refine Yields.read ?_
  split
  · exact .pure below_nil
  · exact h.declaredType _ _ _

theorem checkSignatureMember (declared : TypeId) (member : NodeId) :
    Yields n c nothing (checkSignatureMember self declared member) := by
  have hproperty : ∀ p : PropertyParts, Yields n c nothing (do
      let type := (← Checking.ascription self p.ascription).getD .any
      record member type
      record p.name type) := fun p =>
    (h.ascription _).andThen fun _ => (Yields.record _ _).andThen fun _ => .record _ _
  refine Yields.read ?_
  dsimp only
  split
  · exact hproperty _
  · exact hproperty _
  · refine (Yields.forM fun _ _ => h.signatureParameter _).andThen fun _ => ?_
    refine (h.ascription _).andThen fun _ => (Yields.ownPropertyType _ _).andThen fun _ => ?_
    exact (Yields.record _ _).andThen fun _ => .record? _ _
  · exact .pure below_nil

theorem checkInterface (node : NodeId) (p : InterfaceParts) :
    Yields n c nothing (checkInterface self node p) := by
  refine (h.declaredTypeOf node).andThen fun declared => ?_
  refine (Yields.record _ _).andThen fun _ => (Yields.record _ _).andThen fun _ => ?_
  refine (Yields.forM fun _ _ =>
    (h.typeNode _ _ _).andThen fun _ => .pure below_nil).andThen fun _ => ?_
  exact .forM fun _ _ => h.checkSignatureMember _ _

theorem checkAlias (node : NodeId) (p : AliasParts) :
    Yields n c nothing (checkAlias self node p) := by
  refine (h.declaredTypeOf node).andThen fun declared => (h.typeNode _ _ _).andThen fun _ => ?_
  exact .forM_option fun _ _ => (Yields.record _ _).andThen fun _ => .record _ _

theorem checkSpecifier (text : String) (node : NodeId) :
    Yields n c nothing (checkSpecifier self text node) := by
  refine Yields.read ?_
  split
  · split
    · exact .report _ _
    · extract_lets rest
      have hrest : ∀ type, Yields n c nothing (rest type) := fun type =>
        (Yields.record _ _).andThen fun _ => (Yields.record _ _).andThen fun _ => .record? _ _
      split
      · exact (h.valueType _ _ _).andThen hrest
      · exact (h.declaredType _ _ _).andThen fun _ => .pure_bind (hrest _)
  · exact .pure below_nil

theorem checkImport (specifiers : List NodeId) (source : Option NodeId) :
    Yields n c nothing (checkImport self specifiers source) := by
  refine Yields.read ?_
  dsimp only
  split
  · exact .forM_option fun _ _ => .report _ _
  · exact .forM fun _ _ => h.checkSpecifier _ _

theorem checkStatement (node : NodeId) (form : Form) :
    Yields n c id (checkStatement self node form) := by
  have hnothing : ∀ {x : Check Unit}, Yields n c nothing x → Yields n c id (returningNothing x) :=
    fun hx => hx.andThen fun _ => .pure below_nil
  -- what the two parts of a statement return
  have hboth : ∀ {n : Nat} {c : Context} {x y : Check (List TypeId)}, Yields n c id x →
      (∀ m, Yields m c id y) → Yields n c id (do return (← x) ++ (← y)) := fun hx hy =>
    hx.bind fun _ _ _ ha => (hy _).bind fun _ _ hk hb => .pure (below_append.2 ⟨ha.mono hk, hb⟩)
  unfold Checking.checkStatement
  split
  · exact hnothing (h.checkFunctionDeclaration _ _)
  · exact hnothing (h.checkClass _ _)
  · exact hnothing (h.checkInterface _ _)
  · exact hnothing (h.checkAlias _ _)
  · exact hnothing (.forM fun _ _ => h.checkVariable _)
  · exact hnothing (h.checkImport _ _)
  · exact Yields.read (.in_scope (h.statements _))
  · exact hnothing (h.lookAt _)
  · exact h.checkReturn _ _
  · exact (h.lookAt _).andThen fun _ => hboth (h.statement? _) fun _ => h.statement? _
  · exact (h.lookAt _).andThen fun _ => h.loopBody _
  · refine Yields.read (.in_scope ((h.loopStart _).bind fun a m _ ha => ?_))
    refine (h.lookAt _).andThen fun _ => (h.lookAt _).andThen fun _ => ?_
    exact (h.loopBody _).bind fun b k hk hb => .pure (below_append.2 ⟨ha.mono hk, hb⟩)
  · refine Yields.read (.in_scope ((h.lookAt _).andThen fun _ => ?_))
    exact hboth (h.loopStart _) fun _ => h.loopBody _
  · exact hnothing (.checkJump _ _ _)
  · exact hnothing (.checkJump _ _ _)
  · exact .pure below_nil

theorem next_statement (node : NodeId) : Yields n c id (Checking.statement self node) := by
  refine Yields.read ?_
  split
  · exact .pure below_nil
  · exact h.checkStatement _ _

/-! ## One more use -/

theorem next :
    Yielding
      { typeNode := Checking.typeNode self
        expression := Checking.expression self
        statement := Checking.statement self
        valueType := Checking.valueType self
        declaredType := Checking.declaredType self
        classTypes := Checking.classTypes self } where
  typeNode _ _ := h.next_typeNode
  expression _ _ := h.next_expression
  statement _ _ := h.next_statement
  valueType _ _ := h.next_valueType
  declaredType _ _ := h.next_declaredType
  classTypes _ _ := h.next_classTypes

end Yielding

/-- The rules with any number of nested uses keep the state closed. -/
theorem yielding_rules (n : Nat) : Yielding (rules n) := by
  induction n with
  | zero => exact yielding_noRules
  | succ n ih => exact ih.next

end ScriptAnalysis.Checking
