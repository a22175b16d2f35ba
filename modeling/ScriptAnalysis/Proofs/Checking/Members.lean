import ScriptAnalysis.Proofs.Checking.Walk
import ScriptAnalysis.Proofs.Table

/-!
# On which side of a class a name ends up

A class is put together in several passes over its members: properties,
parameter properties, methods, then once more those whose types have to be
found. Each pass decides for itself on which side a member goes. The types
that are found do not matter for that: which names a pass adds can be read
off the members.

**Names.** `memberOf` is what all passes together come to. Methods go by
name: the first one decides for all others of its name.

**Results.**
* `owns_upsert`: what one member adds. `distinct_upsertProperty`: no name is added
  twice.
* `Sorted`: the members by sort, with what the first pass has added.
* `owns_addParameterProperties`, `owns_addMethods`: what the other passes add.
-/
namespace ScriptAnalysis

/-- The type has a property of its own with the name. -/
def Shape.owns (s : Shape) (name : String) : Bool :=
  (s.property? name).isSome

namespace Checking

open Walk

/-! ## Members -/

/-- The member is a property with the name, on the side. -/
def declaresProperty (a : Arena) (isStatic : Bool) (name : String) (member : NodeId) : Bool :=
  match a.form? member with
  | some (.propertyDeclaration p) => p.modifiers.isStatic == isStatic && memberName a p.name == name
  | _ => false

/-- The member is a method with the name. -/
def isMethod (a : Arena) (name : String) (member : NodeId) : Bool :=
  match a.form? member with
  | some (.function .method p) => memberName? a p.name == name
  | _ => false

def isConstructor (a : Arena) (member : NodeId) : Bool :=
  match a.form? member with
  | some (.function .constructor _) => true
  | _ => false

/-- The parameter is a property with the name too. -/
def isParameterProperty (a : Arena) (name : String) (parameter : NodeId) : Bool :=
  (a.parameterOf? parameter).any fun p =>
    p.modifiers.declaresProperty && memberName a p.name == name

/-- One of the parameters of a constructor is a property with the name. -/
def hasParameterProperty (a : Arena) (name : String) (constructor : NodeId) : Bool :=
  (((a.functionOf? constructor).map FunctionParts.parameters).getD []).any
    (isParameterProperty a name)

/-- The names on a side of a class. -/
def memberOf (a : Arena) (members : List NodeId) (isStatic : Bool) (name : String) : Bool :=
  members.any (declaresProperty a isStatic name) ||
    (!isStatic && (members.filter (isConstructor a)).any (hasParameterProperty a name)) ||
    (members.find? (isMethod a name)).any fun m => (a.modifiers m).isStatic == isStatic

/-! ## One member -/

theorem owns_iff {s : Shape} {name : String} :
    s.owns name = true ↔ ∃ q ∈ s.properties, q.name = name := by
  simp only [Shape.owns, Shape.property?, List.find?_isSome, beq_iff_eq]

theorem owns_upsertProperty {s : Shape} {p : Property} {name : String} (hname : name ≠ "") :
    (upsertProperty s p).owns name = (p.name == name || s.owns name) := by
  rw [Bool.eq_iff_iff, Bool.or_eq_true, beq_iff_eq, owns_iff, owns_iff]
  unfold upsertProperty
  split
  · rename_i hempty
    rw [String.isEmpty_iff] at hempty
    exact (or_iff_right fun h => hname (h.symm.trans hempty)).symm
  · split
    · -- the property of the name makes way
      rename_i hthere
      obtain ⟨old, hold, heq⟩ := List.any_eq_true.1 hthere
      simp only [List.mem_map]
      constructor
      · rintro ⟨_, ⟨q, hq, rfl⟩, hqname⟩
        split at hqname
        · exact .inl hqname
        · exact .inr ⟨q, hq, hqname⟩
      · rintro (hp | ⟨q, hq, hqname⟩)
        · exact ⟨p, ⟨old, hold, if_pos heq⟩, hp⟩
        · by_cases hsame : (q.name == p.name) = true
          · exact ⟨p, ⟨q, hq, if_pos hsame⟩, (beq_iff_eq.1 hsame).symm.trans hqname⟩
          · exact ⟨q, ⟨q, hq, if_neg hsame⟩, hqname⟩
    · simp only [List.mem_append, List.mem_singleton, or_and_right, exists_or, exists_eq_left]
      exact or_comm

theorem distinct_upsertProperty {s : Shape} (h : s.Distinct) (p : Property) :
    (upsertProperty s p).Distinct := by
  unfold upsertProperty
  split
  · exact h
  · split
    · -- a property takes the place of one of its name, so the names stay
      have hnames : (s.properties.map fun q => if q.name == p.name then p else q).map Property.name =
          s.properties.map Property.name := by
        rw [List.map_map]
        refine List.map_congr_left fun q _ => ?_
        show (if q.name == p.name then p else q).name = q.name
        split
        · exact (beq_iff_eq.1 ‹_›).symm
        · rfl
      unfold Shape.Distinct
      rwa [hnames]
    · rename_i hnone
      refine nodup_names_concat h fun q hq hsame => hnone ?_
      exact List.any_eq_true.2 ⟨q, hq, beq_iff_eq.2 hsame⟩

namespace ClassShapes

/-- The shape of a side. -/
def side (s : ClassShapes) (isStatic : Bool) : Shape :=
  if isStatic then s.constructorShape else s.instanceShape

theorem owns_upsert {s : ClassShapes} {isStatic other : Bool} {p : Property} {name : String}
    (hname : name ≠ "") : ((s.upsert isStatic p).side other).owns name =
      ((isStatic == other && p.name == name) || (s.side other).owns name) := by
  cases isStatic <;> cases other <;> simp [side, upsert, owns_upsertProperty hname]

/-- What a class is known by is left as it is: only properties and bases may
have been added, and no name twice. -/
structure Alike (s s' : ClassShapes) : Prop where
  types : s'.types = s.types
  kind : ∀ isStatic, (s'.side isStatic).kind = (s.side isStatic).kind
  symbol : ∀ isStatic, (s'.side isStatic).symbol = (s.side isStatic).symbol
  constructs : ∀ isStatic, (s'.side isStatic).constructs = (s.side isStatic).constructs
  distinct : ∀ isStatic, (s.side isStatic).Distinct → (s'.side isStatic).Distinct

theorem Alike.refl (s : ClassShapes) : Alike s s :=
  ⟨rfl, fun _ => rfl, fun _ => rfl, fun _ => rfl, fun _ h => h⟩

theorem Alike.trans {s s' s'' : ClassShapes} (h : Alike s s') (h' : Alike s' s'') : Alike s s'' where
  types := h'.types.trans h.types
  kind b := (h'.kind b).trans (h.kind b)
  symbol b := (h'.symbol b).trans (h.symbol b)
  constructs b := (h'.constructs b).trans (h.constructs b)
  distinct b hb := h'.distinct b (h.distinct b hb)

end ClassShapes

/-- In between, the names were added to the sides. -/
structure ClassShapes.Adds (s : ClassShapes) (names : Bool → String → Bool) (s' : ClassShapes) :
    Prop where
  alike : s.Alike s'
  owns : ∀ isStatic name, name ≠ "" → (s'.side isStatic).owns name =
    (names isStatic name || (s.side isStatic).owns name)

theorem ClassShapes.Adds.refl (s : ClassShapes) : s.Adds (fun _ _ => false) s :=
  ⟨.refl s, fun _ _ _ => rfl⟩

theorem ClassShapes.Adds.trans {s s' s'' : ClassShapes} {names names' : Bool → String → Bool}
    (h : s.Adds names s') (h' : s'.Adds names' s'') :
    s.Adds (fun isStatic name => names isStatic name || names' isStatic name) s'' where
  alike := h.alike.trans h'.alike
  owns isStatic name hname := by
    rw [h'.owns isStatic name hname, h.owns isStatic name hname]
    ac_rfl

theorem upsertProperty_rest (s : Shape) (p : Property) : (upsertProperty s p).kind = s.kind ∧
    (upsertProperty s p).symbol = s.symbol ∧ (upsertProperty s p).constructs = s.constructs := by
  unfold upsertProperty
  split
  · exact ⟨rfl, rfl, rfl⟩
  · split <;> exact ⟨rfl, rfl, rfl⟩

theorem ClassShapes.alike_upsert (s : ClassShapes) (isStatic : Bool) (p : Property) :
    Alike s (s.upsert isStatic p) := by
  have hc := upsertProperty_rest s.constructorShape p
  have hi := upsertProperty_rest s.instanceShape p
  constructor
  case types => cases isStatic <;> rfl
  case distinct =>
    intro other h
    cases isStatic <;> cases other
    exacts [distinct_upsertProperty h p, h, h, distinct_upsertProperty h p]
  all_goals
    intro other
    cases isStatic <;> cases other <;> simp [side, upsert, hc, hi]

theorem ClassShapes.adds_upsert (s : ClassShapes) (isStatic : Bool) (p : Property) :
    s.Adds (fun other name => isStatic == other && p.name == name) (s.upsert isStatic p) :=
  ⟨s.alike_upsert isStatic p, fun _ _ hname => owns_upsert hname⟩

theorem ClassShapes.adds_bases (s : ClassShapes) (bases bases' : List TypeId) :
    s.Adds (fun _ _ => false)
      { s with
        instanceShape := { s.instanceShape with bases := bases }
        constructorShape := { s.constructorShape with bases := bases' } } := by
  refine ⟨⟨rfl, fun b => ?_, fun b => ?_, fun b => ?_, fun b h => ?_⟩, fun b _ _ => ?_⟩
  all_goals cases b
  all_goals first
    | rfl
    | exact h

/-! ## The first pass -/

/-- The members that were gone through, by sort, with what they have added to
a class. -/
structure Sorted (a : Arena) (s : ClassShapes) (done : List NodeId)
    (acc : ClassShapes × ClassMembers) : Prop where
  adds : s.Adds (fun isStatic name => done.any (declaresProperty a isStatic name)) acc.1
  keys : acc.2.methods.keys.Nodup
  methods : ∀ name nodes, acc.2.methods.get? name = some nodes ↔
    nodes ≠ [] ∧ nodes = done.filter (isMethod a name)
  untyped : ∀ p ∈ acc.2.untyped, ∃ member ∈ done, a.form? member = some (.propertyDeclaration p)
  constructors : acc.2.constructors = done.filter (isConstructor a)

theorem sorted_start (a : Arena) (s : ClassShapes) : Sorted a s [] (s, ⟨.empty, [], []⟩) where
  adds := .refl s
  keys := List.nodup_nil
  methods name nodes := by
    rw [Table.get?_empty]
    constructor
    · intro hnone
      cases hnone
    · rintro ⟨hsome, heq⟩
      exact absurd heq hsome
  untyped _ hp := by cases hp
  constructors := rfl

section

variable {a : Arena} {s : ClassShapes} {done : List NodeId} {acc : ClassShapes × ClassMembers}
  {member : NodeId} (hs : Sorted a s done acc)

include hs

/-- A member of some other sort adds nothing. -/
theorem Sorted.skip (hproperty : ∀ isStatic name, declaresProperty a isStatic name member = false)
    (hmethod : ∀ name, isMethod a name member = false) (hconstructor : isConstructor a member = false) :
    Sorted a s (done ++ [member]) acc where
  adds := ⟨hs.adds.alike, fun isStatic name hname => by
    rw [hs.adds.owns isStatic name hname, List.any_append, List.any_cons, hproperty, List.any_nil,
      Bool.or_false, Bool.or_false]⟩
  keys := hs.keys
  methods name nodes := by
    rw [hs.methods, List.filter_append, List.filter_cons_of_neg (by rw [hmethod]; decide),
      List.filter_nil, List.append_nil]
  untyped p hp :=
    have ⟨m, hm, hform⟩ := hs.untyped p hp
    ⟨m, List.mem_append_left _ hm, hform⟩
  constructors := by
    rw [hs.constructors, List.filter_append,
      List.filter_cons_of_neg (by rw [hconstructor]; decide), List.filter_nil, List.append_nil]

/-- A property goes to its side at once. -/
theorem Sorted.property {p : PropertyParts} (hform : a.form? member = some (.propertyDeclaration p))
    (type : TypeId) {untyped : List PropertyParts} (huntyped : ∀ q ∈ untyped, q = p) :
    Sorted a s (done ++ [member]) (acc.1.upsert p.modifiers.isStatic (classProperty a p type),
      { acc.2 with untyped := acc.2.untyped ++ untyped }) where
  adds := by
    have hboth := hs.adds.trans (acc.1.adds_upsert p.modifiers.isStatic (classProperty a p type))
    refine ⟨hboth.alike, fun isStatic name hname => ?_⟩
    have hdeclares : declaresProperty a isStatic name member =
        (p.modifiers.isStatic == isStatic && (classProperty a p type).name == name) := by
      unfold declaresProperty
      rw [hform]
      rfl
    rw [hboth.owns isStatic name hname, List.any_append, List.any_cons, List.any_nil, hdeclares,
      Bool.or_false]
  keys := hs.keys
  methods name nodes := by
    have hmethod : isMethod a name member = false := by simp [isMethod, hform]
    rw [List.filter_append, List.filter_cons_of_neg (by rw [hmethod]; decide), List.filter_nil,
      List.append_nil]
    exact hs.methods name nodes
  untyped q hq := by
    rcases List.mem_append.1 hq with hq | hq
    · obtain ⟨m, hm, hq⟩ := hs.untyped q hq
      exact ⟨m, List.mem_append_left _ hm, hq⟩
    · rw [huntyped q hq]
      exact ⟨member, List.mem_append_right _ (List.mem_singleton_self _), hform⟩
  constructors := by
    have hconstructor : isConstructor a member = false := by simp [isConstructor, hform]
    rw [List.filter_append, List.filter_cons_of_neg (by rw [hconstructor]; decide),
      List.filter_nil, List.append_nil]
    exact hs.constructors

/-- A method joins those of its name. -/
theorem Sorted.method {p : FunctionParts} (hform : a.form? member = some (.function .method p)) :
    Sorted a s (done ++ [member])
      (acc.1, { acc.2 with methods := addNamed acc.2.methods (memberName? a p.name) member }) where
  adds := ⟨hs.adds.alike, fun isStatic name hname => by
    have hdeclares : declaresProperty a isStatic name member = false := by
      simp [declaresProperty, hform]
    rw [List.any_append, List.any_cons, hdeclares, List.any_nil, Bool.or_false, Bool.or_false]
    exact hs.adds.owns isStatic name hname⟩
  keys := Table.nodup_keys_insert hs.keys _ _
  methods name nodes := by
    have hmethod : isMethod a name member = (memberName? a p.name == name) := by
      unfold isMethod
      rw [hform]
    have hold := hs.methods name
    show (acc.2.methods.insert _ _).get? name = some nodes ↔ _
    rw [Table.get?_insert, List.filter_append]
    by_cases hname : memberName? a p.name = name
    · rw [if_pos hname, List.filter_cons_of_pos (by rw [hmethod, beq_iff_eq]; exact hname),
        List.filter_nil, hname]
      have hgot : (acc.2.methods.get? name).getD [] = done.filter (isMethod a name) := by
        cases hget : acc.2.methods.get? name with
        | some found => exact ((hold found).1 hget).2
        | none =>
          by_contra hne
          have hfound := (hold _).2 ⟨fun hempty => hne hempty.symm, rfl⟩
          rw [hget] at hfound
          cases hfound
      rw [hgot, Option.some.injEq]
      constructor
      · rintro rfl
        exact ⟨by simp, rfl⟩
      · rintro ⟨-, rfl⟩
        rfl
    · rw [if_neg hname, List.filter_cons_of_neg (by rw [hmethod, beq_iff_eq]; exact hname),
        List.filter_nil, List.append_nil]
      exact hold nodes
  untyped q hq :=
    have ⟨m, hm, hq⟩ := hs.untyped q hq
    ⟨m, List.mem_append_left _ hm, hq⟩
  constructors := by
    have hconstructor : isConstructor a member = false := by simp [isConstructor, hform]
    rw [List.filter_append, List.filter_cons_of_neg (by rw [hconstructor]; decide),
      List.filter_nil, List.append_nil]
    exact hs.constructors

theorem Sorted.constructor {p : FunctionParts}
    (hform : a.form? member = some (.function .constructor p)) :
    Sorted a s (done ++ [member])
      (acc.1, { acc.2 with constructors := acc.2.constructors ++ [member] }) where
  adds := ⟨hs.adds.alike, fun isStatic name hname => by
    have hdeclares : declaresProperty a isStatic name member = false := by
      simp [declaresProperty, hform]
    rw [List.any_append, List.any_cons, hdeclares, List.any_nil, Bool.or_false, Bool.or_false]
    exact hs.adds.owns isStatic name hname⟩
  keys := hs.keys
  methods name nodes := by
    have hmethod : isMethod a name member = false := by simp [isMethod, hform]
    rw [List.filter_append, List.filter_cons_of_neg (by rw [hmethod]; decide), List.filter_nil,
      List.append_nil]
    exact hs.methods name nodes
  untyped q hq :=
    have ⟨m, hm, hq⟩ := hs.untyped q hq
    ⟨m, List.mem_append_left _ hm, hq⟩
  constructors := by
    have hconstructor : isConstructor a member = true := by simp [isConstructor, hform]
    rw [List.filter_append, List.filter_cons_of_pos hconstructor, List.filter_nil, hs.constructors]

end

section

variable {w : Walk} {self : Rules} {c : Context} (h : Walked w self)

include h

theorem Walked.sorted_addClassMember {s : ClassShapes} {done : List NodeId}
    {acc acc' : ClassShapes × ClassMembers} {member : NodeId} (hs : Sorted c.arena s done acc)
    (hgives : Gives c (addClassMember self acc member) acc') :
    Sorted c.arena s (done ++ [member]) acc' := by
  replace hgives := gives_read hgives
  dsimp only at hgives
  split at hgives
  · rename_i p hform
    obtain ⟨found, -, hgives⟩ := (h.moves_ascription _).gives_bind hgives
    split at hgives
    · rw [gives_pure hgives]
      have hadded := hs.property hform ‹TypeId› fun q (hq : q ∈ ([] : List PropertyParts)) => by
        cases hq
      rwa [List.append_nil] at hadded
    · rw [gives_pure hgives]
      exact hs.property hform .any fun q hq => List.mem_singleton.1 hq
  · rename_i p hform
    rw [gives_pure hgives]
    exact hs.method hform
  · rename_i p hform
    rw [gives_pure hgives]
    exact hs.constructor hform
  · rename_i hproperty hmethod hconstructor
    rw [gives_pure hgives]
    refine hs.skip (fun isStatic name => ?_) (fun name => ?_) ?_
    · unfold declaresProperty
      split
      · exact absurd ‹_› (hproperty _)
      · rfl
    · unfold isMethod
      split
      · exact absurd ‹_› (hmethod _)
      · rfl
    · unfold isConstructor
      split
      · exact absurd ‹_› (hconstructor _)
      · rfl

/-! ## The other passes -/

omit h in
/-- One more thing adds its names. -/
theorem ClassShapes.Adds.snoc {α : Type} {names : Bool → String → α → Bool} {done : List α} {x : α}
    {s s₁ s₂ : ClassShapes} (h : s.Adds (fun isStatic name => done.any (names isStatic name)) s₁)
    (h' : s₁.Adds (fun isStatic name => names isStatic name x) s₂) :
    s.Adds (fun isStatic name => (done ++ [x]).any (names isStatic name)) s₂ := by
  have hboth := h.trans h'
  refine ⟨hboth.alike, fun isStatic name hname => ?_⟩
  rw [hboth.owns isStatic name hname, List.any_append, List.any_cons, List.any_nil, Bool.or_false]

omit h in
/-- A pass over some things, each of which adds names. -/
theorem adds_foldlM {α : Type} {xs : List α} {f : ClassShapes → α → Check ClassShapes}
    {names : Bool → String → α → Bool} (hmoves : ∀ s x, w.Moves c (f s x))
    (hstep : ∀ s x s', Gives c (f s x) s' → s.Adds (fun isStatic name => names isStatic name x) s')
    {s s' : ClassShapes} (hgives : Gives c (xs.foldlM f s) s') :
    s.Adds (fun isStatic name => xs.any (names isStatic name)) s' := by
  refine gives_foldlM (fun done s' => s.Adds (fun isStatic name => done.any (names isStatic name)) s')
    (fun s x st => (hmoves s x st).1) ?_ (.refl s) hgives
  exact fun done s₁ x s₂ hadds hgives => hadds.snoc (hstep s₁ x s₂ hgives)

/-- The base class adds no names. -/
theorem Walked.adds_addBaseClass {heritage : Option NodeId} {s : ClassShapes}
    {r : ClassShapes × Option TypeId} (hgives : Gives c (addBaseClass self s heritage) r) :
    s.Adds (fun _ _ => false) r.1 := by
  unfold addBaseClass at hgives
  split at hgives
  · rw [gives_pure hgives]
    exact .refl s
  · obtain ⟨base, -, hgives⟩ := (h.typeNode c _).gives_bind hgives
    obtain ⟨t, -, hgives⟩ := Moves.gives_bind (w := w) .table hgives
    split at hgives
    · rw [gives_pure hgives]
      exact .refl s
    · split at hgives
      · rw [gives_pure hgives]
        exact .refl s
      · split at hgives
        · rw [gives_pure hgives]
          exact s.adds_bases _ _
        · obtain ⟨found, -, hgives⟩ := (h.moves_classTypes _).gives_bind hgives
          rw [gives_pure hgives]
          exact s.adds_bases _ _

theorem Walked.adds_addParameterProperty {constructor parameter : NodeId} {s s' : ClassShapes}
    (hgives : Gives c (addParameterProperty self constructor s parameter) s') :
    s.Adds (fun isStatic name => !isStatic && isParameterProperty c.arena name parameter) s' := by
  have hnothing (hnone : ∀ name, isParameterProperty c.arena name parameter = false) :
      s.Adds (fun isStatic name => !isStatic && isParameterProperty c.arena name parameter) s := by
    simp only [hnone, Bool.and_false]
    exact .refl s
  replace hgives := gives_read hgives
  split at hgives
  · rename_i hparameter
    rw [gives_pure hgives]
    refine hnothing fun name => ?_
    unfold isParameterProperty
    rw [hparameter]
    rfl
  · rename_i p hparameter
    have hname : ∀ name, isParameterProperty c.arena name parameter =
        (p.modifiers.declaresProperty && memberName c.arena p.name == name) := fun name => by
      unfold isParameterProperty
      rw [hparameter]
      rfl
    split at hgives
    · rename_i hdeclares
      obtain ⟨type, -, hgives⟩ :=
        (Moves.in_scope (h.moves_parameterType parameter)).gives_bind hgives
      rw [gives_pure hgives]
      simp only [hname, hdeclares, Bool.true_and]
      have hadds := s.adds_upsert false ⟨memberName c.arena p.name, type, p.optional,
        p.modifiers.isReadonly⟩
      simpa only [Bool.false_beq] using hadds
    · rename_i hdeclares
      rw [gives_pure hgives]
      refine hnothing fun name => ?_
      rw [hname, Bool.eq_false_iff.2 hdeclares, Bool.false_and]

theorem Walked.adds_addParameterProperties {constructor : NodeId} {s s' : ClassShapes}
    (hgives : Gives c (addParameterProperties self s constructor) s') :
    s.Adds (fun isStatic name => !isStatic && hasParameterProperty c.arena name constructor) s' := by
  have hadds := adds_foldlM (h.moves_addParameterProperty constructor)
    (fun _ _ _ => h.adds_addParameterProperty) (gives_read hgives)
  refine ⟨hadds.alike, fun isStatic name hname => ?_⟩
  rw [hadds.owns isStatic name hname]
  unfold hasParameterProperty
  cases isStatic <;> simp

theorem Walked.adds_addMethod {entry : String × List NodeId} {s s' : ClassShapes}
    (hgives : Gives c (addMethod self s entry) s') :
    s.Adds (fun isStatic name => isStaticMethod c.arena entry.2 == isStatic && entry.1 == name)
      s' := by
  replace hgives := gives_read hgives
  dsimp only at hgives
  have hrest : ∀ type, Gives c (pure (s.upsert (isStaticMethod c.arena entry.2)
      ⟨entry.1, type, false, false⟩) : Check ClassShapes) s' →
      s.Adds (fun isStatic name => isStaticMethod c.arena entry.2 == isStatic && entry.1 == name)
        s' := fun type hgives => by
    rw [gives_pure hgives]
    exact s.adds_upsert (isStaticMethod c.arena entry.2) ⟨entry.1, type, false, false⟩
  split at hgives
  · obtain ⟨type, -, hgives⟩ := (h.moves_methodType _).gives_bind hgives
    exact hrest type hgives
  · obtain ⟨type, -, hgives⟩ := Moves.gives_bind (w := w) (.pure _) hgives
    exact hrest type hgives

end

/-! ## All passes together -/

section

variable {a : Arena} {s : ClassShapes} {members : List NodeId} {acc : ClassShapes × ClassMembers}
  (hs : Sorted a s members acc)

include hs

/-- The methods of a name are on the side of the first of them. -/
theorem Sorted.any_methods (isStatic : Bool) (name : String) :
    (acc.2.methods.entries.any fun e => isStaticMethod a e.2 == isStatic && e.1 == name) =
      (members.find? (isMethod a name)).any fun m => (a.modifiers m).isStatic == isStatic := by
  have hentry : ∀ nodes, (name, nodes) ∈ acc.2.methods.entries ↔
      nodes ≠ [] ∧ nodes = members.filter (isMethod a name) := fun nodes => by
    rw [← hs.methods]
    exact ⟨Table.get?_of_mem hs.keys, Table.mem_of_lookup⟩
  have hhead : (members.filter (isMethod a name)).head? = members.find? (isMethod a name) :=
    List.head?_filter
  rw [Bool.eq_iff_iff, List.any_eq_true]
  constructor
  · rintro ⟨⟨key, nodes⟩, hmem, htest⟩
    rw [Bool.and_eq_true, beq_iff_eq (a := key)] at htest
    obtain ⟨hside, rfl⟩ := htest
    obtain ⟨hsome, rfl⟩ := (hentry nodes).1 hmem
    unfold isStaticMethod at hside
    rw [hhead] at hside
    cases hfind : members.find? (isMethod a key) with
    | none =>
      rw [← hhead, List.head?_eq_none_iff] at hfind
      exact absurd hfind hsome
    | some m =>
      rw [hfind] at hside
      exact hside
  · intro htest
    cases hfind : members.find? (isMethod a name) with
    | none =>
      rw [hfind] at htest
      cases htest
    | some m =>
      rw [hfind] at htest
      rw [← hhead] at hfind
      refine ⟨(name, members.filter (isMethod a name)), (hentry _).2 ⟨fun hempty => ?_, rfl⟩, ?_⟩
      · rw [hempty] at hfind
        cases hfind
      · rw [Bool.and_eq_true, beq_iff_eq (a := name)]
        refine ⟨?_, rfl⟩
        unfold isStaticMethod
        rw [hfind]
        exact htest

/-- The later passes over properties and methods come back to names that are
there already. -/
theorem Sorted.all_passes {s₂ s₃ s₄ s₅ : ClassShapes} {pending : List (String × List NodeId)}
    (hparameters : acc.1.Adds (fun isStatic name => acc.2.constructors.any fun constructor =>
      !isStatic && hasParameterProperty a name constructor) s₂)
    (hmethods : s₂.Adds (fun isStatic name => acc.2.methods.entries.any fun e =>
      isStaticMethod a e.2 == isStatic && e.1 == name) s₃)
    (huntyped : s₃.Adds (fun isStatic name => acc.2.untyped.any fun p =>
      p.modifiers.isStatic == isStatic && memberName a p.name == name) s₄)
    (hpending : s₄.Adds (fun isStatic name => pending.any fun e =>
      isStaticMethod a e.2 == isStatic && e.1 == name) s₅)
    (hsub : ∀ e ∈ pending, e ∈ acc.2.methods.entries) :
    s.Adds (memberOf a members) s₅ := by
  have hall := (((hs.adds.trans hparameters).trans hmethods).trans huntyped).trans hpending
  refine ⟨hall.alike, fun isStatic name hname => ?_⟩
  have hparameter : (acc.2.constructors.any fun constructor =>
      !isStatic && hasParameterProperty a name constructor) =
      (!isStatic && (members.filter (isConstructor a)).any (hasParameterProperty a name)) := by
    rw [hs.constructors]
    cases isStatic <;> simp
  have hproperty : (acc.2.untyped.any fun p =>
      p.modifiers.isStatic == isStatic && memberName a p.name == name) = true →
      members.any (declaresProperty a isStatic name) = true := by
    intro htest
    obtain ⟨p, hp, htest⟩ := List.any_eq_true.1 htest
    obtain ⟨m, hm, hform⟩ := hs.untyped p hp
    refine List.any_eq_true.2 ⟨m, hm, ?_⟩
    unfold declaresProperty
    rw [hform]
    exact htest
  have hmethod : (pending.any fun e => isStaticMethod a e.2 == isStatic && e.1 == name) = true →
      ((members.find? (isMethod a name)).any fun m => (a.modifiers m).isStatic == isStatic) = true := by
    intro htest
    obtain ⟨e, he, htest⟩ := List.any_eq_true.1 htest
    rw [← hs.any_methods]
    exact List.any_eq_true.2 ⟨e, hsub e he, htest⟩
  rw [hall.owns isStatic name hname]
  unfold memberOf
  rw [hparameter, hs.any_methods]
  rw [Bool.eq_iff_iff]
  simp only [Bool.or_eq_true]
  grind

end

end Checking

end ScriptAnalysis
