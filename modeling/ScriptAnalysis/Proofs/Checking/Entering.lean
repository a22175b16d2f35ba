import ScriptAnalysis.Proofs.Checking.Building

/-!
# Classes and interfaces are entered

With at most `n` nested uses, the rules keep the promise of `classWalk` and
say what names of classes come to. This is by induction on `n`. A class that
is not known yet is entered, put together (`Knows.leads_buildClass`) and
merged with the interfaces of its name; an interface is filled in declaration
by declaration. What a name of a class comes to follows the imports.

**Results.**
* `Knows.leads_classTypes`: at the end a class is known and, if it has a
  declaration, finished.
* `Knows.moves_interfaceType`: interfaces leave all classes as they are.
* `Knows.declaredType_class`, `Knows.typeNode_class`: what a name of a class
  gives.
* `knows_rules`: the induction.
* `new_of_heir`: what `new` takes for a class that extends another.
-/
namespace ScriptAnalysis.Checking

open Walk

variable {p c c' : Context} {old : SymbolId → Prop} {s s' : State} {id b : SymbolId}
  {t : ClassTypes} {self : Rules}

/-! ## What interfaces add -/

/-- The shapes stand for the same class or interface. -/
def Shape.Namesake (shape shape' : Shape) : Prop :=
  shape'.kind = shape.kind ∧ shape'.symbol = shape.symbol

theorem Shape.Namesake.trans {s s' s'' : Shape} (h : Shape.Namesake s s')
    (h' : Shape.Namesake s' s'') : Shape.Namesake s s'' :=
  ⟨h'.1.trans h.1, h'.2.trans h.2⟩

/-- Members and bases may have been added, and no name twice. -/
structure Shape.Enlarged (shape shape' : Shape) : Prop where
  namesake : Namesake shape shape'
  distinct : shape.Distinct → shape'.Distinct

theorem Shape.Enlarged.refl (shape : Shape) : Enlarged shape shape :=
  ⟨⟨rfl, rfl⟩, fun h => h⟩

theorem Shape.Enlarged.trans {s s' s'' : Shape} (h : Enlarged s s') (h' : Enlarged s' s'') :
    Enlarged s s'' :=
  ⟨h.namesake.trans h'.namesake, fun hs => h'.distinct (h.distinct hs)⟩

/-- A member with a name that is not taken. -/
theorem Shape.enlarged_push {shape : Shape} {p : Property} (hnew : ¬ isTaken shape p.name = true) :
    Enlarged shape { shape with properties := shape.properties ++ [p] } := by
  refine ⟨⟨rfl, rfl⟩, fun h => nodup_names_concat h fun q hq hsame => hnew ?_⟩
  exact Bool.or_eq_true_iff.2 (.inr (owns_iff.2 ⟨q, hq, hsame⟩))

section

variable {w : Walk} (h : Walked w self)

include h

theorem Walked.enlarged_addBase {shape shape' : Shape} {heritage : NodeId}
    (hgives : Gives c (addBase self shape heritage) shape') : Shape.Enlarged shape shape' := by
  obtain ⟨base, -, hgives⟩ := Moves.gives_bind (h.typeNode c heritage) hgives
  obtain ⟨tb, -, hgives⟩ := Moves.gives_bind (w := w) .table hgives
  split at hgives
  all_goals
    rw [gives_pure hgives]
    exact ⟨⟨rfl, rfl⟩, fun h => h⟩

theorem Walked.enlarged_addSignatureProperty {shape shape' : Shape} {q : PropertyParts}
    (hgives : Gives c (addSignatureProperty self shape q) shape') :
    Shape.Enlarged shape shape' := by
  replace hgives := gives_read hgives
  dsimp only at hgives
  split at hgives
  · rw [gives_pure hgives]
    exact .refl shape
  · rename_i hnew
    obtain ⟨found, -, hgives⟩ := (h.moves_ascription _).gives_bind hgives
    rw [gives_pure hgives]
    exact Shape.enlarged_push hnew

theorem Walked.enlarged_addInterfaceMember {acc acc' : Shape × Table String (List NodeId)}
    {member : NodeId} (hgives : Gives c (addInterfaceMember self acc member) acc') :
    Shape.Enlarged acc.1 acc'.1 := by
  replace hgives := gives_read hgives
  dsimp only at hgives
  split at hgives
  · rename_i q _
    obtain ⟨shape, hshape, hgives⟩ :=
      Moves.gives_bind (h.moves_addSignatureProperty acc.1 q) hgives
    rw [gives_pure hgives]
    exact h.enlarged_addSignatureProperty hshape
  all_goals
    rw [gives_pure hgives]
    exact .refl _

theorem Walked.enlarged_addInterfaceMethod {shape shape' : Shape} {entry : String × List NodeId}
    (hgives : Gives c (addInterfaceMethod self shape entry) shape') :
    Shape.Enlarged shape shape' := by
  unfold addInterfaceMethod at hgives
  dsimp only at hgives
  split at hgives
  · rw [gives_pure hgives]
    exact .refl shape
  · rename_i hnew
    obtain ⟨type, -, hgives⟩ := (h.moves_functionsType _).gives_bind (gives_read hgives)
    rw [gives_pure hgives]
    exact Shape.enlarged_push hnew

/-- Interfaces add members and bases. -/
theorem Walked.enlarged_addInterface {shape shape' : Shape} {d : Site}
    (hgives : Gives c (addInterface self shape d) shape') :
    Shape.Enlarged shape shape' := by
  obtain ⟨s, hs⟩ := gives_read hgives
  -- the declaration may be in another place
  obtain ⟨c', hgives⟩ := gives_excursion ⟨s, hs⟩
  split at hgives
  · rename_i q _
    obtain ⟨shape₁, h₁, hgives⟩ := Moves.gives_bind (.foldlM h.moves_addBase _) hgives
    obtain ⟨acc, h₂, h₃⟩ := Moves.gives_bind (.foldlM h.moves_addInterfaceMember _) hgives
    have hbases : Shape.Enlarged shape shape₁ :=
      gives_foldlM (fun _ => Shape.Enlarged shape) (fun b a st => (h.moves_addBase b a st).1)
        (fun _ _ _ _ hb hg => hb.trans (h.enlarged_addBase hg)) (.refl _) h₁
    have hmembers : Shape.Enlarged shape₁ acc.1 :=
      gives_foldlM (fun _ acc => Shape.Enlarged shape₁ acc.1)
        (fun b a st => (h.moves_addInterfaceMember b a st).1)
        (fun _ _ _ _ hb hg => hb.trans (h.enlarged_addInterfaceMember hg)) (.refl _) h₂
    have hmethods : Shape.Enlarged acc.1 shape' :=
      gives_foldlM (fun _ => Shape.Enlarged acc.1)
        (fun b a st => (h.moves_addInterfaceMethod b a st).1)
        (fun _ _ _ _ hb hg => hb.trans (h.enlarged_addInterfaceMethod hg)) (.refl _) h₃
    exact (hbases.trans hmembers).trans hmethods
  · rw [gives_pure hgives]
    exact .refl shape

theorem Walked.enlarged_addInterfaces {shape shape' : Shape} {ds : List Site}
    (hgives : Gives c (ds.foldlM (addInterface self) shape) shape') :
    Shape.Enlarged shape shape' :=
  gives_foldlM (fun _ => Shape.Enlarged shape) (fun b a st => (h.moves_addInterface b a st).1)
    (fun _ _ _ _ hb hg => hb.trans (h.enlarged_addInterface hg)) (.refl _) hgives

end

/-! ## Classes -/

/-- The types by which a class is known that is entered in a state. -/
def entered (name : Option String) (b : SymbolId) (s : State) : ClassTypes :=
  ⟨s.types.size, (TypeTable.allocate (.bare .instance_ name (some b)) s.types).2.size⟩

/-- The state in which a class is known by two new types. -/
def enter (name : Option String) (b : SymbolId) (s : State) : State :=
  let first := (TypeTable.allocate (.bare .instance_ name (some b)) s.types).2
  { s with
    types := (TypeTable.allocate (.bare .constructor name (some b)) first).2
    classTypes := s.classTypes.insert b (entered name b s) }

section

variable {start : State} (name : Option String)

theorem entered_lt :
    (entered name b start).instanceType < (entered name b start).constructorType := by
  show start.types.size < _
  rw [entered, TypeTable.size_allocate]
  exact Nat.lt_succ_self _

theorem getElem?_enter (type : TypeId) : (enter name b start).types.types[type]? =
    if type = (entered name b start).constructorType then
      some (.object (.bare .constructor name (some b)))
    else if type = (entered name b start).instanceType then
      some (.object (.bare .instance_ name (some b)))
    else start.types.types[type]? := by
  refine (TypeTable.getElem?_allocate _ _ type).trans ?_
  rw [TypeTable.getElem?_allocate]
  rfl

theorem get?_enter (id : SymbolId) : (enter name b start).classTypes.get? id =
    if b = id then some (entered name b start) else start.classTypes.get? id :=
  Table.get?_insert _ _ _ _

/-- A class that was not known is entered so. -/
theorem entered_of_unknown (hsound : Sound p old start) (hnew : start.classTypes.get? b = none) :
    Entered p old start b (entered name b start) (enter name b start) := by
  have hi : (enter name b start).types.shape? (entered name b start).instanceType =
      some (.bare .instance_ name (some b)) := by
    rw [TypeTable.shape?_iff, getElem?_enter, if_neg, if_pos rfl]
    exact Nat.ne_of_lt (entered_lt name)
  have hk : (enter name b start).types.shape? (entered name b start).constructorType =
      some (.bare .constructor name (some b)) := by
    rw [TypeTable.shape?_iff, getElem?_enter, if_pos rfl]
  have hkeeps : Keeps start (enter name b start) := by
    refine ⟨⟨fun id u hid => ?_, fun he => he⟩, fun type data htype => ?_⟩
    · rw [get?_enter, if_neg]
      · exact hid
      · rintro rfl
        rw [hnew] at hid
        cases hid
    · have hlt : type < (entered name b start).instanceType := TypeTable.lt_size_of_getElem? htype
      have hlt' := Nat.lt_trans hlt (entered_lt name)
      rw [getElem?_enter, if_neg (Nat.ne_of_lt hlt'), if_neg (Nat.ne_of_lt hlt)]
      exact htype
  have honly : ∀ id u, id ≠ b → (enter name b start).classTypes.get? id = some u →
      start.classTypes.get? id = some u := by
    intro id u hne hid
    rwa [get?_enter, if_neg hne.symm] at hid
  have hknown : (enter name b start).classTypes.get? b = some (entered name b start) := by
    rw [get?_enter, if_pos rfl]
  have hempty := TypeTable.constructs_of_shape? hk
  refine ⟨⟨⟨?_, hkeeps, ?_, hknown, Nat.le_refl _, Nat.le_of_lt (entered_lt name)⟩, hempty⟩,
    honly, name, hi, hk⟩
  · refine hsound.keep hkeeps (fun id u hnone hid => ?_) fun type i id htype hkind hsymbol => ?_
    · have hb : id = b := by
        by_contra hne
        rw [honly id u hne hid] at hnone
        cases hnone
      subst hb
      rw [hknown] at hid
      cases hid
      exact ⟨⟨⟨_, hi, rfl, rfl⟩, ⟨_, hk, rfl, rfl⟩⟩, hempty⟩
    · rw [TypeTable.shape?_iff, getElem?_enter] at htype
      split at htype
      · cases htype
        cases hkind
      · split at htype
        · rename_i hinstance
          cases htype
          cases hsymbol
          exact .inr ⟨_, hknown, hinstance.symm⟩
        · exact .inl (TypeTable.shape?_iff.2 htype)
  · intro id u hne hnone hid
    rw [honly id u hne hid] at hnone
    cases hnone

end

/-- Filling in the instances leaves the class itself as it is. -/
theorem HasTypes.setShape (h : HasTypes s id t) (shape : Shape) :
    ∃ k, s.types.shape? t.constructorType = some k ∧ k.kind = .constructor ∧ k.symbol = some id ∧
      Reshapes t shape k s
        { s with types := (TypeTable.setShape t.instanceType shape s.types).2 } := by
  obtain ⟨i, hi, hik, -⟩ := h.instance_
  obtain ⟨k, hk, hkk, hks⟩ := h.constructor
  have hne : t.instanceType ≠ t.constructorType := by
    intro heq
    rw [heq, hk] at hi
    cases hi
    rw [hkk] at hik
    cases hik
  have hset := TypeTable.getElem?_setShape hi shape
  refine ⟨k, hk, hkk, hks, rfl, rfl, ?_, ?_, fun type h1 _ => ?_⟩
  · exact TypeTable.shape?_iff.2 ((hset _).trans (if_pos rfl))
  · refine TypeTable.shape?_iff.2 ((hset _).trans ?_)
    rw [if_neg hne]
    exact TypeTable.shape?_iff.1 hk
  · exact (hset type).trans (if_neg (Ne.symm h1))

theorem Leads.at_declaration {α : Type} {F : State → Prop} {x : Check α} {Q : α → State → Prop}
    {file : FileId} {scope : ScopeId}
    (hx : ∀ c', SamePlace c c' → c'.file = file → c'.scope = scope → Leads F c' x Q) :
    Leads F c (atDeclaration file scope x) Q :=
  fun s hs => Leads.moved (hx _ (.of_eq rfl rfl rfl rfl rfl rfl) rfl rfl) rfl s hs

section

variable {start : State} (hpre : Setting p old (AtClass b) c start)

section

variable (hnew : start.classTypes.get? b = none) (h : Walked (classWalk p old) self)

include hpre hnew h

/-- The interfaces of the same name add to the instances of a finished
class. -/
theorem leads_merge {symbol : Symbol} (hb : p.symbol? b = some symbol) {interfaces : List Site}
    (hsome : interfaces ≠ [])
    (hall : ∀ d ∈ interfaces, d ∈ symbol.declarations ∧ isInterface (p.form? d) = true) :
    Leads (fun s => Owned p old start b t s ∧ s.types.constructs t.constructorType ≠ []) c
      (do
        let shape := ((← table).shape? t.instanceType).getD (.bare .instance_ none none)
        let shape ← interfaces.foldlM (addInterface self) shape
        alloc (TypeTable.setShape t.instanceType shape))
      fun _ s => Owned p old start b t s ∧ s.types.constructs t.constructorType ≠ [] := by
  refine .of_each ?_
  rintro s ⟨ho, hopen⟩
  refine .table ?_
  obtain ⟨i, hi, hik, his⟩ := (ho.sound.types b t ho.known).instance_
  rw [hi, Option.getD_some]
  have hmoves : (classWalk p old).Moves c (interfaces.foldlM (addInterface self) i) :=
    .foldlM h.moves_addInterface i
  refine Leads.bind (Q := fun shape s => (Owned p old start b t s ∧
      s.types.constructs t.constructorType ≠ []) ∧ Shape.Namesake i shape) ?_ fun shape => ?_
  · rintro s rfl
    obtain ⟨hback, hstep⟩ := hmoves s
    replace hstep := hstep (ho.here hpre hnew (.refl c))
    refine ⟨hback, ⟨ho.step hstep, ?_⟩, ?_⟩
    · rw [(hstep ho.sound).2.constructs (ho.sound.types b t ho.known)]
      exact hopen
    · exact (h.enlarged_addInterfaces ⟨s, rfl⟩).namesake
  · refine .assume fun hshape => ?_
    rintro s₁ ⟨ho₁, hopen₁⟩
    obtain ⟨k, hk, hkk, hks, hr⟩ := (ho₁.sound.types b t ho₁.known).setShape shape
    have hsame := TypeTable.constructs_of_shape? hk
    have hsame' := TypeTable.constructs_of_shape? hr.constructor
    refine ⟨rfl, ho₁.reshape hr ?_, fun hnone => hopen₁ (hsame.trans (hsame'.symm.trans hnone))⟩
    refine ho₁.sound.reshape ho₁.known hr ⟨hshape.1.trans hik, hshape.2.trans his⟩ ⟨hkk, hks⟩
      (fun _ => hsame.symm) fun _ d kk hclass => ?_
    refine (ho₁.sound.finished b t d kk ho₁.known hclass hopen₁).carry (fun hnone => ?_)
      (hr.constructor.trans hk.symm) hr.remembers fun a base hbase _ => ?_
    · obtain ⟨d', hd'⟩ := List.exists_mem_of_ne_nil _ hsome
      obtain ⟨hmem, hinterface⟩ := hall d' hd'
      have hmerged : p.isMerged b = true := by
        unfold Context.isMerged
        rw [hb]
        exact List.any_eq_true.2 ⟨d', hmem, hinterface⟩
      rw [hmerged] at hnone
      cases hnone
    · by_cases ha : a = b
      · subst ha
        rw [ho₁.known] at hbase
        cases hbase
        exact hsame'.trans hsame.symm
      · obtain ⟨-, -, h3, h4⟩ :=
          (ho₁.sound.types b t ho₁.known).ne (ho₁.sound.types a base hbase) ha
        exact hr.constructs h3 h4

end

include hpre

/-- A class that is asked for is known then. If it is entered only now, its
types come first of all that are new. -/
theorem Knows.leads_classTypes (h : Knows p old self) : Leads (fun s => s = start) c
    (Checking.classTypes self b) fun t s =>
      (Sound p old s ∧ Grows p start s) ∧ ((p.symbol? b).isSome → s.classTypes.get? b = some t ∧
        (start.classTypes.get? b = none → t.instanceType = start.types.size)) := by
  refine .get ?_
  split
  · rename_i known hknown
    refine .pure ?_
    rintro s rfl
    refine ⟨⟨hpre.sound, .refl p s⟩, fun _ => ⟨hknown, fun hnone => ?_⟩⟩
    rw [hknown] at hnone
    cases hnone
  rename_i hnew
  refine .read ?_
  split
  · rename_i hnone
    refine .pure ?_
    rintro s rfl
    rw [hpre.program.symbol?] at hnone
    refine ⟨⟨hpre.sound, .refl p s⟩, fun hsome => ?_⟩
    rw [hnone] at hsome
    cases hsome
  rename_i symbol hsymbol
  rw [hpre.program.symbol?] at hsymbol
  have hentered := entered_of_unknown (some symbol.name) hpre.sound hnew
  let first := TypeTable.allocate (.bare .instance_ (some symbol.name) (some b)) start.types
  let second := TypeTable.allocate (.bare .constructor (some symbol.name) (some b)) first.2
  refine Leads.bind (Q := fun type s => s = { start with types := first.2 } ∧
    type = (entered (some symbol.name) b start).instanceType)
    (by rintro _ rfl; exact ⟨rfl, rfl, rfl⟩) fun i => .assume ?_
  rintro rfl
  refine Leads.bind (Q := fun type s => s = { start with types := second.2 } ∧
    type = (entered (some symbol.name) b start).constructorType)
    (by rintro _ rfl; exact ⟨rfl, rfl, rfl⟩) fun k => .assume ?_
  rintro rfl
  refine Leads.bind (Q := fun _ s => Entered p old start b (entered (some symbol.name) b start) s)
    (by rintro _ rfl; exact ⟨rfl, hentered⟩) fun _ => ?_
  have hfirst : (entered (some symbol.name) b start).instanceType = start.types.size := rfl
  generalize entered (some symbol.name) b start = t at hfirst
  have hform : c.form? = p.form? := funext hpre.program.form?
  rw [hform]
  split
  · rename_i hnone
    refine .pure fun s hs => ⟨⟨hs.sound, hs.grows fun hclass => ?_⟩,
      fun _ => ⟨hs.known, fun _ => hfirst⟩⟩
    have hno : p.classOf? b = none := by
      unfold Context.classOf?
      rw [hsymbol]
      dsimp only [Option.bind_eq_bind, Option.bind_some]
      rw [hnone]
      rfl
    rw [hno] at hclass
    cases hclass
  · rename_i d hd
    obtain ⟨k, hk⟩ : ∃ k, p.form? d = some (.classDeclaration k) := by
      have hclass := List.find?_some hd
      unfold isClass at hclass
      split at hclass
      · exact ⟨_, ‹_›⟩
      · cases hclass
    have hclass : p.classOf? b = some (d, k) := by
      unfold Context.classOf?
      rw [hsymbol]
      dsimp only [Option.bind_eq_bind, Option.bind_some]
      rw [hd]
      dsimp only [Option.bind_some]
      rw [hk]
    extract_lets interfaces ending rest
    rw [hk]
    have hbuilt : Leads (Entered p old start b t) c
        (atDeclaration d.file (c.scopeAround d) (buildClass self b t k)) fun _ s =>
        Owned p old start b t s ∧ s.types.constructs t.constructorType ≠ [] := by
      refine .at_declaration fun c' hc hfile hscope => ?_
      refine h.leads_buildClass hpre hnew hc hfile (hscope.trans ?_) hclass
      unfold Context.scopeAround
      rw [hpre.program.bindings]
    have hend : ∀ u, Leads (fun s => Owned p old start b t s ∧
        s.types.constructs t.constructorType ≠ []) c (ending u) fun t s =>
        (Sound p old s ∧ Grows p start s) ∧ ((p.symbol? b).isSome → s.classTypes.get? b = some t ∧
          (start.classTypes.get? b = none → t.instanceType = start.types.size)) :=
      fun u => .pure fun s hs => ⟨⟨hs.1.sound, hs.1.grows fun _ => hs.2⟩,
        fun _ => ⟨hs.1.known, fun _ => hfirst⟩⟩
    refine hbuilt.bind fun _ => ?_
    show Leads _ c (if _ then _ else _) _
    split
    · exact hend ()
    · rename_i hsome
      have hne : interfaces ≠ [] := fun hempty => hsome (List.isEmpty_iff.2 hempty)
      have hmerged := leads_merge (t := t) hpre hnew h.walked hsymbol hne
        fun d hd => List.mem_filter.1 hd
      exact hmerged.bind hend

end

/-! ## Interfaces -/

/-- Replacing the shape of an interface changes nothing for classes. -/
theorem Sound.refill {type : TypeId} {i i' : Shape} (hs : Sound p old s)
    (hi : s.types.shape? type = some i) (hkind : i.kind = .interface) (hkind' : i'.kind = .interface) :
    Sound p old { s with types := (TypeTable.setShape type i' s.types).2 } ∧
      ∀ id t, s.classTypes.get? id = some t → t.instanceType ≠ type ∧ t.constructorType ≠ type := by
  set s' : State := { s with types := (TypeTable.setShape type i' s.types).2 }
  have hset : ∀ other, s'.types.types[other]? = if type = other then some (.object i')
    else s.types.types[other]? := TypeTable.getElem?_setShape hi i'
  have hother : ∀ other, other ≠ type → s'.types.shape? other = s.types.shape? other := by
    intro other hne
    refine Option.ext fun shape => ?_
    rw [TypeTable.shape?_iff, TypeTable.shape?_iff, hset, if_neg hne.symm]
  have hclasses : ∀ id t, s.classTypes.get? id = some t →
      t.instanceType ≠ type ∧ t.constructorType ≠ type := by
    intro id t hid
    obtain ⟨j, hj, hjk, -⟩ := (hs.types id t hid).instance_
    obtain ⟨k, hk, hkk, -⟩ := (hs.types id t hid).constructor
    constructor
    · rintro rfl
      rw [hi] at hj
      cases hj
      rw [hkind] at hjk
      cases hjk
    · rintro rfl
      rw [hi] at hk
      cases hk
      rw [hkind] at hkk
      cases hkk
  have hconstructs : ∀ id t, s.classTypes.get? id = some t →
      s'.types.constructs t.constructorType = s.types.constructs t.constructorType := by
    intro id t hid
    unfold TypeTable.constructs
    rw [hother _ (hclasses id t hid).2]
  refine ⟨⟨?_, fun id t hid => ?_, fun other j id hj hjk hjs => ?_,
    fun id t d k hid hclass hsome => ?_⟩, hclasses⟩
  · rw [hset, if_neg]
    · exact hs.error
    · rintro rfl
      rw [TypeTable.shape?_iff, hs.error] at hi
      cases hi
  · obtain ⟨h1, h2⟩ := hclasses id t hid
    have hold := hs.types id t hid
    exact ⟨(hother _ h1).symm ▸ hold.instance_, (hother _ h2).symm ▸ hold.constructor⟩
  · by_cases hne : other = type
    · subst hne
      rw [TypeTable.shape?_iff, hset, if_pos rfl] at hj
      cases hj
      rw [hkind'] at hjk
      cases hjk
    · rw [hother _ hne] at hj
      exact hs.instances other j id hj hjk hjs
  · obtain ⟨h1, h2⟩ := hclasses id t hid
    rw [hconstructs id t hid] at hsome
    exact (hs.finished id t d k hid hclass hsome).carry (fun _ => hother _ h1) (hother _ h2)
      ⟨fun _ _ h => h, fun h => h⟩ fun a base hbase _ => hconstructs a base hbase

/-- An interface is filled in. Its type is new since `start`. -/
structure Filled (p : Context) (old : SymbolId → Prop) (start : State) (type : TypeId) (s : State) :
    Prop where
  sound : Sound p old s
  grows : Grows p start s
  new : start.types.size ≤ type
  shape : ∃ shape, s.types.shape? type = some shape ∧ shape.kind = .interface

section

variable {start : State} {type : TypeId}

theorem Filled.step (hf : Filled p old start type s) (hstep : (classWalk p old).Step s s') :
    Filled p old start type s' where
  sound := (hstep hf.sound).1
  grows := hf.grows.trans hf.sound (hstep hf.sound).2
  new := hf.new
  shape := have ⟨shape, hshape, hkind⟩ := hf.shape
    ⟨shape, (hstep hf.sound).2.shape? hshape, hkind⟩

theorem Filled.setShape (hf : Filled p old start type s) {shape : Shape}
    (hkind : shape.kind = .interface) :
    Filled p old start type { s with types := (TypeTable.setShape type shape s.types).2 } := by
  obtain ⟨i, hi, hik⟩ := hf.shape
  obtain ⟨hsound, hclasses⟩ := hf.sound.refill hi hik hkind
  have hset := TypeTable.getElem?_setShape hi shape
  refine ⟨hsound, ⟨⟨⟨hf.grows.classes, hf.grows.exhausted⟩, fun other data hother => ?_⟩,
    fun id t hnone hid hclass => ?_⟩, hf.new, shape, ?_, hkind⟩
  · refine (hset other).trans ?_
    rw [if_neg (Nat.ne_of_gt (Nat.lt_of_lt_of_le (TypeTable.lt_size_of_getElem? hother) hf.new))]
    exact hf.grows.types other data hother
  · have hfresh := hf.grows.fresh id t hnone hid hclass
    obtain ⟨k, hk, -⟩ := (hf.sound.types id t hid).constructor
    obtain ⟨k', hk', -⟩ := (hsound.types id t hid).constructor
    have hsame : k' = k := by
      have hk₁ := (hset t.constructorType).symm.trans (TypeTable.shape?_iff.1 hk')
      rw [if_neg (hclasses id t hid).2.symm, TypeTable.shape?_iff.1 hk] at hk₁
      cases hk₁
      rfl
    rw [TypeTable.constructs_of_shape? hk] at hfresh
    rw [TypeTable.constructs_of_shape? hk', hsame]
    exact hfresh
  · exact TypeTable.shape?_iff.2 ((hset type).trans (if_pos rfl))

/-- The type of an interface is new at first. -/
theorem filled_of_new (hsound : Sound p old start) (name : Option String) (id : Option SymbolId)
    (interfaceTypes : Table SymbolId TypeId) :
    Filled p old start start.types.size { start with
      types := (TypeTable.allocate (.bare .interface name id) start.types).2
      interfaceTypes := interfaceTypes } := by
  have hset := TypeTable.getElem?_allocate start.types (.bare .interface name id)
  have hnone : ∀ id t, start.classTypes.get? id = none → ¬ start.classTypes.get? id = some t := by
    intro id t hnone hsome
    rw [hnone] at hsome
    cases hsome
  have hkeeps : Keeps start { start with
      types := (TypeTable.allocate (.bare .interface name id) start.types).2
      interfaceTypes := interfaceTypes } := by
    refine ⟨⟨fun _ _ h => h, fun h => h⟩, fun type data htype => (hset type).trans ?_⟩
    rw [if_neg (Nat.ne_of_lt (TypeTable.lt_size_of_getElem? htype))]
    exact htype
  refine ⟨hsound.keep hkeeps (fun id t hn ht => absurd ht (hnone id t hn)) ?_,
    ⟨hkeeps, fun id t hn ht => absurd ht (hnone id t hn)⟩, Nat.le_refl _, _,
    TypeTable.shape?_iff.2 ((hset _).trans (if_pos rfl)), rfl⟩
  intro type i id hi hkind _
  replace hi := (hset type).symm.trans (TypeTable.shape?_iff.1 hi)
  split at hi
  · cases hi
    cases hkind
  · exact .inl (TypeTable.shape?_iff.2 hi)

end

/-- Entering an interface keeps the promise. -/
theorem Knows.moves_interfaceType (h : Knows p old self) (id : SymbolId) (symbol : Symbol) :
    (classWalk p old).Moves c (interfaceType self id symbol) := by
  obtain ⟨n, hn⟩ := h.follows
  intro start
  refine ⟨(hn.quiet_interface id symbol start).1, fun hpre _ => ?_⟩
  suffices hleads : Leads (fun s => s = start) c (interfaceType self id symbol) fun _ s =>
      Sound p old s ∧ Grows p start s from (hleads start rfl).2
  refine .get ?_
  split
  · refine .pure ?_
    rintro s rfl
    exact ⟨hpre.sound, .refl p s⟩
  · refine .read ?_
    let bare : Shape := .bare .interface (some symbol.name) (some id)
    refine Leads.bind (Q := fun type s => s = { start with
      types := (TypeTable.allocate bare start.types).2 } ∧ type = start.types.size)
      (by rintro _ rfl; exact ⟨rfl, rfl, rfl⟩) fun type => .assume ?_
    rintro rfl
    refine Leads.bind (Q := fun _ => Filled p old start start.types.size)
      (by rintro _ rfl; exact ⟨rfl, filled_of_new hpre.sound _ _ _⟩) fun _ => ?_
    refine Leads.bind (Q := fun shape s => Filled p old start start.types.size s ∧
      shape.kind = .interface) ?_ fun _ => .pure fun s hs => ⟨hs.1.sound, hs.1.grows⟩
    refine Leads.foldlM (fun _ (shape : Shape) => shape.kind = .interface)
      (fun _ shape d _ hkind => ?_) rfl
    have hadds : Leads (Filled p old start start.types.size) c (addInterface self shape d)
        fun shape s => Filled p old start start.types.size s ∧ shape.kind = .interface := by
      intro s hs
      obtain ⟨hback, hstep⟩ := h.walked.moves_addInterface shape d s
      replace hstep := hstep (hpre.step hs.sound hs.grows.toKeeps)
      exact ⟨hback, hs.step hstep, (h.walked.enlarged_addInterface ⟨s, rfl⟩).namesake.1.trans hkind⟩
    refine hadds.bind fun shape => .assume fun hkind => ?_
    refine Leads.bind (Q := fun _ => Filled p old start start.types.size)
      (fun s hs => ⟨rfl, hs.setShape hkind⟩) fun _ => .pure fun s hs => ⟨hs, hkind⟩

/-! ## Names of classes -/

theorem lasting_exhausted : Lasting fun s => s.exhausted = true :=
  fun _ _ h hr => hr.exhausted h

theorem lasting_namesClass (start : State) (a : SymbolId) (type : TypeId) :
    Lasting fun s => s.exhausted = true ∨ NamesClass old start s a type := by
  rintro s s' (he | ⟨u, hu, hcase⟩) hr
  · exact .inl (hr.exhausted he)
  · exact .inr ⟨u, hr.classes a u hu, hcase⟩

/-- What is said of a state does not get lost on the way. -/
theorem leads_lasting {α : Type} {x : Check α} {K : State → Prop} (hK : Lasting K)
    (hx : (classWalk p old).Moves c x) :
    Leads (fun s => Setting p old Nowhere c s ∧ K s) c x fun _ s =>
      Setting p old Nowhere c s ∧ K s := by
  rintro s ⟨hs, hk⟩
  obtain ⟨hback, hstep⟩ := hx s
  obtain ⟨hsound, hgrows⟩ := hstep hs hs.sound
  exact ⟨hback, hs.step hsound hgrows.toKeeps, hK s _ hk hgrows.toRemembers⟩

section

variable (h : Knows p old self) {n : Nat} {a : SymbolId} {start : State}

include h

/-- A symbol that leads to a class means its instances. -/
theorem Knows.declaredType_class (hpre : Setting p old (Ahead p id) c start)
    (hmeans : Means p n id a) :
    (Checking.declaredType self id c start).2.exhausted = true ∨
      ∃ type, (Checking.declaredType self id c start).1.1 = some type ∧
        NamesClass old start (Checking.declaredType self id c start).2 a type := by
  suffices hleads : Leads (fun s => s = start) c (Checking.declaredType self id) fun found s =>
      s.exhausted = true ∨ ∃ type, found = some type ∧ NamesClass old start s a type from
    (hleads start rfl).2
  refine .read ?_
  cases hmeans with
  | class_ hid himport hclass =>
    have hsymbol := (hpre.program.symbol? id).trans hid
    rw [hsymbol]
    dsimp only
    rw [if_neg (by rw [himport]; decide), if_pos hclass]
    have hentry := (classWalk p old).class_ hpre hsymbol himport hclass
    refine Leads.bind (Q := fun t s => s.exhausted = true ∨ s.classTypes.get? id = some t) ?_
      fun t => .pure fun s hs => hs.imp_right fun ht => ⟨_, rfl, t, ht, .inl rfl⟩
    rintro s rfl
    exact ⟨(h.walked.classTypes c id s).1,
      h.classTypes c id s hentry (Option.isSome_iff_exists.2 ⟨_, hid⟩)⟩
  | @import_ m _ target _ symbol hid himport htarget hmeans =>
    have hsymbol := (hpre.program.symbol? id).trans hid
    rw [hsymbol]
    dsimp only
    rw [if_pos himport, (hpre.program.importTarget? id).trans htarget]
    dsimp only
    split
    · -- the meaning of the import is being worked out
      rename_i hresolving
      refine .pure ?_
      rintro s rfl
      have hthis : Means p (m + 1) id a := .import_ hid himport htarget hmeans
      rcases hpre.placed id (List.contains_iff_mem.1 hresolving) _ a hthis with ⟨⟨t, ht⟩, hold⟩ | hahead
      · exact .inr ⟨_, rfl, t, ht, .inr ⟨rfl, ⟨t, ht⟩, hold⟩⟩
      · obtain ⟨k, hk, hmeans'⟩ := hahead
        rw [(hmeans'.unique hthis).1] at hk
        exact absurd hk (Nat.lt_irrefl _)
    · refine Leads.moved ?_ (by simp)
      rintro s rfl
      refine ⟨(h.walked.declaredType _ target s).1, h.declaredType _ target m a s ?_ hmeans⟩
      exact (classWalk p old).import_ hpre hsymbol himport
        ((hpre.program.importTarget? id).trans htarget)

/-- So does its name where a type is spelled out. -/
theorem Knows.typeNode_class (hpre : Setting p old Nowhere c start) {node name : NodeId}
    {text : String} (hform : c.arena.form? node = some (.typeReference name))
    (htext : c.arena.nameOf? name = some text) (hspelled : text.isEmpty = false)
    (hresolve : c.resolve text .type = some id) (hmeans : Means p n id a) :
    (Checking.typeNode self node c start).2.exhausted = true ∨
      NamesClass old start (Checking.typeNode self node c start).2 a
        (Checking.typeNode self node c start).1.1 := by
  suffices hleads : Leads (fun s => s = start) c (Checking.typeNode self node) fun type s =>
      Setting p old Nowhere c s ∧ (s.exhausted = true ∨ NamesClass old start s a type) from
    (hleads start rfl).2.2
  have hrecord : ∀ node type, Leads (fun s => Setting p old Nowhere c s ∧
      (s.exhausted = true ∨ NamesClass old start s a type)) c
      (do record node type; return type : Check TypeId) fun type s =>
        Setting p old Nowhere c s ∧ (s.exhausted = true ∨ NamesClass old start s a type) :=
    fun node type => (leads_lasting (lasting_namesClass start a type) (.record node type)).bind
      fun _ => .pure fun s hs => hs
  refine .read ?_
  rw [hform]
  refine Leads.bind ?_ fun type => hrecord node type
  refine .read ?_
  rw [htext]
  dsimp only
  rw [if_neg (by rw [hspelled]; decide), hresolve]
  dsimp only
  refine Leads.bind (Q := fun found s => Setting p old Nowhere c s ∧ (s.exhausted = true ∨
    ∃ type, found = some type ∧ NamesClass old start s a type)) ?_ fun found => ?_
  · rintro s rfl
    obtain ⟨hback, hstep⟩ := h.walked.declaredType c id s
    have hahead := (classWalk p old).declaring id hpre
    obtain ⟨hsound, hgrows⟩ := hstep hahead hpre.sound
    exact ⟨hback, hpre.step hsound hgrows.toKeeps, h.declaredType c id n a s hahead hmeans⟩
  · cases found with
    | some type =>
      refine Leads.bind (Leads.pure fun s hs => ⟨hs.1, hs.2.imp_right ?_⟩) (hrecord name)
      rintro ⟨_, heq, hnames⟩
      cases heq
      exact hnames
    | none =>
      have hexhausted : ∀ s, (Setting p old Nowhere c s ∧ (s.exhausted = true ∨
          ∃ type, (none : Option TypeId) = some type ∧ NamesClass old start s a type)) →
          Setting p old Nowhere c s ∧ s.exhausted = true := by
        rintro s ⟨hs, he | ⟨_, hno, -⟩⟩
        · exact ⟨hs, he⟩
        · cases hno
      refine ((leads_lasting lasting_exhausted (.report name (.valueUsedAsType text))).weaken
        hexhausted fun _ _ hs => hs).bind fun _ => ?_
      exact Leads.bind (Leads.pure fun s hs => ⟨hs.1, .inl hs.2⟩) (hrecord name)

end

/-! ## All rules -/

/-- The rules keep the promise, however deeply they may be nested. -/
theorem knows_rules (p : Context) (old : SymbolId → Prop) (n : Nat) : Knows p old (rules n) := by
  induction n with
  | zero =>
    exact
      { walked := walked_noRules _
        follows := ⟨0, rules_follow 0⟩
        classTypes := fun _ _ _ _ _ => .inl rfl
        declaredType := fun _ _ _ _ _ _ _ => .inl rfl
        typeNode := fun _ _ _ _ _ _ _ _ _ => .inl rfl }
  | succ n ih =>
    have hclass : ∀ c id, (classWalk p old).From ((classWalk p old).Entering id) c
        (Checking.classTypes (rules n) id) := by
      intro c id s
      obtain ⟨m, hm⟩ := ih.follows
      refine ⟨(hm.quiet_class id s).1, fun hpre _ => ?_⟩
      exact (ih.leads_classTypes hpre s rfl).2.1
    exact
      { walked := ih.walked.next hclass fun c id symbol _ => ih.moves_interfaceType id symbol
        follows := ⟨n + 1, rules_follow (n + 1)⟩
        classTypes := fun c id s hpre hsome =>
          .inr ((ih.leads_classTypes hpre s rfl).2.2 hsome).1
        declaredType := fun c id n a s hpre hmeans => ih.declaredType_class hpre hmeans
        typeNode := fun c node id n a s hpre ⟨_, _, hform, htext, hspelled, hresolve⟩ hmeans =>
          ih.typeNode_class hpre hform htext hspelled hresolve hmeans }

/-! ## A class that extends another -/

/-- The class has been entered and has no construct signatures yet. -/
def InTheMaking (s : State) (a : SymbolId) : Prop :=
  ∃ t, s.classTypes.get? a = some t ∧ s.types.constructs t.constructorType = []

/-- The classes that are known and not in the making. -/
def Complete (s : State) (a : SymbolId) : Prop :=
  ∃ t, s.classTypes.get? a = some t ∧ s.types.constructs t.constructorType ≠ []

/-- From here on others count as old, all that are complete among them. -/
theorem Sound.renew {new : SymbolId → Prop} (h : Sound p old s)
    (hnew : ∀ id, Complete s id → new id) : Sound p new s where
  error := h.error
  types := h.types
  instances := h.instances
  finished id t d k hid hclass hsome :=
    { h.finished id t d k hid hclass hsome with
      heir := fun hnone a hextends hne hbase =>
        ((h.finished id t d k hid hclass hsome).heir hnone a hextends hne hbase).imp_right
          fun ⟨base, hget, hcase⟩ => ⟨base, hget, hcase.imp_right fun ⟨hnothing, hlt, _⟩ =>
            ⟨hnothing, hlt, fun _ => hnew id ⟨t, hid, hsome⟩⟩⟩ }

/-- Wherever the checker asks for a class that is not known yet, has no
constructor and extends another class: `new` takes nothing for it if the other
class is in the making, and what it takes for the other class if not. The
classes that the imports lead to that are being resolved are in the making, or
are the class itself. -/
theorem new_of_heir (n : Nat) {a : SymbolId} {d : Site} {k : ClassParts} (hp : InProgram p c)
    (hs : Sound p old s)
    (himports : ∀ id ∈ c.resolvingTypes, ∀ m e, Means p m id e → InTheMaking s e ∨ e = b)
    (hnew : s.classTypes.get? b = none) (hclass : p.classOf? b = some (d, k))
    (hnone : k.members.any (isConstructor (p.sourceFile d.file).arena) = false)
    (hextends : Extends p d k a) (hne : a ≠ b) (hbase : (p.classOf? a).isSome) :
    let s' := ((rules n).classTypes b c s).2
    s'.exhausted = true ∨ ∃ t base, s'.classTypes.get? b = some t ∧
      s'.classTypes.get? a = some base ∧ (InTheMaking s a → TakesNothing s' t) ∧
      (¬ InTheMaking s a → Inherits s' t base) := by
  cases n with
  | zero => exact .inl rfl
  | succ n =>
    intro s'
    have hpre : Setting p (Complete s) (AtClass b) c s :=
      { program := hp
        sound := hs.renew fun _ h => h
        known := fun id ⟨t, ht, hsome⟩ => ⟨t, ht, fun _ => hsome⟩
        placed := fun id hid m e hmeans => (himports id hid m e hmeans).imp_left
          fun ⟨t, ht, hempty⟩ => ⟨⟨t, ht⟩, fun ⟨u, hu, hsome⟩ => by
            rw [ht] at hu
            cases hu
            exact hsome hempty⟩ }
    have hsymbol : (p.symbol? b).isSome := by
      unfold Context.classOf? at hclass
      cases hfound : p.symbol? b with
      | none =>
        rw [hfound] at hclass
        cases hclass
      | some _ => rfl
    obtain ⟨-, ⟨hsound, hgrows⟩, hknown⟩ :=
      (knows_rules p (Complete s) n).leads_classTypes hpre s rfl
    obtain ⟨ht, hfirst⟩ := hknown hsymbol
    have hfinished := hsound.finished b _ d k ht hclass
      (hgrows.fresh b _ hnew ht (Option.isSome_iff_exists.2 ⟨_, hclass⟩))
    refine (hfinished.heir hnone a hextends hne hbase).imp_right ?_
    rintro ⟨base, hget, hcase⟩
    refine ⟨_, base, ht, hget, ?_, ?_⟩
    · rintro ⟨u, hu, hempty⟩
      have hub := hgrows.classes a u hu
      rw [hget] at hub
      cases hub
      refine (hcase.resolve_left fun hinherits => hinherits.1 ?_).1
      rw [hgrows.constructs (hs.types a base hu)]
      exact hempty
    · intro hmade
      refine hcase.resolve_right fun ⟨_, hlt, hold⟩ => ?_
      cases hu : s.classTypes.get? a with
      | some u =>
        -- the other class is complete, and so the class would be known
        obtain ⟨t, ht', -⟩ := hold ⟨u, hu, fun hempty => hmade ⟨u, hu, hempty⟩⟩
        rw [hnew] at ht'
        cases ht'
      | none =>
        -- the other class is entered later, and so its types are younger
        obtain ⟨i, hi, hkind, hname⟩ := (hsound.types a base hget).instance_
        rw [hfirst hnew] at hlt
        obtain ⟨data, hdata⟩ : ∃ data, s.types.types[base.instanceType]? = some data :=
          ⟨_, Array.getElem?_eq_getElem hlt⟩
        have hsame := hgrows.types _ _ hdata
        rw [TypeTable.shape?_iff.1 hi] at hsame
        cases hsame
        obtain ⟨t, ht', -⟩ := hs.instances _ i a (TypeTable.shape?_iff.2 hdata) hkind hname
        rw [hu] at ht'
        cases ht'

end ScriptAnalysis.Checking
