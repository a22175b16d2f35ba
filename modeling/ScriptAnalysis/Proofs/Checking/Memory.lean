import ScriptAnalysis.Proofs.Checking.Tables
import ScriptAnalysis.Proofs.Types.Alike

/-!
# What the checker remembers

What has been found out stays as it is, and what is being resolved stays
unknown until that has come to an end. A computation on the way only adds to
what is known. The objects that it fills in are its own.

**Members.** That a class is the owner of a member is noted when the class is
entered, so only members of classes that were unknown get an owner.

**Results.**
* `Retained`: what is known at one state is known at another.
* `retained_rules`: all rules promise that.
-/
namespace ScriptAnalysis

/-- What was known is known, and nothing has been found out about `idle`. -/
structure Table.Keeps {κ ν : Type} [DecidableEq κ] (idle : List κ) (t t' : Table κ ν) : Prop where
  known : ∀ k v, t.get? k = some v → t'.get? k = some v
  unknown : ∀ k ∈ idle, t.get? k = none → t'.get? k = none

section

variable {κ ν : Type} [DecidableEq κ] {idle : List κ} {t t' t'' : Table κ ν}

theorem Table.Keeps.refl (idle : List κ) (t : Table κ ν) : Table.Keeps idle t t :=
  ⟨fun _ _ h => h, fun _ _ h => h⟩

theorem Table.Keeps.of_eq (h : t' = t) : Table.Keeps idle t t' :=
  h ▸ .refl idle t

theorem Table.Keeps.trans (h : Table.Keeps idle t t') (h' : Table.Keeps idle t' t'') :
    Table.Keeps idle t t'' :=
  ⟨fun k v hk => h'.known k v (h.known k v hk), fun k hk hnone => h'.unknown k hk (h.unknown k hk hnone)⟩

theorem Table.Keeps.new (h : Table.Keeps idle t t') {k : κ} (hk : t'.get? k = none) :
    t.get? k = none := by
  cases hold : t.get? k with
  | none => rfl
  | some v => cases (h.known k v hold).symm.trans hk

theorem Table.Keeps.insert (h : Table.Keeps idle t t') {k : κ} (hnew : t.get? k = none)
    (hidle : k ∉ idle) (v : ν) : Table.Keeps idle t (t'.insert k v) where
  known k' v' hk' := by
    rw [Table.get?_insert, if_neg, h.known k' v' hk']
    rintro rfl
    cases hnew.symm.trans hk'
  unknown k' hk' hnone := by
    rw [Table.get?_insert, if_neg, h.unknown k' hk' hnone]
    rintro rfl
    exact hidle hk'

end

namespace Checking

/-- The site is a member in the declaration of the class. -/
def Context.HasMember (p : Context) (owner : SymbolId) (site : Site) : Prop :=
  ∃ d k, p.classOf? owner = some (d, k) ∧ site.file = d.file ∧ site.node ∈ k.members

/-- What was known at `s` is known at `t`, and nothing has been found out about
what is being resolved at `p`. -/
structure Retained (p : Context) (s t : State) : Prop where
  types : TypeTable.Extends s.types t.types
  values : Table.Keeps p.resolvingValues s.valueTypes t.valueTypes
  aliases : Table.Keeps p.resolvingTypes s.aliasTypes t.aliasTypes
  signatures : Table.Keeps p.resolvingSignatures s.signatures t.signatures
  classes : Table.Keeps [] s.classTypes t.classTypes
  interfaces : Table.Keeps [] s.interfaceTypes t.interfaceTypes
  members : Table.Keeps [] s.apparent t.apparent
  owned : ∀ site, (s.memberOwners.get? site).isSome → (t.memberOwners.get? site).isSome
  owners : ∀ site owner, t.memberOwners.get? site = some owner →
    s.memberOwners.get? site = some owner ∨
      s.classTypes.get? owner = none ∧ p.HasMember owner site

variable {p c : Context} {s t u : State}

theorem Retained.refl (p : Context) (s : State) : Retained p s s where
  types := .refl s.types
  values := .refl _ _
  aliases := .refl _ _
  signatures := .refl _ _
  classes := .refl _ _
  interfaces := .refl _ _
  members := .refl _ _
  owned _ h := h
  owners _ _ h := .inl h

theorem Retained.trans (h : Retained p s t) (h' : Retained p t u) : Retained p s u where
  types := h.types.trans h'.types
  values := h.values.trans h'.values
  aliases := h.aliases.trans h'.aliases
  signatures := h.signatures.trans h'.signatures
  classes := h.classes.trans h'.classes
  interfaces := h.interfaces.trans h'.interfaces
  members := h.members.trans h'.members
  owned site hs := h'.owned site (h.owned site hs)
  owners site owner hu := by
    rcases h'.owners site owner hu with ht | ⟨hnew, hmember⟩
    · exact h.owners site owner ht
    · exact .inr ⟨h.classes.new hnew, hmember⟩

/-! ## The promise -/

/-- The place is in the program, and what is being resolved at `p` still is. -/
structure Behind (p c : Context) : Prop extends InProgram p c where
  values : p.resolvingValues ⊆ c.resolvingValues
  types : p.resolvingTypes ⊆ c.resolvingTypes
  signatures : p.resolvingSignatures ⊆ c.resolvingSignatures

theorem Behind.refl (p : Context) : Behind p p :=
  ⟨⟨rfl, rfl⟩, List.Subset.refl _, List.Subset.refl _, List.Subset.refl _⟩

theorem Behind.move {c' : Context} (h : Behind p c) (hc : SamePlace c c') : Behind p c' where
  toInProgram := hc.program h.toInProgram
  values := List.Subset.trans h.values hc.resolvingValues
  types := hc.resolvingTypes ▸ h.types
  signatures := List.Subset.trans h.signatures hc.resolvingSignatures

theorem Behind.push (h : Behind p c) (id : SymbolId) :
    Behind p { c with resolvingTypes := id :: c.resolvingTypes } :=
  ⟨⟨h.files, h.bindings⟩, h.values, List.Subset.trans h.types (List.subset_cons_self _ _),
    h.signatures⟩

/-- What is known is kept. -/
def memory (p : Context) : Walk where
  Here c _ := Behind p c
  Step := Retained p
  Declaring _ c _ := Behind p c
  Entering _ c _ := Behind p c
  refl := .refl p
  trans := .trans
  stay h _ := h
  place hc h := h.move hc
  found h :=
    { types := h.types.extends
      values := .of_eq h.valueTypes
      aliases := .of_eq h.aliasTypes
      signatures := .of_eq h.signatures
      classes := .of_eq h.classTypes
      interfaces := .of_eq h.interfaceTypes
      members := .of_eq h.apparent
      owned := by
        intro site
        rw [h.memberOwners]
        exact id
      owners := by
        intro site owner
        rw [h.memberOwners]
        exact .inl }
  learned hc h hl := by
    cases hl with
    | value hnew hidle type => exact { h with values := h.values.insert hnew (hidle <| hc.values ·) type }
    | alias_ hnew hidle type => exact { h with aliases := h.aliases.insert hnew (hidle <| hc.types ·) type }
    | signature hnew hidle found =>
      exact { h with signatures := h.signatures.insert hnew (hidle <| hc.signatures ·) found }
    | member hnew type => exact { h with members := h.members.insert hnew List.not_mem_nil type }
  exhausts s := { Retained.refl p s with }
  declaring _ h := h
  entering _ h := h
  import_ h _ _ _ := h.push _
  class_ h _ _ _ := h
  other h _ _ _ := h
  alias_ h _ _ _ := h.push _

/-! ## Objects that are filled in -/

/-- Only an object that is new is filled in. -/
theorem Retained.setShape (h : Retained p s t) {id : TypeId} (hid : s.types.size ≤ id)
    (shape : Shape) :
    Retained p s { t with types := (TypeTable.setShape id shape t.types).2 } :=
  { h with
    types := fun i data hi => by
      have hold := h.types i data hi
      have hne : id ≠ i := fun heq =>
        Nat.not_lt.2 hid (heq ▸ TypeTable.lt_size_of_getElem? hi)
      show (TypeTable.setShape id shape t.types).2.types[i]? = some data
      rw [TypeTable.setShape_eq]
      split
      · rw [Array.getElem?_setIfInBounds, if_neg hne]
        exact hold
      · exact hold }

/-- What lasts as long as the classes and interfaces that are known stay known. -/
def Stays (K : State → Prop) : Prop :=
  ∀ s t, Table.Keeps [] s.classTypes t.classTypes →
    Table.Keeps [] s.interfaceTypes t.interfaceTypes → K s → K t

section

variable {α β : Type} {x : Check α} {self : Rules} {start : State} {K : State → Prop}

section

variable (hK : Stays K)

include hK

theorem retained_moves (hc : Behind p c) (hx : (memory p).Moves c x) :
    Leads (fun s => Retained p start s ∧ K s) c x fun _ s => Retained p start s ∧ K s := by
  rintro s ⟨hs, hk⟩
  have hstep := (hx s).2 hc
  exact ⟨(hx s).1, hs.trans hstep, hK _ _ hstep.classes hstep.interfaces hk⟩

theorem retained_setShape {id : TypeId} (hid : start.types.size ≤ id) (shape : Shape) :
    Leads (fun s => Retained p start s ∧ K s) c (alloc (TypeTable.setShape id shape))
      fun _ s => Retained p start s ∧ K s :=
  fun s hs => ⟨rfl, hs.1.setShape hid shape, hK s _ (.refl _ _) (.refl _ _) hs.2⟩

/-- The types of the class are new. -/
theorem publishes_retained (hc : Behind p c) :
    Publishes (memory p) c (fun s => Retained p start s ∧ K s)
      fun shapes => start.types.size ≤ shapes.types.instanceType ∧
        start.types.size ≤ shapes.types.constructorType where
  moves hx := retained_moves hK hc hx
  publish hd := (retained_setShape hK hd.1 _).bind fun _ => retained_setShape hK hd.2 _
  alike hd ha := by rwa [ha.types]

end

/-- A new object. -/
theorem retained_bare (kind : ObjectKind) (name : Option String) (symbol : Option SymbolId) :
    Leads (Retained p start) c (alloc (TypeTable.allocate (.bare kind name symbol)))
      fun id s => Retained p start s ∧ start.types.size ≤ id := by
  refine fun s hs => ⟨rfl, { hs with types := hs.types.trans (s.types.extends_allocate _) }, ?_⟩
  exact hs.types.kept.size

theorem retained_table {F : State → Prop} {f : TypeTable → Check β} {Q : β → State → Prop}
    (h : ∀ t, Leads F c (f t) Q) : Leads F c (table >>= f) Q :=
  fun s hs => h s.types s hs

variable (h : Walked (memory p) self)

include h

theorem retained_buildClass (hK : Stays K) {id : SymbolId} {types : ClassTypes} {d : Site}
    {k : ClassParts} (hc : Behind p c) (hclass : p.classOf? id = some (d, k))
    (hfile : c.file = d.file) (hnew : start.classTypes.get? id = none)
    (hinstance : start.types.size ≤ types.instanceType)
    (hconstructor : start.types.size ≤ types.constructorType) :
    Leads (fun s => Retained p start s ∧ K s) c (buildClass self id types k)
      fun _ s => Retained p start s ∧ K s := by
  have howners : Leads (fun s => Retained p start s ∧ K s) c
      (k.members.forM fun member =>
        modify fun s => { s with memberOwners := s.memberOwners.insert (c.site member) id })
      fun _ s => Retained p start s ∧ K s := by
    refine .forM fun member hmember s ⟨hs, hk⟩ =>
      ⟨rfl, { hs with owned := ?_, owners := ?_ }, hK s _ (.refl _ _) (.refl _ _) hk⟩
    · intro site hsite
      show ((s.memberOwners.insert _ id).get? site).isSome
      rw [Table.get?_insert]
      split
      · rfl
      · exact hs.owned site hsite
    · intro site owner howner
      replace howner : (s.memberOwners.insert (c.site member) id).get? site = some owner := howner
      rw [Table.get?_insert] at howner
      split at howner
      · rename_i heq
        cases heq
        cases howner
        exact .inr ⟨hnew, d, k, hclass, hfile, hmember⟩
      · exact hs.owners site owner howner
  refine .read (howners.bind fun _ => .moved (retained_table fun t => ?_) rfl)
  extract_lets shapes
  replace hc : Behind p { c with thisTypes := types.instanceType :: c.thisTypes } :=
    hc.move (.of_eq rfl rfl rfl rfl rfl rfl)
  generalize { c with thisTypes := types.instanceType :: c.thisTypes } = c at hc ⊢
  have hp : Publishes (memory p) c (fun s => Retained p start s ∧ K s) fun shapes =>
      start.types.size ≤ shapes.types.instanceType ∧
        start.types.size ≤ shapes.types.constructorType := publishes_retained hK hc
  have hshapes : start.types.size ≤ shapes.types.instanceType ∧
      start.types.size ≤ shapes.types.constructorType := ⟨hinstance, hconstructor⟩
  refine (hp.leads_given (h.moves_addBaseClass _ _)).bind fun found => .assume fun hgives => ?_
  obtain ⟨s₁, base⟩ := found
  have hs₁ := hp.alike hshapes (h.adds_addBaseClass hgives).alike
  refine (hp.leads_sorted h s₁ k.members).bind fun acc => .assume fun hsorted => ?_
  refine hp.leads_passes h hs₁ hsorted fun s₂ hadds => ?_
  have hs₂ := hp.alike hs₁ hadds.alike
  exact (hp.moves (h.moves_constructSignatures _ _ _)).bind fun constructs => hp.publish hs₂

/-- What is known is kept, and from then on the class is known. -/
theorem retained_classTypes (hc : Behind p c) (id : SymbolId) :
    Leads (fun t => t = start) c (Checking.classTypes self id) fun types t =>
      Retained p start t ∧ ((c.symbol? id).isSome → t.classTypes.get? id = some types) := by
  refine .get ?_
  split
  · rename_i hknown
    refine .pure ?_
    rintro _ rfl
    exact ⟨.refl p _, fun _ => hknown⟩
  rename_i hnew
  refine Leads.weaken (F := Retained p start) (.read ?_) (fun _ ht => ht ▸ .refl p _) fun _ _ ht => ht
  split
  · rename_i hnone
    exact .pure fun _ hs => ⟨hs, by simp [hnone]⟩
  rename_i symbol hsymbol
  refine (retained_bare _ _ _).bind fun instanceType => .assume fun hinstance => ?_
  refine (retained_bare _ _ _).bind fun constructorType => .assume fun hconstructor => ?_
  have hK : Stays fun s => s.classTypes.get? id = some ⟨instanceType, constructorType⟩ :=
    fun _ _ hclasses _ => hclasses.known _ _
  refine Leads.weaken (Q := fun types t => (Retained p start t ∧
    t.classTypes.get? id = some ⟨instanceType, constructorType⟩) ∧
      types = ⟨instanceType, constructorType⟩) ?_ (fun _ hs => hs) ?_
  swap
  · rintro types t ⟨⟨ht, hknown⟩, rfl⟩
    exact ⟨ht, fun _ => hknown⟩
  refine Leads.bind (Q := fun _ t => Retained p start t ∧
      t.classTypes.get? id = some ⟨instanceType, constructorType⟩) (fun s hs =>
    ⟨rfl, { hs with classes := hs.classes.insert hnew List.not_mem_nil _ }, ?_⟩) fun _ => ?_
  · show (s.classTypes.insert id _).get? id = _
    rw [Table.get?_insert, if_pos rfl]
  split
  · exact .pure fun _ hs => ⟨hs, rfl⟩
  rename_i d hd
  extract_lets interfaces finish rest
  have hfinish : ∀ done, Leads (fun t => Retained p start t ∧
      t.classTypes.get? id = some ⟨instanceType, constructorType⟩) c (finish done)
      fun types t => (Retained p start t ∧
        t.classTypes.get? id = some ⟨instanceType, constructorType⟩) ∧
          types = ⟨instanceType, constructorType⟩ :=
    fun _ => .pure fun _ hs => ⟨hs, rfl⟩
  have hrest : ∀ done, Leads (fun t => Retained p start t ∧
      t.classTypes.get? id = some ⟨instanceType, constructorType⟩) c (rest done)
      fun types t => (Retained p start t ∧
        t.classTypes.get? id = some ⟨instanceType, constructorType⟩) ∧
          types = ⟨instanceType, constructorType⟩ := by
    intro done
    show Leads _ c (if _ then _ else _) _
    split
    · exact hfinish ()
    · refine retained_table fun t =>
        (retained_moves hK hc (.foldlM h.moves_addInterface _)).bind fun _ => ?_
      exact (retained_setShape hK hinstance _).bind hfinish
  split
  · rename_i k hk
    have hclass : p.classOf? id = some (d, k) := by
      have hd' : symbol.declarations.find? (fun d => isClass (p.form? d)) = some d := by
        rw [← hd]
        congr 1
        funext d
        rw [hc.form?]
      rw [hc.symbol?] at hsymbol
      rw [hc.form?] at hk
      simp [Context.classOf?, hsymbol, hd', hk]
    exact (Leads.at_declaration fun c' hsame hfile _ => retained_buildClass h hK (hc.move hsame)
      hclass hfile hnew hinstance hconstructor).bind hrest
  · exact hrest ()

/-- What is known is kept, and from then on the interface is known. -/
theorem retained_interfaceType (hc : Behind p c) (id : SymbolId) (symbol : Symbol) :
    Leads (fun t => t = start) c (interfaceType self id symbol) fun type t =>
      Retained p start t ∧ t.interfaceTypes.get? id = some type := by
  refine .get ?_
  split
  · rename_i hknown
    refine .pure ?_
    rintro _ rfl
    exact ⟨.refl p _, hknown⟩
  rename_i hnew
  refine Leads.weaken (F := Retained p start) (.read ?_) (fun _ ht => ht ▸ .refl p _) fun _ _ ht => ht
  refine (retained_bare _ _ _).bind fun type => .assume fun htype => ?_
  have hK : Stays fun s => s.interfaceTypes.get? id = some type :=
    fun _ _ _ hinterfaces => hinterfaces.known _ _
  refine Leads.bind (Q := fun _ t => Retained p start t ∧ t.interfaceTypes.get? id = some type)
    (fun s hs => ⟨rfl, { hs with interfaces := hs.interfaces.insert hnew List.not_mem_nil _ }, ?_⟩)
    fun _ => ?_
  · show (s.interfaceTypes.insert id _).get? id = _
    rw [Table.get?_insert, if_pos rfl]
  refine (Leads.foldlM (fun _ (_ : Shape) => True) (fun _ shape d _ _ => ?_) trivial).bind
    fun _ => .pure fun _ hs => hs.1
  refine (retained_moves hK hc (h.moves_addInterface shape d)).bind fun _ => ?_
  exact (retained_setShape hK htype _).bind fun _ => .pure fun _ hs => ⟨hs, trivial⟩

omit h

/-- All rules keep what is known. -/
theorem retained_rules (p : Context) (n : Nat) : Walked (memory p) (rules n) := by
  induction n with
  | zero => exact walked_noRules _
  | succ n ih =>
    have hback : ∀ c id s, (Checking.classTypes (rules n) id c s).1.2 = c := fun c id s =>
      ((filled_rules (n + 1)).classTypes c id s).1
    have hback' : ∀ c id symbol s, (interfaceType (rules n) id symbol c s).1.2 = c := fun c id symbol s =>
      (since_interfaceType (filled_rules n) id symbol s (.refl _)).1
    refine ih.next (fun c id s => ⟨hback c id s, fun hc => ?_⟩)
      fun c id symbol _ s => ⟨hback' c id symbol s, fun hc => ?_⟩
    · exact (retained_classTypes ih hc id s rfl).2.1
    · exact (retained_interfaceType ih hc id symbol s rfl).2.1

end

end Checking

end ScriptAnalysis
