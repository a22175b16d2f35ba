import ScriptAnalysis.Proofs.Checking.Members
import ScriptAnalysis.Proofs.Checking.Termination

/-!
# Classes in the making

The types of a class are in the table before its members are known, so while
a class is put together others may look at it. Here: what may be seen of it
then, and what holds of it ever after.

**Classes.** A class is unfinished while it has no construct signatures, and
is put together by the one call that has entered it. `Finished` is what holds
of a class from then on. `Sound` says it of all classes of a state, `Grows`
that nothing that was there has changed and that all classes that are new are
finished. A use of a rule keeps both (`classWalk`), although the call that
puts a class together changes its types again and again (`Framed`): nobody
else has seen them before.

**Imports.** A class may be extended by a name that is imported. `Means` is
what such a name stands for. While the meaning of an import is worked out it
is an error type, so a class that is entered meanwhile has no base; by then the
class that is meant has been entered (`Setting.placed`).

**Results.**
* `Sound.grow`, `Sound.reshape`: what finding types and publishing shapes keep.
* `Framed.…`: one step of the call that puts a class together.
* `knows_rules`: the rules keep what `classWalk` promises.
-/
namespace ScriptAnalysis.Checking

open Walk

/-! ## Classes of a program -/

/-- The declaration that a class is put together from, the first of its
symbol. -/
def Context.classOf? (c : Context) (id : SymbolId) : Option (Site × ClassParts) := do
  let symbol ← c.symbol? id
  let d ← symbol.declarations.find? fun d => isClass (c.form? d)
  match c.form? d with
  | some (.classDeclaration k) => some (d, k)
  | _ => none

/-- The symbol leads to the class by some imports. -/
inductive Means (c : Context) : Nat → SymbolId → SymbolId → Prop
  | class_ {id : SymbolId} {symbol : Symbol} (h : c.symbol? id = some symbol)
      (himport : symbol.flags.alias_ = false) (hclass : symbol.flags.class_ = true) : Means c 0 id id
  | import_ {n : Nat} {id target a : SymbolId} {symbol : Symbol} (h : c.symbol? id = some symbol)
      (himport : symbol.flags.alias_ = true) (htarget : c.importTarget? id = some target)
      (hmeans : Means c n target a) : Means c (n + 1) id a

/-- The symbol that a class names behind `extends`. -/
def Context.heritage? (c : Context) (d : Site) (k : ClassParts) : Option SymbolId := do
  match c.form? ⟨d.file, ← k.heritage⟩ with
  | some (.typeReference name) =>
    let text ← (c.sourceFile d.file).arena.nameOf? name
    if text.isEmpty then none else c.bindings.resolve (c.scopeAround d) text .type
  | _ => none

/-- The class that is declared at `d` names the class `a` behind `extends`. -/
def Extends (c : Context) (d : Site) (k : ClassParts) (a : SymbolId) : Prop :=
  ∃ id n, c.heritage? d k = some id ∧ Means c n id a

/-- Interfaces of the same name add to the instances of the class. -/
def Context.isMerged (c : Context) (id : SymbolId) : Bool :=
  (c.symbol? id).any fun symbol => symbol.declarations.any fun d => isInterface (c.form? d)

/-- The place is in the program. -/
structure InProgram (p c : Context) : Prop where
  files : c.files = p.files
  bindings : c.bindings = p.bindings

variable {p c c' : Context}

theorem SamePlace.program (h : SamePlace c c') (hp : InProgram p c) : InProgram p c' :=
  ⟨h.files.trans hp.files, h.bindings.trans hp.bindings⟩

theorem InProgram.symbol? (h : InProgram p c) (id : SymbolId) : c.symbol? id = p.symbol? id := by
  unfold Context.symbol?
  rw [h.bindings]

theorem InProgram.sourceFile (h : InProgram p c) (file : FileId) :
    c.sourceFile file = p.sourceFile file := by
  unfold Context.sourceFile
  rw [h.files]

theorem InProgram.arena (h : InProgram p c) : c.arena = (p.sourceFile c.file).arena :=
  congrArg SourceFile.arena (h.sourceFile c.file)

theorem InProgram.form? (h : InProgram p c) (d : Site) : c.form? d = p.form? d := by
  unfold Context.form?
  rw [h.sourceFile]

theorem InProgram.importTarget? (h : InProgram p c) (id : SymbolId) :
    c.importTarget? id = p.importTarget? id := by
  unfold Context.importTarget?
  rw [h.symbol?, h.bindings]

/-! ### What a symbol means -/

theorem Means.symbol {n : Nat} {id a : SymbolId} (h : Means p n id a) :
    ∃ symbol, p.symbol? a = some symbol := by
  induction h with
  | class_ h => exact ⟨_, h⟩
  | import_ _ _ _ _ ih => exact ih

/-- An import leads to what its target leads to. -/
theorem Means.of_import {n : Nat} {id target a : SymbolId} {symbol : Symbol} (h : Means p n id a)
    (hid : p.symbol? id = some symbol) (himport : symbol.flags.alias_ = true)
    (htarget : p.importTarget? id = some target) : ∃ m, n = m + 1 ∧ Means p m target a := by
  cases h with
  | class_ h himport' =>
    rw [hid] at h
    cases h
    rw [himport] at himport'
    cases himport'
  | @import_ m _ _ _ _ _ _ htarget' hmeans =>
    rw [htarget] at htarget'
    cases htarget'
    exact ⟨m, rfl, hmeans⟩

/-- A class leads to itself only. -/
theorem Means.of_class {n : Nat} {id a : SymbolId} {symbol : Symbol} (h : Means p n id a)
    (hid : p.symbol? id = some symbol) (himport : symbol.flags.alias_ = false) :
    n = 0 ∧ a = id ∧ symbol.flags.class_ = true := by
  cases h with
  | class_ h _ hclass =>
    rw [hid] at h
    cases h
    exact ⟨rfl, rfl, hclass⟩
  | import_ h himport' =>
    rw [hid] at h
    cases h
    rw [himport] at himport'
    cases himport'

theorem Means.unique {n m : Nat} {id a b : SymbolId} (h : Means p n id a) (h' : Means p m id b) :
    n = m ∧ a = b := by
  induction h generalizing m b with
  | class_ hid himport =>
    obtain ⟨rfl, rfl, -⟩ := h'.of_class hid himport
    exact ⟨rfl, rfl⟩
  | import_ hid himport htarget _ ih =>
    obtain ⟨m, rfl, hmeans⟩ := h'.of_import hid himport htarget
    obtain ⟨rfl, rfl⟩ := ih hmeans
    exact ⟨rfl, rfl⟩

/-! ## States -/

/-- The types of a class are those of an object and of its class. -/
structure HasTypes (s : State) (id : SymbolId) (t : ClassTypes) : Prop where
  instance_ : ∃ i, s.types.shape? t.instanceType = some i ∧ i.kind = .instance_ ∧
    i.symbol = some id
  constructor : ∃ k, s.types.shape? t.constructorType = some k ∧ k.kind = .constructor ∧
    k.symbol = some id

/-- `new` takes for the class what it takes for its base, and gives an
instance of the class. -/
def Inherits (s : State) (t base : ClassTypes) : Prop :=
  s.types.constructs base.constructorType ≠ [] ∧
    s.types.constructs t.constructorType =
      (s.types.constructs base.constructorType).map fun signature =>
        { signature with returnType := t.instanceType }

/-- `new` takes nothing for the class. -/
def TakesNothing (s : State) (t : ClassTypes) : Prop :=
  s.types.constructs t.constructorType = [⟨[], t.instanceType⟩]

/-- What holds of a class from when it has been put together. `old` are the
classes that were known at some time before. -/
structure Finished (p : Context) (old : SymbolId → Prop) (s : State) (id : SymbolId)
    (t : ClassTypes) (d : Site) (k : ClassParts) : Prop where
  /-- The names on the side of the instances, unless interfaces add to them. -/
  members : p.isMerged id = false → ∀ name, name ≠ "" →
    (s.types.shape? t.instanceType).any (·.owns name) =
      memberOf (p.sourceFile d.file).arena k.members false name
  statics : ∀ name, name ≠ "" → (s.types.shape? t.constructorType).any (·.owns name) =
    memberOf (p.sourceFile d.file).arena k.members true name
  /-- A class without a constructor of its own takes over that of its base, or
  was entered while the base was put together. -/
  heir : k.members.any (isConstructor (p.sourceFile d.file).arena) = false →
    ∀ a, Extends p d k a → a ≠ id → (p.classOf? a).isSome →
      s.exhausted = true ∨ ∃ base, s.classTypes.get? a = some base ∧
        (Inherits s t base ∨
          TakesNothing s t ∧ base.instanceType < t.instanceType ∧ (old a → old id))

/-- What holds of all states. -/
structure Sound (p : Context) (old : SymbolId → Prop) (s : State) : Prop where
  error : s.types.types[TypeId.error]? = some (.intrinsic .error)
  types : ∀ id t, s.classTypes.get? id = some t → HasTypes s id t
  instances : ∀ (type : TypeId) i id, s.types.shape? type = some i → i.kind = .instance_ →
    i.symbol = some id → ∃ t, s.classTypes.get? id = some t ∧ t.instanceType = type
  finished : ∀ id t d k, s.classTypes.get? id = some t → p.classOf? id = some (d, k) →
    s.types.constructs t.constructorType ≠ [] → Finished p old s id t d k

/-- The classes that were known are known, and that the bound was hit is not
forgotten. -/
structure Remembers (s s' : State) : Prop where
  classes : ∀ id t, s.classTypes.get? id = some t → s'.classTypes.get? id = some t
  exhausted : s.exhausted = true → s'.exhausted = true

/-- All types that were there are as they were. -/
structure Keeps (s s' : State) : Prop extends Remembers s s' where
  types : ∀ (id : TypeId) (data : TypeData), s.types.types[id]? = some data →
    s'.types.types[id]? = some data

/-- All types that were there are as they were, and the classes that are new
are finished. -/
structure Grows (p : Context) (s s' : State) : Prop extends Keeps s s' where
  fresh : ∀ id t, s.classTypes.get? id = none → s'.classTypes.get? id = some t →
    (p.classOf? id).isSome → s'.types.constructs t.constructorType ≠ []

variable {old : SymbolId → Prop} {s s' s'' : State} {id b : SymbolId} {t : ClassTypes}

theorem Remembers.refl (s : State) : Remembers s s :=
  ⟨fun _ _ h => h, fun h => h⟩

theorem Remembers.trans (h : Remembers s s') (h' : Remembers s' s'') : Remembers s s'' :=
  ⟨fun id t hid => h'.classes id t (h.classes id t hid), fun he => h'.exhausted (h.exhausted he)⟩

theorem Keeps.refl (s : State) : Keeps s s :=
  ⟨.refl s, fun _ _ h => h⟩

theorem Keeps.trans (h : Keeps s s') (h' : Keeps s' s'') : Keeps s s'' :=
  ⟨h.toRemembers.trans h'.toRemembers, fun id data hid => h'.types id data (h.types id data hid)⟩

theorem Keeps.shape? (h : Keeps s s') {type : TypeId} {shape : Shape}
    (hs : s.types.shape? type = some shape) : s'.types.shape? type = some shape :=
  TypeTable.shape?_iff.2 (h.types _ _ (TypeTable.shape?_iff.1 hs))

theorem Keeps.hasTypes (h : Keeps s s') (ht : HasTypes s id t) : HasTypes s' id t where
  instance_ := have ⟨i, hi, hrest⟩ := ht.instance_; ⟨i, h.shape? hi, hrest⟩
  constructor := have ⟨k, hk, hrest⟩ := ht.constructor; ⟨k, h.shape? hk, hrest⟩

theorem Keeps.constructs (h : Keeps s s') (ht : HasTypes s id t) :
    s'.types.constructs t.constructorType = s.types.constructs t.constructorType := by
  obtain ⟨k, hk, -⟩ := ht.constructor
  rw [TypeTable.constructs_of_shape? hk, TypeTable.constructs_of_shape? (h.shape? hk)]

/-- What is finished is not affected by what happens to other classes. -/
theorem Finished.carry {d : Site} {k : ClassParts} (h : Finished p old s id t d k)
    (hinstance : p.isMerged id = false →
      s'.types.shape? t.instanceType = s.types.shape? t.instanceType)
    (hconstructor : s'.types.shape? t.constructorType = s.types.shape? t.constructorType)
    (hr : Remembers s s')
    (hothers : ∀ a base, s.classTypes.get? a = some base →
      s.types.constructs base.constructorType ≠ [] →
      s'.types.constructs base.constructorType = s.types.constructs base.constructorType) :
    Finished p old s' id t d k where
  members hmerged name hname := by
    rw [hinstance hmerged]
    exact h.members hmerged name hname
  statics name hname := by
    rw [hconstructor]
    exact h.statics name hname
  heir hnone a hextends hne hclass := by
    have hown : s'.types.constructs t.constructorType = s.types.constructs t.constructorType := by
      unfold TypeTable.constructs
      rw [hconstructor]
    refine (h.heir hnone a hextends hne hclass).imp hr.exhausted ?_
    rintro ⟨base, hbase, hcase⟩
    refine ⟨base, hr.classes a base hbase, hcase.imp ?_ fun hnothing => ?_⟩
    · rintro ⟨hsome, heq⟩
      have hsame := hothers a base hbase hsome
      exact ⟨by rw [hsame]; exact hsome, by rw [hsame, hown, heq]⟩
    · refine ⟨?_, hnothing.2⟩
      unfold TakesNothing
      rw [hown]
      exact hnothing.1

/-- What is sound stays so when types and finished classes are added. -/
theorem Sound.keep (h : Sound p old s) (hk : Keeps s s')
    (htypes : ∀ id t, s.classTypes.get? id = none → s'.classTypes.get? id = some t →
      HasTypes s' id t ∧ s'.types.constructs t.constructorType = [])
    (hinstances : ∀ (type : TypeId) i id, s'.types.shape? type = some i → i.kind = .instance_ →
      i.symbol = some id → s.types.shape? type = some i ∨
        ∃ t, s'.classTypes.get? id = some t ∧ t.instanceType = type) : Sound p old s' where
  error := hk.types _ _ h.error
  types id t hid := by
    cases hknown : s.classTypes.get? id with
    | some u =>
      have hu := hk.classes id u hknown
      rw [hid] at hu
      cases hu
      exact hk.hasTypes (h.types id t hknown)
    | none => exact (htypes id t hknown hid).1
  instances type i id hi hkind hsymbol := by
    rcases hinstances type i id hi hkind hsymbol with hold | hnew
    · obtain ⟨t, ht, htype⟩ := h.instances type i id hold hkind hsymbol
      exact ⟨t, hk.classes id t ht, htype⟩
    · exact hnew
  finished id t d k hid hclass hsome := by
    cases hknown : s.classTypes.get? id with
    | some u =>
      have hu := hk.classes id u hknown
      rw [hid] at hu
      cases hu
      have ht := h.types id t hknown
      obtain ⟨i, hi, -⟩ := ht.instance_
      obtain ⟨k', hk', -⟩ := ht.constructor
      rw [hk.constructs ht] at hsome
      exact (h.finished id t d k hknown hclass hsome).carry (fun _ => by rw [hi, hk.shape? hi])
        (by rw [hk', hk.shape? hk']) hk.toRemembers
        fun a base hbase _ => hk.constructs (h.types a base hbase)
    | none => exact absurd (htypes id t hknown hid).2 hsome

theorem Grows.refl (p : Context) (s : State) : Grows p s s :=
  ⟨.refl s, fun id t hnone hsome => by rw [hnone] at hsome; cases hsome⟩

/-- A class that is known is finished, or was known before. -/
theorem Grows.finished (h : Grows p s s') (hs : Sound p old s) (hid : s'.classTypes.get? id = some t)
    (hclass : (p.classOf? id).isSome)
    (hold : s.classTypes.get? id = some t → s.types.constructs t.constructorType ≠ []) :
    s'.types.constructs t.constructorType ≠ [] := by
  cases hknown : s.classTypes.get? id with
  | none => exact h.fresh id t hknown hid hclass
  | some u =>
    have hu := h.classes id u hknown
    rw [hid] at hu
    cases hu
    rw [h.constructs (hs.types id t hknown)]
    exact hold hknown

theorem Grows.trans (h : Grows p s s') (hs : Sound p old s') (h' : Grows p s' s'') :
    Grows p s s'' where
  toKeeps := h.toKeeps.trans h'.toKeeps
  fresh id t hnone hsome hclass :=
    h'.finished hs hsome hclass fun hmid => h.fresh id t hnone hmid hclass

/-! ### Finding types -/

theorem keeps_of_finds (h : Finds s s') : Keeps s s' where
  classes id t hid := by rw [h.classTypes]; exact hid
  exhausted he := by rw [h.exhausted]; exact he
  types := h.types.old

theorem Sound.finds (hs : Sound p old s) (h : Finds s s') : Sound p old s' ∧ Grows p s s' := by
  have hnone : ∀ id t, s.classTypes.get? id = none → ¬ s'.classTypes.get? id = some t := by
    intro id t hnone hsome
    rw [h.classTypes, hnone] at hsome
    cases hsome
  refine ⟨hs.keep (keeps_of_finds h) (fun id t hn ht => absurd ht (hnone id t hn)) ?_,
    keeps_of_finds h, fun id t hn ht => absurd ht (hnone id t hn)⟩
  intro type i id hi hkind _
  refine .inl (TypeTable.shape?_iff.2 ?_)
  refine (h.types.new type i (TypeTable.shape?_iff.1 hi)).resolve_right fun hnameless => ?_
  rw [hnameless.kind] at hkind
  cases hkind

theorem Sound.exhaust (hs : Sound p old s) : Sound p old { s with exhausted := true } ∧
    Grows p s { s with exhausted := true } := by
  have hk : Keeps s { s with exhausted := true } :=
    ⟨⟨fun _ _ h => h, fun _ => rfl⟩, fun _ _ h => h⟩
  have hnone : ∀ id t, s.classTypes.get? id = none → ¬ s.classTypes.get? id = some t := by
    intro id t hnone hsome
    rw [hnone] at hsome
    cases hsome
  exact ⟨hs.keep hk (fun id t hn ht => absurd ht (hnone id t hn)) fun _ _ _ hi _ _ => .inl hi,
    hk, fun id t hn ht => absurd ht (hnone id t hn)⟩

/-! ### Publishing shapes -/

/-- The types of a class were given the shapes, and nothing else was done. -/
structure Reshapes (t : ClassTypes) (i k : Shape) (s s' : State) : Prop where
  classTypes : s'.classTypes = s.classTypes
  exhausted : s'.exhausted = s.exhausted
  instance_ : s'.types.shape? t.instanceType = some i
  constructor : s'.types.shape? t.constructorType = some k
  others : ∀ type, type ≠ t.instanceType → type ≠ t.constructorType →
    s'.types.types[type]? = s.types.types[type]?

theorem Reshapes.remembers {i k : Shape} (h : Reshapes t i k s s') : Remembers s s' :=
  ⟨fun id u hid => by rw [h.classTypes]; exact hid, fun he => by rw [h.exhausted]; exact he⟩

theorem Reshapes.shape? {i k : Shape} (h : Reshapes t i k s s') {type : TypeId}
    (hi : type ≠ t.instanceType) (hc : type ≠ t.constructorType) :
    s'.types.shape? type = s.types.shape? type := by
  refine Option.ext fun shape => ?_
  rw [TypeTable.shape?_iff, TypeTable.shape?_iff, h.others type hi hc]

theorem Reshapes.constructs {i k : Shape} (h : Reshapes t i k s s') {type : TypeId}
    (hi : type ≠ t.instanceType) (hc : type ≠ t.constructorType) :
    s'.types.constructs type = s.types.constructs type := by
  unfold TypeTable.constructs
  rw [h.shape? hi hc]

/-- The types of two classes differ. -/
theorem HasTypes.ne {u : ClassTypes} (ht : HasTypes s id t) (hu : HasTypes s b u) (hne : b ≠ id) :
    u.instanceType ≠ t.instanceType ∧ u.instanceType ≠ t.constructorType ∧
      u.constructorType ≠ t.instanceType ∧ u.constructorType ≠ t.constructorType := by
  obtain ⟨i, hi, hik, his⟩ := ht.instance_
  obtain ⟨k, hk, hkk, hks⟩ := ht.constructor
  obtain ⟨i', hi', hik', his'⟩ := hu.instance_
  obtain ⟨k', hk', hkk', hks'⟩ := hu.constructor
  refine ⟨fun h => ?_, fun h => ?_, fun h => ?_, fun h => ?_⟩
  · rw [h, hi] at hi'
    cases hi'
    rw [his] at his'
    exact hne (Option.some.inj his').symm
  · rw [h, hk] at hi'
    cases hi'
    rw [hkk] at hik'
    cases hik'
  · rw [h, hi] at hk'
    cases hk'
    rw [hik] at hkk'
    cases hkk'
  · rw [h, hk] at hk'
    cases hk'
    rw [hks] at hks'
    exact hne (Option.some.inj hks').symm

/-- Publishing shapes of a class keeps the state sound, if they are shapes of
the class and it is finished then or still unfinished. -/
theorem Sound.reshape {i k : Shape} (hs : Sound p old s) (hb : s.classTypes.get? b = some t)
    (h : Reshapes t i k s s') (hi : i.kind = .instance_ ∧ i.symbol = some b)
    (hk : k.kind = .constructor ∧ k.symbol = some b)
    (hkept : s.types.constructs t.constructorType ≠ [] →
      k.constructs = s.types.constructs t.constructorType)
    (hfinished : k.constructs ≠ [] → ∀ d kk, p.classOf? b = some (d, kk) →
      Finished p old s' b t d kk) : Sound p old s' := by
  have hown := hs.types b t hb
  have htypes : HasTypes s' b t := ⟨⟨i, h.instance_, hi⟩, ⟨k, h.constructor, hk⟩⟩
  have hconstructs : s'.types.constructs t.constructorType = k.constructs :=
    TypeTable.constructs_of_shape? h.constructor
  have hother : ∀ id u, s.classTypes.get? id = some u → id ≠ b →
      s'.types.shape? u.instanceType = s.types.shape? u.instanceType ∧
        s'.types.shape? u.constructorType = s.types.shape? u.constructorType := by
    intro id u hu hne
    obtain ⟨h1, h2, h3, h4⟩ := hown.ne (hs.types id u hu) hne
    exact ⟨h.shape? h1 h2, h.shape? h3 h4⟩
  have herror : ∀ shape, s.types.shape? TypeId.error ≠ some shape := fun shape herror => by
    rw [TypeTable.shape?_iff, hs.error] at herror
    cases herror
  refine ⟨?_, fun id u hu => ?_, fun type i' id hi' hkind hsymbol => ?_,
    fun id u d kk hu hclass hsome => ?_⟩
  · obtain ⟨i', hi', -⟩ := hown.instance_
    obtain ⟨k', hk', -⟩ := hown.constructor
    refine (h.others _ (fun heq => ?_) fun heq => ?_).trans hs.error
    · exact herror i' (heq ▸ hi')
    · exact herror k' (heq ▸ hk')
  · rw [h.classTypes] at hu
    by_cases hne : id = b
    · subst hne
      rw [hb] at hu
      cases hu
      exact htypes
    · obtain ⟨h1, h2⟩ := hother id u hu hne
      have hold := hs.types id u hu
      exact ⟨h1 ▸ hold.instance_, h2 ▸ hold.constructor⟩
  · rw [h.classTypes]
    by_cases hinst : type = t.instanceType
    · subst hinst
      rw [h.instance_] at hi'
      cases hi'
      rw [hi.2] at hsymbol
      cases hsymbol
      exact ⟨t, hb, rfl⟩
    · by_cases hctor : type = t.constructorType
      · subst hctor
        rw [h.constructor] at hi'
        cases hi'
        rw [hk.1] at hkind
        cases hkind
      · rw [h.shape? hinst hctor] at hi'
        exact hs.instances type i' id hi' hkind hsymbol
  · rw [h.classTypes] at hu
    by_cases hne : id = b
    · subst hne
      rw [hb] at hu
      cases hu
      rw [hconstructs] at hsome
      exact hfinished hsome d kk hclass
    · obtain ⟨h1, h2⟩ := hother id u hu hne
      obtain ⟨-, -, h3, h4⟩ := hown.ne (hs.types id u hu) hne
      rw [h.constructs h3 h4] at hsome
      refine (hs.finished id u d kk hu hclass hsome).carry (fun _ => h1) h2 h.remembers
        fun a base hbase hne' => ?_
      by_cases ha : a = b
      · subst ha
        rw [hb] at hbase
        cases hbase
        rw [hconstructs]
        exact hkept hne'
      · obtain ⟨-, -, h3, h4⟩ := hown.ne (hs.types a base hbase) ha
        exact h.constructs h3 h4

/-! ## The promise -/

/-- What holds where a rule is used: the state is sound, the `old` classes
are finished, and of the imports that are being resolved the classes have
been entered since, apart from those of `except`, which come next. -/
structure Setting (p : Context) (old : SymbolId → Prop) (except : Nat → SymbolId → Prop)
    (c : Context) (s : State) : Prop where
  program : InProgram p c
  sound : Sound p old s
  known : ∀ id, old id → ∃ t, s.classTypes.get? id = some t ∧
    ((p.classOf? id).isSome → s.types.constructs t.constructorType ≠ [])
  placed : ∀ id ∈ c.resolvingTypes, ∀ n a, Means p n id a →
    (∃ t, s.classTypes.get? a = some t) ∧ ¬ old a ∨ except n a

section

variable {except except' : Nat → SymbolId → Prop}

theorem Setting.known_keep (h : Setting p old except c s) (hk : Keeps s s') (id : SymbolId)
    (hold : old id) : ∃ t, s'.classTypes.get? id = some t ∧
      ((p.classOf? id).isSome → s'.types.constructs t.constructorType ≠ []) := by
  obtain ⟨t, ht, hsome⟩ := h.known id hold
  refine ⟨t, hk.classes id t ht, fun hclass => ?_⟩
  rw [hk.constructs (h.sound.types id t ht)]
  exact hsome hclass

theorem Setting.step (h : Setting p old except c s) (hs : Sound p old s') (hk : Keeps s s') :
    Setting p old except c s' where
  program := h.program
  sound := hs
  known := h.known_keep hk
  placed id hid n a hmeans := (h.placed id hid n a hmeans).imp_left
    (And.imp_left fun ⟨t, ht⟩ => ⟨t, hk.classes a t ht⟩)

theorem Setting.move (h : Setting p old except c s) (hc : SamePlace c c') :
    Setting p old except c' s where
  program := hc.program h.program
  sound := h.sound
  known := h.known
  placed id hid := h.placed id (hc.resolvingTypes ▸ hid)

theorem Setting.weaken (h : Setting p old except c s)
    (hexcept : ∀ id ∈ c.resolvingTypes, ∀ n a, Means p n id a → except n a → except' n a) :
    Setting p old except' c s where
  program := h.program
  sound := h.sound
  known := h.known
  placed id hid n a hmeans := (h.placed id hid n a hmeans).imp_right (hexcept id hid n a hmeans)

/-- One more symbol is being resolved. -/
theorem Setting.push (h : Setting p old except c s) (id : SymbolId)
    (hnew : ∀ n a, Means p n id a → except n a) :
    Setting p old except { c with resolvingTypes := id :: c.resolvingTypes } s where
  program := ⟨h.program.files, h.program.bindings⟩
  sound := h.sound
  known := h.known
  placed id' hid' n a hmeans := by
    rcases List.mem_cons.1 hid' with rfl | hid'
    · exact .inr (hnew n a hmeans)
    · exact h.placed id' hid' n a hmeans

end

/-- Nothing else comes next. -/
def Nowhere : Nat → SymbolId → Prop :=
  fun _ _ => False

/-- What the symbol leads to in fewer steps comes next. -/
def Ahead (p : Context) (id : SymbolId) : Nat → SymbolId → Prop :=
  fun n a => ∃ m, m < n ∧ Means p m id a

/-- The class comes next. -/
def AtClass (id : SymbolId) : Nat → SymbolId → Prop :=
  fun _ a => a = id

/-- Each use of a rule keeps the state sound, leaves all types as they are,
and comes back with all classes finished that are new. -/
def classWalk (p : Context) (old : SymbolId → Prop) : Walk where
  Here := Setting p old Nowhere
  Step s t := Sound p old s → Sound p old t ∧ Grows p s t
  Declaring id := Setting p old (Ahead p id)
  Entering id := Setting p old (AtClass id)
  refl s hs := ⟨hs, .refl p s⟩
  trans h h' hs := have ⟨hs', hg⟩ := h hs; have ⟨hs'', hg'⟩ := h' hs'; ⟨hs'', hg.trans hs' hg'⟩
  stay h hstep := have ⟨hs, hg⟩ := hstep h.sound; h.step hs hg.toKeeps
  place hc h := h.move hc
  found h hs := hs.finds h.toFinds
  learned _ h hl hs := by
    obtain ⟨hs', hg⟩ := h hs
    obtain ⟨hs'', hg'⟩ := hs'.finds hl.finds
    exact ⟨hs'', hg.trans hs' hg'⟩
  exhausts _ hs := hs.exhaust
  declaring _ h := h.weaken fun _ _ _ _ _ h => h.elim
  entering _ h := h.weaken fun _ _ _ _ _ h => h.elim
  import_ {c s id symbol target} h hid himport htarget := by
    rw [h.program.symbol?] at hid
    rw [h.program.importTarget?] at htarget
    refine Setting.push (h.weaken ?_) id ?_
    · rintro id' - n a - ⟨m, hm, hmeans⟩
      obtain ⟨k, rfl, hk⟩ := hmeans.of_import hid himport htarget
      exact ⟨k, Nat.lt_of_succ_lt hm, hk⟩
    · intro n a hmeans
      obtain ⟨k, rfl, hk⟩ := hmeans.of_import hid himport htarget
      exact ⟨k, Nat.lt_succ_self k, hk⟩
  class_ {c s id symbol} h hid himport _ := by
    rw [h.program.symbol?] at hid
    exact h.weaken fun _ _ _ _ _ ⟨_, _, hmeans⟩ => (hmeans.of_class hid himport).2.1
  other {c s id symbol} h hid himport hclass := by
    rw [h.program.symbol?] at hid
    refine h.weaken fun _ _ _ _ _ ⟨_, _, hmeans⟩ => ?_
    have hclass' := (hmeans.of_class hid himport).2.2
    rw [hclass] at hclass'
    cases hclass'
  alias_ {c s id symbol} h hid himport hclass := by
    rw [h.program.symbol?] at hid
    refine h.push id fun n a hmeans => ?_
    have hclass' := (hmeans.of_class hid himport).2.2
    rw [hclass] at hclass'
    cases hclass'

/-! ## Triples -/

section

variable {α β : Type} {F F' : State → Prop} {x : Check α} {Q Q' : α → State → Prop}

/-- From a state that satisfies `F` the computation comes back to `c` with an
answer and a state that satisfy `Q`. -/
def Leads (F : State → Prop) (c : Context) (x : Check α) (Q : α → State → Prop) : Prop :=
  ∀ s, F s → (x c s).1.2 = c ∧ Q (x c s).1.1 (x c s).2

theorem Leads.pure {a : α} (h : ∀ s, F s → Q a s) : Leads F c (Pure.pure a) Q :=
  fun s hs => ⟨rfl, h s hs⟩

theorem Leads.bind {f : α → Check β} {R : β → State → Prop} (hx : Leads F c x Q)
    (hf : ∀ a, Leads (Q a) c (f a) R) : Leads F c (x >>= f) R := by
  intro s hs
  obtain ⟨hback, hq⟩ := hx s hs
  rw [bind_apply, hback]
  exact hf _ _ hq

theorem Leads.read {f : Context → Check β} {R : β → State → Prop} (h : Leads F c (f c) R) :
    Leads F c ((MonadReader.read : Check Context) >>= f) R :=
  h

theorem Leads.weaken (h : Leads F c x Q) (hF : ∀ s, F' s → F s) (hQ : ∀ a s, Q a s → Q' a s) :
    Leads F' c x Q' :=
  fun s hs => (h s (hF s hs)).imp_right (hQ _ _)

/-- What has nothing to do with the state is known from then on. -/
theorem Leads.assume {P : Prop} (h : P → Leads F c x Q) : Leads (fun s => F s ∧ P) c x Q :=
  fun s hs => h hs.2 s hs.1

theorem Leads.get {f : State → Check α} (h : Leads (fun s' => s' = s) c (f s) Q) :
    Leads (fun s' => s' = s) c ((MonadState.get : Check State) >>= f) Q := by
  rintro _ rfl
  exact h _ rfl

/-- It is enough to look at each state alone. -/
theorem Leads.of_each (h : ∀ s, F s → Leads (fun s' => s' = s) c x Q) : Leads F c x Q :=
  fun s hs => h s hs s rfl

theorem Leads.table {f : TypeTable → Check α} (h : Leads (fun s' => s' = s) c (f s.types) Q) :
    Leads (fun s' => s' = s) c (Checking.table >>= f) Q := by
  rintro _ rfl
  exact h _ rfl

theorem Leads.moved {go : Context → Context} {back : Context → Context → Context}
    (hx : Leads F (go c) x Q) (hback : back c (go c) = c) : Leads F c (excursion go back x) Q := by
  intro s hs
  obtain ⟨hend, hq⟩ := hx s hs
  exact ⟨(congrArg (back c) hend).trans hback, hq⟩

theorem Leads.forM {xs : List α} {f : α → Check PUnit}
    (h : ∀ a ∈ xs, Leads F c (f a) fun _ => F) : Leads F c (xs.forM f) fun _ => F := by
  induction xs with
  | nil => exact .pure fun _ hs => hs
  | cons a rest ih =>
    obtain ⟨ha, hrest⟩ := List.forall_mem_cons.1 h
    show Leads F c (f a >>= fun _ => rest.forM f) _
    exact ha.bind fun _ => ih hrest

/-- `q` is said of what has been gone through. -/
theorem Leads.foldlM {xs : List α} {f : β → α → Check β} (q : List α → β → Prop)
    (h : ∀ done b a, a ∈ xs → q done b → Leads F c (f b a) fun b' s => F s ∧ q (done ++ [a]) b')
    {b : β} (hb : q [] b) : Leads F c (xs.foldlM f b) fun b' s => F s ∧ q xs b' := by
  suffices hall : ∀ rest done b, (∀ a ∈ rest, a ∈ xs) → q done b →
      Leads F c (rest.foldlM f b) fun b' s => F s ∧ q (done ++ rest) b' from
    hall xs [] b (fun _ ha => ha) hb
  clear hb b
  intro rest
  induction rest with
  | nil =>
    intro done b _ hb
    refine .pure fun s hs => ⟨hs, ?_⟩
    rw [List.append_nil]
    exact hb
  | cons a rest ih =>
    intro done b hsub hb
    obtain ⟨ha, hrest⟩ := List.forall_mem_cons.1 hsub
    rw [List.foldlM_cons]
    refine (h done b a ha hb).bind fun b₁ s hs => ?_
    have hdone := ih (done ++ [a]) b₁ hrest hs.2 s hs.1
    rwa [List.append_assoc] at hdone

end

/-! ## Putting a class together -/

/-- The class `b` was entered: it is known by its types, which are new since
`start`, and is the only new one that may be unfinished. -/
structure Owned (p : Context) (old : SymbolId → Prop) (start : State) (b : SymbolId)
    (t : ClassTypes) (s : State) : Prop where
  sound : Sound p old s
  keeps : Keeps start s
  fresh : ∀ id u, id ≠ b → start.classTypes.get? id = none → s.classTypes.get? id = some u →
    (p.classOf? id).isSome → s.types.constructs u.constructorType ≠ []
  known : s.classTypes.get? b = some t
  new : start.types.size ≤ t.instanceType ∧ start.types.size ≤ t.constructorType

/-- The class is put together. -/
structure Framed (p : Context) (old : SymbolId → Prop) (start : State) (b : SymbolId)
    (t : ClassTypes) (s : State) : Prop extends Owned p old start b t s where
  unfinished : s.types.constructs t.constructorType = []

/-- The shapes are those of the class, which is unfinished. -/
structure Draft (b : SymbolId) (t : ClassTypes) (shapes : ClassShapes) : Prop where
  types : shapes.types = t
  instance_ : shapes.instanceShape.kind = .instance_ ∧ shapes.instanceShape.symbol = some b
  constructor : shapes.constructorShape.kind = .constructor ∧
    shapes.constructorShape.symbol = some b
  unfinished : shapes.constructorShape.constructs = []

theorem Draft.alike {shapes shapes' : ClassShapes} (h : Draft b t shapes)
    (ha : shapes.Alike shapes') : Draft b t shapes' where
  types := ha.types.trans h.types
  instance_ := ⟨(ha.kind false).trans h.instance_.1, (ha.symbol false).trans h.instance_.2⟩
  constructor := ⟨(ha.kind true).trans h.constructor.1, (ha.symbol true).trans h.constructor.2⟩
  unfinished := (ha.constructs true).trans h.unfinished

/-- Publishing shapes of a class replaces the shapes of its types. -/
theorem HasTypes.publish {shapes : ClassShapes} (h : HasTypes s id t) (ht : shapes.types = t)
    (c : Context) : (shapes.publish c s).1.2 = c ∧
      Reshapes t shapes.instanceShape shapes.constructorShape s (shapes.publish c s).2 := by
  obtain ⟨i, hi, hik, -⟩ := h.instance_
  obtain ⟨k, hk, hkk, -⟩ := h.constructor
  have hne : t.instanceType ≠ t.constructorType := by
    intro heq
    rw [heq, hk] at hi
    cases hi
    rw [hkk] at hik
    cases hik
  subst ht
  have hfirst := TypeTable.getElem?_setShape hi shapes.instanceShape
  have hk' : (TypeTable.setShape shapes.types.instanceType shapes.instanceShape
      s.types).2.shape? shapes.types.constructorType = some k := by
    rw [TypeTable.shape?_iff, hfirst, if_neg hne]
    exact TypeTable.shape?_iff.1 hk
  have hsecond := TypeTable.getElem?_setShape hk' shapes.constructorShape
  refine ⟨rfl, rfl, rfl, ?_, ?_, fun type h1 h2 => ?_⟩
  · refine TypeTable.shape?_iff.2 ((hsecond _).trans ?_)
    rw [if_neg hne.symm, hfirst, if_pos rfl]
  · exact TypeTable.shape?_iff.2 ((hsecond _).trans (if_pos rfl))
  · refine (hsecond type).trans ?_
    rw [if_neg (Ne.symm h2), hfirst, if_neg (Ne.symm h1)]

section

variable {start : State}

section

variable (ho : Owned p old start b t s)

include ho

theorem Owned.step (hstep : (classWalk p old).Step s s') : Owned p old start b t s' := by
  obtain ⟨hs, hg⟩ := hstep ho.sound
  refine ⟨hs, ho.keeps.trans hg.toKeeps, fun id u hne hnone hsome hclass => ?_,
    hg.classes b t ho.known, ho.new⟩
  exact hg.finished ho.sound hsome hclass fun hmid => ho.fresh id u hne hnone hmid hclass

/-- Replacing the shapes of the class changes nothing else. -/
theorem Owned.reshape {i k : Shape} (hr : Reshapes t i k s s') (hsound : Sound p old s') :
    Owned p old start b t s' where
  sound := hsound
  keeps := by
    refine ⟨ho.keeps.toRemembers.trans hr.remembers, fun type data htype => ?_⟩
    have hlt := TypeTable.lt_size_of_getElem? htype
    rw [hr.others type (Nat.ne_of_lt (Nat.lt_of_lt_of_le hlt ho.new.1))
      (Nat.ne_of_lt (Nat.lt_of_lt_of_le hlt ho.new.2))]
    exact ho.keeps.types type data htype
  fresh id u hne hnone hsome hclass := by
    rw [hr.classTypes] at hsome
    obtain ⟨-, -, h3, h4⟩ := (ho.sound.types b t ho.known).ne (ho.sound.types id u hsome) hne
    rw [hr.constructs h3 h4]
    exact ho.fresh id u hne hnone hsome hclass
  known := by rw [hr.classTypes]; exact ho.known
  new := ho.new

/-- When the class is finished, all new ones are. -/
theorem Owned.grows (hsome : (p.classOf? b).isSome → s.types.constructs t.constructorType ≠ []) :
    Grows p start s where
  toKeeps := ho.keeps
  fresh id u hnone hid hclass := by
    by_cases hne : id = b
    · subst hne
      rw [ho.known] at hid
      cases hid
      exact hsome hclass
    · exact ho.fresh id u hne hnone hid hclass

/-- Rules may be used from then on. -/
theorem Owned.here {c₀ : Context} (hpre : Setting p old (AtClass b) c₀ start)
    (hnew : start.classTypes.get? b = none) (hc : SamePlace c₀ c) :
    (classWalk p old).Here c s := by
  have hold : ¬ old b := fun hold => by
    obtain ⟨u, hu, -⟩ := hpre.known b hold
    rw [hnew] at hu
    cases hu
  have hsetting := (hpre.step ho.sound ho.keeps).move hc
  refine ⟨hsetting.program, hsetting.sound, hsetting.known, fun id hid n a hmeans => .inl ?_⟩
  rcases hsetting.placed id hid n a hmeans with hplaced | rfl
  · exact hplaced
  · exact ⟨⟨t, ho.known⟩, hold⟩

end

section

variable (hf : Framed p old start b t s)

include hf

theorem Framed.step (hstep : (classWalk p old).Step s s') : Framed p old start b t s' where
  toOwned := hf.toOwned.step hstep
  unfinished := by
    rw [(hstep hf.sound).2.constructs (hf.sound.types b t hf.known)]
    exact hf.unfinished

theorem Framed.reshape {i k : Shape} (hr : Reshapes t i k s s')
    (hi : i.kind = .instance_ ∧ i.symbol = some b) (hk : k.kind = .constructor ∧ k.symbol = some b)
    (hopen : k.constructs = []) : Framed p old start b t s' where
  toOwned := hf.toOwned.reshape hr (hf.sound.reshape hf.known hr hi hk
    (fun hne => absurd hf.unfinished hne) fun hne => absurd hopen hne)
  unfinished := (TypeTable.constructs_of_shape? hr.constructor).trans hopen

/-- The last publication finishes the class. -/
theorem Framed.finish {i k : Shape} (hr : Reshapes t i k s s')
    (hi : i.kind = .instance_ ∧ i.symbol = some b) (hk : k.kind = .constructor ∧ k.symbol = some b)
    (hsome : k.constructs ≠ [])
    (hfinished : ∀ d kk, p.classOf? b = some (d, kk) → Finished p old s' b t d kk) :
    Owned p old start b t s' ∧ s'.types.constructs t.constructorType ≠ [] := by
  refine ⟨hf.toOwned.reshape hr (hf.sound.reshape hf.known hr hi hk
    (fun hne => absurd hf.unfinished hne) fun _ => hfinished), ?_⟩
  rw [TypeTable.constructs_of_shape? hr.constructor]
  exact hsome

end

end

end ScriptAnalysis.Checking
