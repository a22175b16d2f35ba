import Mathlib.Data.Finset.Prod
import ScriptAnalysis.Proofs.Checking.Idle

/-!
# The guards of the checker

The checker comes back to a symbol while it is still busy with it, or for
ever, unless something stops it. Four guards do: a symbol whose type as a
value, or as a type, is being resolved is on a list of the standpoint, and
the types of a class or an interface are in their table before the members
are looked at. A guard that is taken stays taken until the checker is back.

**The measure.** `free c s` are the guards that are not taken, four at most
for a symbol of the program. Whatever goes around in circles takes a guard on
its way, so there is one free guard less each time.

**Steps.** `Completes c g x`: from every state with at most `g` free guards
the computation `x` gets along without hitting the bound on nested rules,
comes back to `c` and frees no guard of a class or an interface.

**Results.**
* `card_free_le`, `card_free_lt`: the measure, and how it falls.
* `Completes.bind` and the other combinators of the monad.
* `Completes.moved`, `Completes.guarded`: an excursion, and one that takes a
  guard. `Ends.enter` does so by an entry into a table.
-/
namespace ScriptAnalysis.Checking

variable {α β γ : Type}

/-! ## The measure -/

/-- What keeps the checker from going around in circles at a symbol. -/
inductive Guard where
  | value
  | type
  | class_
  | interface
  deriving DecidableEq

/-- A guard of a symbol is taken. -/
def Taken (c : Context) (s : State) (id : SymbolId) : Guard → Bool
  | .value => c.resolvingValues.contains id
  | .type => c.resolvingTypes.contains id
  | .class_ => (s.classTypes.get? id).isSome
  | .interface => (s.interfaceTypes.get? id).isSome

/-- The guards of one symbol. -/
def guards : Finset Guard := {.value, .type, .class_, .interface}

/-- The guards of the symbols of the program that are not taken. -/
def free (c : Context) (s : State) : Finset (Guard × SymbolId) :=
  (guards ×ˢ Finset.range c.bindings.symbols.size).filter fun t => Taken c s t.2 t.1 = false

section

variable {c c' : Context} {s s' : State}

theorem mem_guards (guard : Guard) : guard ∈ guards := by
  cases guard <;> decide

theorem mem_free {guard : Guard} {id : SymbolId} :
    (guard, id) ∈ free c s ↔ id < c.bindings.symbols.size ∧ Taken c s id guard = false := by
  simp [free, mem_guards]

/-- Only what is being resolved matters of a place. -/
theorem free_congr (hb : c'.bindings = c.bindings) (hv : c'.resolvingValues = c.resolvingValues)
    (ht : c'.resolvingTypes = c.resolvingTypes) (s : State) : free c' s = free c s := by
  have htaken (id : SymbolId) (guard : Guard) : Taken c' s id guard = Taken c s id guard := by
    cases guard <;> simp [Taken, hv, ht]
  unfold free
  simp only [hb, htaken]

theorem card_free_le (c : Context) (s : State) : (free c s).card ≤ 4 * c.bindings.symbols.size := by
  refine (Finset.card_filter_le _ _).trans (Nat.le_of_eq ?_)
  rw [Finset.card_product, Finset.card_range]
  rfl

theorem free_subset (hb : c'.bindings = c.bindings)
    (h : ∀ id guard, Taken c s id guard = true → Taken c' s' id guard = true) :
    free c' s' ⊆ free c s := by
  rintro ⟨guard, id⟩ hmem
  rw [mem_free, hb] at hmem
  refine mem_free.2 ⟨hmem.1, ?_⟩
  cases ht : Taken c s id guard with
  | false => rfl
  | true => rw [h id guard ht] at hmem; cases hmem.2

/-- One more guard is taken. -/
theorem card_free_lt {guard : Guard} {id : SymbolId} (hb : c'.bindings = c.bindings)
    (h : ∀ id guard, Taken c s id guard = true → Taken c' s' id guard = true)
    (hid : id < c.bindings.symbols.size) (hnew : Taken c s id guard = false)
    (htaken : Taken c' s' id guard = true) : (free c' s').card < (free c s).card := by
  refine Finset.card_lt_card ((Finset.ssubset_iff_of_subset (free_subset hb h)).2
    ⟨(guard, id), mem_free.2 ⟨hid, hnew⟩, fun hmem => ?_⟩)
  rw [(mem_free.1 hmem).2] at htaken
  cases htaken

end

/-! ## Steps -/

/-- In between, the bound was not hit and no class or interface was
forgotten. -/
structure Proceeds (s s' : State) : Prop where
  exhausted : s'.exhausted = s.exhausted
  classes : ∀ id, (s.classTypes.get? id).isSome = true → (s'.classTypes.get? id).isSome = true
  interfaces : ∀ id, (s.interfaceTypes.get? id).isSome = true →
    (s'.interfaceTypes.get? id).isSome = true

theorem Proceeds.refl (s : State) : Proceeds s s := ⟨rfl, fun _ h => h, fun _ h => h⟩

theorem Proceeds.trans {s t u : State} (h : Proceeds s t) (h' : Proceeds t u) : Proceeds s u :=
  ⟨h'.exhausted.trans h.exhausted, fun id hid => h'.classes id (h.classes id hid),
    fun id hid => h'.interfaces id (h.interfaces id hid)⟩

theorem Proceeds.of_same {s s' : State} (he : s'.exhausted = s.exhausted)
    (hc : s'.classTypes = s.classTypes) (hi : s'.interfaceTypes = s.interfaceTypes) :
    Proceeds s s' :=
  ⟨he, fun _ h => hc ▸ h, fun _ h => hi ▸ h⟩

theorem Proceeds.taken {s s' : State} (h : Proceeds s s') (c : Context) (id : SymbolId)
    (guard : Guard) (ht : Taken c s id guard = true) : Taken c s' id guard = true := by
  cases guard with
  | value => exact ht
  | type => exact ht
  | class_ => exact h.classes id ht
  | interface => exact h.interfaces id ht

theorem Proceeds.card_free {s s' : State} (h : Proceeds s s') (c : Context) :
    (free c s').card ≤ (free c s).card :=
  Finset.card_le_card (free_subset rfl (h.taken c))

/-- From `s`, if it has at most `g` free guards, the computation comes back
to `c` without hitting the bound. -/
def Ends (c : Context) (g : Nat) (s : State) (x : Check α) : Prop :=
  (free c s).card ≤ g → (x c s).1.2 = c ∧ Proceeds s (x c s).2

/-- From every state with at most `g` free guards the computation comes back
to `c` without hitting the bound. -/
def Completes (c : Context) (g : Nat) (x : Check α) : Prop :=
  ∀ s, Ends c g s x

section

variable {c : Context} {g : Nat} {s : State} {x : Check α}

theorem Completes.of_proceeds (h : ∀ s, (x c s).1.2 = c ∧ Proceeds s (x c s).2) :
    Completes c g x :=
  fun s _ => h s

theorem Idle.completes (h : Idle c x) : Completes c g x :=
  .of_proceeds fun s => (h s).imp id fun hs =>
    .of_same hs.exhausted hs.classTypes hs.interfaceTypes

/-! ### Sequences -/

theorem Completes.pure (a : α) : Completes c g (Pure.pure a : Check α) :=
  .of_proceeds fun s => ⟨rfl, .refl s⟩

theorem Completes.bind {f : α → Check β} (hx : Completes c g x)
    (hf : ∀ a, Completes c g (f a)) : Completes c g (x >>= f) := by
  intro s hs
  obtain ⟨hback, hp⟩ := hx s hs
  rw [bind_apply, hback]
  exact (hf (x c s).1.1 (x c s).2 ((hp.card_free c).trans hs)).imp id hp.trans

theorem Completes.read {f : Context → Check β} (h : Completes c g (f c)) :
    Completes c g ((MonadReader.read : Check Context) >>= f) :=
  h

theorem Completes.get {f : State → Check β} (h : ∀ s, Completes c g (f s)) :
    Completes c g ((MonadState.get : Check State) >>= f) :=
  fun s => h s s

/-! ### Standing elsewhere -/

section

variable {go : Context → Context} {back : Context → Context → Context}

/-- An excursion. -/
theorem Completes.moved (hx : Completes (go c) g x) (hback : back c (go c) = c)
    (hb : (go c).bindings = c.bindings) (hv : (go c).resolvingValues = c.resolvingValues)
    (ht : (go c).resolvingTypes = c.resolvingTypes) : Completes c g (excursion go back x) := by
  intro s hs
  obtain ⟨hend, hp⟩ := hx s (by rw [free_congr hb hv ht]; exact hs)
  exact ⟨(congrArg (back c) hend).trans hback, hp⟩

/-- An excursion that has its answer at once. -/
theorem Completes.at_once {a : α} (hx : ∀ s, x (go c) s = ((a, go c), s))
    (hback : back c (go c) = c) : Completes c g (excursion go back x) := by
  refine .of_proceeds fun s => ?_
  show back c (x (go c) s).1.2 = c ∧ Proceeds s (x (go c) s).2
  rw [hx]
  exact ⟨hback, .refl s⟩

/-- An excursion that takes a guard. There was a free one, then, and on the
way there is one less. -/
theorem Completes.guarded (guard : Guard) {id : SymbolId} (hid : id < c.bindings.symbols.size)
    (hnew : ∀ s, Taken c s id guard = false) (htaken : ∀ s, Taken (go c) s id guard = true)
    (hkept : ∀ s id guard, Taken c s id guard = true → Taken (go c) s id guard = true)
    (hback : back c (go c) = c) (hb : (go c).bindings = c.bindings)
    (hx : ∀ g', g = g' + 1 → Completes (go c) g' x) : Completes c g (excursion go back x) := by
  intro s hs
  have hlt := card_free_lt hb (hkept s) hid (hnew s) (htaken s)
  obtain ⟨g', rfl⟩ := Nat.exists_eq_add_one_of_ne_zero (n := g) (by omega)
  obtain ⟨hend, hp⟩ := hx g' rfl s (by omega)
  exact ⟨(congrArg (back c) hend).trans hback, hp⟩

end

theorem Completes.in_scope {scope : ScopeId} (hx : Completes { c with scope := scope } g x) :
    Completes c g (inScope scope x) :=
  .moved (c := c) hx rfl rfl rfl rfl

theorem Completes.in_silence (hx : Completes { c with speculative := c.speculative + 1 } g x) :
    Completes c g (silently x) :=
  .moved (c := c) hx rfl rfl rfl rfl

theorem Completes.in_function {declared : Option TypeId}
    (hx : Completes { c with functions := declared :: c.functions, loops := 0 } g x) :
    Completes c g (inFunction declared x) :=
  .moved (c := c) hx rfl rfl rfl rfl

theorem Completes.in_loop (hx : Completes { c with loops := c.loops + 1 } g x) :
    Completes c g (inLoopBody x) :=
  .moved (c := c) hx rfl rfl rfl rfl

theorem Completes.in_class {instances : TypeId}
    (hx : Completes { c with thisTypes := instances :: c.thisTypes } g x) :
    Completes c g (inClass instances x) :=
  .moved (c := c) hx rfl rfl rfl rfl

theorem Completes.in_expression (hx : Completes { c with depth := c.depth + 1 } g x) :
    Completes c g (inExpression x) :=
  .moved (c := c) hx rfl rfl rfl rfl

theorem Completes.resolving_signature {site : Site}
    (hx : Completes { c with resolvingSignatures := site :: c.resolvingSignatures } g x) :
    Completes c g (resolvingSignature site x) :=
  .moved (c := c) hx (by simp) rfl rfl rfl

theorem Completes.at_top {file : FileId} (hx : Completes (c.top file) g x) :
    Completes c g (atTop file x) :=
  .moved (c := c) hx rfl rfl rfl rfl

theorem Completes.at_declaration {file : FileId} {scope : ScopeId}
    (hx : ∀ this : Option TypeId, Completes { c with
      file := file
      scope := scope
      functions := []
      thisTypes := this.toList
      loops := 0
      speculative := c.speculative + 1 } g x) : Completes c g (atDeclaration file scope x) := by
  refine Completes.read (.get fun s => ?_)
  exact Completes.moved (c := c) (hx _) rfl rfl rfl rfl

theorem Completes.resolving_value {id : SymbolId} (hid : id < c.bindings.symbols.size)
    (hnew : c.resolvingValues.contains id = false)
    (hx : ∀ g', g = g' + 1 →
      Completes { c with resolvingValues := id :: c.resolvingValues } g' x) :
    Completes c g (resolvingValue id x) := by
  refine .guarded .value hid (fun _ => hnew) (fun _ => ?_) (fun s id guard ht => ?_)
    (by simp) rfl hx
  · simp [Taken]
  · cases guard with
    | value => exact List.contains_iff_mem.2 (List.mem_cons_of_mem _ (List.contains_iff_mem.1 ht))
    | _ => exact ht

theorem Completes.resolving_type {id : SymbolId} (hid : id < c.bindings.symbols.size)
    (hnew : c.resolvingTypes.contains id = false)
    (hx : ∀ g', g = g' + 1 →
      Completes { c with resolvingTypes := id :: c.resolvingTypes } g' x) :
    Completes c g (resolvingType id x) := by
  refine .guarded .type hid (fun _ => hnew) (fun _ => ?_) (fun s id guard ht => ?_)
    (by simp) rfl hx
  · simp [Taken]
  · cases guard with
    | type => exact List.contains_iff_mem.2 (List.mem_cons_of_mem _ (List.contains_iff_mem.1 ht))
    | _ => exact ht

/-! ### Lists -/

theorem Completes.forM {xs : List α} {f : α → Check PUnit}
    (h : ∀ a ∈ xs, Completes c g (f a)) : Completes c g (xs.forM f) := by
  induction xs with
  | nil => exact .pure _
  | cons a rest ih =>
    show Completes c g (f a >>= fun _ => rest.forM f)
    exact (h a List.mem_cons_self).bind fun _ => ih fun b hb => h b (List.mem_cons_of_mem _ hb)

theorem Completes.mapM {xs : List α} {f : α → Check β} (h : ∀ a ∈ xs, Completes c g (f a)) :
    Completes c g (xs.mapM f) := by
  induction xs with
  | nil => exact .pure _
  | cons a rest ih =>
    rw [List.mapM_cons]
    exact (h a List.mem_cons_self).bind fun _ =>
      (ih fun b hb => h b (List.mem_cons_of_mem _ hb)).bind fun _ => .pure _

theorem Completes.foldlM {xs : List α} {f : β → α → Check β}
    {b : β} (h : ∀ b, ∀ a ∈ xs, Completes c g (f b a)) : Completes c g (xs.foldlM f b) := by
  induction xs generalizing b with
  | nil => exact .pure _
  | cons a rest ih =>
    rw [List.foldlM_cons]
    exact (h b a List.mem_cons_self).bind fun _ =>
      ih fun b a ha => h b a (List.mem_cons_of_mem _ ha)

theorem Completes.forM_option {o : Option α} {f : α → Check PUnit}
    (h : ∀ a ∈ o.toList, Completes c g (f a)) : Completes c g (o.forM f) := by
  cases o with
  | none => exact .pure _
  | some a => exact h a (List.mem_singleton_self a)

/-! ### The steps that all others are made of -/

theorem Completes.alloc (y : TypeTable.Alloc α) : Completes c g (alloc y) :=
  .of_proceeds fun _ => ⟨rfl, .of_same rfl rfl rfl⟩

theorem Completes.modify {f : State → State} (h : ∀ s, Proceeds s (f s)) :
    Completes c g (modify f : Check PUnit) :=
  .of_proceeds fun s => ⟨rfl, h s⟩

theorem Completes.table : Completes c g table :=
  .of_proceeds fun s => ⟨rfl, .refl s⟩

theorem Completes.display (id : TypeId) : Completes c g (display id) :=
  .of_proceeds fun s => ⟨rfl, .refl s⟩

theorem Completes.assignable (source target : TypeId) :
    Completes c g (assignable source target) :=
  .of_proceeds fun s => ⟨rfl, .refl s⟩

theorem Completes.record (node : NodeId) (type : TypeId) : Completes c g (record node type) := by
  refine Completes.read ?_
  split
  · exact .modify fun _ => .of_same rfl rfl rfl
  · exact .pure _

theorem Completes.record? (node : Option NodeId) (type : TypeId) :
    Completes c g (record? node type) :=
  .forM_option fun _ _ => .record _ _

theorem Completes.reportSpan (start length : Nat) (p : Problem) (details : List Message) :
    Completes c g (reportSpan start length p details) := by
  refine Completes.read ?_
  split
  · exact .modify fun _ => .of_same rfl rfl rfl
  · exact .pure _

theorem Completes.reportWith (node : NodeId) (p : Problem) (details : List Message) :
    Completes c g (reportWith node p details) := by
  refine Completes.read ?_
  split
  · exact .pure _
  · exact .reportSpan _ _ _ _

theorem Completes.report (node : NodeId) (p : Problem) : Completes c g (report node p) :=
  .reportWith node p []

theorem Completes.reportStart (node : NodeId) (length : Nat) (p : Problem) :
    Completes c g (reportStart node length p) := by
  refine Completes.read ?_
  split
  · exact .pure _
  · exact .reportSpan _ _ _ _

theorem Completes.checkAssignable (source target : TypeId) (node : NodeId) :
    Completes c g (checkAssignable source target node) := by
  refine Completes.bind (.assignable _ _) fun fits => ?_
  split
  · exact .pure _
  · exact Completes.bind .table fun _ => .read (.reportWith _ _ _)

/-! ### Entries into a table -/

theorem Ends.read {f : Context → Check β} (h : Ends c g s (f c)) :
    Ends c g s ((MonadReader.read : Check Context) >>= f) :=
  h

theorem Ends.get {f : State → Check β} (h : Ends c g s (f s)) :
    Ends c g s ((MonadState.get : Check State) >>= f) :=
  h

theorem Ends.alloc {y : TypeTable.Alloc α} {f : α → Check β}
    (h : ∀ a t, Ends c g { s with types := t } (f a)) : Ends c g s (alloc y >>= f) := by
  intro hs
  have hfree : free c { s with types := (y.run s.types).2 } = free c s := rfl
  obtain ⟨hback, hp⟩ := h (y.run s.types).1 (y.run s.types).2 (by rw [hfree]; exact hs)
  have hsame : Proceeds s { s with types := (y.run s.types).2 } := .of_same rfl rfl rfl
  exact ⟨hback, hsame.trans hp⟩

theorem isSome_get?_insert {ν : Type} {t : Table SymbolId ν} {id id' : SymbolId} {v : ν}
    (h : (t.get? id').isSome = true) : ((t.insert id v).get? id').isSome = true := by
  rw [Table.get?_insert]
  split
  · rfl
  · exact h

/-- A step that takes a guard by an entry into a table. -/
theorem Ends.enter (guard : Guard) {id : SymbolId} {change : State → State} {f : PUnit → Check α}
    (hid : id < c.bindings.symbols.size) (hnew : Taken c s id guard = false)
    (htaken : Taken c (change s) id guard = true) (hp : Proceeds s (change s))
    (hf : ∀ g', g = g' + 1 → Completes c g' (f ⟨⟩)) :
    Ends c g s ((MonadState.modifyGet fun s => (⟨⟩, change s) : Check PUnit) >>= f) := by
  intro hs
  have hlt := card_free_lt rfl (hp.taken c) hid hnew htaken
  obtain ⟨g', rfl⟩ := Nat.exists_eq_add_one_of_ne_zero (n := g) (by omega)
  obtain ⟨hback, hp'⟩ := hf g' rfl (change s) (by omega)
  exact ⟨hback, hp.trans hp'⟩

theorem Ends.enter_class {id : SymbolId} {types : ClassTypes} {f : PUnit → Check α}
    (hid : id < c.bindings.symbols.size) (hnew : s.classTypes.get? id = none)
    (hf : ∀ g', g = g' + 1 → Completes c g' (f ⟨⟩)) :
    Ends c g s (modify (fun s => { s with classTypes := s.classTypes.insert id types }) >>= f) := by
  refine .enter .class_ hid (by simp [Taken, hnew]) ?_ ⟨rfl, fun _ h => ?_, fun _ h => h⟩ hf
  · simp [Taken, Table.get?_insert]
  · exact isSome_get?_insert h

theorem Ends.enter_interface {id : SymbolId} {type : TypeId} {f : PUnit → Check α}
    (hid : id < c.bindings.symbols.size) (hnew : s.interfaceTypes.get? id = none)
    (hf : ∀ g', g = g' + 1 → Completes c g' (f ⟨⟩)) :
    Ends c g s
      (modify (fun s => { s with interfaceTypes := s.interfaceTypes.insert id type }) >>= f) := by
  refine .enter .interface hid (by simp [Taken, hnew]) ?_ ⟨rfl, fun _ h => h, fun _ h => ?_⟩ hf
  · simp [Taken, Table.get?_insert]
  · exact isSome_get?_insert h

end

end ScriptAnalysis.Checking
