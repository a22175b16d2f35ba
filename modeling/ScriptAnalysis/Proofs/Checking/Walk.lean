import ScriptAnalysis.Proofs.Checking.Record
import ScriptAnalysis.Proofs.Types.Growth

/-!
# What every step of the checker keeps

Many facts about the checker are promises that each of its steps keeps and
that no step could keep alone, since the rules need each other. A `Walk` is
such a promise: what holds where a rule is used (`Here`) and how the state
may change until it returns (`Step`). It is enough that remembering what was
found is such a change, and that entering a class or an interface is, if the
rules used on the way keep the promise. All else follows once and for all.

**Imports.** What an import means is what its target means. While that is
worked out, less may hold than elsewhere: `Declaring` is what holds where the
meaning of a symbol as a type is asked for, `Entering` where a class is.

**Results.**
* `Walk.Moves`: a computation keeps the promise and ends where it started;
  the combinators of the monad (`Moves.bind`, `Moves.mapM`, `Moves.moved`).
* `Walked`: some rules keep the promise. `Walked.moves_…`: so does each
  function of the checker.
* `Walked.next`: so do the rules with one more nested use, if that holds for
  entering classes and interfaces.
-/
namespace ScriptAnalysis.Checking

variable {α β : Type}

/-- The places are in the same program, the same symbols are being resolved as
types, and at least the same as values and the same functions. -/
structure SamePlace (c c' : Context) : Prop where
  files : c'.files = c.files
  bindings : c'.bindings = c.bindings
  options : c'.options = c.options
  resolvingTypes : c'.resolvingTypes = c.resolvingTypes
  resolvingValues : c.resolvingValues ⊆ c'.resolvingValues
  resolvingSignatures : c.resolvingSignatures ⊆ c'.resolvingSignatures

theorem SamePlace.refl (c : Context) : SamePlace c c :=
  ⟨rfl, rfl, rfl, rfl, List.Subset.refl _, List.Subset.refl _⟩

theorem SamePlace.trans {c c' c'' : Context} (h : SamePlace c c') (h' : SamePlace c' c'') :
    SamePlace c c'' :=
  ⟨h'.files.trans h.files, h'.bindings.trans h.bindings, h'.options.trans h.options,
    h'.resolvingTypes.trans h.resolvingTypes,
    List.Subset.trans h.resolvingValues h'.resolvingValues,
    List.Subset.trans h.resolvingSignatures h'.resolvingSignatures⟩

/-- Only where things are is another. -/
theorem SamePlace.of_eq {c c' : Context} (hfiles : c'.files = c.files)
    (hbindings : c'.bindings = c.bindings) (hoptions : c'.options = c.options)
    (htypes : c'.resolvingTypes = c.resolvingTypes) (hvalues : c'.resolvingValues = c.resolvingValues)
    (hsignatures : c'.resolvingSignatures = c.resolvingSignatures) : SamePlace c c' :=
  ⟨hfiles, hbindings, hoptions, htypes, hvalues ▸ List.Subset.refl _,
    hsignatures ▸ List.Subset.refl _⟩

/-- Something was found and remembered: types may have been added, and
nothing else has changed that classes and interfaces are known by. -/
structure Finds (s t : State) : Prop where
  types : s.types.Grown t.types
  classTypes : t.classTypes = s.classTypes
  interfaceTypes : t.interfaceTypes = s.interfaceTypes
  exhausted : t.exhausted = s.exhausted

/-- And nothing that is remembered for symbols, functions and types. -/
structure Retains (s t : State) : Prop extends Finds s t where
  valueTypes : t.valueTypes = s.valueTypes
  aliasTypes : t.aliasTypes = s.aliasTypes
  signatures : t.signatures = s.signatures
  memberOwners : t.memberOwners = s.memberOwners
  apparent : t.apparent = s.apparent

theorem Retains.of_eq {s t : State} (htypes : t.types = s.types)
    (hclasses : t.classTypes = s.classTypes) (hinterfaces : t.interfaceTypes = s.interfaceTypes)
    (hexhausted : t.exhausted = s.exhausted) (hvalues : t.valueTypes = s.valueTypes)
    (haliases : t.aliasTypes = s.aliasTypes) (hsignatures : t.signatures = s.signatures)
    (howners : t.memberOwners = s.memberOwners) (hmembers : t.apparent = s.apparent) :
    Retains s t :=
  ⟨⟨htypes ▸ .refl s.types, hclasses, hinterfaces, hexhausted⟩, hvalues, haliases, hsignatures,
    howners, hmembers⟩

/-- Something is remembered at `t` that was unknown at `s`. What is being resolved is
not. -/
inductive Learns (c : Context) (s t : State) : State → Prop
  | value {id : SymbolId} (hnew : s.valueTypes.get? id = none) (hidle : id ∉ c.resolvingValues)
      (type : TypeId) : Learns c s t { t with valueTypes := t.valueTypes.insert id type }
  | alias_ {id : SymbolId} (hnew : s.aliasTypes.get? id = none) (hidle : id ∉ c.resolvingTypes)
      (type : TypeId) : Learns c s t { t with aliasTypes := t.aliasTypes.insert id type }
  | signature {site : Site} (hnew : s.signatures.get? site = none)
      (hidle : site ∉ c.resolvingSignatures) (found : Signature) :
      Learns c s t { t with signatures := t.signatures.insert site found }
  | member {key : TypeId × String} (hnew : s.apparent.get? key = none) (type : TypeId) :
      Learns c s t { t with apparent := t.apparent.insert key type }

theorem Learns.finds {c : Context} {s t u : State} (h : Learns c s t u) : Finds t u := by
  cases h <;> exact ⟨.refl t.types, rfl, rfl, rfl⟩

/-- A promise that each step of the checker keeps. -/
structure Walk where
  Here : Context → State → Prop
  Step : State → State → Prop
  Declaring : SymbolId → Context → State → Prop
  Entering : SymbolId → Context → State → Prop
  refl : ∀ s, Step s s
  trans : ∀ {s t u}, Step s t → Step t u → Step s u
  stay : ∀ {c s t}, Here c s → Step s t → Here c t
  place : ∀ {c c' s}, SamePlace c c' → Here c s → Here c' s
  found : ∀ {s t}, Retains s t → Step s t
  learned : ∀ {c s t u}, Here c s → Step s t → Learns c s t u → Step s u
  exhausts : ∀ s : State, Step s { s with exhausted := true }
  declaring : ∀ {c s} (id : SymbolId), Here c s → Declaring id c s
  entering : ∀ {c s} (id : SymbolId), Here c s → Entering id c s
  /-- The way to what an import means. -/
  import_ : ∀ {c s id symbol target}, Declaring id c s → c.symbol? id = some symbol →
    symbol.flags.alias_ = true → c.importTarget? id = some target →
    Declaring target { c with resolvingTypes := id :: c.resolvingTypes } s
  /-- The way to what a class means. -/
  class_ : ∀ {c s id symbol}, Declaring id c s → c.symbol? id = some symbol →
    symbol.flags.alias_ = false → symbol.flags.class_ = true → Entering id c s
  /-- The way to what anything else means. -/
  other : ∀ {c s id symbol}, Declaring id c s → c.symbol? id = some symbol →
    symbol.flags.alias_ = false → symbol.flags.class_ = false → Here c s
  /-- The way to what an alias of a type means. -/
  alias_ : ∀ {c s id symbol}, Here c s → c.symbol? id = some symbol →
    symbol.flags.alias_ = false → symbol.flags.class_ = false →
    Here { c with resolvingTypes := id :: c.resolvingTypes } s

namespace Walk

variable {w : Walk} {c : Context} {x : Check α}

/-- A computation that starts at `c` ends there, and keeps the promise if
`pre` holds at the start. -/
def From (w : Walk) (pre : Context → State → Prop) (c : Context) (x : Check α) : Prop :=
  ∀ s, (x c s).1.2 = c ∧ (pre c s → w.Step s (x c s).2)

/-- A computation keeps the promise. -/
abbrev Moves (w : Walk) (c : Context) (x : Check α) : Prop :=
  w.From w.Here c x

/-! ## Sequences -/

theorem Moves.pure (a : α) : w.Moves c (Pure.pure a : Check α) :=
  fun s => ⟨rfl, fun _ => w.refl s⟩

theorem Moves.bind_gives {f : α → Check β} (hx : w.Moves c x)
    (hf : ∀ a, Gives c x a → w.Moves c (f a)) : w.Moves c (x >>= f) := by
  intro s
  obtain ⟨hback, hstep⟩ := hx s
  rw [bind_apply, hback]
  obtain ⟨hback', hstep'⟩ := hf _ ⟨s, rfl⟩ (x c s).2
  exact ⟨hback', fun h => w.trans (hstep h) (hstep' (w.stay h (hstep h)))⟩

theorem Moves.bind {f : α → Check β} (hx : w.Moves c x) (hf : ∀ a, w.Moves c (f a)) :
    w.Moves c (x >>= f) :=
  hx.bind_gives fun a _ => hf a

theorem Moves.read {f : Context → Check β} (h : w.Moves c (f c)) :
    w.Moves c ((MonadReader.read : Check Context) >>= f) :=
  h

theorem Moves.get {f : State → Check β} (h : ∀ s, w.Moves c (f s)) :
    w.Moves c ((MonadState.get : Check State) >>= f) :=
  fun s => h s s

theorem Moves.modify {f : State → State} (h : ∀ s, Retains s (f s)) :
    w.Moves c (modify f : Check PUnit) :=
  fun s => ⟨rfl, fun _ => w.found (h s)⟩

theorem Moves.alloc {y : TypeTable.Alloc α} (h : TypeTable.Grows y) : w.Moves c (alloc y) :=
  fun s => ⟨rfl, fun _ => w.found ⟨⟨h s.types, rfl, rfl, rfl⟩, rfl, rfl, rfl, rfl, rfl⟩⟩

theorem Moves.table : w.Moves c table :=
  fun s => ⟨rfl, fun _ => w.refl s⟩

theorem Moves.display (id : TypeId) : w.Moves c (display id) :=
  fun s => ⟨rfl, fun _ => w.refl s⟩

theorem Moves.assignable (source target : TypeId) : w.Moves c (assignable source target) :=
  fun s => ⟨rfl, fun _ => w.refl s⟩

theorem Moves.forM {xs : List α} {f : α → Check PUnit} (h : ∀ a, w.Moves c (f a)) :
    w.Moves c (xs.forM f) := by
  induction xs with
  | nil => exact .pure _
  | cons a rest ih =>
    show w.Moves c (f a >>= fun _ => rest.forM f)
    exact (h a).bind fun _ => ih

theorem Moves.forM_option {o : Option α} {f : α → Check PUnit} (h : ∀ a, w.Moves c (f a)) :
    w.Moves c (o.forM f) := by
  cases o with
  | none => exact .pure _
  | some a => exact h a

theorem Moves.mapM {xs : List α} {f : α → Check β} (h : ∀ a, w.Moves c (f a)) :
    w.Moves c (xs.mapM f) := by
  induction xs with
  | nil => exact .pure _
  | cons a rest ih =>
    rw [List.mapM_cons]
    exact (h a).bind fun _ => ih.bind fun _ => .pure _

theorem Moves.foldlM {xs : List α} {f : β → α → Check β} (h : ∀ b a, w.Moves c (f b a)) (b : β) :
    w.Moves c (xs.foldlM f b) := by
  induction xs generalizing b with
  | nil => exact .pure _
  | cons a rest ih =>
    rw [List.foldlM_cons]
    exact (h b a).bind ih

/-! ### What is given -/

theorem gives_pure {a b : α} (h : Gives c (Pure.pure a : Check α) b) : b = a := by
  obtain ⟨s, rfl⟩ := h
  rfl

theorem gives_read {f : Context → Check β} {b : β}
    (h : Gives c ((MonadReader.read : Check Context) >>= f) b) : Gives c (f c) b :=
  h

/-- What a sequence gives comes from what its first part gives, if that
comes back. -/
theorem gives_bind {f : α → Check β} {b : β} (hx : ∀ s, (x c s).1.2 = c)
    (h : Gives c (x >>= f) b) : ∃ a, Gives c x a ∧ Gives c (f a) b := by
  obtain ⟨s, hs⟩ := h
  rw [bind_apply, hx s] at hs
  exact ⟨_, ⟨s, rfl⟩, _, hs⟩

/-- What an excursion gives is given elsewhere. -/
theorem gives_excursion {go : Context → Context} {back : Context → Context → Context} {a : α}
    (h : Gives c (excursion go back x) a) : ∃ c', Gives c' x a :=
  have ⟨s, hs⟩ := h
  ⟨go c, s, hs⟩

theorem Moves.gives_bind {f : α → Check β} {b : β} (hx : w.Moves c x)
    (h : Gives c (x >>= f) b) : ∃ a, Gives c x a ∧ Gives c (f a) b :=
  Walk.gives_bind (fun s => (hx s).1) h

/-- What holds of each result on the way, with what has been gone through,
holds of the last. -/
theorem gives_foldlM {xs : List α} {f : β → α → Check β} (q : List α → β → Prop)
    (h : ∀ b a s, (f b a c s).1.2 = c)
    (hq : ∀ done b a b', q done b → Gives c (f b a) b' → q (done ++ [a]) b') {b b' : β}
    (hb : q [] b) (hb' : Gives c (xs.foldlM f b) b') : q xs b' := by
  suffices hall : ∀ done b, q done b → Gives c (xs.foldlM f b) b' → q (done ++ xs) b' from
    hall [] b hb hb'
  clear hb hb' b
  induction xs with
  | nil =>
    intro done b hb hb'
    rw [gives_pure hb', List.append_nil]
    exact hb
  | cons a rest ih =>
    intro done b hb hb'
    rw [List.foldlM_cons] at hb'
    obtain ⟨b₁, hfirst, hrest⟩ := gives_bind (h b a) hb'
    have hdone := ih (done ++ [a]) b₁ (hq done b a b₁ hb hfirst) hrest
    rwa [List.append_assoc] at hdone

/-! ### With less at the start -/

section

variable {pre : Context → State → Prop}

theorem From.of_moves (hpre : ∀ s, pre c s → w.Here c s) (hx : w.Moves c x) : w.From pre c x :=
  fun s => (hx s).imp_right fun hs h => hs (hpre s h)

theorem From.pure (a : α) : w.From pre c (Pure.pure a : Check α) :=
  fun s => ⟨rfl, fun _ => w.refl s⟩

theorem From.read {f : Context → Check β} (h : w.From pre c (f c)) :
    w.From pre c ((MonadReader.read : Check Context) >>= f) :=
  h

theorem From.map (hx : w.From pre c x) (f : α → β) : w.From pre c (x >>= fun a => Pure.pure (f a)) :=
  hx

end

/-! ## Standing elsewhere -/

/-- An excursion to where as much holds. -/
theorem From.moved {pre pre' : Context → State → Prop} {go : Context → Context}
    {back : Context → Context → Context} (hx : w.From pre' (go c) x) (hback : back c (go c) = c)
    (hpre : ∀ s, pre c s → pre' (go c) s) : w.From pre c (excursion go back x) := by
  intro s
  obtain ⟨hend, hstep⟩ := hx s
  exact ⟨(congrArg (back c) hend).trans hback, fun h => hstep (hpre s h)⟩

section

variable {go : Context → Context} {back : Context → Context → Context}

theorem Moves.moved (hx : w.Moves (go c) x) (hback : back c (go c) = c)
    (hgo : SamePlace c (go c)) : w.Moves c (excursion go back x) :=
  From.moved hx hback fun _ => w.place hgo

theorem Moves.in_scope {scope : ScopeId} (hx : w.Moves { c with scope := scope } x) :
    w.Moves c (inScope scope x) :=
  hx.moved rfl (.of_eq rfl rfl rfl rfl rfl rfl)

theorem Moves.in_silence (hx : w.Moves { c with speculative := c.speculative + 1 } x) :
    w.Moves c (silently x) :=
  hx.moved rfl (.of_eq rfl rfl rfl rfl rfl rfl)

theorem Moves.in_function {declared : Option TypeId}
    (hx : w.Moves { c with functions := declared :: c.functions, loops := 0 } x) :
    w.Moves c (inFunction declared x) :=
  hx.moved rfl (.of_eq rfl rfl rfl rfl rfl rfl)

theorem Moves.in_loop (hx : w.Moves { c with loops := c.loops + 1 } x) :
    w.Moves c (inLoopBody x) :=
  hx.moved rfl (.of_eq rfl rfl rfl rfl rfl rfl)

theorem Moves.in_class {instances : TypeId}
    (hx : w.Moves { c with thisTypes := instances :: c.thisTypes } x) :
    w.Moves c (inClass instances x) :=
  hx.moved rfl (.of_eq rfl rfl rfl rfl rfl rfl)

theorem Moves.in_expression (hx : w.Moves { c with depth := c.depth + 1 } x) :
    w.Moves c (inExpression x) :=
  hx.moved rfl (.of_eq rfl rfl rfl rfl rfl rfl)

theorem Moves.resolving_value {id : SymbolId}
    (hx : w.Moves { c with resolvingValues := id :: c.resolvingValues } x) :
    w.Moves c (resolvingValue id x) :=
  hx.moved (by simp) ⟨rfl, rfl, rfl, rfl, List.subset_cons_self _ _, List.Subset.refl _⟩

theorem Moves.resolving_signature {site : Site}
    (hx : w.Moves { c with resolvingSignatures := site :: c.resolvingSignatures } x) :
    w.Moves c (resolvingSignature site x) :=
  hx.moved (by simp) ⟨rfl, rfl, rfl, rfl, List.Subset.refl _, List.subset_cons_self _ _⟩

theorem Moves.at_top {file : FileId} (hx : w.Moves (c.top file) x) : w.Moves c (atTop file x) :=
  hx.moved rfl (.of_eq rfl rfl rfl rfl rfl rfl)

theorem Moves.at_declaration {file : FileId} {scope : ScopeId}
    (hx : ∀ c', SamePlace c c' → w.Moves c' x) : w.Moves c (atDeclaration file scope x) := by
  refine Moves.read (Moves.get fun s => ?_)
  exact Moves.moved (hx _ (.of_eq rfl rfl rfl rfl rfl rfl)) rfl (.of_eq rfl rfl rfl rfl rfl rfl)

end

/-! ## Steps that find something -/

/-- A computation that starts from the state keeps the promise. -/
def MovesFrom (w : Walk) (s : State) (c : Context) (x : Check α) : Prop :=
  (x c s).1.2 = c ∧ (w.Here c s → w.Step s (x c s).2)

theorem Moves.get_from {f : State → Check β} (h : ∀ s, w.MovesFrom s c (f s)) :
    w.Moves c ((MonadState.get : Check State) >>= f) :=
  h

theorem MovesFrom.pure {s : State} (a : α) : w.MovesFrom s c (Pure.pure a : Check α) :=
  Moves.pure a s

/-- What is found from here on is remembered. -/
theorem MovesFrom.learn {s : State} (hx : w.MovesFrom s c x) {f : α → State → State} {g : α → β}
    (hf : ∀ a t, Learns c s t (f a t)) :
    w.MovesFrom s c (x >>= fun a => (modify (f a) : Check PUnit) >>= fun _ => Pure.pure (g a)) := by
  obtain ⟨hback, hstep⟩ := hx
  unfold MovesFrom
  rw [bind_apply, hback]
  exact ⟨rfl, fun hhere => w.learned hhere (hstep hhere) (hf _ _)⟩

theorem Moves.record (node : NodeId) (type : TypeId) : w.Moves c (record node type) := by
  refine Moves.read ?_
  split
  · exact .modify fun s => .of_eq rfl rfl rfl rfl rfl rfl rfl rfl rfl
  · exact .pure _

theorem Moves.record? (node : Option NodeId) (type : TypeId) : w.Moves c (record? node type) :=
  .forM_option fun _ => .record _ _

theorem Moves.reportSpan (start length : Nat) (p : Problem) (details : List Message) :
    w.Moves c (reportSpan start length p details) := by
  refine Moves.read ?_
  split
  · exact .modify fun s => .of_eq rfl rfl rfl rfl rfl rfl rfl rfl rfl
  · exact .pure _

theorem Moves.reportWith (node : NodeId) (p : Problem) (details : List Message) :
    w.Moves c (reportWith node p details) := by
  refine Moves.read ?_
  split
  · exact .pure _
  · exact .reportSpan _ _ _ _

theorem Moves.report (node : NodeId) (p : Problem) : w.Moves c (report node p) :=
  .reportWith node p []

theorem Moves.reportStart (node : NodeId) (length : Nat) (p : Problem) :
    w.Moves c (reportStart node length p) := by
  refine Moves.read ?_
  split
  · exact .pure _
  · exact .reportSpan _ _ _ _

theorem Moves.checkAssignable (source target : TypeId) (node : NodeId) :
    w.Moves c (checkAssignable source target node) := by
  refine (Moves.assignable _ _).bind fun fits => ?_
  split
  · exact .pure _
  · exact Moves.table.bind fun _ => .read (.reportWith _ _ _)

theorem Moves.exhaust : w.Moves c exhaust :=
  fun s => ⟨rfl, fun _ => w.exhausts s⟩

theorem Moves.widen (id : TypeId) : w.Moves c (Checking.alloc (TypeTable.widen id)) :=
  .alloc (TypeTable.grows_widen id)

theorem Moves.union (ids : List TypeId) : w.Moves c (Checking.alloc (TypeTable.union ids)) :=
  .alloc (TypeTable.grows_union ids)

theorem Moves.inferredReturn (returned : List TypeId) :
    w.Moves c (inferredReturn returned) := by
  unfold Checking.inferredReturn
  split
  · exact .pure _
  · exact (Moves.mapM fun _ => .widen _).bind fun _ => .union _

theorem Moves.literalType (a : Arena) (literal : NodeId) : w.Moves c (literalType a literal) := by
  unfold Checking.literalType
  split
  · exact .pure _
  · exact .pure _
  · exact .alloc (TypeTable.grows_numberLiteral _)
  · exact .alloc (TypeTable.grows_stringLiteral _)
  · exact .pure _

theorem Moves.memberType (id : TypeId) (name : String) : w.Moves c (memberType id name) := by
  unfold Checking.memberType
  split
  · exact .pure _
  · refine Moves.table.bind fun t => ?_
    split
    · exact .pure _
    · split
      · exact .pure _
      · split
        · refine Moves.get_from fun s => ?_
          split
          · exact .pure _
          · rename_i hnew
            exact .learn (Moves.alloc (TypeTable.grows_memberType _ _) s) fun _ _ => .member hnew _
        · exact .pure _

theorem Moves.memberTypes (name : String) (ids : List TypeId) :
    w.Moves c (memberTypes name ids) := by
  induction ids with
  | nil => exact .pure _
  | cons id rest ih =>
    refine (Moves.memberType id name).bind fun found => ?_
    split
    · exact .pure _
    · refine ih.bind fun others => ?_
      split <;> exact .pure _

theorem Moves.propertyType (id : TypeId) (name : String) : w.Moves c (propertyType id name) := by
  refine Moves.table.bind fun t => ?_
  split
  · refine (Moves.memberTypes _ _).bind fun types => ?_
    split
    · exact .pure _
    · exact (Moves.union _).bind fun _ => .pure _
  · exact .memberType id name

theorem Moves.ownPropertyType (owner : TypeId) (name : String) :
    w.Moves c (ownPropertyType owner name) :=
  Moves.table.bind fun _ => .pure _

theorem Moves.operatorType (operator : TokenKind) (left right : TypeId) :
    w.Moves c (operatorType operator left right) := by
  unfold Checking.operatorType
  split
  any_goals exact .pure _
  · exact Moves.table.bind fun _ => .pure _
  · exact Moves.table.bind fun _ => .union _
  · exact Moves.table.bind fun _ => .union _

theorem Moves.takeContext (node : NodeId) (expected : Option TypeId) :
    w.Moves c (takeContext node expected) := by
  refine Moves.read (Moves.table.bind fun t => ?_)
  split
  · refine .forM fun pair => ?_
    dsimp only
    split
    · exact .pure _
    · exact .modify fun s => .of_eq rfl rfl rfl rfl rfl rfl rfl rfl rfl
  · exact .pure _

theorem Moves.checkTarget (target : NodeId) : w.Moves c (checkTarget target) := by
  refine Moves.read ?_
  split
  · exact .pure _
  · split
    · exact (Moves.report _ _).bind fun _ => .pure _
    · exact .pure _

theorem Moves.checkJump (node : NodeId) (length : Nat) (p : Problem) :
    w.Moves c (checkJump node length p) := by
  refine Moves.read ?_
  split
  · exact .pure _
  · exact .reportStart _ _ _

theorem Moves.thisType : w.Moves c thisType :=
  fun s => ⟨rfl, fun _ => w.refl s⟩

theorem Moves.superType : w.Moves c superType :=
  fun s => ⟨rfl, fun _ => w.refl s⟩

end Walk

/-! ## Rules -/

/-- The rules keep the promise. -/
structure Walked (w : Walk) (r : Rules) : Prop where
  typeNode : ∀ c node, w.Moves c (r.typeNode node)
  expression : ∀ c node expected, w.Moves c (r.expression node expected)
  statement : ∀ c node, w.Moves c (r.statement node)
  valueType : ∀ c id, w.Moves c (r.valueType id)
  declaredType : ∀ c id, w.From (w.Declaring id) c (r.declaredType id)
  classTypes : ∀ c id, w.From (w.Entering id) c (r.classTypes id)

open Walk

namespace Walked

variable {w : Walk} {self : Rules} {c : Context} (h : Walked w self)

include h

theorem moves_declaredType (id : SymbolId) : w.Moves c (self.declaredType id) :=
  fun s => (h.declaredType c id s).imp_right fun hs hhere => hs (w.declaring id hhere)

theorem moves_classTypes (id : SymbolId) : w.Moves c (self.classTypes id) :=
  fun s => (h.classTypes c id s).imp_right fun hs hhere => hs (w.entering id hhere)

/-! ### Functions -/

theorem moves_ascription (type : Option NodeId) : w.Moves c (ascription self type) := by
  cases type with
  | none => exact .pure _
  | some node => exact Moves.bind (h.typeNode c node) fun _ => .pure _

theorem moves_functionBody (node : NodeId) (declared : Option TypeId) :
    w.Moves c (functionBody self node declared) := by
  refine Moves.read ?_
  split
  · exact .pure _
  · refine Moves.in_scope (Moves.in_function ?_)
    split
    · exact .pure _
    · exact Moves.bind (.mapM fun _ => h.statement _ _) fun _ => .pure _
    · refine Moves.bind (h.expression _ _ _) fun type => ?_
      exact Moves.bind (.forM_option fun _ => .checkAssignable _ _ _) fun _ => .pure _

theorem moves_parameterType (node : NodeId) : w.Moves c (parameterType self node) := by
  refine Moves.read ?_
  split
  · exact .pure _
  · split
    · exact h.typeNode _ _
    · exact Moves.bind (h.expression _ _ _) fun _ => .widen _
    · exact Moves.get fun _ => .pure _

theorem moves_parameterInfo (node : NodeId) : w.Moves c (parameterInfo self node) := by
  refine Moves.read ?_
  split
  · exact .pure _
  · split
    · exact Moves.bind (h.valueType _ _) fun _ => .pure _
    · exact Moves.bind (h.moves_parameterType _) fun _ => .pure _

theorem moves_returnType (node : NodeId) (kind : FunctionKind) (p : FunctionParts) :
    w.Moves c (returnType self node kind p) := by
  unfold returnType
  split
  · exact Moves.read (Moves.in_scope (h.typeNode _ _))
  · split
    · exact .pure _
    · split
      · exact Moves.bind (Moves.in_silence (h.moves_functionBody _ _)) fun _ => .inferredReturn _
      · exact .pure _

theorem moves_signature (node : NodeId) : w.Moves c (signature self node) := by
  refine Moves.read (Moves.get_from fun s => ?_)
  split
  · exact .pure _
  rename_i hnew
  split
  · rename_i kind p _
    have hparameters : w.Moves c (inScope (c.scopeOf node) (p.parameters.mapM (parameterInfo self))) :=
      Moves.in_scope (.mapM fun _ => h.moves_parameterInfo _)
    by_cases hidle : c.site node ∈ c.resolvingSignatures
    · simp only [List.contains_eq_mem, hidle, decide_true, if_true]
      exact Moves.bind hparameters (fun _ => .pure _) s
    · simp only [List.contains_eq_mem, hidle, decide_false, Bool.false_eq_true, if_false]
      exact MovesFrom.learn (x := do
          let parameters ← inScope (c.scopeOf node) (p.parameters.mapM (parameterInfo self))
          let type ← resolvingSignature (c.site node) (returnType self node kind p)
          return (⟨parameters, type⟩ : Signature))
        (f := fun result s => { s with signatures := s.signatures.insert (c.site node) result })
        (g := fun result => result)
        (Moves.bind hparameters (fun _ =>
          Moves.bind (.resolving_signature (h.moves_returnType _ _ _)) fun _ => .pure _) s)
        fun _ _ => .signature hnew hidle _
  · exact .pure _

/-- A type with some signatures and nothing else. -/
theorem moves_functionsType (nodes : List NodeId) : w.Moves c (functionsType self nodes) :=
  Moves.bind (.mapM h.moves_signature) fun _ =>
    .alloc (TypeTable.grows_allocate ⟨rfl, rfl, rfl, List.nodup_nil⟩)

theorem moves_initializer (initializer : Option NodeId) (annotated : Option TypeId)
    (name : NodeId) : w.Moves c (checkInitializer self initializer annotated name) :=
  .forM_option fun _ => Moves.bind (h.expression _ _ _) fun _ =>
    .forM_option fun _ => .checkAssignable _ _ _

theorem moves_checkParameter (arrow : Bool) (node : NodeId) :
    w.Moves c (checkParameter self arrow node) := by
  refine Moves.read ?_
  split
  · exact .pure _
  · extract_lets rest
    have hrest : ∀ type, w.Moves c (rest type) := by
      intro type
      refine Moves.bind (h.moves_ascription _) fun annotated => ?_
      refine Moves.bind (h.moves_initializer _ _ _) fun _ => Moves.get fun s => ?_
      dsimp only
      split
      · exact Moves.bind (.report _ _) fun _ => Moves.bind (.record _ _) fun _ => .record _ _
      · exact Moves.bind (.record _ _) fun _ => .record _ _
    split
    · exact Moves.bind (h.valueType _ _) hrest
    · exact Moves.bind (Moves.in_silence (h.moves_parameterType _)) hrest

theorem moves_checkFunction (node : NodeId) : w.Moves c (checkFunction self node) := by
  refine Moves.read ?_
  split
  · exact .pure _
  · refine Moves.in_scope ?_
    refine Moves.bind (.forM fun _ => h.moves_checkParameter _ _) fun _ => ?_
    refine Moves.bind (h.moves_ascription _) fun declared => ?_
    split
    · exact .pure _
    · refine Moves.bind (h.moves_functionBody _ _) fun returned => ?_
      split
      · refine Moves.table.bind fun t => ?_
        split
        · exact .report _ _
        · exact .pure _
      · exact .pure _

/-! ### Types that are spelled out -/

theorem moves_typeReference (node : NodeId) : w.Moves c (typeReference self node) := by
  refine Moves.read ?_
  split
  · exact .pure _
  · split
    · exact .pure _
    · extract_lets rest
      have hrest : ∀ type, w.Moves c (rest type) := fun type =>
        Moves.bind (.record _ _) fun _ => .pure _
      split
      · refine Moves.bind (h.moves_declaredType _) fun found => ?_
        split
        · exact Moves.bind (.pure _) hrest
        · exact Moves.bind (.report _ _) fun _ => Moves.bind (.pure _) hrest
      · split
        · exact Moves.bind (.report _ _) fun _ => Moves.bind (.pure _) hrest
        · exact Moves.bind (.report _ _) fun _ => Moves.bind (.pure _) hrest

theorem moves_signatureParameter (node : NodeId) :
    w.Moves c (signatureParameter self node) := by
  refine Moves.read ?_
  split
  · exact .pure _
  · refine Moves.bind (h.moves_ascription _) fun _ => ?_
    exact Moves.bind (.record _ _) fun _ => .record _ _

theorem moves_typeOfForm (node : NodeId) (form : Form) :
    w.Moves c (typeOfForm self node form) := by
  unfold typeOfForm
  split
  · exact .pure _
  · exact Moves.read (Moves.bind (.literalType _ _) fun _ =>
      Moves.bind (.record _ _) fun _ => .pure _)
  · exact Moves.bind (h.typeNode _ _) fun _ => .alloc (TypeTable.grows_array _)
  · exact h.typeNode _ _
  · exact Moves.bind (.mapM fun _ => h.typeNode _ _) fun _ => .union _
  · refine Moves.bind (.forM fun _ => h.moves_signatureParameter _) fun _ => ?_
    exact Moves.bind (h.moves_signature _) fun _ => .alloc (TypeTable.grows_function _)
  · exact h.moves_typeReference _
  · exact .pure _

theorem moves_typeNode (node : NodeId) : w.Moves c (Checking.typeNode self node) := by
  refine Moves.read ?_
  split
  · exact .pure _
  · refine Moves.bind (h.moves_typeOfForm _ _) fun _ => ?_
    exact Moves.bind (.record _ _) fun _ => .pure _

theorem moves_aliasType {id : SymbolId} {symbol : Symbol} (hid : c.symbol? id = some symbol)
    (himport : symbol.flags.alias_ = false) (hclass : symbol.flags.class_ = false) :
    w.Moves c (aliasType self id symbol) := by
  refine Moves.get_from fun s => ?_
  split
  · exact .pure _
  rename_i hnew
  show w.MovesFrom s c (if _ then _ else _)
  split
  · exact .pure _
  rename_i hidle
  have hlearn : ∀ {x : Check TypeId}, w.Moves c x → w.MovesFrom s c (x >>= fun type =>
      (modify fun s => { s with aliasTypes := s.aliasTypes.insert id type } : Check PUnit) >>=
        fun _ => Pure.pure type) := fun hx =>
    .learn (hx s) fun _ _ => .alias_ hnew (by simpa using hidle) _
  split
  · exact hlearn (.pure _)
  · split
    · exact hlearn (From.moved (Moves.at_declaration fun _ _ => h.typeNode _ _) (by simp)
        fun s hhere => w.alias_ hhere hid himport hclass)
    · exact hlearn (.pure _)

/-! ### Interfaces -/

theorem moves_addBase (shape : Shape) (heritage : NodeId) :
    w.Moves c (addBase self shape heritage) := by
  refine Moves.bind (h.typeNode _ _) fun base => Moves.table.bind fun t => ?_
  split <;> exact .pure _

theorem moves_addSignatureProperty (shape : Shape) (p : PropertyParts) :
    w.Moves c (addSignatureProperty self shape p) := by
  refine Moves.read ?_
  dsimp only
  split
  · exact .pure _
  · exact Moves.bind (h.moves_ascription _) fun _ => .pure _

theorem moves_addInterfaceMember (acc : Shape × Table String (List NodeId)) (member : NodeId) :
    w.Moves c (addInterfaceMember self acc member) := by
  refine Moves.read ?_
  dsimp only
  split
  · exact Moves.bind (h.moves_addSignatureProperty _ _) fun _ => .pure _
  · exact .pure _
  · exact .pure _

theorem moves_addInterfaceMethod (shape : Shape) (entry : String × List NodeId) :
    w.Moves c (addInterfaceMethod self shape entry) := by
  unfold addInterfaceMethod
  dsimp only
  split
  · exact .pure _
  · exact Moves.read (Moves.bind (h.moves_functionsType _) fun _ => .pure _)

theorem moves_addInterface (shape : Shape) (declaration : Site) :
    w.Moves c (addInterface self shape declaration) := by
  refine Moves.read (Moves.at_declaration fun c' _ => ?_)
  split
  · refine Moves.bind (.foldlM h.moves_addBase _) fun shape => ?_
    refine Moves.bind (.foldlM h.moves_addInterfaceMember _) fun acc => ?_
    exact .foldlM h.moves_addInterfaceMethod _
  · exact .pure _

/-! ### Members of classes -/

theorem moves_addBaseClass (s : ClassShapes) (heritage : Option NodeId) :
    w.Moves c (addBaseClass self s heritage) := by
  unfold addBaseClass
  split
  · exact .pure _
  · refine Moves.bind (h.typeNode _ _) fun base => Moves.table.bind fun t => ?_
    split
    · exact .pure _
    · split
      · exact .pure _
      · dsimp only
        split
        · exact .pure _
        · exact Moves.bind (h.moves_classTypes _) fun _ => .pure _

theorem moves_addClassMember (acc : ClassShapes × ClassMembers) (member : NodeId) :
    w.Moves c (addClassMember self acc member) := by
  refine Moves.read ?_
  dsimp only
  split
  · refine Moves.bind (h.moves_ascription _) fun type => ?_
    split <;> exact .pure _
  · exact .pure _
  · exact .pure _
  · exact .pure _

theorem moves_addParameterProperty (constructor : NodeId) (s : ClassShapes) (node : NodeId) :
    w.Moves c (addParameterProperty self constructor s node) := by
  refine Moves.read ?_
  split
  · exact .pure _
  · split
    · exact Moves.bind (Moves.in_scope (h.moves_parameterType _)) fun _ => .pure _
    · exact .pure _

theorem moves_addParameterProperties (s : ClassShapes) (constructor : NodeId) :
    w.Moves c (addParameterProperties self s constructor) :=
  Moves.read (.foldlM (h.moves_addParameterProperty constructor) _)

theorem moves_methodType (nodes : List NodeId) : w.Moves c (methodType self nodes) :=
  Moves.read (h.moves_functionsType _)

theorem moves_addMethod (s : ClassShapes) (entry : String × List NodeId) :
    w.Moves c (addMethod self s entry) := by
  refine Moves.read ?_
  dsimp only
  split
  · exact Moves.bind (h.moves_methodType _) fun _ => .pure _
  · exact Moves.bind (.pure _) fun _ => .pure _

theorem moves_constructSignatures (types : ClassTypes) (constructors : List NodeId)
    (base : Option TypeId) : w.Moves c (constructSignatures self types constructors base) := by
  refine Moves.read ?_
  extract_lets visible rest
  have hrest : ∀ found, w.Moves c (rest found) := by
    intro found
    show w.Moves c (if _ then _ else _)
    split <;> exact .pure _
  split
  · exact Moves.bind (.mapM h.moves_signature) hrest
  · split
    · exact Moves.table.bind fun _ => Moves.bind (.pure _) hrest
    · exact Moves.bind (.pure _) hrest

/-! ### Values -/

theorem moves_variableType (node : NodeId) : w.Moves c (variableType self node) := by
  refine Moves.read ?_
  split
  · split
    · exact h.typeNode _ _
    · exact Moves.bind (h.expression _ _ _) fun _ => Moves.table.bind fun _ => .pure _
    · exact .pure _
    · refine Moves.bind (h.expression _ _ _) fun type => ?_
      split
      · exact .pure _
      · split
        · exact .pure _
        · exact .widen _
  · exact .pure _

theorem moves_functionType (declarations : List Site) :
    w.Moves c (functionType self declarations) := by
  refine Moves.read (Moves.bind (.mapM fun e => ?_) fun _ => ?_)
  · exact .at_declaration fun _ _ => h.moves_signature _
  · exact .alloc (TypeTable.grows_allocate ⟨rfl, rfl, rfl, List.nodup_nil⟩)

theorem moves_importedType (id : SymbolId) : w.Moves c (importedType self id) := by
  refine Moves.read ?_
  split
  · split
    · exact h.valueType _ _
    · exact .pure _
  · exact .pure _

theorem moves_findValueType (id : SymbolId) : w.Moves c (findValueType self id) := by
  refine Moves.read ?_
  split
  · exact .pure _
  · split
    · exact .pure _
    · split
      · exact h.moves_importedType id
      · split
        · exact Moves.bind (h.moves_classTypes id) fun _ => .pure _
        · split
          · exact h.moves_functionType _
          · split
            · exact .pure _
            · dsimp only
              split
              · exact .at_declaration fun _ _ => h.moves_variableType _
              · split
                · exact .at_declaration fun _ _ => h.moves_parameterType _
                · exact .pure _

theorem moves_valueType (id : SymbolId) : w.Moves c (Checking.valueType self id) := by
  refine Moves.get_from fun s => ?_
  split
  · exact .pure _
  rename_i hnew
  show w.MovesFrom s c (if _ then _ else _)
  split
  · exact .pure _
  rename_i hidle
  exact .learn (Moves.resolving_value (h.moves_findValueType id) s) fun _ _ =>
    .value hnew (by simpa using hidle) _

/-! ### Expressions -/

theorem moves_checkName (node : NodeId) : w.Moves c (checkName self node) := by
  refine Moves.read ?_
  dsimp only
  split
  · exact .pure _
  · split
    · exact h.valueType _ _
    · split
      · exact Moves.bind (.report _ _) fun _ => .pure _
      · exact Moves.bind (.report _ _) fun _ => .pure _

theorem moves_checkPropertyAccess (object name : NodeId) :
    w.Moves c (checkPropertyAccess self object name) := by
  refine Moves.bind (h.expression _ _ _) fun objectType => Moves.read ?_
  extract_lets text rest
  split
  · exact .pure _
  · have hrest : ∀ type, w.Moves c (rest type) := fun type =>
      Moves.bind (.record _ _) fun _ => .pure _
    refine Moves.bind (.propertyType _ _) fun found => ?_
    split
    · exact Moves.bind (.pure _) hrest
    · refine Moves.bind (.display _) fun _ => Moves.bind (.report _ _) fun _ => ?_
      exact Moves.bind (.pure _) hrest

theorem moves_checkElementAccess (object index : NodeId) :
    w.Moves c (checkElementAccess self object index) := by
  refine Moves.bind (h.expression _ _ _) fun objectType => ?_
  refine Moves.bind (h.expression _ _ _) fun indexType => ?_
  split
  · exact .pure _
  · refine Moves.table.bind fun t => ?_
    split
    · exact .pure _
    · split
      · exact .pure _
      · split
        · exact Moves.bind (.propertyType _ _) fun _ => .pure _
        · exact .pure _

theorem moves_checkArray (elements : List NodeId) (expected : Option TypeId) :
    w.Moves c (checkArray self elements expected) := by
  refine Moves.table.bind fun t => ?_
  refine Moves.bind (.mapM fun e => ?_) fun types => ?_
  · exact Moves.bind (h.expression _ _ _) fun _ => .widen _
  · dsimp only
    split
    · exact Moves.bind (.pure _) fun _ => .alloc (TypeTable.grows_array _)
    · exact Moves.bind (.union _) fun _ => .alloc (TypeTable.grows_array _)

theorem moves_addLiteralProperty (expected : Option TypeId) (shape : Shape) (element : NodeId) :
    w.Moves c (addLiteralProperty self expected shape element) := by
  refine Moves.read ?_
  extract_lets a
  split
  · refine Moves.table.bind fun t => ?_
    extract_lets wanted rest
    have hrest : ∀ found, w.Moves c (rest found) := fun found =>
      Moves.bind (.widen _) fun _ => Moves.bind (.record _ _) fun _ =>
        Moves.bind (.record _ _) fun _ => .pure _
    split
    · exact Moves.bind (h.expression _ _ _) hrest
    · exact Moves.bind (h.moves_checkName _) hrest
  · exact .pure _

/-- An object literal has one property of each name. -/
theorem nameless_addLiteralProperty {expected : Option TypeId} {shape shape' : Shape}
    {element : NodeId} (hshape : shape.Nameless)
    (hgives : Gives c (addLiteralProperty self expected shape element) shape') :
    shape'.Nameless := by
  replace hgives := gives_read hgives
  extract_lets a at hgives
  split at hgives
  · obtain ⟨t, -, hgives⟩ := Moves.gives_bind (w := w) .table hgives
    extract_lets wanted rest at hgives
    have hrest : ∀ found, Gives c (rest found) shape' → shape'.Nameless := by
      intro found hfound
      obtain ⟨type, -, hfound⟩ := Moves.gives_bind (w := w) (.widen _) hfound
      obtain ⟨-, -, hfound⟩ := Moves.gives_bind (w := w) (.record _ _) hfound
      obtain ⟨-, -, hfound⟩ := Moves.gives_bind (w := w) (.record _ _) hfound
      rw [gives_pure hfound]
      refine ⟨hshape.kind, hshape.symbol, hshape.constructs, ?_⟩
      refine nodup_names_concat (hshape.names.sublist (List.filter_sublist.map _)) fun p hp => ?_
      simpa using (List.mem_filter.1 hp).2
    split at hgives
    · obtain ⟨found, -, hgives⟩ := (h.expression _ _ _).gives_bind hgives
      exact hrest found hgives
    · obtain ⟨found, -, hgives⟩ := (h.moves_checkName _).gives_bind hgives
      exact hrest found hgives
  · rw [gives_pure hgives]
    exact hshape

theorem moves_checkObject (properties : List NodeId) (expected : Option TypeId) :
    w.Moves c (checkObject self properties expected) := by
  have hprop := h.moves_addLiteralProperty (c := c) expected
  refine Moves.bind_gives (.foldlM hprop _) fun shape hgives => ?_
  have hbare : (Shape.bare .anonymous none none).Nameless := ⟨rfl, rfl, rfl, List.nodup_nil⟩
  have hshape : shape.Nameless :=
    gives_foldlM (fun _ shape => shape.Nameless) (fun shape e s => (hprop shape e s).1)
      (fun _ _ _ _ hs => h.nameless_addLiteralProperty hs) hbare hgives
  exact .alloc (TypeTable.grows_allocate hshape)

theorem moves_checkArguments (arguments : List NodeId) :
    w.Moves c (checkArguments self arguments) :=
  .forM fun _ => Moves.bind (h.expression _ _ _) fun _ => .pure _

theorem moves_argumentsFit (pairs : List (NodeId × Parameter)) :
    w.Moves c (argumentsFit self pairs) := by
  induction pairs with
  | nil => exact .pure _
  | cons pair rest ih =>
    refine Moves.bind (h.expression _ _ _) fun type => Moves.bind (.assignable _ _) fun fits => ?_
    split
    · exact ih
    · exact .pure _

theorem moves_findSignature (arguments : List NodeId) (signatures : List Signature) :
    w.Moves c (findSignature self arguments signatures) := by
  induction signatures with
  | nil => exact .pure _
  | cons s rest ih =>
    refine Moves.bind (Moves.in_silence (h.moves_argumentsFit _)) fun fits => ?_
    split
    · exact .pure _
    · exact ih

theorem moves_checkArgument (argument : NodeId) (p : Parameter) :
    w.Moves c (checkArgument self argument p) := by
  refine Moves.bind (h.expression _ _ _) fun type => Moves.bind (.assignable _ _) fun fits => ?_
  split
  · exact .pure _
  · exact Moves.table.bind fun t => Moves.read (.reportWith _ _ _)

theorem moves_resolveCall (node : NodeId) (signatures : List Signature)
    (arguments : List NodeId) : w.Moves c (resolveCall self node signatures arguments) := by
  unfold resolveCall
  split
  · exact Moves.bind (.report _ _) fun _ =>
      Moves.bind (h.moves_checkArguments _) fun _ => .pure _
  · extract_lets rest
    have hrest : ∀ chosen, w.Moves c (rest chosen) := fun chosen =>
      Moves.bind (.forM fun _ => h.moves_checkArgument _ _) fun _ => .pure _
    split
    · exact Moves.bind (.pure _) hrest
    · exact Moves.bind (h.moves_findSignature _ _) fun _ => Moves.bind (.pure _) hrest

theorem moves_checkSuperCall (node callee : NodeId) (arguments : List NodeId) :
    w.Moves c (checkSuperCall self node callee arguments) := by
  refine Moves.bind (h.expression _ _ _) fun base => Moves.get fun s => ?_
  dsimp only
  split
  · exact Moves.bind (h.moves_checkArguments _) fun _ => .pure _
  · exact Moves.bind (h.moves_resolveCall _ _ _) fun _ => .pure _

theorem moves_checkCall (node callee : NodeId) (arguments : List NodeId) :
    w.Moves c (checkCall self node callee arguments) := by
  refine Moves.read ?_
  split
  · exact h.moves_checkSuperCall _ _ _
  · refine Moves.bind (h.expression _ _ _) fun type => ?_
    split
    · exact Moves.bind (h.moves_checkArguments _) fun _ => .pure _
    · refine Moves.table.bind fun t => ?_
      split
      · exact Moves.bind (.report _ _) fun _ =>
          Moves.bind (h.moves_checkArguments _) fun _ => .pure _
      · exact h.moves_resolveCall _ _ _

theorem moves_checkNew (node callee : NodeId) (arguments : List NodeId) :
    w.Moves c (checkNew self node callee arguments) := by
  refine Moves.bind (h.expression _ _ _) fun type => ?_
  split
  · exact Moves.bind (h.moves_checkArguments _) fun _ => .pure _
  · refine Moves.table.bind fun t => ?_
    split
    · exact Moves.bind (.report _ _) fun _ =>
        Moves.bind (h.moves_checkArguments _) fun _ => .pure _
    · exact h.moves_resolveCall _ _ _

theorem moves_checkPrefix (operator : TokenKind) (operand : NodeId) :
    w.Moves c (checkPrefix self operator operand) := by
  refine Moves.read ?_
  split
  · exact Moves.bind (h.expression _ _ _) fun _ => .pure _
  · exact Moves.bind (h.expression _ _ _) fun _ => .alloc (TypeTable.grows_numberLiteral _)
  · exact Moves.bind (h.expression _ _ _) fun _ => Moves.bind (.checkTarget _) fun _ => .pure _
  · exact Moves.bind (h.expression _ _ _) fun _ => Moves.bind (.checkTarget _) fun _ => .pure _
  · exact Moves.bind (h.expression _ _ _) fun _ => .pure _

theorem moves_checkAssignment (left right : NodeId) :
    w.Moves c (checkAssignment self left right) := by
  refine Moves.bind (h.expression _ _ _) fun target => Moves.bind (.checkTarget _) fun writable => ?_
  refine Moves.bind (h.expression _ _ _) fun value => ?_
  dsimp only
  split
  · exact Moves.bind (.checkAssignable _ _ _) fun _ => .pure _
  · exact .pure _

theorem moves_checkUpdate (left : NodeId) (operator : TokenKind) (right : NodeId) :
    w.Moves c (checkUpdate self left operator right) := by
  refine Moves.bind (h.expression _ _ _) fun target => Moves.bind (.checkTarget _) fun _ => ?_
  refine Moves.bind (h.expression _ _ _) fun value => ?_
  split
  · exact Moves.table.bind fun _ => .pure _
  · exact .pure _

theorem moves_checkBinary (left : NodeId) (operator : TokenKind) (right : NodeId) :
    w.Moves c (checkBinary self left operator right) := by
  unfold checkBinary
  split
  · exact h.moves_checkAssignment _ _
  any_goals exact h.moves_checkUpdate _ _ _
  exact Moves.bind (h.expression _ _ _) fun _ => Moves.bind (h.expression _ _ _) fun _ =>
    .operatorType _ _ _

theorem moves_arrowType (node : NodeId) (expected : Option TypeId) :
    w.Moves c (arrowType self node expected) := by
  refine Moves.read (Moves.get fun s => ?_)
  split
  · exact .pure _
  · refine Moves.bind (.takeContext _ _) fun _ => Moves.bind (h.moves_signature _) fun _ => ?_
    refine Moves.bind (.alloc (TypeTable.grows_function _)) fun type => ?_
    exact Moves.bind (.modify fun s => .of_eq rfl rfl rfl rfl rfl rfl rfl rfl rfl) fun _ => .pure _

theorem moves_checkArrow (node : NodeId) (expected : Option TypeId) :
    w.Moves c (checkArrow self node expected) := by
  refine Moves.bind (h.moves_arrowType _ _) fun type => Moves.read ?_
  dsimp only
  split
  · exact Moves.bind (h.moves_checkFunction _) fun _ => .pure _
  · exact .pure _

theorem moves_expressionType (node : NodeId) (expected : Option TypeId) (form : Form) :
    w.Moves c (expressionType self node expected form) := by
  unfold expressionType
  split
  · exact .alloc (TypeTable.grows_numberLiteral _)
  · exact .alloc (TypeTable.grows_stringLiteral _)
  · exact .pure _
  · exact .pure _
  · exact .pure _
  · exact Moves.bind .thisType fun _ => .pure _
  · exact .superType
  · exact h.moves_checkName _
  · exact h.expression _ _ _
  · exact h.moves_checkArray _ _
  · exact h.moves_checkObject _ _
  · exact h.moves_checkCall _ _ _
  · exact h.moves_checkNew _ _ _
  · exact h.moves_checkPropertyAccess _ _
  · exact h.moves_checkElementAccess _ _
  · exact h.moves_checkPrefix _ _
  · exact Moves.bind (h.expression _ _ _) fun _ => Moves.bind (.checkTarget _) fun _ => .pure _
  · exact Moves.bind (h.expression _ _ _) fun _ => .pure _
  · exact h.moves_checkBinary _ _ _
  · exact Moves.bind (h.expression _ _ _) fun _ => Moves.bind (h.expression _ _ _) fun _ =>
      Moves.bind (h.expression _ _ _) fun _ => .union _
  · exact h.moves_checkArrow _ _
  · exact Moves.bind (h.typeNode _ _) fun _ => Moves.bind (h.expression _ _ _) fun _ => .pure _
  · exact .pure _

theorem moves_expression (node : NodeId) (expected : Option TypeId) :
    w.Moves c (Checking.expression self node expected) := by
  refine Moves.read ?_
  split
  · exact .pure _
  · refine Moves.bind (Moves.in_expression ?_) fun _ => Moves.bind (.record _ _) fun _ => .pure _
    split
    · exact .pure _
    · exact h.moves_expressionType _ _ _

/-! ### Statements -/

theorem moves_statement? (node : Option NodeId) : w.Moves c (statement? self node) := by
  cases node with
  | none => exact .pure _
  | some node => exact h.statement _ _

theorem moves_statements (nodes : List NodeId) : w.Moves c (statements self nodes) :=
  Moves.bind (.mapM fun _ => h.statement _ _) fun _ => .pure _

theorem moves_lookAt (node : Option NodeId) : w.Moves c (lookAt self node) :=
  .forM_option fun _ => Moves.bind (h.expression _ _ _) fun _ => .pure _

theorem moves_loopBody (node : Option NodeId) : w.Moves c (loopBody self node) :=
  Moves.in_loop (h.moves_statement? node)

theorem moves_loopStart (start : Option NodeId) : w.Moves c (loopStart self start) := by
  unfold loopStart
  split
  · exact .pure _
  · refine Moves.read ?_
    split
    · exact h.statement _ _
    · exact Moves.bind (h.expression _ _ _) fun _ => .pure _

theorem moves_checkReturn (node : NodeId) (value : Option NodeId) :
    w.Moves c (checkReturn self node value) := by
  refine Moves.read ?_
  split
  · exact Moves.bind (.reportStart _ _ _) fun _ =>
      Moves.bind (h.moves_lookAt _) fun _ => .pure _
  · split
    · exact .pure _
    · refine Moves.bind (h.expression _ _ _) fun type => ?_
      exact Moves.bind (.forM_option fun _ => .checkAssignable _ _ _) fun _ => .pure _

theorem moves_checkVariable (node : NodeId) : w.Moves c (checkVariable self node) := by
  refine Moves.read ?_
  split
  · extract_lets rest
    have hrest : ∀ type, w.Moves c (rest type) := fun type =>
      Moves.bind (h.moves_ascription _) fun _ => Moves.bind (h.moves_initializer _ _ _) fun _ =>
        Moves.bind (.record _ _) fun _ => .record _ _
    split
    · exact Moves.bind (h.valueType _ _) hrest
    · exact Moves.bind (Moves.in_silence (h.moves_variableType _)) hrest
  · exact .pure _

theorem moves_checkFunctionDeclaration (node : NodeId) (p : FunctionParts) :
    w.Moves c (checkFunctionDeclaration self node p) := by
  refine Moves.read ?_
  extract_lets ambient symbol rest
  have hrest : ∀ r, w.Moves c (rest r) := fun _ => h.moves_checkFunction node
  refine Moves.bind (.forM_option fun id => ?_) fun _ => ?_
  · exact Moves.bind (h.valueType _ _) fun _ => Moves.bind (.record _ _) fun _ => .record? _ _
  · split
    · split
      · exact Moves.bind (.reportStart _ _ _) hrest
      · exact hrest ()
    · split
      · exact Moves.bind (.forM_option fun _ => .report _ _) hrest
      · exact hrest ()

theorem moves_checkProperty (types : ClassTypes) (member : NodeId) (p : PropertyParts) :
    w.Moves c (checkProperty self types member p) := by
  refine Moves.read (Moves.bind (.ownPropertyType _ _) fun type => ?_)
  refine Moves.bind (h.moves_ascription _) fun _ => Moves.bind (h.moves_initializer _ _ _) fun _ => ?_
  exact Moves.bind (.record _ _) fun _ => .record _ _

omit h in
theorem moves_checkMethodName (types : ClassTypes) (members : List NodeId) (ambient : Bool)
    (p : FunctionParts) : w.Moves c (checkMethodName types members ambient p) := by
  refine Moves.read ?_
  dsimp only
  split
  · exact Moves.bind (.forM_option fun _ => .report _ _) fun _ => .ownPropertyType _ _
  · exact .ownPropertyType _ _

theorem moves_checkMember (types : ClassTypes) (k : ClassParts) (ambient : Bool)
    (member : NodeId) : w.Moves c (checkMember self types k ambient member) := by
  refine Moves.read ?_
  split
  · exact h.moves_checkProperty _ _ _
  · split
    · extract_lets ambient' record rest
      have hrecord : ∀ type, w.Moves c (record type) := fun type =>
        Moves.bind (.record _ _) fun _ => Moves.bind (.record? _ _) fun _ =>
          h.moves_checkFunction member
      have hrest : ∀ r, w.Moves c (rest r) := by
        intro r
        show w.Moves c (if _ then _ else _)
        split
        · exact Moves.bind (.pure _) hrecord
        · exact Moves.bind (moves_checkMethodName _ _ _ _) hrecord
      split
      · exact Moves.bind (.forM_option fun _ => .reportStart _ _ _) hrest
      · exact hrest ()
    · exact .pure _
  · exact .pure _

theorem moves_checkClass (node : NodeId) (p : ClassParts) :
    w.Moves c (checkClass self node p) := by
  refine Moves.read ?_
  split
  · exact .pure _
  · refine Moves.bind (h.moves_classTypes _) fun types => ?_
    refine Moves.bind (.record _ _) fun _ => Moves.bind (.record _ _) fun _ => ?_
    refine Moves.bind (.forM_option fun _ => Moves.bind (h.typeNode _ _) fun _ => .pure _) fun _ => ?_
    exact Moves.in_class (.forM fun _ => h.moves_checkMember _ _ _ _)

theorem moves_declaredTypeOf (node : NodeId) : w.Moves c (declaredTypeOf self node) := by
  refine Moves.read ?_
  split
  · exact .pure _
  · exact h.moves_declaredType _

theorem moves_checkSignatureMember (declared : TypeId) (member : NodeId) :
    w.Moves c (checkSignatureMember self declared member) := by
  have hproperty : ∀ p : PropertyParts, w.Moves c (do
      let type := (← ascription self p.ascription).getD .any
      record member type
      record p.name type) := fun p =>
    Moves.bind (h.moves_ascription _) fun _ => Moves.bind (.record _ _) fun _ => .record _ _
  refine Moves.read ?_
  dsimp only
  split
  · exact hproperty _
  · exact hproperty _
  · refine Moves.bind (.forM fun _ => h.moves_signatureParameter _) fun _ => ?_
    refine Moves.bind (h.moves_ascription _) fun _ => Moves.bind (.ownPropertyType _ _) fun _ => ?_
    exact Moves.bind (.record _ _) fun _ => .record? _ _
  · exact .pure _

theorem moves_checkInterface (node : NodeId) (p : InterfaceParts) :
    w.Moves c (checkInterface self node p) := by
  refine Moves.bind (h.moves_declaredTypeOf node) fun declared => ?_
  refine Moves.bind (.record _ _) fun _ => Moves.bind (.record _ _) fun _ => ?_
  refine Moves.bind (.forM fun _ => Moves.bind (h.typeNode _ _) fun _ => .pure _) fun _ => ?_
  exact .forM fun _ => h.moves_checkSignatureMember _ _

theorem moves_checkAlias (node : NodeId) (p : AliasParts) :
    w.Moves c (checkAlias self node p) := by
  refine Moves.bind (h.moves_declaredTypeOf node) fun declared => ?_
  refine Moves.bind (h.typeNode _ _) fun _ => ?_
  exact .forM_option fun _ => Moves.bind (.record _ _) fun _ => .record _ _

theorem moves_checkSpecifier (text : String) (node : NodeId) :
    w.Moves c (checkSpecifier self text node) := by
  refine Moves.read ?_
  split
  · split
    · exact .report _ _
    · extract_lets rest
      have hrest : ∀ type, w.Moves c (rest type) := fun type =>
        Moves.bind (.record _ _) fun _ => Moves.bind (.record _ _) fun _ => .record? _ _
      split
      · exact Moves.bind (h.valueType _ _) hrest
      · exact Moves.bind (h.moves_declaredType _) fun _ => Moves.bind (.pure _) hrest
  · exact .pure _

theorem moves_checkImport (specifiers : List NodeId) (source : Option NodeId) :
    w.Moves c (checkImport self specifiers source) := by
  refine Moves.read ?_
  dsimp only
  split
  · exact .forM_option fun _ => .report _ _
  · exact .forM fun _ => h.moves_checkSpecifier _ _

theorem moves_checkStatement (node : NodeId) (form : Form) :
    w.Moves c (checkStatement self node form) := by
  have hnothing : ∀ {x : Check Unit}, w.Moves c x → w.Moves c (returningNothing x) := fun hx =>
    Moves.bind hx fun _ => .pure _
  unfold checkStatement
  split
  · exact hnothing (h.moves_checkFunctionDeclaration _ _)
  · exact hnothing (h.moves_checkClass _ _)
  · exact hnothing (h.moves_checkInterface _ _)
  · exact hnothing (h.moves_checkAlias _ _)
  · exact hnothing (.forM fun _ => h.moves_checkVariable _)
  · exact hnothing (h.moves_checkImport _ _)
  · exact Moves.read (Moves.in_scope (h.moves_statements _))
  · exact hnothing (h.moves_lookAt _)
  · exact h.moves_checkReturn _ _
  · exact Moves.bind (h.moves_lookAt _) fun _ => Moves.bind (h.moves_statement? _) fun _ =>
      Moves.bind (h.moves_statement? _) fun _ => .pure _
  · exact Moves.bind (h.moves_lookAt _) fun _ => h.moves_loopBody _
  · refine Moves.read (Moves.in_scope ?_)
    exact Moves.bind (h.moves_loopStart _) fun _ => Moves.bind (h.moves_lookAt _) fun _ =>
      Moves.bind (h.moves_lookAt _) fun _ => Moves.bind (h.moves_loopBody _) fun _ => .pure _
  · refine Moves.read (Moves.in_scope ?_)
    exact Moves.bind (h.moves_lookAt _) fun _ => Moves.bind (h.moves_loopStart _) fun _ =>
      Moves.bind (h.moves_loopBody _) fun _ => .pure _
  · exact hnothing (.checkJump _ _ _)
  · exact hnothing (.checkJump _ _ _)
  · exact .pure _

theorem moves_statement (node : NodeId) : w.Moves c (Checking.statement self node) := by
  refine Moves.read ?_
  split
  · exact .pure _
  · exact h.moves_checkStatement _ _

/-! ### One more use -/

/-- What a symbol means as a type. The way there depends on the sort of
symbol. -/
theorem from_declaredType (hinterface : ∀ c id symbol, c.symbol? id = some symbol →
    w.Moves c (interfaceType self id symbol)) (id : SymbolId) :
    w.From (w.Declaring id) c (Checking.declaredType self id) := by
  refine From.read ?_
  split
  · exact .pure _
  · rename_i symbol hid
    split
    · rename_i himport
      split
      · exact .pure _
      · rename_i target htarget
        split
        · exact .pure _
        · exact From.moved (h.declaredType _ target) (by simp) fun s hs =>
            w.import_ hs hid himport htarget
    · rename_i himport
      rw [Bool.not_eq_true] at himport
      split
      · rename_i hclass
        exact From.map (fun s => (h.classTypes c id s).imp_right fun hs hpre =>
          hs (w.class_ hpre hid himport hclass)) _
      · rename_i hclass
        rw [Bool.not_eq_true] at hclass
        refine From.of_moves (fun s hs => w.other hs hid himport hclass) ?_
        split
        · exact Moves.bind (hinterface c id symbol hid) fun _ => .pure _
        · split
          · exact Moves.bind (h.moves_aliasType hid himport hclass) fun _ => .pure _
          · exact .pure _

/-- The rules with one more nested use keep the promise, if entering classes
and interfaces does. -/
theorem next (hclass : ∀ c id, w.From (w.Entering id) c (Checking.classTypes self id))
    (hinterface : ∀ c id symbol, c.symbol? id = some symbol →
      w.Moves c (interfaceType self id symbol)) :
    Walked w
      { typeNode := Checking.typeNode self
        expression := Checking.expression self
        statement := Checking.statement self
        valueType := Checking.valueType self
        declaredType := Checking.declaredType self
        classTypes := Checking.classTypes self } where
  typeNode _ := h.moves_typeNode
  expression _ := h.moves_expression
  statement _ := h.moves_statement
  valueType _ := h.moves_valueType
  declaredType _ := h.from_declaredType hinterface
  classTypes := hclass

end Walked

theorem walked_noRules (w : Walk) : Walked w noRules where
  typeNode _ _ := Moves.bind .exhaust fun _ => .pure _
  expression _ _ _ := Moves.bind .exhaust fun _ => .pure _
  statement _ _ := Moves.bind .exhaust fun _ => .pure _
  valueType _ _ := Moves.bind .exhaust fun _ => .pure _
  declaredType _ _ := fun s => ⟨rfl, fun _ => w.exhausts s⟩
  classTypes _ _ := fun s => ⟨rfl, fun _ => w.exhausts s⟩

end ScriptAnalysis.Checking
