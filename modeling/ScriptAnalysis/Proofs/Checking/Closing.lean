import ScriptAnalysis.Proofs.Checking.Record
import ScriptAnalysis.Proofs.Types.Closed

/-!
# What the checker refers to is there

Everything that the checker remembers, expects or returns refers to types by
their indices. A state is `Closed` if its table is and all that it remembers
refers to types of the table. A computation `Yields` something if, from each
closed state with at least `n` types and at a place that refers to types of the
table, it ends where it has started, in a closed state with no type less, and
what it gives refers to types of that state.

What was there stays there, so a fact about the types of one state is a fact
about those of all later ones (`Below.mono`). A sequence (`Yields.bind`) hands
on the number of types that there are at least, and what is known of the result
of its first part.

**Results.**
* `Yields.bind`, `Yields.mapM`, `Yields.foldlM`, `Yields.moved`: the combinators
  of the monad.
* `Yields.alloc`, `Yields.remember`: the steps that change the state.
* `Yields.memberType`, `Yields.takeContext` and the like: the steps that need no
  other rules.
-/
namespace ScriptAnalysis.Checking

open TypeTable (Fair)

variable {α β : Type}

/-! ## Closed states -/

/-- The types that the values of a table refer to are there. -/
def Holds {κ ν : Type} [DecidableEq κ] (n : Nat) (mentions : ν → List TypeId) (t : Table κ ν) :
    Prop :=
  ∀ k v, t.get? k = some v → Below n (mentions v)

section

variable {κ ν : Type} [DecidableEq κ] {m n : Nat} {mentions : ν → List TypeId} {t : Table κ ν}

theorem Holds.mono (h : Holds n mentions t) (hle : n ≤ m) : Holds m mentions t :=
  fun k v hv => (h k v hv).mono hle

theorem Holds.insert (h : Holds n mentions t) {v : ν} (hv : Below n (mentions v)) (k : κ) :
    Holds n mentions (t.insert k v) := by
  intro k' v' hv'
  rw [Table.get?_insert] at hv'
  split at hv'
  · cases hv'
    exact hv
  · exact h k' v' hv'

theorem holds_empty : Holds n mentions (.empty : Table κ ν) := by
  intro k v hv
  cases hv

end

/-- The two types of a class. -/
def ClassTypes.mentions (types : ClassTypes) : List TypeId :=
  [types.instanceType, types.constructorType]

/-- What is remembered refers to types that are there. -/
structure State.Found (n : Nat) (s : State) : Prop where
  values : Holds n single s.valueTypes
  aliases : Holds n single s.aliasTypes
  classes : Holds n ClassTypes.mentions s.classTypes
  interfaces : Holds n single s.interfaceTypes
  signatures : Holds n Signature.mentions s.signatures
  arrows : Holds n single s.arrowTypes
  contextual : Holds n single s.contextual
  apparent : Holds n single s.apparent

theorem State.Found.mono {m n : Nat} {s : State} (h : s.Found n) (hle : n ≤ m) : s.Found m where
  values := h.values.mono hle
  aliases := h.aliases.mono hle
  classes := h.classes.mono hle
  interfaces := h.interfaces.mono hle
  signatures := h.signatures.mono hle
  arrows := h.arrows.mono hle
  contextual := h.contextual.mono hle
  apparent := h.apparent.mono hle

/-- All that a state refers to is there. -/
structure State.Closed (s : State) : Prop where
  types : s.types.Closed
  found : s.Found s.types.size

/-- The types that a place refers to. -/
def Context.mentions (c : Context) : List TypeId :=
  c.functions.flatMap Option.toList ++ c.thisTypes

/-- The instances of the class around a scope are there. -/
theorem below_thisOfScope {s : State} (h : s.Closed) (c : Context) (scope : ScopeId) :
    Below s.types.size (thisOfScope c s scope).toList := by
  unfold thisOfScope
  induction c.bindings.scopeChain scope with
  | nil => exact below_nil
  | cons id outer ih =>
    unfold thisOfChain
    split
    · exact below_nil
    · split
      · split
        · exact below_nil
        · split
          · rename_i owner _
            cases htypes : s.classTypes.get? owner with
            | none => exact below_nil
            | some types =>
              have hthere := h.found.classes owner types htypes
              simp only [ClassTypes.mentions, below_cons] at hthere
              simpa using hthere.1
          · split
            · exact ih
            · exact below_nil
      · exact ih

/-- A sum is of a predefined type. -/
theorem there_additionType {n : Nat} (t : TypeTable) (left right : TypeId) :
    There n (additionType t left right) := by
  unfold additionType
  dsimp only
  split
  · exact there_string
  · split
    · exact there_number
    · exact there_any

/-! ## Computations -/

/-- From closed states with at least `n` types the computation goes to closed
states with no type less, comes back to where it has started, and gives what
refers to types that are there. -/
def Yields (n : Nat) (c : Context) (mentions : α → List TypeId) (x : Check α) : Prop :=
  ∀ s : State, s.Closed → n ≤ s.types.size → Below s.types.size c.mentions →
    (x c s).1.2 = c ∧ (x c s).2.Closed ∧ s.types.size ≤ (x c s).2.types.size ∧
      Below (x c s).2.types.size (mentions (x c s).1.1)

namespace Yields

variable {m n : Nat} {c : Context} {x : Check α} {mentions : α → List TypeId}
  {mentions' : β → List TypeId}

theorem later (h : Yields n c mentions x) (hle : n ≤ m) : Yields m c mentions x :=
  fun s hs hn => h s hs (Nat.le_trans hle hn)

theorem pure {a : α} (h : Below n (mentions a)) : Yields n c mentions (Pure.pure a : Check α) :=
  fun _ hs hn _ => ⟨rfl, hs, Nat.le_refl _, h.mono hn⟩

theorem bind {f : α → Check β} (hx : Yields n c mentions x)
    (hf : ∀ a m, n ≤ m → Below m (mentions a) → Yields m c mentions' (f a)) :
    Yields n c mentions' (x >>= f) := by
  intro s hs hn hc
  obtain ⟨hback, hclosed, hsize, hbelow⟩ := hx s hs hn hc
  rw [bind_apply, hback]
  obtain ⟨hback', hclosed', hsize', hbelow'⟩ :=
    hf (x c s).1.1 _ (Nat.le_trans hn hsize) hbelow (x c s).2 hclosed (Nat.le_refl _)
      (hc.mono hsize)
  exact ⟨hback', hclosed', Nat.le_trans hsize hsize', hbelow'⟩

/-- A sequence whose second part needs nothing of what the first gives. -/
theorem andThen {f : α → Check β} (hx : Yields n c mentions x)
    (hf : ∀ a, Yields n c mentions' (f a)) : Yields n c mentions' (x >>= f) :=
  hx.bind fun a _ hm _ => (hf a).later hm

theorem pure_bind {a : α} {f : α → Check β} (h : Yields n c mentions' (f a)) :
    Yields n c mentions' (Pure.pure a >>= f) :=
  h

theorem read {f : Context → Check β} (h : Yields n c mentions' (f c)) :
    Yields n c mentions' ((MonadReader.read : Check Context) >>= f) :=
  h

theorem get {f : State → Check β}
    (h : ∀ s : State, s.Closed → n ≤ s.types.size → Yields s.types.size c mentions' (f s)) :
    Yields n c mentions' ((MonadState.get : Check State) >>= f) :=
  fun s hs hn hc => h s hs hn s hs (Nat.le_refl _) hc

theorem table {f : TypeTable → Check β}
    (h : ∀ t : TypeTable, t.Closed → n ≤ t.size → Yields t.size c mentions' (f t)) :
    Yields n c mentions' (Checking.table >>= f) :=
  fun s hs hn hc => h s.types hs.types hn s hs (Nat.le_refl _) hc

/-- What the place refers to is there. -/
theorem placed (h : ∀ m, n ≤ m → Below m c.mentions → Yields m c mentions x) :
    Yields n c mentions x :=
  fun s hs hn hc => h s.types.size hn hc s hs (Nat.le_refl _) hc

/-- A step that changes what is remembered. -/
theorem remember {f : State → State} (htypes : ∀ s, (f s).types = s.types)
    (h : ∀ s m, n ≤ m → s.Found m → (f s).Found m) :
    Yields n c nothing (modify f : Check PUnit) := by
  intro s hs hn _
  have hsame := htypes s
  refine ⟨rfl, ⟨?_, ?_⟩, ?_, below_nil⟩
  · show (f s).types.Closed
    rw [hsame]
    exact hs.types
  · show (f s).Found (f s).types.size
    rw [hsame]
    exact h s _ hn hs.found
  · show s.types.size ≤ (f s).types.size
    rw [hsame]

theorem alloc {y : TypeTable.Alloc α} (h : Fair n mentions y) :
    Yields n c mentions (alloc y) := by
  intro s hs hn _
  obtain ⟨hclosed, hsize, hbelow⟩ := h s.types hs.types hn
  exact ⟨rfl, ⟨hclosed, { hs.found.mono hsize with }⟩, hsize, hbelow⟩

theorem display (id : TypeId) : Yields n c nothing (Checking.display id) :=
  fun _ hs _ _ => ⟨rfl, hs, Nat.le_refl _, below_nil⟩

theorem assignable (source target : TypeId) :
    Yields n c nothing (Checking.assignable source target) :=
  fun _ hs _ _ => ⟨rfl, hs, Nat.le_refl _, below_nil⟩

/-! ### Lists -/

theorem forM {xs : List α} {f : α → Check PUnit} (h : ∀ a ∈ xs, Yields n c nothing (f a)) :
    Yields n c nothing (xs.forM f) := by
  induction xs with
  | nil => exact .pure below_nil
  | cons a rest ih =>
    obtain ⟨ha, hrest⟩ := List.forall_mem_cons.1 h
    show Yields n c nothing (f a >>= fun _ => rest.forM f)
    exact ha.andThen fun _ => ih hrest

theorem forM_option {o : Option α} {f : α → Check PUnit} (h : ∀ a ∈ o, Yields n c nothing (f a)) :
    Yields n c nothing (o.forM f) := by
  cases o with
  | none => exact .pure below_nil
  | some a => exact h a rfl

theorem mapM {xs : List α} {f : α → Check β} (h : ∀ a ∈ xs, Yields n c mentions' (f a)) :
    Yields n c (List.flatMap mentions') (xs.mapM f) := by
  induction xs with
  | nil => exact .pure below_nil
  | cons a rest ih =>
    obtain ⟨ha, hrest⟩ := List.forall_mem_cons.1 h
    rw [List.mapM_cons]
    refine ha.bind fun b m hm hb => ((ih hrest).later hm).bind fun bs k hk hbs => .pure ?_
    rw [List.flatMap_cons, below_append]
    exact ⟨hb.mono hk, hbs⟩

theorem foldlM {xs : List α} {f : β → α → Check β}
    (h : ∀ b a m, n ≤ m → Below m (mentions' b) → Yields m c mentions' (f b a)) {b : β}
    (hb : Below n (mentions' b)) : Yields n c mentions' (xs.foldlM f b) := by
  induction xs generalizing n b with
  | nil => exact .pure hb
  | cons a rest ih =>
    rw [List.foldlM_cons]
    refine (h b a n (Nat.le_refl n) hb).bind fun b' m hm hb' => ?_
    exact ih (fun b a k hk => h b a k (Nat.le_trans hm hk)) hb'

/-! ### Standing elsewhere -/

section

variable {go : Context → Context} {back : Context → Context → Context}

theorem moved (hx : Yields n (go c) mentions x) (hback : back c (go c) = c)
    (hgo : ∀ m, n ≤ m → Below m c.mentions → Below m (go c).mentions) :
    Yields n c mentions (excursion go back x) := by
  intro s hs hn hc
  obtain ⟨hend, hrest⟩ := hx s hs hn (hgo _ hn hc)
  exact ⟨(congrArg (back c) hend).trans hback, hrest⟩

end

theorem in_scope {scope : ScopeId} (hx : Yields n { c with scope := scope } mentions x) :
    Yields n c mentions (inScope scope x) :=
  hx.moved rfl fun _ _ h => h

theorem in_silence (hx : Yields n { c with speculative := c.speculative + 1 } mentions x) :
    Yields n c mentions (silently x) :=
  hx.moved rfl fun _ _ h => h

theorem in_function {declared : Option TypeId} (hdeclared : Below n declared.toList)
    (hx : Yields n { c with functions := declared :: c.functions, loops := 0 } mentions x) :
    Yields n c mentions (inFunction declared x) :=
  hx.moved rfl fun m hm h => by
    simp only [Context.mentions, List.flatMap_cons, below_append] at h ⊢
    exact ⟨⟨hdeclared.mono hm, h.1⟩, h.2⟩

theorem in_loop (hx : Yields n { c with loops := c.loops + 1 } mentions x) :
    Yields n c mentions (inLoopBody x) :=
  hx.moved rfl fun _ _ h => h

theorem in_class {instances : TypeId} (hinstances : There n instances)
    (hx : Yields n { c with thisTypes := instances :: c.thisTypes } mentions x) :
    Yields n c mentions (inClass instances x) :=
  hx.moved rfl fun m hm h => by
    simp only [Context.mentions, below_append, below_cons] at h ⊢
    exact ⟨h.1, hinstances.mono hm, h.2⟩

theorem in_expression (hx : Yields n { c with depth := c.depth + 1 } mentions x) :
    Yields n c mentions (inExpression x) :=
  hx.moved rfl fun _ _ h => h

theorem resolving_value {id : SymbolId}
    (hx : Yields n { c with resolvingValues := id :: c.resolvingValues } mentions x) :
    Yields n c mentions (resolvingValue id x) :=
  hx.moved (by simp) fun _ _ h => h

theorem resolving_type {id : SymbolId}
    (hx : Yields n { c with resolvingTypes := id :: c.resolvingTypes } mentions x) :
    Yields n c mentions (resolvingType id x) :=
  hx.moved (by simp) fun _ _ h => h

theorem resolving_signature {site : Site}
    (hx : Yields n { c with resolvingSignatures := site :: c.resolvingSignatures } mentions x) :
    Yields n c mentions (resolvingSignature site x) :=
  hx.moved (by simp) fun _ _ h => h

theorem at_top {file : FileId} (hx : Yields n (c.top file) mentions x) :
    Yields n c mentions (atTop file x) :=
  hx.moved rfl fun _ _ _ => below_nil

theorem at_declaration {file : FileId} {scope : ScopeId}
    (hx : ∀ m c', n ≤ m → Yields m c' mentions x) :
    Yields n c mentions (atDeclaration file scope x) := by
  refine Yields.read (Yields.get fun s hs hn => ?_)
  refine (hx s.types.size _ hn).moved rfl fun m hm _ => ?_
  simpa [Context.mentions] using (below_thisOfScope hs c scope).mono hm

/-! ### Steps that only report or remember -/

theorem record (node : NodeId) (type : TypeId) : Yields n c nothing (record node type) := by
  refine Yields.read ?_
  split
  · exact .remember (fun _ => rfl) fun _ _ _ hs => { hs with }
  · exact .pure below_nil

theorem record? (node : Option NodeId) (type : TypeId) :
    Yields n c nothing (record? node type) :=
  .forM_option fun _ _ => .record _ _

theorem reportSpan (start length : Nat) (p : Problem) (details : List Message) :
    Yields n c nothing (reportSpan start length p details) := by
  refine Yields.read ?_
  split
  · exact .remember (fun _ => rfl) fun _ _ _ hs => { hs with }
  · exact .pure below_nil

theorem reportWith (node : NodeId) (p : Problem) (details : List Message) :
    Yields n c nothing (reportWith node p details) := by
  refine Yields.read ?_
  split
  · exact .pure below_nil
  · exact .reportSpan _ _ _ _

theorem report (node : NodeId) (p : Problem) : Yields n c nothing (report node p) :=
  .reportWith node p []

theorem reportStart (node : NodeId) (length : Nat) (p : Problem) :
    Yields n c nothing (reportStart node length p) := by
  refine Yields.read ?_
  split
  · exact .pure below_nil
  · exact .reportSpan _ _ _ _

theorem checkAssignable (source target : TypeId) (node : NodeId) :
    Yields n c nothing (checkAssignable source target node) := by
  refine (Yields.assignable _ _).andThen fun fits => ?_
  split
  · exact .pure below_nil
  · exact Yields.table fun _ _ _ => Yields.read (.reportWith _ _ _)

theorem exhaust : Yields n c nothing exhaust :=
  .remember (fun _ => rfl) fun _ _ _ hs => { hs with }

/-! ### Steps that give types -/

theorem predefined {id : TypeId} (h : id < TypeTable.predefined.length) :
    Yields n c single (Pure.pure id : Check TypeId) :=
  .pure (below_single.2 (there_predefined h))

theorem widen {id : TypeId} (h : There n id) :
    Yields n c single (Checking.alloc (TypeTable.widen id)) :=
  .alloc (TypeTable.fair_widen h)

theorem union {ids : List TypeId} (h : Below n ids) :
    Yields n c single (Checking.alloc (TypeTable.union ids)) :=
  .alloc (TypeTable.fair_union h)

theorem inferredReturn {returned : List TypeId} (h : Below n returned) :
    Yields n c single (inferredReturn returned) := by
  unfold Checking.inferredReturn
  split
  · exact .predefined (by decide)
  · refine (Yields.mapM fun id hid => .widen (h id hid)).bind fun ids m hm hids => ?_
    exact .union (below_flatMap_single.1 hids)

theorem literalType (a : Arena) (literal : NodeId) :
    Yields n c single (literalType a literal) := by
  unfold Checking.literalType
  split
  · exact .predefined (by decide)
  · exact .predefined (by decide)
  · exact .alloc (TypeTable.fair_numberLiteral _)
  · exact .alloc (TypeTable.fair_stringLiteral _)
  · exact .predefined (by decide)

theorem thisType : Yields n c Option.toList thisType := by
  refine Yields.read (Yields.get fun s hs hn => .placed fun m hm hplace => .pure ?_)
  cases hthis : thisOfScope c s c.scope with
  | some this =>
    have hbelow := below_thisOfScope hs c c.scope
    rw [hthis] at hbelow
    exact hbelow.mono hm
  | none =>
    simp only [Context.mentions, below_append] at hplace
    cases hthese : c.thisTypes with
    | nil => simp [Context.this, hthese]
    | cons this rest =>
      rw [hthese, below_cons] at hplace
      simpa [Context.this, hthese] using hplace.2.1

theorem superType : Yields n c single superType := by
  refine Yields.table fun t ht hn => Yields.thisType.bind fun this m hm hthis => .pure ?_
  rw [below_single]
  cases hbase : this.bind fun this => (t.bases this).head? with
  | none => exact there_predefined (by decide)
  | some base =>
    obtain ⟨id, -, hhead⟩ := Option.bind_eq_some_iff.1 hbase
    exact (ht.bases id base (List.mem_of_mem_head? hhead)).mono hm

theorem memberType {id : TypeId} (h : There n id) (name : String) :
    Yields n c Option.toList (memberType id name) := by
  unfold Checking.memberType
  split
  · exact .pure (by simpa using h)
  · refine Yields.table fun t ht hn => ?_
    split
    · exact .pure (by simpa using ht.property? ‹_›)
    · split
      · exact .pure below_nil
      · rename_i receiver hreceiver
        split
        · refine Yields.get fun s hs hsize => ?_
          split
          · rename_i known hknown
            exact .pure (by simpa using below_single.1 (hs.found.apparent _ known hknown))
          · have hparts := (ht.receiver hreceiver).mono hsize
            refine (Yields.alloc (TypeTable.fair_memberType hparts name)).bind ?_
            intro type m hm htype
            exact Yields.andThen (.remember (fun _ => rfl) fun _ _ hk hs => { hs with
              apparent := hs.apparent.insert (htype.mono hk) _ }) fun _ =>
              .pure (by simpa using below_single.1 htype)
        · exact .pure below_nil

theorem memberTypes (name : String) {ids : List TypeId} (h : Below n ids) :
    Yields n c (fun types => types.toList.flatten) (memberTypes name ids) := by
  induction ids generalizing n with
  | nil => exact .pure below_nil
  | cons id rest ih =>
    obtain ⟨hid, hrest⟩ := below_cons.1 h
    refine (Yields.memberType hid name).bind fun found m hm hfound => ?_
    split
    · exact .pure below_nil
    · refine (ih (hrest.mono hm)).bind fun others k hk hothers => ?_
      split
      · exact .pure below_nil
      · apply Yields.pure
        simp only [Option.toList_some, List.flatten_cons, List.flatten_nil, List.append_nil,
          below_cons, below_nil, and_true] at hfound hothers ⊢
        exact ⟨hfound.mono hk, hothers⟩

theorem propertyType {id : TypeId} (h : There n id) (name : String) :
    Yields n c Option.toList (propertyType id name) := by
  refine Yields.table fun t ht hn => ?_
  split
  · rename_i members hdata
    have hmembers : Below t.size members := by
      have := ht.unionMembers (h.mono hn)
      rwa [TypeTable.unionMembers, hdata] at this
    refine (Yields.memberTypes name hmembers).bind fun types m hm htypes => ?_
    split
    · exact .pure below_nil
    · refine (Yields.union (by simpa using htypes)).bind fun type k hk htype => .pure ?_
      simpa using below_single.1 htype
  · exact .memberType (h.mono hn) name

theorem ownPropertyType (owner : TypeId) (name : String) :
    Yields n c single (ownPropertyType owner name) := by
  refine Yields.table fun t ht hn => .pure ?_
  rw [below_single]
  cases hfound : (t.shape? owner).bind (·.property? name) with
  | none => exact there_predefined (by decide)
  | some p => exact ht.ownProperty hfound

theorem operatorType (operator : TokenKind) {left right : TypeId} (hl : There n left)
    (hr : There n right) : Yields n c single (operatorType operator left right) := by
  have hpresent : ∀ t : TypeTable, t.Closed → n ≤ t.size → Below t.size
      ((t.unionMembers left).filter (fun m => m != .null && m != .undefined) ++ [right]) := by
    intro t ht hn
    rw [below_append, below_cons]
    exact ⟨(ht.unionMembers (hl.mono hn)).sub (List.filter_subset_self _), hr.mono hn, below_nil⟩
  unfold Checking.operatorType
  split
  · exact Yields.table fun t _ _ => .pure (below_single.2 (there_additionType t left right))
  all_goals first
    | exact .predefined (by decide)
    | exact .pure (below_single.2 hr)
    | exact Yields.table fun t ht hn => .union (hpresent t ht hn)

theorem takeContext (node : NodeId) (expected : Option TypeId) :
    Yields n c nothing (takeContext node expected) := by
  refine Yields.read (Yields.table fun t ht hn => ?_)
  split
  · rename_i p s _ hs
    obtain ⟨type, -, hhead⟩ := Option.bind_eq_some_iff.1 hs
    have hsignature := ht.calls type s (List.mem_of_mem_head? hhead)
    refine .forM fun pair hpair => ?_
    have htype := (below_signature.1 hsignature).2 pair.2 (List.of_mem_zip hpair).2
    dsimp only
    split
    · exact .pure below_nil
    · exact .remember (fun _ => rfl) fun _ _ hm hs => { hs with
        contextual := hs.contextual.insert (below_single.2 (htype.mono hm)) _ }
  · exact .pure below_nil

theorem checkTarget (target : NodeId) : Yields n c nothing (checkTarget target) := by
  refine Yields.read ?_
  split
  · exact .pure below_nil
  · split
    · exact (Yields.report _ _).andThen fun _ => .pure below_nil
    · exact .pure below_nil

theorem checkJump (node : NodeId) (length : Nat) (p : Problem) :
    Yields n c nothing (checkJump node length p) := by
  refine Yields.read ?_
  split
  · exact .pure below_nil
  · exact .reportStart _ _ _

end Yields

end ScriptAnalysis.Checking
