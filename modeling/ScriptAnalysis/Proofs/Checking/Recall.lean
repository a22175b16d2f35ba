import ScriptAnalysis.Proofs.Checking.Memory
import ScriptAnalysis.Proofs.Checking.Twins

/-!
# Asking again

What a symbol stands for is found out once. Asked again after the first answer
has been remembered, the checker looks the answer up and finds nothing out.
What was answered without being remembered, since it is being resolved, is
answered in the same way again.

**Places.** The meaning of an import is not remembered. To ask for it is to ask
for the meaning of its target, with the import being resolved too (`Asking`).

**Results.**
* `recalls_rules`: all rules about symbols.
* `Recalls.signature`: the signature of a function type.
-/
namespace ScriptAnalysis.Checking

variable {α β : Type} {p c : Context} {s e t u : State}

/-- The same is known of symbols and signatures. -/
structure SameAnswers (e t : State) : Prop where
  values : t.valueTypes = e.valueTypes
  aliases : t.aliasTypes = e.aliasTypes
  classes : t.classTypes = e.classTypes
  interfaces : t.interfaceTypes = e.interfaceTypes
  signatures : t.signatures = e.signatures

theorem SameAnswers.find (h : SameAnswers e t) (hu : SameFindings t u) : SameAnswers e u :=
  ⟨hu.valueTypes.trans h.values, hu.aliasTypes.trans h.aliases, hu.classTypes.trans h.classes,
    hu.interfaceTypes.trans h.interfaces, hu.signatures.trans h.signatures⟩

/-- The computation gives the answer, comes back and finds nothing out. -/
structure Answers (c : Context) (t : State) (x : Check α) (a : α) : Prop where
  answer : (x c t).1 = (a, c)
  same : SameFindings t (x c t).2

theorem Answers.of_eq {x : Check α} {a : α} (h : x c t = ((a, c), t)) : Answers c t x a :=
  ⟨congrArg Prod.fst h, h ▸ .refl t⟩

theorem Answers.pure (a : α) : Answers c t (Pure.pure a) a :=
  ⟨rfl, .refl t⟩

theorem Answers.bind {x : Check α} {f : α → Check β} {a : α} {b : β} (hx : Answers c t x a)
    (hf : ∀ u, SameFindings t u → Answers c u (f a) b) : Answers c t (x >>= f) b := by
  have hrest := hf _ hx.same
  have hsplit : (x >>= f) c t = f a c (x c t).2 := by rw [bind_apply, hx.answer]
  exact ⟨hsplit ▸ hrest.answer, hsplit ▸ hx.same.trans hrest.same⟩

theorem Answers.map {x : Check α} {f : α → β} {a : α} (hx : Answers c t x a) :
    Answers c t (x >>= fun a => Pure.pure (f a)) (f a) :=
  hx.bind fun _ _ => .pure _

theorem Answers.moved {go : Context → Context} {back : Context → Context → Context} {x : Check α}
    {a : α} (hx : Answers (go c) t x a) (hback : back c (go c) = c) :
    Answers c t (excursion go back x) a := by
  refine ⟨?_, hx.same⟩
  show ((x (go c) t).1.1, back c (x (go c) t).1.2) = (a, c)
  rw [hx.answer, hback]

theorem Answers.in_scope {scope : ScopeId} {x : Check α} {a : α}
    (hx : Answers { c with scope := scope } t x a) : Answers c t (inScope scope x) a :=
  hx.moved rfl

/-- Symbols are asked about as from `p`. Only imports are being resolved on top
of what is being resolved there. -/
structure Asking (p c : Context) : Prop extends InProgram p c where
  values : c.resolvingValues = p.resolvingValues
  signatures : c.resolvingSignatures = p.resolvingSignatures
  types : p.resolvingTypes ⊆ c.resolvingTypes
  imports : ∀ id ∈ c.resolvingTypes, id ∈ p.resolvingTypes ∨
    ∃ symbol, p.symbol? id = some symbol ∧ symbol.flags.alias_ = true

theorem Asking.behind (h : Asking p c) : Behind p c :=
  ⟨h.toInProgram, h.values ▸ List.Subset.refl _, h.types, h.signatures ▸ List.Subset.refl _⟩

theorem Asking.push (h : Asking p c) {id : SymbolId} {symbol : Symbol}
    (hid : c.symbol? id = some symbol) (himport : symbol.flags.alias_ = true) :
    Asking p { c with resolvingTypes := id :: c.resolvingTypes } where
  files := h.files
  bindings := h.bindings
  values := h.values
  signatures := h.signatures
  types := List.Subset.trans h.types (List.subset_cons_self _ _)
  imports id' hmem := by
    rcases List.mem_cons.1 hmem with rfl | hold
    · exact .inr ⟨symbol, h.symbol? id' ▸ hid, himport⟩
    · exact h.imports id' hold

/-- Only what is the same at both places is looked at. -/
theorem recall_look {c' : Context} {body : Context → Check α} (hsame : body c' = body c)
    (he : Retained p ((MonadReader.read >>= body : Check α) c s).2 e)
    (h : Retained p (body c c s).2 e → Answers c' t (body c) (body c c s).1.1) :
    Answers c' t (MonadReader.read >>= body) ((MonadReader.read >>= body : Check α) c s).1.1 := by
  have hread : Answers c' t (body c') (body c c s).1.1 := hsame ▸ h he
  exact ⟨hread.answer, hread.same⟩

/-- Asked again from a place with other types around, when what was found out
the first time is known, the rules give the same answers. -/
structure Recalls (p : Context) (r : Rules) : Prop where
  valueType : ∀ {c id s e t}, Asking p c → Retained p (r.valueType id c s).2 e → SameAnswers e t →
    ∀ functions thisTypes speculative,
      Answers (c.beside functions thisTypes speculative) t (r.valueType id) (r.valueType id c s).1.1
  declaredType : ∀ {c id s e t}, Asking p c → Retained p (r.declaredType id c s).2 e →
    SameAnswers e t → ∀ functions thisTypes speculative,
      Answers (c.beside functions thisTypes speculative) t (r.declaredType id)
        (r.declaredType id c s).1.1
  classTypes : ∀ {c id s e t}, Asking p c → Retained p (r.classTypes id c s).2 e →
    SameAnswers e t → (c.symbol? id).isSome → ∀ functions thisTypes speculative,
      Answers (c.beside functions thisTypes speculative) t (r.classTypes id) (r.classTypes id c s).1.1

/-! ## Looking up -/

section

variable {κ ν : Type} [DecidableEq κ]

/-- What is known is looked up. Otherwise it is found out and remembered, unless
it is being resolved. -/
def lookUp (known : Option ν) (resolving : Bool) (instead find : Check ν)
    (remember : ν → State → State) : Check ν :=
  match known with
  | some v => return v
  | none =>
    if resolving then instead
    else do
      let v ← find
      modify (remember v)
      return v

/-- What was looked up or found out is looked up the next time. -/
theorem recall_lookUp {c' : Context} {x y : Check ν} {field : State → Table κ ν} {key : κ}
    {idle : List κ} {resolving : Bool} {instead instead' find find' : Check ν}
    {remember remember' : ν → State → State}
    (hx : x c s = lookUp ((field s).get? key) resolving instead find remember c s)
    (hy : y c' t = lookUp ((field t).get? key) resolving instead' find' remember' c' t)
    (hremember : ∀ v s, (field (remember v s)).get? key = some v) (hback : (find c s).1.2 = c)
    (hmoves : Retained p s (instead c s).2)
    (hinstead : resolving = true → Retained p (instead c s).2 e →
      key ∈ idle ∧ Answers c' t instead' (instead c s).1.1)
    (hkeeps : ∀ {u}, Retained p u e → Table.Keeps idle (field u) (field e))
    (he : Retained p (x c s).2 e) (ht : field t = field e) : Answers c' t y (x c s).1.1 := by
  have hhit : ∀ v, (field e).get? key = some v → Answers c' t y v := by
    intro v hv
    rw [ht, hv] at hy
    exact .of_eq hy
  rw [hx] at he ⊢
  cases hknown : (field s).get? key with
  | some v =>
    rw [hknown] at he
    exact hhit v ((hkeeps he).known key v hknown)
  | none =>
    rw [hknown] at he
    cases resolving with
    | true =>
      obtain ⟨hidle, hanswer⟩ := hinstead rfl he
      rw [ht, (hkeeps (hmoves.trans he)).unknown key hidle hknown] at hy
      exact ⟨(congrArg Prod.fst hy).trans hanswer.answer, hy ▸ hanswer.same⟩
    | false =>
      have hend : lookUp none false instead find remember c s =
          (((find c s).1.1, c), remember (find c s).1.1 (find c s).2) := by
        show (find >>= fun v => modify (remember v) >>= fun _ => Pure.pure v) c s = _
        rw [bind_apply, hback]
        rfl
      rw [hend] at he ⊢
      exact hhit _ ((hkeeps he).known key _ (hremember _ _))

end

/-! ## Symbols -/

theorem get_bind {β : Type} (f : State → Check β) (c : Context) (s : State) :
    ((MonadState.get : Check State) >>= f) c s = f s c s :=
  rfl

theorem valueType_apply (self : Rules) (c : Context) (s : State) (id : SymbolId) :
    Checking.valueType self id c s =
      lookUp (s.valueTypes.get? id) (c.resolvingValues.contains id) (return .any)
        (resolvingValue id (findValueType self id))
        (fun type s => { s with valueTypes := s.valueTypes.insert id type }) c s := by
  unfold Checking.valueType lookUp
  rw [get_bind]
  cases s.valueTypes.get? id with
  | some type => rfl
  | none =>
    dsimp only
    rw [read_bind]

/-- What an alias stands for, found out. -/
def aliased (self : Rules) (c : Context) (id : SymbolId) (symbol : Symbol) : Check TypeId :=
  match symbol.declarations.find? fun d => isTypeAlias (c.form? d) with
  | none => return .error
  | some d =>
    match c.form? d with
    | some (.typeAlias p) =>
      resolvingType id (atDeclaration d.file (c.scopeAround d) (self.typeNode p.aliased))
    | _ => return .error

theorem aliasType_apply (self : Rules) (c : Context) (s : State) (id : SymbolId) (symbol : Symbol) :
    aliasType self id symbol c s =
      lookUp (s.aliasTypes.get? id) (c.resolvingTypes.contains id) (return .error)
      (aliased self c id symbol)
      (fun type s => { s with aliasTypes := s.aliasTypes.insert id type }) c s := by
  unfold aliasType lookUp aliased
  rw [get_bind]
  cases s.aliasTypes.get? id with
  | some type => rfl
  | none =>
    dsimp only
    rw [read_bind]
    split
    · rfl
    · generalize symbol.declarations.find? (fun d => isTypeAlias (c.form? d)) = found
      cases found with
      | none => rfl
      | some d =>
        dsimp only
        generalize c.form? d = form
        cases form with
        | none => rfl
        | some form => cases form <;> rfl

section

variable {self : Rules} (hw : Walked (memory p) self)

include hw

theorem leads_aliased (id : SymbolId) (symbol : Symbol) :
    Leads (fun _ => True) c (aliased self c id symbol) fun _ _ => True := by
  unfold aliased
  split
  · exact .pure fun _ h => h
  · split
    · refine .moved (fun s _ => ⟨?_, trivial⟩) (by simp)
      exact ((Walk.Moves.at_declaration fun _ _ => hw.typeNode _ _ : (memory p).Moves _ _) s).1
    · exact .pure fun _ h => h

variable (hc : Asking p c) (ht : SameAnswers e t) (functions : List (Option TypeId))
  (thisTypes : List TypeId) (speculative : Nat)

include hc ht

theorem recall_valueType {id : SymbolId} (he : Retained p (Checking.valueType self id c s).2 e) :
    Answers (c.beside functions thisTypes speculative) t (Checking.valueType self id)
      (Checking.valueType self id c s).1.1 :=
  recall_lookUp (valueType_apply ..) (valueType_apply ..)
    (fun _ _ => (Table.get?_insert ..).trans (if_pos rfl))
    ((hw.moves_findValueType id).resolving_value s).1 (.refl p s)
    (fun hidle _ => ⟨hc.values ▸ List.contains_iff_mem.1 hidle, .pure _⟩) Retained.values he ht.values

theorem recall_aliasType {id : SymbolId} {symbol : Symbol} (hid : c.symbol? id = some symbol)
    (himport : symbol.flags.alias_ = false)
    (he : Retained p (aliasType self id symbol c s).2 e) :
    Answers (c.beside functions thisTypes speculative) t (aliasType self id symbol)
      (aliasType self id symbol c s).1.1 := by
  have hidle : c.resolvingTypes.contains id = true → id ∈ p.resolvingTypes := by
    intro hcontains
    rcases hc.imports id (List.contains_iff_mem.1 hcontains) with hold | ⟨other, hother, hflag⟩
    · exact hold
    · rw [hc.symbol?, hother] at hid
      cases hid
      rw [himport] at hflag
      cases hflag
  exact recall_lookUp (aliasType_apply ..) (aliasType_apply ..)
    (fun _ _ => (Table.get?_insert ..).trans (if_pos rfl)) (leads_aliased hw id symbol s trivial).1
    (.refl p s) (fun hcontains _ => ⟨hidle hcontains, .pure _⟩) Retained.aliases he ht.aliases

theorem recall_interfaceType {id : SymbolId} {symbol : Symbol}
    (he : Retained p (interfaceType self id symbol c s).2 e) :
    Answers (c.beside functions thisTypes speculative) t (interfaceType self id symbol)
      (interfaceType self id symbol c s).1.1 := by
  have hknown := (retained_interfaceType hw hc.behind id symbol s rfl).2.2
  have hlater : t.interfaceTypes.get? id = some (interfaceType self id symbol c s).1.1 := by
    rw [ht.interfaces]
    exact he.interfaces.known _ _ hknown
  have hagain : interfaceType self id symbol (c.beside functions thisTypes speculative) t =
      (((interfaceType self id symbol c s).1.1, c.beside functions thisTypes speculative), t) := by
    conv_lhs => unfold interfaceType
    rw [get_bind, hlater]
    rfl
  exact .of_eq hagain

theorem recall_classTypes {id : SymbolId} (hid : (c.symbol? id).isSome)
    (he : Retained p (Checking.classTypes self id c s).2 e) :
    Answers (c.beside functions thisTypes speculative) t (Checking.classTypes self id)
      (Checking.classTypes self id c s).1.1 := by
  have hknown := (retained_classTypes hw hc.behind id s rfl).2.2 hid
  have hlater : t.classTypes.get? id = some (Checking.classTypes self id c s).1.1 := by
    rw [ht.classes]
    exact he.classes.known _ _ hknown
  have hagain : Checking.classTypes self id (c.beside functions thisTypes speculative) t =
      (((Checking.classTypes self id c s).1.1, c.beside functions thisTypes speculative), t) := by
    conv_lhs => unfold Checking.classTypes
    rw [get_bind, hlater]
    rfl
  exact .of_eq hagain

/-- The meaning of a symbol as a type, with one more nested use of the rules. -/
theorem recall_declaredType (hself : Recalls p self) {id : SymbolId}
    (he : Retained p (Checking.declaredType self id c s).2 e) :
    Answers (c.beside functions thisTypes speculative) t (Checking.declaredType self id)
      (Checking.declaredType self id c s).1.1 := by
  refine recall_look rfl he fun he => ?_
  cases hid : c.symbol? id with
  | none => exact .pure _
  | some symbol =>
    simp only [hid] at he ⊢
    cases himport : symbol.flags.alias_ with
    | true =>
      simp only [himport, if_true] at he ⊢
      cases htarget : c.importTarget? id with
      | none => exact .pure _
      | some target =>
        simp only [htarget] at he ⊢
        by_cases hresolving : c.resolvingTypes.contains id = true
        · simp only [if_pos hresolving]
          exact .pure _
        · simp only [if_neg hresolving] at he ⊢
          exact (hself.declaredType (hc.push hid himport) he ht functions thisTypes speculative).moved
            (by simp [Context.beside])
    | false =>
      simp only [himport, Bool.false_eq_true, if_false] at he ⊢
      split at he
      · rename_i hclass
        simp only [if_pos hclass]
        exact (hself.classTypes hc he ht (hid ▸ rfl) functions thisTypes speculative).map
      rename_i hclass
      simp only [if_neg hclass]
      split at he
      · rename_i hinterface
        simp only [if_pos hinterface]
        exact (recall_interfaceType hw hc ht functions thisTypes speculative he).map
      rename_i hinterface
      simp only [if_neg hinterface]
      split at he
      · rename_i halias
        simp only [if_pos halias]
        exact (recall_aliasType hw hc ht functions thisTypes speculative hid himport he).map
      · rename_i halias
        simp only [if_neg halias]
        exact .pure _

omit hw hc ht in
/-- All rules are asked again with the same answer. -/
theorem recalls_rules (p : Context) (n : Nat) : Recalls p (rules n) := by
  induction n with
  | zero =>
    have hexhausted : ∀ {γ : Type} (a : γ) {c : Context} {t : State},
        Answers c t (exhaust >>= fun _ => Pure.pure a) a := by
      intro γ a c t
      exact ⟨rfl, (Tie.Runs.notes_exhaust (c := c) t).2⟩
    exact ⟨fun _ _ _ _ _ _ => hexhausted _, fun _ _ _ _ _ _ => hexhausted _,
      fun _ _ _ _ _ _ _ => hexhausted _⟩
  | succ n ih =>
    have hw := retained_rules p n
    constructor
    · intro c id s e t hc he ht functions thisTypes speculative
      exact recall_valueType hw hc ht functions thisTypes speculative he
    · intro c id s e t hc he ht functions thisTypes speculative
      exact recall_declaredType hw hc ht functions thisTypes speculative ih he
    · intro c id s e t hc he ht hid functions thisTypes speculative
      exact recall_classTypes hw hc ht functions thisTypes speculative hid he

/-! ## Signatures -/

omit ht hw hc in
/-- Several questions, one after the other. -/
theorem recall_mapM {γ : Type} {c' : Context} {f : γ → Check α} {xs : List γ} (hc : Behind p c)
    (hmoves : ∀ a, (memory p).Moves c (f a))
    (hf : ∀ a ∈ xs, ∀ s t, Retained p (f a c s).2 e → SameAnswers e t →
      Answers c' t (f a) (f a c s).1.1)
    (he : Retained p (xs.mapM f c s).2 e) (ht : SameAnswers e t) :
    Answers c' t (xs.mapM f) (xs.mapM f c s).1.1 := by
  induction xs generalizing s t with
  | nil => exact .pure _
  | cons a xs ih =>
    have hback := (hmoves a s).1
    have hrest : (memory p).Moves c (xs.mapM f) := .mapM hmoves
    have hsplit : (a :: xs).mapM f c s = (((f a c s).1.1 :: (xs.mapM f c (f a c s).2).1.1,
        (xs.mapM f c (f a c s).2).1.2), (xs.mapM f c (f a c s).2).2) := by
      rw [List.mapM_cons, bind_apply, hback, bind_apply]
      rfl
    rw [hsplit] at he ⊢
    rw [List.mapM_cons]
    refine (hf a List.mem_cons_self s t (((hrest _).2 hc).trans he) ht).bind fun u hu => ?_
    exact (ih (fun b hb => hf b (List.mem_cons_of_mem _ hb)) he (ht.find hu)).map

omit hw in
/-- A parameter that is declared is asked about by its symbol. -/
theorem recall_parameterInfo (h : Recalls p self) {node : NodeId} {symbol : SymbolId}
    (hsymbol : c.declared? node = some symbol) (he : Retained p (parameterInfo self node c s).2 e) :
    Answers (c.beside functions thisTypes speculative) t (parameterInfo self node)
      (parameterInfo self node c s).1.1 := by
  refine recall_look rfl he fun he => ?_
  cases hp : c.arena.parameterOf? node with
  | none => exact .pure _
  | some q =>
    simp only [hp, hsymbol] at he ⊢
    exact (h.valueType hc he ht functions thisTypes speculative).map

omit ht hw hc in
theorem signature_apply {node : NodeId} {k : FunctionKind} {q : FunctionParts}
    (hform : c.arena.form? node = some (.function k q)) (s : State) :
    Checking.signature self node c s =
      lookUp (s.signatures.get? (c.site node)) (c.resolvingSignatures.contains (c.site node))
        (do
          let parameters ← inScope (c.scopeOf node) (q.parameters.mapM (parameterInfo self))
          return ⟨parameters, .any⟩)
        (do
          let parameters ← inScope (c.scopeOf node) (q.parameters.mapM (parameterInfo self))
          let type ← resolvingSignature (c.site node) (returnType self node k q)
          return ⟨parameters, type⟩)
        (fun found s => { s with signatures := s.signatures.insert (c.site node) found }) c s := by
  unfold Checking.signature lookUp
  rw [read_bind, hform, get_bind]
  cases s.signatures.get? (c.site node) with
  | some found => rfl
  | none =>
    dsimp only
    split <;> rfl

omit ht hw hc in
/-- The signature of a function type. If it is being resolved, its parameters
are asked about once more. -/
theorem Recalls.signature (hw : Walked (memory p) self) (h : Recalls p self) (hc : Asking p c)
    (ht : SameAnswers e t) (functions : List (Option TypeId)) (thisTypes : List TypeId)
    (speculative : Nat) {node : NodeId} {k : FunctionKind} {q : FunctionParts}
    (hform : c.arena.form? node = some (.function k q))
    (hdeclared : c.site node ∈ p.resolvingSignatures → ∀ m ∈ q.parameters, (c.declared? m).isSome)
    (he : Retained p (Checking.signature self node c s).2 e) :
    Answers (c.beside functions thisTypes speculative) t (Checking.signature self node)
      (Checking.signature self node c s).1.1 := by
  have hparameters : (memory p).Moves c
      (inScope (c.scopeOf node) (q.parameters.mapM (parameterInfo self))) :=
    Walk.Moves.in_scope (.mapM fun _ => hw.moves_parameterInfo _)
  refine recall_lookUp (signature_apply hform s) (signature_apply (by exact hform) t)
    (fun _ _ => (Table.get?_insert ..).trans (if_pos rfl)) ?_ ?_ ?_ Retained.signatures he ht.signatures
  · exact (Walk.Moves.bind hparameters (fun _ => Walk.Moves.bind
      (.resolving_signature (hw.moves_returnType _ _ _)) fun _ => .pure _) s).1
  · exact (Walk.Moves.bind hparameters (fun _ => .pure _) s).2 hc.behind
  · intro hidle hlater
    have hresolving : c.site node ∈ p.resolvingSignatures :=
      hc.signatures ▸ List.contains_iff_mem.1 hidle
    have hinside : Asking p { c with scope := c.scopeOf node } :=
      ⟨⟨hc.files, hc.bindings⟩, hc.values, hc.signatures, hc.types, hc.imports⟩
    have hall : Answers { c.beside functions thisTypes speculative with scope := c.scopeOf node } t
        (q.parameters.mapM (parameterInfo self)) _ :=
      recall_mapM hinside.behind (fun _ => hw.moves_parameterInfo _) (fun m hm s t he ht => ?_)
        hlater ht
    · exact ⟨hresolving,
        hall.in_scope.map (f := fun parameters => (⟨parameters, .any⟩ : Signature))⟩
    · obtain ⟨symbol, hsymbol⟩ := Option.isSome_iff_exists.1 (hdeclared hresolving m hm)
      exact recall_parameterInfo hinside ht functions thisTypes speculative h hsymbol he

end

end ScriptAnalysis.Checking
