import ScriptAnalysis.Proofs.Ast.Subtrees
import ScriptAnalysis.Proofs.Binding.Tables

/-!
# What the steps of a walk do to the tables

`Binds script c b₀ nodes x` says that the step `x` keeps the tables well
formed when nothing in `nodes` is declared yet, and declares nothing but
nodes in `nodes`. It is said of all bindings that have grown out of `b₀`, so
that what is known of the scopes there can be used later.

**Rules.** `Binds.bind` for two steps on separate parts of the tree,
`Binds.forM` for a step on each of some siblings. `Binds.quiet_bind` for steps
that change no table, `Binds.enterScope` for a scope that the rest of the walk
uses, and `binds_declare` for the only step that declares anything.
-/
namespace ScriptAnalysis.Binding

open Bindings

/-- The declaration `d` stands in the head of a loop over the value `value`. -/
def LoopsOver (a : Arena) (d value : NodeId) : Prop :=
  ∃ head loop, d ∈ a.children head ∧ head ∈ a.children loop ∧ value ∈ a.children loop

/-- What a step has left. -/
structure Bound (script : FileId → Prop) (c : Context) (nodes : Set NodeId) (b b' : Bindings) :
    Prop where
  wellFormed : WellFormed script b'
  grows : Grows b b'
  kept : ∀ d : Site, (d.file = c.fileId → d.node ∉ nodes) →
    b'.declarationSymbols.get? d = b.declarationSymbols.get? d
  looped : ∀ d value, b'.iterated.get? d = some value → b.iterated.get? d = some value ∨
    d.file = c.fileId ∧ LoopsOver c.file.arena d.node value

/-- The step declares nodes in `nodes` only, none of which are declared. -/
def Binds {α : Type} (script : FileId → Prop) (c : Context) (b₀ : Bindings) (nodes : Set NodeId)
    (x : Binder α) : Prop :=
  ∀ b, Grows b₀ b → WellFormed script b →
    (∀ n ∈ nodes, b.declarationSymbols.get? ⟨c.fileId, n⟩ = none) →
      Bound script c nodes b (x c b).2

/-- The step changes no table. -/
def Quiet {α : Type} (x : Binder α) : Prop :=
  ∀ c b, SameTables b (x c b).2

section

variable {script : FileId → Prop} {c : Context} {b₀ b₁ : Bindings} {α β : Type}
  {nodes nodes' : Set NodeId} {x : Binder α} {f : α → Binder β}

/-! ## Sequences -/

theorem Quiet.pure (a : α) : Quiet (Pure.pure a) :=
  fun _ b => SameTables.refl b

theorem Binds.mono (h : Binds script c b₀ nodes x) (hn : nodes ⊆ nodes') :
    Binds script c b₀ nodes' x := by
  intro b hb hw hfresh
  have hstep := h b hb hw fun n hmem => hfresh n (hn hmem)
  exact ⟨hstep.wellFormed, hstep.grows,
    fun d hd => hstep.kept d fun hfile hmem => hd hfile (hn hmem), hstep.looped⟩

theorem Bound.of_same {b b' : Bindings} (hw : WellFormed script b) (h : SameTables b b') :
    Bound script c nodes b b' :=
  ⟨hw.of_same h, h.grows, fun d _ => by rw [h.declarationSymbols],
    fun d value hd => .inl (h.iterated ▸ hd)⟩

theorem Bound.trans {b b' b'' : Bindings} (h : Bound script c nodes b b')
    (h' : Bound script c nodes' b' b'') : Bound script c (nodes ∪ nodes') b b'' where
  wellFormed := h'.wellFormed
  grows := h.grows.trans h'.grows
  kept d hd := (h'.kept d fun hfile hmem => hd hfile (.inr hmem)).trans
    (h.kept d fun hfile hmem => hd hfile (.inl hmem))
  looped d value hd := (h'.looped d value hd).elim (h.looped d value) .inr

theorem Binds.of_quiet (h : Quiet x) : Binds script c b₀ nodes x :=
  fun b _ hw _ => .of_same hw (h c b)

theorem Binds.pure (a : α) : Binds script c b₀ nodes (Pure.pure a) :=
  .of_quiet (.pure a)

/-- Two steps on separate parts of the tree. -/
theorem Binds.bind (hx : Binds script c b₀ nodes x) (hf : ∀ a, Binds script c b₀ nodes' (f a))
    (hd : Disjoint nodes nodes') : Binds script c b₀ (nodes ∪ nodes') (x >>= f) := by
  intro b hb hw hfresh
  have hfirst := hx b hb hw fun n hn => hfresh n (.inl hn)
  have hsecond := hf (x c b).1 (x c b).2 (hb.trans hfirst.grows) hfirst.wellFormed fun n hn => by
    rw [hfirst.kept _ fun _ hmem => Set.disjoint_left.1 hd hmem hn]
    exact hfresh n (.inr hn)
  exact hfirst.trans hsecond

/-- A step that declares nothing, before another one. -/
theorem Binds.none_bind (hx : Binds script c b₀ ∅ x) (hf : ∀ a, Binds script c b₀ nodes (f a)) :
    Binds script c b₀ nodes (x >>= f) := by
  have h := hx.bind hf (Set.empty_disjoint nodes)
  rwa [Set.empty_union] at h

theorem Binds.quiet_bind (hx : Quiet x) (hf : ∀ a, Binds script c b₀ nodes (f a)) :
    Binds script c b₀ nodes (x >>= f) :=
  .none_bind (.of_quiet hx) hf

theorem Binds.then_quiet (hx : Binds script c b₀ nodes x) (hf : ∀ a, Quiet (f a)) :
    Binds script c b₀ nodes (x >>= f) := by
  have hnone (a : α) : Binds script c b₀ ∅ (f a) := .of_quiet (hf a)
  have h := hx.bind hnone (Set.disjoint_empty nodes)
  rwa [Set.union_empty] at h

theorem Binds.read {f : Context → Binder β} (h : Binds script c b₀ nodes (f c)) :
    Binds script c b₀ nodes (MonadReader.read >>= f) :=
  h

theorem Binds.arena {f : Arena → Binder β} (h : Binds script c b₀ nodes (f c.file.arena)) :
    Binds script c b₀ nodes (Binding.arena >>= f) :=
  h

theorem Binds.get {f : Bindings → Binder β}
    (hf : ∀ b, Grows b₀ b → WellFormed script b → Binds script c b nodes (f b)) :
    Binds script c b₀ nodes (MonadState.get >>= f) :=
  fun b hb hw hfresh => hf b hb hw b (.refl b) hw hfresh

theorem Binds.forM_option {f : NodeId → Binder Unit} (o : Option NodeId)
    (h : ∀ n ∈ o, Binds script c b₀ (c.file.arena.under [n]) (f n)) :
    Binds script c b₀ (c.file.arena.under o.toList) (o.forM f) := by
  cases o with
  | none => exact .pure ()
  | some n => exact h n rfl

theorem Binds.forM_none {f : NodeId → Binder Unit} {list : List NodeId}
    (h : ∀ n ∈ list, Binds script c b₀ ∅ (f n)) : Binds script c b₀ ∅ (list.forM f) := by
  induction list with
  | nil => exact .pure ()
  | cons n list ih =>
    exact (h n List.mem_cons_self).none_bind fun _ => ih fun m hm => h m (List.mem_cons_of_mem n hm)

/-- A step on each of some siblings. -/
theorem Binds.forM {f : NodeId → Binder Unit} {list : List NodeId}
    (hs : c.file.arena.Siblings list)
    (h : ∀ n ∈ list, Binds script c b₀ (c.file.arena.under [n]) (f n)) :
    Binds script c b₀ (c.file.arena.under list) (list.forM f) := by
  induction list with
  | nil => exact .pure ()
  | cons n list ih =>
    obtain ⟨-, hlist, hapart⟩ := (show c.file.arena.Siblings ([n] ++ list) from hs).append
    have hrest := ih hlist fun m hm => h m (List.mem_cons_of_mem n hm)
    have hseq := (h n List.mem_cons_self).bind (fun _ => hrest) hapart
    rwa [← Arena.under_append] at hseq

/-! ## Scopes -/

/-- A scope of the file that is bound; the rest of the walk may use it. -/
theorem Binds.enterScope {f : ScopeId → Binder β} {node : NodeId} {parent : ScopeId}
    {isFunction : Bool} (howned : Owned script b₀ c.fileId parent)
    (hf : ∀ b₁ inner, Grows b₀ b₁ → Owned script b₁ c.fileId inner →
      Binds script c b₁ nodes (f inner)) :
    Binds script c b₀ nodes (enterScope node parent isFunction >>= f) := by
  intro b hb hw hfresh
  let s : Scope := { parent := some parent, file := some c.fileId, node := some node, isFunction,
                     symbols := .empty }
  obtain ⟨b₁, hrun⟩ : ∃ b₁, b₁ = (Binding.enterScope node parent isFunction c b).2 := ⟨_, rfl⟩
  have hsame : SameTables (b.withScope s) b₁ := by
    subst hrun
    exact ⟨fun _ => rfl, rfl, rfl, rfl, rfl, rfl⟩
  have hgrows : Grows b b₁ := (grows_withScope b s).trans hsame.grows
  have howned' := howned.grows hb
  have hw' : WellFormed script b₁ := (hw.withScope (s := s) rfl rfl (hw.lt_size howned') rfl
    fun _ => howned').of_same hsame
  have hinner : Owned script b₁ c.fileId b.scopes.size :=
    .inr ⟨s, by rw [hsame.frame?, frame?_withScope, if_pos rfl], rfl⟩
  have hrest := hf b₁ b.scopes.size (hb.trans hgrows) hinner b₁ (.refl b₁) hw' fun n hn => by
    rw [hsame.declarationSymbols]
    exact hfresh n hn
  have hbind : ((Binding.enterScope node parent isFunction >>= f) c b).2 =
      (f b.scopes.size c b₁).2 := by
    rw [hrun]
    rfl
  have hscope : Bound script c ∅ b b₁ :=
    ⟨hw', hgrows, fun d _ => by rw [hsame.declarationSymbols]; rfl,
      fun d value hd => .inl (hsame.iterated ▸ hd)⟩
  rw [hbind, ← Set.empty_union nodes]
  exact hscope.trans hrest

end

/-! ## Declarations -/

section

variable {β : Type} (c : Context) (b : Bindings)

theorem arena_bind (f : Arena → Binder β) : (arena >>= f) c b = f c.file.arena c b := rfl

theorem site_bind (node : NodeId) (f : Site → Binder β) :
    (site node >>= f) c b = f ⟨c.fileId, node⟩ c b := rfl

theorem get_bind (f : Bindings → Binder β) :
    ((MonadState.get : Binder Bindings) >>= f) c b = f b c b := rfl

theorem set_bind (b' : Bindings) (f : PUnit → Binder β) :
    ((MonadStateOf.set b' : Binder PUnit) >>= f) c b = f ⟨⟩ c b' := rfl

theorem modify_bind (change : Bindings → Bindings) (f : PUnit → Binder β) :
    ((modify change : Binder PUnit) >>= f) c b = f ⟨⟩ c (change b) := rfl

end

theorem exists_reportDuplicate (name : String) (d : Site) (nameNode : Option NodeId) (c : Context)
    (b : Bindings) : ∃ diagnostics reported,
      (reportDuplicate name d nameNode c b).2 = { b with diagnostics, reported } := by
  show ∃ diagnostics reported,
    ((if b.reported.contains d then Pure.pure () else _ : Binder Unit) c b).2 =
      { b with diagnostics, reported }
  split
  · exact ⟨_, _, rfl⟩
  · rw [set_bind]
    cases nameNode.bind (c.file.arena[·]?) with
    | none => exact ⟨_, _, rfl⟩
    | some node => exact ⟨_, _, rfl⟩

theorem exists_reportFirst (name : String) (first : Site) (c : Context) (b : Bindings) :
    ∃ diagnostics reported,
      (reportFirst name first c b).2 = { b with diagnostics, reported } := by
  show ∃ diagnostics reported,
    ((if first.file = c.fileId then _ else Pure.pure () : Binder Unit) c b).2 =
      { b with diagnostics, reported }
  split
  · exact exists_reportDuplicate name first _ c b
  · exact ⟨_, _, rfl⟩

/-- A further declaration, behind the others of the symbol. -/
def appendDeclaration (id : SymbolId) (d : Site) (flags : Flags) (exported : Bool)
    (b : Bindings) : Bindings :=
  { b with
    symbols := b.symbols.modify id fun s => { s with
      flags := s.flags.union flags
      declarations := s.declarations ++ [d]
      exported := s.exported || exported } }

/-- Whatever is reported, the declaration joins the symbol. -/
theorem exists_joinSymbol (id : SymbolId) (name : String) (nameNode : NodeId) (d : Site)
    (flags : Flags) (exported : Bool) (c : Context) (b : Bindings) :
    ∃ diagnostics reported, (joinSymbol id name nameNode d flags exported c b).2 =
      appendDeclaration id d flags exported { b with diagnostics, reported } := by
  let symbol := b.symbols.getD id default
  obtain ⟨ds, r, hduplicate⟩ := exists_reportDuplicate name d (some nameNode) c b
  by_cases hmerge : symbol.flags.canMerge flags = true
  · refine ⟨b.diagnostics, b.reported, ?_⟩
    show ((if symbol.flags.canMerge flags = true then _ else _ : Binder Unit) c b).2 = _
    rw [if_pos hmerge]
    rfl
  · cases hdeclarations : symbol.declarations with
    | nil =>
      refine ⟨ds, r, ?_⟩
      show ((if symbol.flags.canMerge flags = true then _ else _ : Binder Unit) c b).2 = _
      rw [if_neg hmerge, hdeclarations]
      show appendDeclaration id d flags exported
        (reportDuplicate name d (some nameNode) c b).2 = _
      rw [hduplicate]
    | cons first _ =>
      obtain ⟨ds', r', hfirst⟩ := exists_reportFirst name first c
        { b with diagnostics := ds, reported := r }
      refine ⟨ds', r', ?_⟩
      show ((if symbol.flags.canMerge flags = true then _ else _ : Binder Unit) c b).2 = _
      rw [if_neg hmerge, hdeclarations]
      show appendDeclaration id d flags exported
        (reportFirst name first c (reportDuplicate name d (some nameNode) c b).2).2 = _
      rw [hduplicate, hfirst]

/-- Notes what a declaration is a declaration of. -/
def register (d : Site) (name : String) (exported : Bool) (id : SymbolId) : Binder Unit := do
  if exported then
    let file := (← read).fileId
    modify fun b => { b with exports := b.exports.modify file (·.insert name id) }
  modify fun b => { b with declarationSymbols := b.declarationSymbols.insert d id }

theorem declare_named {nameNode : NodeId} {name : String} {c : Context}
    (hname : c.file.arena.nameOf? nameNode = some name) (hempty : ¬ name.isEmpty = true)
    (scope : ScopeId) (node : NodeId) (flags : Flags) (exported constant : Bool) (b : Bindings) :
    declare scope nameNode node flags exported constant c b =
      (match b.nameIn? scope name with
        | some id => do
          joinSymbol id name nameNode ⟨c.fileId, node⟩ flags exported
          register ⟨c.fileId, node⟩ name exported id
          return some id
        | none => do
          let id ← newSymbol scope
            { name, flags, declarations := [⟨c.fileId, node⟩], exported, constant, target := none }
          register ⟨c.fileId, node⟩ name exported id
          return some id : Binder (Option SymbolId)) c
        { b with declarationScopes := b.declarationScopes.insert ⟨c.fileId, node⟩ scope } := by
  unfold declare nameIn?
  rw [arena_bind, hname]
  dsimp only
  rw [if_neg hempty, site_bind, modify_bind, get_bind]
  dsimp only
  cases b.scopes[scope]?.bind (·.symbols.get? name) with
  | some id =>
    dsimp only
    cases exported <;> rfl
  | none =>
    dsimp only
    cases exported <;> rfl

theorem register_tables (d : Site) (name : String) (exported : Bool) (id : SymbolId)
    (c : Context) (b : Bindings) : (register d name exported id c b).2 =
      { (if exported then b.exportedAs c.fileId name id else b) with
        declarationSymbols := b.declarationSymbols.insert d id } := by
  cases exported <;> rfl

/-- A declaration declares nothing, joins a symbol or adds one. -/
theorem declare_tables (scope : ScopeId) (nameNode node : NodeId) (flags : Flags)
    (exported constant : Bool) (c : Context) (b : Bindings) :
    SameTables b (declare scope nameNode node flags exported constant c b).2 ∨
    ∃ name id b₁, (b.nameIn? scope name = some id ∧
        b₁ = b.joined id ⟨c.fileId, node⟩ flags exported ∨
      b.nameIn? scope name = none ∧ id = b.symbols.size ∧
        b₁ = b.added scope { name, flags, declarations := [⟨c.fileId, node⟩], exported, constant,
                             target := none } ⟨c.fileId, node⟩) ∧
      SameTables (if exported then b₁.exportedAs c.fileId name id else b₁)
        (declare scope nameNode node flags exported constant c b).2 := by
  cases hname : c.file.arena.nameOf? nameNode with
  | none =>
    left
    unfold declare
    rw [arena_bind, hname]
    exact .refl b
  | some name =>
    by_cases hempty : name.isEmpty = true
    · left
      unfold declare
      rw [arena_bind, hname]
      dsimp only
      rw [if_pos hempty]
      exact .refl b
    · right
      rw [declare_named hname hempty]
      cases hentry : b.nameIn? scope name with
      | some id =>
        refine ⟨name, id, _, .inl ⟨hentry, rfl⟩, ?_⟩
        obtain ⟨ds, r, hjoin⟩ := exists_joinSymbol id name nameNode ⟨c.fileId, node⟩ flags exported
          c { b with declarationScopes := b.declarationScopes.insert ⟨c.fileId, node⟩ scope }
        show SameTables _ (register ⟨c.fileId, node⟩ name exported id c
          (joinSymbol id name nameNode ⟨c.fileId, node⟩ flags exported c _).2).2
        rw [hjoin, register_tables]
        cases exported <;> exact ⟨fun _ => rfl, rfl, rfl, rfl, rfl, rfl⟩
      | none =>
        refine ⟨name, b.symbols.size, _, .inr ⟨hentry, rfl, rfl⟩, ?_⟩
        show SameTables _ (register ⟨c.fileId, node⟩ name exported b.symbols.size c
          (newSymbol scope _ c _).2).2
        rw [register_tables]
        cases exported <;> exact ⟨fun _ => rfl, rfl, rfl, rfl, rfl, rfl⟩

theorem binds_declare {script : FileId → Prop} {c : Context} {b₀ : Bindings} {scope : ScopeId}
    {nameNode node : NodeId} {flags : Flags} {exported constant : Bool}
    (howned : Owned script b₀ c.fileId scope)
    (hroot : exported = true → b₀.fileScopes[c.fileId]? = some scope) :
    Binds script c b₀ {node} (declare scope nameNode node flags exported constant) := by
  intro b hb hw hfresh
  have howned' := howned.grows hb
  have hnew := hfresh node rfl
  rcases declare_tables scope nameNode node flags exported constant c b with
    hsame | ⟨name, id, b₁, hb₁, hsame⟩
  · exact .of_same hw hsame
  · -- the symbol is found in the scope, whether it was there before or is new
    obtain ⟨hw₁, hentry, hgrows, htable, hloops⟩ : WellFormed script b₁ ∧
        b₁.nameIn? scope name = some id ∧ Grows b b₁ ∧
        b₁.declarationSymbols = b.declarationSymbols.insert ⟨c.fileId, node⟩ id ∧
        b₁.iterated = b.iterated := by
      rcases hb₁ with ⟨hentry, rfl⟩ | ⟨hentry, rfl, rfl⟩
      · exact ⟨hw.joined hentry howned' hnew flags exported, hentry, ⟨fun _ _ h => h, rfl⟩, rfl,
          rfl⟩
      · refine ⟨hw.added hentry howned' hnew rfl, ?_,
          ⟨fun i s hs => (frame?_added b scope _ _ i).trans hs, rfl⟩, rfl, rfl⟩
        obtain ⟨s, hs⟩ := hw.exists_frame howned'
        rw [nameIn?_added, if_pos ⟨⟨rfl, Option.isSome_iff_exists.2 ⟨s, hs⟩⟩, rfl⟩]
    have hw₂ : WellFormed script (if exported then b₁.exportedAs c.fileId name id else b₁) := by
      split
      · rename_i hexported
        exact hw₁.exportedAs (by rw [hgrows.files, hb.files, hroot hexported]) hentry
      · exact hw₁
    have hgrows₂ : Grows b₁ (if exported then b₁.exportedAs c.fileId name id else b₁) := by
      split
      · exact ⟨fun _ _ h => h, rfl⟩
      · exact .refl b₁
    refine ⟨hw₂.of_same hsame, hgrows.trans (hgrows₂.trans hsame.grows), fun d hd => ?_,
      fun d value hd => .inl ?_⟩
    · have hother : (⟨c.fileId, node⟩ : Site) ≠ d := by
        rintro rfl
        exact hd rfl rfl
      have hkept : (if exported then b₁.exportedAs c.fileId name id else b₁).declarationSymbols =
          b₁.declarationSymbols := by split <;> rfl
      rw [hsame.declarationSymbols, hkept, htable, Table.get?_insert, if_neg hother]
    · have hkept : (if exported then b₁.exportedAs c.fileId name id else b₁).iterated =
          b₁.iterated := by split <;> rfl
      rwa [hsame.iterated, hkept, hloops] at hd

end ScriptAnalysis.Binding
