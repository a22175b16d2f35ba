import ScriptAnalysis.Proofs.Binding.Merging
import ScriptAnalysis.Proofs.Binding.WellFormed

/-!
# Names that clash

`Accounted c b` is what the bindings of one file are at any moment of the
walk: the flags of each symbol are those of its declarations, and nothing was
reported exactly as long as the declarations of each symbol agree.

**Results.**
* `Ledger.joinSymbol`: a declaration that may not join is reported, also if
  its first reports were suppressed as repetitions.
* `Accounted.declare`: what a declaration does to the account, and from it by
  `Tells.bind`, `Tells.forM` and the rules beside them what the walk does.
* `unreported_iff`: for which symbols nothing is reported in a program of one
  file. A class with interfaces may have further classes behind the first
  interface (`sandwich_unreported`).
-/
namespace ScriptAnalysis.Binding

open Bindings

/-! ## The account -/

/-- What a symbol is known as, the first first. -/
def history (a : Arena) (s : Symbol) : List Flags :=
  (if s.flags.builtin then [Flags.ofBuiltin] else []) ++ kinds a s.declarations

/-- The flags of a symbol are those of its declarations, or that it is built
in. -/
structure Tallied (a : Arena) (s : Symbol) : Prop where
  kinded : Kinded a s.declarations
  known : history a s ≠ []
  flags : s.flags = (history a s).foldl Flags.union {}

/-- Each declaration of a symbol may join those before it. -/
def Agreeing (a : Arena) (s : Symbol) : Prop :=
  Flags.agree (history a s) = true

/-- What was reported for the file that is bound. -/
structure Ledger (c : Context) (b : Bindings) : Prop where
  file : c.fileId < b.diagnostics.size
  code : ∀ d ∈ b.diagnosticsOf c.fileId, d.code = 2300
  reported : b.reported ≠ [] → b.diagnosticsOf c.fileId ≠ []

/-- The symbols of a file are tallied, and nothing is reported as long as
their declarations agree. -/
structure Accounted (c : Context) (b : Bindings) : Prop extends Ledger c b where
  there : ∀ i name id, b.nameIn? i name = some id → id < b.symbols.size
  tallied : ∀ (id : SymbolId) s, b.symbols[id]? = some s → Tallied c.file.arena s
  told : b.diagnosticsOf c.fileId = [] ↔
    ∀ (id : SymbolId) s, b.symbols[id]? = some s → Agreeing c.file.arena s

section

variable {c : Context} {b b' : Bindings} {d : Site} {k : Flags} {id : SymbolId} {s : Symbol}
  {name : String} {nameNode : NodeId} {exported : Bool}

/-! ## Reports -/

theorem reportDuplicate_run (name : String) (d : Site) (nameNode : Option NodeId) (c : Context)
    (b : Bindings) : (reportDuplicate name d nameNode c b).2 =
      if b.reported.contains d then b
      else match nameNode.bind (c.file.arena[·]?) with
        | none => { b with reported := d :: b.reported }
        | some node =>
          { b with
            reported := d :: b.reported
            diagnostics := b.diagnostics.modify c.fileId
              (· ++ [(Problem.duplicateIdentifier name).diagnostic c.file.name node.pos
                (node.stop - node.pos) []]) } := by
  show ((if b.reported.contains d then Pure.pure () else _ : Binder Unit) c b).2 = _
  split
  · rfl
  · rw [set_bind]
    cases nameNode.bind (c.file.arena[·]?) with
    | none => rfl
    | some node => rfl

theorem diagnosticsOf_append (h : c.fileId < b.diagnostics.size) (ds : List Diagnostic)
    (reported : List Site) :
    diagnosticsOf { b with reported, diagnostics := b.diagnostics.modify c.fileId (· ++ ds) }
      c.fileId = b.diagnosticsOf c.fileId ++ ds := by
  unfold Bindings.diagnosticsOf
  rw [Array.getD_eq_getD_getElem?, Array.getD_eq_getD_getElem?, Array.getElem?_modify, if_pos rfl,
    Array.getElem?_eq_getElem h]
  rfl

/-- A report leaves something behind: a problem of this declaration, unless
it was reported before or its name is not there. -/
theorem Ledger.reportDuplicate (h : Ledger c b) (name : String) (d : Site)
    (nameNode : Option NodeId)
    (hnode : b.diagnosticsOf c.fileId ≠ [] ∨ ∃ node, nameNode.bind (c.file.arena[·]?) = some node) :
    Ledger c (Binding.reportDuplicate name d nameNode c b).2 ∧
      (Binding.reportDuplicate name d nameNode c b).2.diagnosticsOf c.fileId ≠ [] := by
  rw [reportDuplicate_run]
  split
  · rename_i hcontains
    refine ⟨h, h.reported fun hnone => ?_⟩
    rw [hnone] at hcontains
    cases hcontains
  · cases hname : nameNode.bind (c.file.arena[·]?) with
    | none =>
      have hbefore : b.diagnosticsOf c.fileId ≠ [] := by
        refine hnode.resolve_right ?_
        rintro ⟨node, hsome⟩
        cases hname.symm.trans hsome
      exact ⟨⟨h.file, h.code, fun _ => hbefore⟩, hbefore⟩
    | some node =>
      have happend := diagnosticsOf_append h.file
        [(Problem.duplicateIdentifier name).diagnostic c.file.name node.pos
          (node.stop - node.pos) []] (d :: b.reported)
      have hsome : ∀ problem : Diagnostic, b.diagnosticsOf c.fileId ++ [problem] ≠ [] := by simp
      refine ⟨⟨?_, fun problem hproblem => ?_, fun _ => ?_⟩, ?_⟩
      · simpa using h.file
      · rw [happend] at hproblem
        rcases List.mem_append.1 hproblem with hold | hnew
        · exact h.code problem hold
        · rw [List.mem_singleton.1 hnew]
          rfl
      · rw [happend]
        exact hsome _
      · rw [happend]
        exact hsome _

theorem Ledger.reportFirst (h : Ledger c b) (hbefore : b.diagnosticsOf c.fileId ≠ [])
    (name : String) (first : Site) :
    Ledger c (Binding.reportFirst name first c b).2 ∧
      (Binding.reportFirst name first c b).2.diagnosticsOf c.fileId ≠ [] := by
  by_cases hfile : first.file = c.fileId
  · have hrun : (Binding.reportFirst name first c b).2 = (Binding.reportDuplicate name first
        (declarationName? c.file.arena first.node) c b).2 := by
      show ((if first.file = c.fileId then _ else Pure.pure () : Binder Unit) c b).2 = _
      rw [if_pos hfile]
    rw [hrun]
    exact Ledger.reportDuplicate h name first _ (.inl hbefore)
  · have hrun : (Binding.reportFirst name first c b).2 = b := by
      show ((if first.file = c.fileId then _ else Pure.pure () : Binder Unit) c b).2 = _
      rw [if_neg hfile]
      rfl
    rw [hrun]
    exact ⟨h, hbefore⟩

/-! ## Declarations -/

theorem exists_node_of_nameOf? {a : Arena} {i : NodeId} (h : a.nameOf? i = some name) :
    ∃ node, a[i]? = some node := by
  unfold Arena.nameOf? Arena.form? at h
  cases hnode : a[i]? with
  | none =>
    rw [hnode] at h
    cases h
  | some node => exact ⟨node, rfl⟩

theorem joinSymbol_run (hs : b.symbols[id]? = some s) (name : String) (nameNode : NodeId) (d : Site)
    (flags : Flags) (exported : Bool) :
    (joinSymbol id name nameNode d flags exported c b).2 =
      appendDeclaration id d flags exported
        (if s.flags.canMerge flags = true then b
          else match s.declarations with
            | [] => (reportDuplicate name d (some nameNode) c b).2
            | first :: _ =>
              (reportFirst name first c (reportDuplicate name d (some nameNode) c b).2).2) := by
  have hget : b.symbols.getD id default = s := by
    rw [Array.getD_eq_getD_getElem?, hs]
    rfl
  show ((if (b.symbols.getD id default).flags.canMerge flags = true then _ else _ :
    Binder Unit) c b).2 = _
  rw [hget]
  split
  · rfl
  · cases s.declarations with
    | nil => rfl
    | cons first _ => rfl

/-- A declaration of a name that is taken is reported unless it may join, and
joins all the same. -/
theorem Ledger.joinSymbol (h : Ledger c b) (hs : b.symbols[id]? = some s)
    (hname : c.file.arena.nameOf? nameNode = some name) (d : Site) (flags : Flags)
    (exported : Bool) :
    ∃ diagnostics reported, Ledger c { b with diagnostics, reported } ∧
      (diagnosticsOf { b with diagnostics, reported } c.fileId = [] ↔
        b.diagnosticsOf c.fileId = [] ∧ s.flags.canMerge flags = true) ∧
      (joinSymbol id name nameNode d flags exported c b).2 =
        appendDeclaration id d flags exported { b with diagnostics, reported } := by
  rw [joinSymbol_run hs]
  split
  · rename_i hmerge
    exact ⟨b.diagnostics, b.reported, h, ⟨fun hnone => ⟨hnone, hmerge⟩, And.left⟩, rfl⟩
  · rename_i hmerge
    have hnot : ∀ {P : Prop}, ¬ (P ∧ s.flags.canMerge flags = true) := fun hboth =>
      hmerge hboth.2
    obtain ⟨node, hnode⟩ := exists_node_of_nameOf? hname
    obtain ⟨hledger, hsome⟩ := Ledger.reportDuplicate h name d (some nameNode) (.inr ⟨node, hnode⟩)
    obtain ⟨ds, r, hduplicate⟩ := exists_reportDuplicate name d (some nameNode) c b
    rw [hduplicate] at hledger hsome ⊢
    cases s.declarations with
    | nil => exact ⟨ds, r, hledger, iff_of_false hsome hnot, rfl⟩
    | cons first _ =>
      obtain ⟨hledger', hsome'⟩ := Ledger.reportFirst hledger hsome name first
      obtain ⟨ds', r', hfirst⟩ := exists_reportFirst name first c
        { b with diagnostics := ds, reported := r }
      rw [hfirst] at hledger' hsome'
      exact ⟨ds', r', hledger', iff_of_false hsome' hnot,
        congrArg (appendDeclaration id d flags exported) hfirst⟩

/-- A symbol with one more declaration. -/
def withDeclaration (s : Symbol) (d : Site) (flags : Flags) (exported : Bool) : Symbol :=
  { s with
    flags := s.flags.union flags
    declarations := s.declarations ++ [d]
    exported := s.exported || exported }

theorem builtin_of_declarable (h : k ∈ Flags.declarable) : k.builtin = false := by
  revert k
  decide

theorem kindAt?_mem {a : Arena} (h : kindAt? a d = some k) : k ∈ Flags.declarable := by
  obtain ⟨form, -, hform⟩ := Option.bind_eq_some_iff.1 h
  exact declaredAs_mem hform

theorem history_withDeclaration {a : Arena} (hkind : kindAt? a d = some k) (s : Symbol)
    (exported : Bool) : history a (withDeclaration s d k exported) = history a s ++ [k] := by
  have hbuiltin : (s.flags.union k).builtin = s.flags.builtin := by
    simp [Flags.union, builtin_of_declarable (kindAt?_mem hkind)]
  simp [history, withDeclaration, hbuiltin, kinds, hkind]

theorem Tallied.withDeclaration {a : Arena} (h : Tallied a s) (hkind : kindAt? a d = some k)
    (exported : Bool) : Tallied a (withDeclaration s d k exported) where
  kinded e he := by
    rcases List.mem_append.1 he with he | he
    · exact h.kinded e he
    · exact ⟨k, List.mem_singleton.1 he ▸ hkind⟩
  known := by
    rw [history_withDeclaration hkind]
    exact List.append_ne_nil_of_left_ne_nil h.known [k]
  flags := by
    rw [history_withDeclaration hkind, List.foldl_append, ← h.flags]
    rfl

theorem Tallied.agreeing_withDeclaration {a : Arena} (h : Tallied a s)
    (hkind : kindAt? a d = some k) (exported : Bool) :
    Agreeing a (Binding.withDeclaration s d k exported) ↔
      Agreeing a s ∧ s.flags.canMerge k = true := by
  unfold Agreeing
  rw [history_withDeclaration hkind, Flags.agree_append h.known, ← h.flags, Bool.and_eq_true]

/-- What the account is about stays as it is. -/
theorem Accounted.of_eq (h : Accounted c b) (hsymbols : b'.symbols = b.symbols)
    (hscopes : b'.scopes = b.scopes) (hdiagnostics : b'.diagnostics = b.diagnostics)
    (hreported : b'.reported = b.reported) : Accounted c b' := by
  have hnames : ∀ i name, b'.nameIn? i name = b.nameIn? i name := fun i name => by
    unfold nameIn?
    rw [hscopes]
  have hproblems : b'.diagnosticsOf c.fileId = b.diagnosticsOf c.fileId := by
    unfold Bindings.diagnosticsOf
    rw [hdiagnostics]
  exact
    { file := hdiagnostics ▸ h.file
      code := hproblems ▸ h.code
      reported := by rw [hreported, hproblems]; exact h.reported
      there := fun i name id hid => by rw [hsymbols]; exact h.there i name id (hnames i name ▸ hid)
      tallied := hsymbols ▸ h.tallied
      told := by rw [hproblems, hsymbols]; exact h.told }

/-- What holds of all symbols after one of them was changed. -/
theorem forall_modify {symbols : Array Symbol} {change : Symbol → Symbol} {P : Symbol → Prop} :
    (∀ (j : SymbolId) t, (symbols.modify id change)[j]? = some t → P t) ↔
      ∀ (j : SymbolId) t, symbols[j]? = some t → P (if id = j then change t else t) := by
  refine forall_congr' fun j => ?_
  rw [Array.getElem?_modify]
  split
  · constructor
    · exact fun h t ht => h _ (ht ▸ rfl)
    · intro h t ht
      obtain ⟨old, hold, rfl⟩ := Option.map_eq_some_iff.1 ht
      exact h old hold
  · exact Iff.rfl

/-- A declaration of a name that is taken. -/
theorem Accounted.join (h : Accounted c b) (hs : b.symbols[id]? = some s)
    (hname : c.file.arena.nameOf? nameNode = some name) (hkind : kindAt? c.file.arena d = some k)
    (exported : Bool) : Accounted c (joinSymbol id name nameNode d k exported c b).2 := by
  obtain ⟨ds, r, hledger, hsilent, hrun⟩ := Ledger.joinSymbol h.toLedger hs hname d k exported
  rw [hrun]
  have hid := h.tallied id s hs
  have hagreeing := hid.agreeing_withDeclaration hkind exported
  have honly : ∀ {t : Symbol}, b.symbols[id]? = some t → t = s := fun ht =>
    Option.some.inj (ht.symm.trans hs)
  refine ⟨⟨hledger.file, hledger.code, hledger.reported⟩, fun i name' id' hid' => ?_,
    forall_modify.2 fun j t ht => ?_, ?_⟩
  · show id' < (b.symbols.modify id _).size
    rw [Array.size_modify]
    exact h.there i name' id' hid'
  · split
    · rename_i hj
      subst hj
      rw [honly ht]
      exact hid.withDeclaration hkind exported
    · exact h.tallied j t ht
  · refine hsilent.trans (Iff.trans ?_ forall_modify.symm)
    rw [h.told]
    constructor
    · rintro ⟨hagree, hmerge⟩ j t ht
      split
      · rename_i hj
        subst hj
        rw [honly ht]
        exact hagreeing.2 ⟨hagree id s hs, hmerge⟩
      · exact hagree j t ht
    · intro hagree
      have hnew := hagree id s hs
      rw [if_pos rfl] at hnew
      obtain ⟨hold, hmerge⟩ := hagreeing.1 hnew
      refine ⟨fun j t ht => ?_, hmerge⟩
      by_cases hj : id = j
      · subst hj
        rwa [honly ht]
      · have ht := hagree j t ht
        rwa [if_neg hj] at ht

/-- A symbol with one declaration is known as what this declares. -/
theorem history_single {a : Arena} (hkind : kindAt? a d = some k) (hflags : s.flags = k)
    (hdeclarations : s.declarations = [d]) : history a s = [k] := by
  simp [history, hflags, hdeclarations, kinds, hkind, builtin_of_declarable (kindAt?_mem hkind)]

theorem tallied_single {a : Arena} (hkind : kindAt? a d = some k) (hflags : s.flags = k)
    (hdeclarations : s.declarations = [d]) : Tallied a s where
  kinded e he := by
    rw [hdeclarations] at he
    exact ⟨k, List.mem_singleton.1 he ▸ hkind⟩
  known := by
    rw [history_single hkind hflags hdeclarations]
    exact List.cons_ne_nil _ _
  flags := by
    rw [history_single hkind hflags hdeclarations, hflags]
    exact (Flags.union_empty k).symm

theorem agreeing_single {a : Arena} (hkind : kindAt? a d = some k) (hflags : s.flags = k)
    (hdeclarations : s.declarations = [d]) : Agreeing a s := by
  unfold Agreeing
  rw [history_single hkind hflags hdeclarations]
  rfl

/-- What holds of all symbols after one was added. -/
theorem forall_added {P : Symbol → Prop} {i : ScopeId} :
    (∀ (j : SymbolId) t, (b.added i s d).symbols[j]? = some t → P t) ↔
      P s ∧ ∀ (j : SymbolId) t, b.symbols[j]? = some t → P t := by
  constructor
  · intro h
    refine ⟨h b.symbols.size s ?_, fun j t ht => h j t ?_⟩
    · rw [getElem?_added, if_pos rfl]
    · rw [getElem?_added, if_neg (Nat.ne_of_lt (Array.getElem?_eq_some_iff.1 ht).1)]
      exact ht
  · rintro ⟨hnew, hold⟩ j t ht
    rw [getElem?_added] at ht
    split at ht
    · cases ht
      exact hnew
    · exact hold j t ht

/-- A declaration of a new name. -/
theorem Accounted.add (h : Accounted c b) (hkind : kindAt? c.file.arena d = some k)
    (hflags : s.flags = k) (hdeclarations : s.declarations = [d]) (i : ScopeId) :
    Accounted c (b.added i s d) := by
  refine ⟨⟨h.file, h.code, h.reported⟩, fun j name id hid => ?_,
    forall_added.2 ⟨tallied_single hkind hflags hdeclarations, h.tallied⟩,
    h.told.trans (Iff.trans ?_ forall_added.symm)⟩
  · show id < (b.symbols.push s).size
    rw [nameIn?_added] at hid
    rw [Array.size_push]
    split at hid
    · cases hid
      exact Nat.lt_succ_self _
    · exact Nat.lt_succ_of_lt (h.there j name id hid)
  · have hnew := agreeing_single hkind hflags hdeclarations
    exact ⟨fun hold => ⟨hnew, hold⟩, And.right⟩

/-- Whatever is declared, the account stays right. -/
theorem Accounted.declare (h : Accounted c b) (scope : ScopeId) (nameNode : NodeId) {node : NodeId}
    (hkind : kindAt? c.file.arena ⟨c.fileId, node⟩ = some k) (exported constant : Bool) :
    Accounted c (declare scope nameNode node k exported constant c b).2 := by
  cases hname : c.file.arena.nameOf? nameNode with
  | none =>
    unfold Binding.declare
    rw [arena_bind, hname]
    exact h
  | some name =>
    by_cases hempty : name.isEmpty = true
    · unfold Binding.declare
      rw [arena_bind, hname]
      dsimp only
      rw [if_pos hempty]
      exact h
    · rw [declare_named hname hempty]
      let b₁ : Bindings :=
        { b with declarationScopes := b.declarationScopes.insert ⟨c.fileId, node⟩ scope }
      have h₁ : Accounted c b₁ := h.of_eq rfl rfl rfl rfl
      have hregister : ∀ {id b₂}, Accounted c b₂ →
          Accounted c (register ⟨c.fileId, node⟩ name exported id c b₂).2 := by
        intro id b₂ h₂
        rw [register_tables]
        cases exported <;> exact h₂.of_eq rfl rfl rfl rfl
      cases hentry : b.nameIn? scope name with
      | some id =>
        obtain ⟨s, hs⟩ : ∃ s, b₁.symbols[id]? = some s :=
          ⟨_, Array.getElem?_eq_getElem (h.there scope name id hentry)⟩
        exact hregister (h₁.join hs hname hkind exported)
      | none =>
        let s : Symbol :=
          { name, flags := k, declarations := [⟨c.fileId, node⟩], exported, constant,
            target := none }
        have hadded : Accounted c (b₁.added scope s ⟨c.fileId, node⟩) := h₁.add hkind rfl rfl scope
        have hnew : Accounted c (newSymbol scope s c b₁).2 := hadded.of_eq rfl rfl rfl rfl
        exact hregister hnew

end

/-! ## The walk -/

/-- The step keeps the account right. -/
def Tells {α : Type} (c : Context) (x : Binder α) : Prop :=
  ∀ b, Accounted c b → Accounted c (x c b).2

section

variable {α β : Type} {c : Context} {x : Binder α} {f : α → Binder β}

theorem Tells.pure (a : α) : Tells c (Pure.pure a) :=
  fun _ h => h

theorem Tells.bind (hx : Tells c x) (hf : ∀ a, Tells c (f a)) : Tells c (x >>= f) :=
  fun b h => hf (x c b).1 (x c b).2 (hx b h)

theorem Tells.read {f : Context → Binder β} (h : Tells c (f c)) :
    Tells c ((MonadReader.read : Binder Context) >>= f) :=
  h

theorem Tells.arena {f : Arena → Binder β} (h : Tells c (f c.file.arena)) :
    Tells c (Binding.arena >>= f) :=
  h

theorem Tells.site {f : Site → Binder β} {node : NodeId} (h : Tells c (f ⟨c.fileId, node⟩)) :
    Tells c (Binding.site node >>= f) :=
  h

theorem Tells.get {f : Bindings → Binder β} (h : ∀ b, Tells c (f b)) :
    Tells c ((MonadState.get : Binder Bindings) >>= f) :=
  fun b => h b b

theorem Tells.modify {change : Bindings → Bindings}
    (h : ∀ b, Accounted c b → Accounted c (change b)) : Tells c (modify change : Binder PUnit) :=
  h

theorem Tells.forM {xs : List α} {f : α → Binder PUnit} (h : ∀ a ∈ xs, Tells c (f a)) :
    Tells c (xs.forM f) := by
  induction xs with
  | nil => exact .pure _
  | cons a rest ih =>
    show Tells c (f a >>= fun _ => rest.forM f)
    exact (h a List.mem_cons_self).bind fun _ => ih fun b hb => h b (List.mem_cons_of_mem a hb)

theorem Tells.forM_option {o : Option α} {f : α → Binder PUnit} (h : ∀ a, Tells c (f a)) :
    Tells c (o.forM f) := by
  cases o with
  | none => exact .pure _
  | some a => exact h a

/-- A node is declared as what its form says. -/
theorem tells_declare {node : NodeId} {form : Form} {k : Flags}
    (hform : c.file.arena.form? node = some form) (hkind : declaredAs form = some k)
    (scope : ScopeId) (nameNode : NodeId) (exported constant : Bool) :
    Tells c (declare scope nameNode node k exported constant) :=
  fun _ h => h.declare scope nameNode (Option.bind_eq_some_iff.2 ⟨form, hform, hkind⟩) exported
    constant

theorem tells_enterScope (node : NodeId) (parent : ScopeId) (isFunction : Bool) :
    Tells c (enterScope node parent isFunction) := by
  intro b h
  let s : Scope := { parent := some parent, file := some c.fileId, node := some node, isFunction,
                     symbols := .empty }
  have hnames : ∀ i name, (b.withScope s).nameIn? i name = b.nameIn? i name :=
    nameIn?_withScope b rfl
  have hscope : Accounted c (b.withScope s) :=
    { h with there := fun i name id hid => h.there i name id (hnames i name ▸ hid) }
  exact hscope.of_eq rfl rfl rfl rfl

theorem tallied_withTarget {a : Arena} {s : Symbol} (target : Option ImportTarget) :
    Tallied a { s with target } ↔ Tallied a s :=
  ⟨fun h => ⟨h.kinded, h.known, h.flags⟩, fun h => ⟨h.kinded, h.known, h.flags⟩⟩

/-- The target of an import is no part of the account. -/
theorem Accounted.withTarget {b : Bindings} (h : Accounted c b) (id : SymbolId)
    (target : Option ImportTarget) :
    Accounted c { b with symbols := b.symbols.modify id fun s => { s with target } } := by
  refine ⟨⟨h.file, h.code, h.reported⟩, fun i name j hj => ?_,
    forall_modify.2 fun j t ht => ?_, h.told.trans (Iff.trans ?_ forall_modify.symm)⟩
  · show j < (b.symbols.modify id _).size
    rw [Array.size_modify]
    exact h.there i name j hj
  · split
    · exact (tallied_withTarget target).2 (h.tallied j t ht)
    · exact h.tallied j t ht
  · refine forall_congr' fun j => forall_congr' fun t => forall_congr' fun _ => ?_
    split <;> exact Iff.rfl

theorem tells_bindImport (scope : ScopeId) (specifiers : List NodeId) (source : Option NodeId) :
    Tells c (bindImport scope specifiers source) := by
  refine .read (.forM fun node _ => ?_)
  dsimp only
  split
  · rename_i hform
    refine (tells_declare hform rfl scope _ false false).bind fun id => ?_
    split
    · exact .modify fun b h => h.withTarget _ _
    · exact .pure _
  · exact .pure _

theorem tells_noteIterated (initializer : Option NodeId) (iterated : NodeId) :
    Tells c (noteIterated initializer iterated) := by
  refine .arena ?_
  split
  · exact .forM fun _ _ => .site (.modify fun b h => h.of_eq rfl rfl rfl rfl)
  · exact .pure _

/-- Both ways into the walk keep the account right. -/
structure Telling (c : Context) (walk : Walk) : Prop where
  statement : ∀ node scope topLevel, Tells c (walk.statement node scope topLevel)
  expression : ∀ node scope, Tells c (walk.expression node scope)

section

variable {walk : Walk} (hwalk : Telling c walk)

include hwalk

theorem tells_bindFunction (node : NodeId) (p : FunctionParts) (scope : ScopeId) :
    Tells c (bindFunction walk node p scope) := by
  refine .arena ((tells_enterScope node scope true).bind fun inner => ?_)
  refine Tells.bind (.forM fun parameter _ => ?_) fun _ => ?_
  · split
    · rename_i hparameter
      have hform := Arena.form?_of_parameterOf? hparameter
      refine (tells_declare hform rfl inner _ false false).bind fun _ => ?_
      exact .forM_option fun value => hwalk.expression value inner
    · exact .pure _
  · split
    · exact .pure _
    · split
      · refine .site (Tells.bind (.modify fun b h => h.of_eq rfl rfl rfl rfl) fun _ => ?_)
        exact .forM fun statement _ => hwalk.statement statement inner false
      · exact hwalk.expression _ inner
      · exact .pure _

theorem tells_bindVariable (target lexical : ScopeId) (exported : Bool) (kind : VariableKind)
    (declaration : NodeId) :
    Tells c (bindVariable walk target lexical exported kind declaration) := by
  refine .arena ?_
  split
  · rename_i hform
    refine (tells_declare hform rfl target _ exported _).bind fun _ => .site ?_
    refine Tells.bind (.modify fun b h => h.of_eq rfl rfl rfl rfl) fun _ => ?_
    exact .forM_option fun value => hwalk.expression value lexical
  · exact .pure _

theorem tells_bindMember (scope : ScopeId) (member : NodeId) :
    Tells c (bindMember walk scope member) := by
  refine .arena ?_
  split
  · exact tells_bindFunction hwalk member _ scope
  · exact .forM_option fun value => hwalk.expression value scope
  · exact .forM_option fun value => hwalk.expression value scope
  · exact .pure _

theorem tells_bindStatement (node : NodeId) (scope : ScopeId) (topLevel : Bool) :
    Tells c (bindStatement walk node scope topLevel) := by
  refine .arena ?_
  dsimp only
  split
  · exact .pure _
  rename_i form hform
  split
  · -- a function
    refine Tells.bind (.forM_option fun name => ?_) fun _ => tells_bindFunction hwalk node _ scope
    exact (tells_declare hform rfl scope name _ false).bind fun _ => .pure _
  · -- a class
    refine (tells_declare hform rfl scope _ _ false).bind fun _ => ?_
    exact .forM fun member _ => tells_bindMember hwalk scope member
  · exact (tells_declare hform rfl scope _ _ false).bind fun _ => .pure _
  · exact (tells_declare hform rfl scope _ _ false).bind fun _ => .pure _
  · -- variables
    refine .get fun b => ?_
    exact .forM fun declaration _ => tells_bindVariable hwalk _ scope _ _ declaration
  · exact tells_bindImport scope _ _
  · -- a block
    refine (tells_enterScope node scope false).bind fun inner => ?_
    exact .forM fun statement _ => hwalk.statement statement inner false
  · -- a loop
    refine (tells_enterScope node scope false).bind fun inner => ?_
    refine Tells.bind (.forM_option fun _ => hwalk.statement _ inner false) fun _ => ?_
    refine Tells.bind (.forM_option fun _ => hwalk.expression _ inner) fun _ => ?_
    refine Tells.bind (.forM_option fun _ => hwalk.expression _ inner) fun _ => ?_
    exact .forM_option fun _ => hwalk.statement _ inner false
  · -- a loop over elements
    refine (tells_enterScope node scope false).bind fun inner => ?_
    refine (tells_noteIterated _ _).bind fun _ => ?_
    refine Tells.bind (.forM_option fun _ => hwalk.statement _ inner false) fun _ => ?_
    refine (hwalk.expression _ inner).bind fun _ => ?_
    exact .forM_option fun _ => hwalk.statement _ inner false
  · -- anything else declares nothing
    refine .forM fun child _ => ?_
    split
    · exact hwalk.statement child scope false
    · exact hwalk.expression child scope

theorem tells_bindExpression (node : NodeId) (scope : ScopeId) :
    Tells c (bindExpression walk node scope) := by
  refine .arena ?_
  split
  · exact .pure _
  · exact tells_bindFunction hwalk node _ scope
  · exact .forM fun child _ => hwalk.expression child scope

end

/-- However deep the walk may go. -/
theorem telling_walkWithin (n : Nat) : Telling c (walkWithin n) := by
  induction n with
  | zero => exact ⟨fun _ _ _ => .pure _, fun _ _ => .pure _⟩
  | succ n ih =>
    exact ⟨fun node scope topLevel => tells_bindStatement ih node scope topLevel,
      fun node scope => tells_bindExpression ih node scope⟩

end

/-! ## A program of one file -/

theorem accounted_start (c : Context) (hfile : c.fileId = 0) : Accounted c (start 1) where
  file := by
    rw [hfile]
    decide
  code d hd := by
    rw [hfile] at hd
    cases hd
  reported h := absurd rfl h
  there i name id hid := (Array.getElem?_eq_some_iff.1 (start_nameIn hid).2).1
  tallied id s hs := by
    obtain ⟨name, rfl⟩ := start_symbol hs
    exact ⟨fun d hd => (by cases hd), List.cons_ne_nil _ _, rfl⟩
  told := by
    rw [hfile]
    refine iff_of_true rfl fun id s hs => ?_
    obtain ⟨name, rfl⟩ := start_symbol hs
    rfl

theorem accounted_openFile {c : Context} {b : Bindings} (h : Accounted c b) (file : SourceFile)
    (id : FileId) : Accounted c (openFile file id b).2 := by
  unfold openFile
  split
  · let s : Scope := { parent := some globalScope, file := some id, node := none,
                       isFunction := true, symbols := .empty }
    have hnames : ∀ i name, (b.withScope s).nameIn? i name = b.nameIn? i name :=
      nameIn?_withScope b rfl
    have hscope : Accounted c (b.withScope s) :=
      { h with there := fun i name id hid => h.there i name id (hnames i name ▸ hid) }
    exact hscope.of_eq rfl rfl rfl rfl
  · exact h.of_eq rfl rfl rfl rfl

theorem accounted_bindProgram (file : SourceFile) :
    Accounted ⟨file, 0, [file.name]⟩ (bindProgram [file]) := by
  have hopened := accounted_openFile (accounted_start ⟨file, 0, [file.name]⟩ rfl) file 0
  have hwalk : Telling ⟨file, 0, [file.name]⟩ (walkWithin (file.arena.size + 1)) :=
    telling_walkWithin _
  have hstatements : Tells ⟨file, 0, [file.name]⟩ (file.statements.forM
      ((walkWithin (file.arena.size + 1)).statement · (openFile file 0 (start 1)).1 true)) :=
    .forM fun statement _ => hwalk.statement statement _ true
  exact hstatements _ hopened

/-- The declarations of a symbol agree if it is built in and not declared, or
else if they may share a name. -/
theorem Tallied.agreeing_iff {a : Arena} {s : Symbol} (h : Tallied a s) : Agreeing a s ↔
    (s.flags.builtin = true → s.declarations = []) ∧ MayShare a s.declarations := by
  unfold Agreeing history
  cases s.flags.builtin with
  | false => simpa using h.kinded.agree_iff
  | true =>
    have hother : ∀ k ∈ Flags.declarable, Flags.ofBuiltin.canMerge k = false := by decide
    show Flags.joins .ofBuiltin (kinds a s.declarations) = true ↔ _
    rw [Flags.joins_other hother h.kinded.mem_kinds]
    unfold kinds
    rw [List.map_eq_nil_iff]
    refine ⟨fun hnone => ⟨fun _ => hnone, hnone ▸ .undeclared⟩, fun hboth => hboth.1 rfl⟩

/-- For every file, parsed or not, as a program of its own: no identifier is
reported as a duplicate exactly if no name that is built in is declared and
the declarations of each symbol may share a name. -/
theorem unreported_iff (file : SourceFile) :
    let b := bindProgram [file]
    (∀ d ∈ b.diagnosticsOf 0, d.code ≠ 2300) ↔
      ∀ symbol ∈ b.symbols, (symbol.flags.builtin = true → symbol.declarations = []) ∧
        MayShare file.arena symbol.declarations := by
  intro b
  have h : Accounted ⟨file, 0, [file.name]⟩ b := accounted_bindProgram file
  have hnone : (∀ d ∈ b.diagnosticsOf 0, d.code ≠ 2300) ↔ b.diagnosticsOf 0 = [] := by
    constructor
    · intro hcodes
      exact List.eq_nil_iff_forall_not_mem.2 fun d hd => hcodes d hd (h.code d hd)
    · intro hempty d hd
      rw [hempty] at hd
      cases hd
  rw [hnone]
  refine h.told.trans ⟨fun hagree symbol hsymbol => ?_, fun hshare id symbol hsymbol => ?_⟩
  · obtain ⟨id, hid⟩ := Array.getElem?_of_mem hsymbol
    exact (h.tallied id symbol hid).agreeing_iff.1 (hagree id symbol hid)
  · exact (h.tallied id symbol hsymbol).agreeing_iff.2
      (hshare symbol (Array.mem_of_getElem? hsymbol))

/-- Declarations that do not conflict: at most one, or functions only, or
interfaces only, or one class with interfaces. -/
inductive Compatible (a : Arena) : List Site → Prop
  | undeclared : Compatible a []
  | single (d : Site) : Compatible a [d]
  | functions {ds : List Site} (h : ∀ d ∈ ds, IsFunction a d) : Compatible a ds
  | interfaces {ds : List Site} (h : ∀ d ∈ ds, IsInterface a d) : Compatible a ds
  | oneClass {before after : List Site} {d : Site} (hclass : IsClass a d)
      (h : ∀ e ∈ before ++ after, IsInterface a e) : Compatible a (before ++ d :: after)

/-- Without a conflict there is one class at most. -/
theorem Compatible.class_unique {a : Arena} {ds : List Site} (h : Compatible a ds) {d e : Site}
    (hd : d ∈ ds) (he : e ∈ ds) (hdclass : IsClass a d) (heclass : IsClass a e) : d = e := by
  cases h with
  | undeclared => cases hd
  | single _ => rw [List.mem_singleton.1 hd, List.mem_singleton.1 he]
  | functions h => exact absurd (h d hd) hdclass.not_isFunction
  | interfaces h => exact absurd hdclass (h d hd).not_isClass
  | @oneClass before after c hclass h =>
    have honly : ∀ x ∈ before ++ c :: after, IsClass a x → x = c := by
      intro x hx hxclass
      by_contra hne
      refine (h x ?_).not_isClass hxclass
      rw [List.mem_append, List.mem_cons] at hx
      rw [List.mem_append]
      exact hx.imp_right fun hx => hx.resolve_left hne
    rw [honly d hd hdclass, honly e he heclass]

/-- Two classes with an interface between them. -/
def sandwich : SourceFile :=
  SourceFile.parse "/p/a.ts" "class A { }\ninterface A { }\nclass A { }\n".toList

/-- The second class conflicts with the first, and nothing is reported. -/
theorem sandwich_unreported :
    (∀ d ∈ (bindProgram [sandwich]).diagnosticsOf 0, d.code ≠ 2300) ∧
      ¬ ∀ symbol ∈ (bindProgram [sandwich]).symbols,
        Compatible sandwich.arena symbol.declarations := by
  have hrun : (∀ d ∈ (bindProgram [sandwich]).diagnosticsOf 0, d.code ≠ 2300) ∧
      (bindProgram [sandwich]).symbols[6]?.map Symbol.declarations =
        some [⟨0, 1⟩, ⟨0, 3⟩, ⟨0, 5⟩] ∧
      kindAt? sandwich.arena ⟨0, 1⟩ = some .ofClass ∧
      kindAt? sandwich.arena ⟨0, 5⟩ = some .ofClass := by
    rw [sandwich, String.toList_ofList]
    decide +kernel
  obtain ⟨hunreported, hsymbol, hfirst, hsecond⟩ := hrun
  refine ⟨hunreported, fun hall => ?_⟩
  obtain ⟨symbol, hget, hdeclarations⟩ := Option.map_eq_some_iff.1 hsymbol
  have hcompatible := hall symbol (Array.mem_of_getElem? hget)
  rw [hdeclarations] at hcompatible
  exact absurd (hcompatible.class_unique (by decide) (by decide) (isClass_of_kindAt? hfirst)
    (isClass_of_kindAt? hsecond)) (by decide)

end ScriptAnalysis.Binding
