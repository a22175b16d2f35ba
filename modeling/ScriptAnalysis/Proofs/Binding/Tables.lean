import Mathlib.Data.List.Nodup
import ScriptAnalysis.Binding

/-!
# The tables that binding builds

`WellFormed script b` is what holds of the bindings of some files at any
moment, where `script` tells which files are no modules.

* `ScopeTree`: every scope but the global one was opened in a file, inside a
  scope that is older. A scope that is no function's stands in a scope of the
  same file, and the scope of a file's top level takes variables.
* `WellFormed`: the names in the scopes, the declarations of the symbols and
  the table from declarations to symbols fit together, and each declaration
  stands in a scope of its own file.

A scope is of a file (`Owned`) when it was opened in it; the global scope is
of all scripts.

**Results.** Each change that binding makes keeps the tables well formed:
`WellFormed.joined` and `WellFormed.added` for a declaration of a name that is
taken or new, `WellFormed.exportedAs`, `WellFormed.opened` for a scope.
`ScopeTree.functionScope_owned`: a variable that is declared in the function
around it stays in its file.
-/
namespace ScriptAnalysis.Bindings

/-! ## Scopes and their files -/

/-- A scope without its names. -/
def frame? (b : Bindings) (i : ScopeId) : Option Scope :=
  (b.scopes[i]?).map fun s => { s with symbols := .empty }

/-- What a name is in one scope. -/
def nameIn? (b : Bindings) (i : ScopeId) (name : String) : Option SymbolId :=
  (b.scopes[i]?).bind (·.symbols.get? name)

/-- The scope is of the file. -/
def Owned (script : FileId → Prop) (b : Bindings) (f : FileId) (i : ScopeId) : Prop :=
  i = globalScope ∧ script f ∨ ∃ s, b.frame? i = some s ∧ s.file = some f

structure ScopeTree (script : FileId → Prop) (b : Bindings) : Prop where
  outermost : ∃ s, b.frame? globalScope = some s ∧ s.file = none ∧ s.isFunction = true
  opened : ∀ i s, b.frame? i = some s → i ≠ globalScope →
    (∃ p, s.parent = some p ∧ p < i) ∧ ∃ f, s.file = some f
  nested : ∀ i s f, b.frame? i = some s → s.file = some f → s.isFunction = false →
    ∃ p, s.parent = some p ∧ Owned script b f p
  root : ∀ f i, b.fileScopes[f]? = some i →
    Owned script b f i ∧ ∃ s, b.frame? i = some s ∧ s.isFunction = true

/-- Nothing that is known of the scopes is lost: their frames stay, and so do
the scopes of the files. -/
structure Grows (b b' : Bindings) : Prop where
  frame : ∀ i s, b.frame? i = some s → b'.frame? i = some s
  files : b'.fileScopes = b.fileScopes

section

variable {script : FileId → Prop} {b b' b'' : Bindings} {f : FileId} {i : ScopeId}

theorem Grows.refl (b : Bindings) : Grows b b :=
  ⟨fun _ _ h => h, rfl⟩

theorem Grows.trans (h : Grows b b') (h' : Grows b' b'') : Grows b b'' :=
  ⟨fun i s hi => h'.frame i s (h.frame i s hi), h'.files.trans h.files⟩

theorem Owned.grows (h : Owned script b f i) (hg : Grows b b') : Owned script b' f i :=
  h.imp_right fun ⟨s, hs, hf⟩ => ⟨s, hg.frame i s hs, hf⟩

/-- Below the function scope around a scope of a file there are scopes of this
file only. -/
theorem ScopeTree.find_chainUpTo_owned (h : ScopeTree script b) (n : Nat)
    (howned : Owned script b f i) {j : ScopeId}
    (hj : (b.chainUpTo n i).find? (fun k => (b.scopes[k]?).any Scope.isFunction) = some j) :
    Owned script b f j := by
  induction n generalizing i with
  | zero => cases hj
  | succ n ih =>
    unfold chainUpTo at hj
    cases hs : b.scopes[i]? with
    | none =>
      rw [hs] at hj
      cases hj
    | some s =>
      have hframe : b.frame? i = some { s with symbols := .empty } := by
        unfold frame?
        rw [hs]
        rfl
      rw [hs] at hj
      cases hfunction : s.isFunction with
      | true =>
        have hfound : (b.scopes[i]?).any Scope.isFunction = true := by
          rw [hs]
          exact hfunction
        dsimp only at hj
        split at hj
        all_goals
          simp only [List.find?_cons, hfound] at hj
          cases hj
          exact howned
      | false =>
        have hpassed : (b.scopes[i]?).any Scope.isFunction = false := by
          rw [hs]
          exact hfunction
        obtain ⟨p, hparent, hp⟩ : ∃ p, s.parent = some p ∧ Owned script b f p := by
          rcases howned with ⟨rfl, -⟩ | ⟨s', hs', hfile⟩
          · obtain ⟨s', hs', -, houter⟩ := h.outermost
            rw [hframe] at hs'
            cases hs'
            rw [hfunction] at houter
            cases houter
          · rw [hframe] at hs'
            cases hs'
            exact h.nested i { s with symbols := .empty } f hframe hfile hfunction
        dsimp only at hj
        rw [hparent] at hj
        simp only [List.find?_cons, hpassed] at hj
        exact ih hp hj

theorem ScopeTree.functionScope_owned (h : ScopeTree script b) (howned : Owned script b f i) :
    Owned script b f (b.functionScope i) := by
  unfold functionScope
  cases hfind : (b.scopeChain i).find? fun k => (b.scopes[k]?).any Scope.isFunction with
  | none => exact howned
  | some j => exact h.find_chainUpTo_owned _ howned hfind

theorem functionScope_of_isFunction {s : Scope} (hs : b.frame? i = some s)
    (hfunction : s.isFunction = true) : b.functionScope i = i := by
  unfold frame? at hs
  obtain ⟨s', hs', rfl⟩ := Option.map_eq_some_iff.1 hs
  have hfound : (b.scopes[i]?).any Scope.isFunction = true := by
    rw [hs']
    exact hfunction
  obtain ⟨n, hn⟩ := Nat.exists_eq_succ_of_ne_zero
    (Nat.ne_of_gt (Nat.zero_lt_of_lt (Array.getElem?_eq_some_iff.1 hs').1))
  unfold functionScope scopeChain
  rw [hn, chainUpTo, hs']
  dsimp only
  split
  all_goals
    simp only [List.find?_cons, hfound]
    rfl

/-- The tree says nothing about names. -/
theorem ScopeTree.of_frames (h : ScopeTree script b) (hframe : ∀ i, b'.frame? i = b.frame? i)
    (hfiles : b'.fileScopes = b.fileScopes) : ScopeTree script b' := by
  have hgrows : Grows b b' := ⟨fun i s hs => (hframe i).trans hs, hfiles⟩
  obtain ⟨s, hs, houter⟩ := h.outermost
  refine ⟨⟨s, hgrows.frame _ s hs, houter⟩, fun i s hi => ?_, fun i s f hi hfile hinner => ?_,
    fun f i hi => ?_⟩
  · rw [hframe] at hi
    exact h.opened i s hi
  · rw [hframe] at hi
    obtain ⟨p, hp, howned⟩ := h.nested i s f hi hfile hinner
    exact ⟨p, hp, howned.grows hgrows⟩
  · rw [hfiles] at hi
    obtain ⟨howned, s, hs, hfunction⟩ := h.root f i hi
    exact ⟨howned.grows hgrows, s, hgrows.frame i s hs, hfunction⟩

end

/-! ## Names, symbols and declarations -/

/-- The tables fit together. -/
structure WellFormed (script : FileId → Prop) (b : Bindings) : Prop extends
    ScopeTree script b where
  named : ∀ i name id, b.nameIn? i name = some id →
    ∃ symbol, b.symbols[id]? = some symbol ∧ symbol.name = name
  alone : ∀ i j name name' id, b.nameIn? i name = some id → b.nameIn? j name' = some id → i = j
  held : ∀ i name id symbol, b.nameIn? i name = some id → b.symbols[id]? = some symbol →
    ∀ d ∈ symbol.declarations, Owned script b d.file i
  declared : ∀ (id : SymbolId) (symbol : Symbol), b.symbols[id]? = some symbol →
    symbol.flags.builtin = true ∨ symbol.declarations ≠ []
  mapped : ∀ d id, b.declarationSymbols.get? d = some id ↔
    ∃ symbol, b.symbols[id]? = some symbol ∧ d ∈ symbol.declarations
  once : ∀ (id : SymbolId) (symbol : Symbol), b.symbols[id]? = some symbol →
    symbol.declarations.Nodup
  exported : ∀ (f : FileId) (table : Table String SymbolId) name id,
    b.exports[f]? = some table → table.get? name = some id →
    ∃ i, b.fileScopes[f]? = some i ∧ b.nameIn? i name = some id

/-- All that `WellFormed` speaks of is the same, and so is what loops go over;
what imports point to may differ. -/
structure SameTables (b b' : Bindings) : Prop where
  symbols : ∀ id : SymbolId, (b'.symbols[id]?).map (fun s => { s with target := none }) =
    (b.symbols[id]?).map fun s => { s with target := none }
  scopes : b'.scopes = b.scopes
  fileScopes : b'.fileScopes = b.fileScopes
  exports : b'.exports = b.exports
  declarationSymbols : b'.declarationSymbols = b.declarationSymbols
  iterated : b'.iterated = b.iterated

/-- A further declaration of a symbol. -/
def joined (b : Bindings) (id : SymbolId) (d : Site) (flags : Flags) (exported : Bool) :
    Bindings :=
  { b with
    symbols := b.symbols.modify id fun s => { s with
      flags := s.flags.union flags
      declarations := s.declarations ++ [d]
      exported := s.exported || exported }
    declarationSymbols := b.declarationSymbols.insert d id }

/-- The first declaration of a symbol. -/
def added (b : Bindings) (i : ScopeId) (symbol : Symbol) (d : Site) : Bindings :=
  { b with
    symbols := b.symbols.push symbol
    scopes := b.scopes.modify i fun s =>
      { s with symbols := s.symbols.insert symbol.name b.symbols.size }
    declarationSymbols := b.declarationSymbols.insert d b.symbols.size }

def exportedAs (b : Bindings) (f : FileId) (name : String) (id : SymbolId) : Bindings :=
  { b with exports := b.exports.modify f (·.insert name id) }

section

variable {script : FileId → Prop} {b b' : Bindings} {f : FileId} {i : ScopeId}

theorem SameTables.frame? (h : SameTables b b') (i : ScopeId) : b'.frame? i = b.frame? i := by
  unfold Bindings.frame?
  rw [h.scopes]

theorem SameTables.nameIn? (h : SameTables b b') (i : ScopeId) (name : String) :
    b'.nameIn? i name = b.nameIn? i name := by
  unfold Bindings.nameIn?
  rw [h.scopes]

theorem SameTables.grows (h : SameTables b b') : Grows b b' :=
  ⟨fun i _ hs => (h.frame? i).trans hs, h.fileScopes⟩

theorem SameTables.refl (b : Bindings) : SameTables b b :=
  ⟨fun _ => rfl, rfl, rfl, rfl, rfl, rfl⟩

theorem SameTables.symm (h : SameTables b b') : SameTables b' b :=
  ⟨fun id => (h.symbols id).symm, h.scopes.symm, h.fileScopes.symm, h.exports.symm,
    h.declarationSymbols.symm, h.iterated.symm⟩

theorem SameTables.exists_symbol (h : SameTables b b') {id : SymbolId} {symbol : Symbol}
    (hsymbol : b.symbols[id]? = some symbol) :
    ∃ symbol', b'.symbols[id]? = some symbol' ∧ symbol'.name = symbol.name ∧
      symbol'.flags = symbol.flags ∧ symbol'.declarations = symbol.declarations := by
  have hsame := h.symbols id
  rw [hsymbol] at hsame
  obtain ⟨symbol', hsymbol', heq⟩ := Option.map_eq_some_iff.1 hsame
  injection heq with hname hflags hdeclarations
  exact ⟨symbol', hsymbol', hname, hflags, hdeclarations⟩

theorem WellFormed.of_same (h : WellFormed script b) (hsame : SameTables b b') :
    WellFormed script b' where
  toScopeTree := h.toScopeTree.of_frames hsame.frame? hsame.fileScopes
  named i name id hentry := by
    rw [hsame.nameIn?] at hentry
    obtain ⟨symbol, hsymbol, hname⟩ := h.named i name id hentry
    obtain ⟨symbol', hsymbol', hname', -⟩ := hsame.exists_symbol hsymbol
    exact ⟨symbol', hsymbol', hname'.trans hname⟩
  alone i j name name' id hi hj := by
    rw [hsame.nameIn?] at hi hj
    exact h.alone i j name name' id hi hj
  held i name id symbol hentry hsymbol d hd := by
    rw [hsame.nameIn?] at hentry
    obtain ⟨old, hold, -, -, hdeclarations⟩ := hsame.symm.exists_symbol hsymbol
    exact (h.held i name id old hentry hold d (hdeclarations ▸ hd)).grows hsame.grows
  declared id symbol hsymbol := by
    obtain ⟨old, hold, -, hflags, hdeclarations⟩ := hsame.symm.exists_symbol hsymbol
    have hdeclared := h.declared id old hold
    rwa [hflags, hdeclarations] at hdeclared
  mapped d id := by
    rw [hsame.declarationSymbols, h.mapped d id]
    constructor
    · rintro ⟨old, hold, hd⟩
      obtain ⟨symbol, hsymbol, -, -, hdeclarations⟩ := hsame.exists_symbol hold
      exact ⟨symbol, hsymbol, hdeclarations ▸ hd⟩
    · rintro ⟨symbol, hsymbol, hd⟩
      obtain ⟨old, hold, -, -, hdeclarations⟩ := hsame.symm.exists_symbol hsymbol
      exact ⟨old, hold, hdeclarations ▸ hd⟩
  once id symbol hsymbol := by
    obtain ⟨old, hold, -, -, hdeclarations⟩ := hsame.symm.exists_symbol hsymbol
    exact hdeclarations ▸ h.once id old hold
  exported f table name id htable hname := by
    rw [hsame.exports] at htable
    obtain ⟨i, hi, hentry⟩ := h.exported f table name id htable hname
    exact ⟨i, by rw [hsame.fileScopes, hi], by rw [hsame.nameIn?, hentry]⟩

/-- The tables say nothing about loops. -/
theorem WellFormed.noteIterated (h : WellFormed script b) (t : Table Site NodeId) :
    WellFormed script { b with iterated := t } :=
  ⟨⟨h.outermost, h.opened, h.nested, h.root⟩, h.named, h.alone, h.held, h.declared, h.mapped,
    h.once, h.exported⟩

/-- A declaration that the table does not know is none of any symbol. -/
theorem WellFormed.not_mem_declarations (h : WellFormed script b) {d : Site}
    (hnew : b.declarationSymbols.get? d = none) {id : SymbolId} {symbol : Symbol}
    (hsymbol : b.symbols[id]? = some symbol) : d ∉ symbol.declarations := by
  intro hd
  rw [(h.mapped d id).2 ⟨symbol, hsymbol, hd⟩] at hnew
  cases hnew

theorem getElem?_joined (b : Bindings) (id j : SymbolId) (d : Site) (flags : Flags)
    (exported : Bool) {symbol : Symbol}
    (hsymbol : (b.joined id d flags exported).symbols[j]? = some symbol) :
    ∃ old, b.symbols[j]? = some old ∧ symbol.name = old.name ∧
      (old.flags.builtin = true → symbol.flags.builtin = true) ∧
      symbol.declarations = old.declarations ++ if id = j then [d] else [] := by
  unfold Bindings.joined at hsymbol
  rw [Array.getElem?_modify] at hsymbol
  split at hsymbol
  · rename_i hid
    obtain ⟨old, hold, rfl⟩ := Option.map_eq_some_iff.1 hsymbol
    refine ⟨old, hold, rfl, fun hbuiltin => ?_, by rw [if_pos hid]⟩
    show (old.flags.builtin || flags.builtin) = true
    rw [hbuiltin, Bool.true_or]
  · rename_i hid
    exact ⟨symbol, hsymbol, rfl, fun h => h, by rw [if_neg hid, List.append_nil]⟩

theorem exists_joined (b : Bindings) (id : SymbolId) (d : Site) (flags : Flags) (exported : Bool)
    {j : SymbolId} {old : Symbol} (hold : b.symbols[j]? = some old) :
    ∃ symbol, (b.joined id d flags exported).symbols[j]? = some symbol := by
  unfold Bindings.joined
  rw [Array.getElem?_modify, hold]
  split
  · exact ⟨_, rfl⟩
  · exact ⟨_, rfl⟩

theorem WellFormed.joined (h : WellFormed script b) {name : String} {id : SymbolId} {d : Site}
    (hentry : b.nameIn? i name = some id) (howned : Owned script b d.file i)
    (hnew : b.declarationSymbols.get? d = none) (flags : Flags) (exported : Bool) :
    WellFormed script (b.joined id d flags exported) where
  toScopeTree := h.toScopeTree.of_frames (fun _ => rfl) rfl
  named j name' id' hj := by
    obtain ⟨old, hold, rfl⟩ := h.named j name' id' hj
    obtain ⟨symbol, hsymbol⟩ := exists_joined b id d flags exported hold
    obtain ⟨old', hold', hname, -⟩ := getElem?_joined b id id' d flags exported hsymbol
    rw [hold] at hold'
    cases hold'
    exact ⟨symbol, hsymbol, hname⟩
  alone := h.alone
  held j name' id' symbol hj hsymbol d' hd' := by
    obtain ⟨old, hold, -, -, hdeclarations⟩ := getElem?_joined b id id' d flags exported hsymbol
    rw [hdeclarations] at hd'
    rcases List.mem_append.1 hd' with hd' | hd'
    · exact h.held j name' id' old hj hold d' hd'
    · split at hd'
      · rename_i hid
        cases List.mem_singleton.1 hd'
        -- the entry is the one through which the symbol was found
        have hij := h.alone i j name name' id hentry (by rw [hid]; exact hj)
        exact hij ▸ howned
      · cases hd'
  declared j symbol hsymbol := by
    obtain ⟨old, hold, -, hbuiltin, hdeclarations⟩ :=
      getElem?_joined b id j d flags exported hsymbol
    rcases h.declared j old hold with hold | hold
    · exact .inl (hbuiltin hold)
    · exact .inr fun hnil => hold (List.append_eq_nil_iff.1 (hdeclarations ▸ hnil)).1
  mapped d' j := by
    show (b.declarationSymbols.insert d id).get? d' = some j ↔ _
    rw [Table.get?_insert]
    constructor
    · intro hget
      split at hget
      · rename_i hd
        cases hget
        obtain ⟨old, hold, -⟩ := h.named i name id hentry
        obtain ⟨symbol, hsymbol⟩ := exists_joined b id d flags exported hold
        obtain ⟨_, _, _, _, hdeclarations⟩ := getElem?_joined b id id d flags exported hsymbol
        exact ⟨symbol, hsymbol, by rw [hdeclarations, if_pos rfl, ← hd]; simp⟩
      · obtain ⟨old, hold, hd'⟩ := (h.mapped d' j).1 hget
        obtain ⟨symbol, hsymbol⟩ := exists_joined b id d flags exported hold
        obtain ⟨old', hold', _, _, hdeclarations⟩ := getElem?_joined b id j d flags exported hsymbol
        rw [hold] at hold'
        cases hold'
        exact ⟨symbol, hsymbol, by rw [hdeclarations]; exact List.mem_append_left _ hd'⟩
    · rintro ⟨symbol, hsymbol, hd'⟩
      obtain ⟨old, hold, _, _, hdeclarations⟩ := getElem?_joined b id j d flags exported hsymbol
      rw [hdeclarations] at hd'
      rcases List.mem_append.1 hd' with hd' | hd'
      · have hne : d ≠ d' := by
          rintro rfl
          exact h.not_mem_declarations hnew hold hd'
        rw [if_neg hne]
        exact (h.mapped d' j).2 ⟨old, hold, hd'⟩
      · split at hd'
        · rename_i hid
          rw [List.mem_singleton.1 hd', if_pos rfl, hid]
        · cases hd'
  once j symbol hsymbol := by
    obtain ⟨old, hold, -, -, hdeclarations⟩ := getElem?_joined b id j d flags exported hsymbol
    rw [hdeclarations]
    split
    · exact (h.once j old hold).append (List.nodup_singleton d)
        (List.disjoint_singleton.2 (h.not_mem_declarations hnew hold))
    · rw [List.append_nil]
      exact h.once j old hold
  exported := h.exported

theorem frame?_added (b : Bindings) (i : ScopeId) (symbol : Symbol) (d : Site) (j : ScopeId) :
    (b.added i symbol d).frame? j = b.frame? j := by
  unfold Bindings.added frame?
  rw [Array.getElem?_modify]
  split
  · cases b.scopes[j]? <;> rfl
  · rfl

theorem nameIn?_added (b : Bindings) (i : ScopeId) (symbol : Symbol) (d : Site) (j : ScopeId)
    (name : String) :
    (b.added i symbol d).nameIn? j name =
      if (i = j ∧ (b.frame? i).isSome) ∧ symbol.name = name then some b.symbols.size
      else b.nameIn? j name := by
  unfold Bindings.added nameIn? frame?
  rw [Array.getElem?_modify]
  by_cases hj : i = j
  · subst hj
    cases hs : b.scopes[i]? with
    | none => simp
    | some s => simp [Table.get?_insert]
  · simp [hj]

/-- An entry is the new one or was there before. -/
theorem WellFormed.nameIn_added (h : WellFormed script b) {symbol : Symbol} {d : Site}
    {j : ScopeId} {name : String} {id : SymbolId}
    (hj : (b.added i symbol d).nameIn? j name = some id) :
    (j = i ∧ id = b.symbols.size) ∨ b.nameIn? j name = some id ∧ id < b.symbols.size := by
  rw [nameIn?_added] at hj
  split at hj
  · rename_i hnew
    cases hj
    exact .inl ⟨hnew.1.1.symm, rfl⟩
  · obtain ⟨old, hold, -⟩ := h.named j name id hj
    exact .inr ⟨hj, (Array.getElem?_eq_some_iff.1 hold).1⟩

theorem getElem?_added (b : Bindings) (i : ScopeId) (symbol : Symbol) (d : Site) (j : SymbolId) :
    (b.added i symbol d).symbols[j]? = if j = b.symbols.size then some symbol else b.symbols[j]? :=
  Array.getElem?_push

theorem WellFormed.added (h : WellFormed script b) {symbol : Symbol} {d : Site}
    (hentry : b.nameIn? i symbol.name = none) (howned : Owned script b d.file i)
    (hnew : b.declarationSymbols.get? d = none) (hdeclarations : symbol.declarations = [d]) :
    WellFormed script (b.added i symbol d) where
  toScopeTree := h.toScopeTree.of_frames (frame?_added b i symbol d) rfl
  named j name id hj := by
    rw [getElem?_added]
    rw [nameIn?_added] at hj
    split at hj
    · rename_i hnew
      cases hj
      exact ⟨symbol, if_pos rfl, hnew.2⟩
    · obtain ⟨old, hold, hname⟩ := h.named j name id hj
      have hid := (Array.getElem?_eq_some_iff.1 hold).1
      exact ⟨old, by rw [if_neg (Nat.ne_of_lt hid), hold], hname⟩
  alone j k name name' id hj hk := by
    rcases h.nameIn_added hj with ⟨rfl, hid⟩ | ⟨hj, hid⟩
    · rcases h.nameIn_added hk with ⟨rfl, -⟩ | ⟨hk, hid'⟩
      · rfl
      · exact absurd hid (Nat.ne_of_lt hid')
    · rcases h.nameIn_added hk with ⟨rfl, hid'⟩ | ⟨hk, -⟩
      · exact absurd hid' (Nat.ne_of_lt hid)
      · exact h.alone j k name name' id hj hk
  held j name id symbol' hj hsymbol d' hd' := by
    have hgrows : Grows b (b.added i symbol d) :=
      ⟨fun k s hs => (frame?_added b i symbol d k).trans hs, rfl⟩
    refine Owned.grows ?_ hgrows
    rw [getElem?_added] at hsymbol
    rcases h.nameIn_added hj with ⟨rfl, hid⟩ | ⟨hj, hid⟩
    · rw [if_pos hid] at hsymbol
      cases hsymbol
      rw [hdeclarations] at hd'
      rw [List.mem_singleton.1 hd']
      exact howned
    · rw [if_neg (Nat.ne_of_lt hid)] at hsymbol
      exact h.held j name id symbol' hj hsymbol d' hd'
  declared j symbol' hsymbol := by
    rw [getElem?_added] at hsymbol
    split at hsymbol
    · cases hsymbol
      exact .inr (by rw [hdeclarations]; exact List.cons_ne_nil d [])
    · exact h.declared j symbol' hsymbol
  mapped d' j := by
    show (b.declarationSymbols.insert d b.symbols.size).get? d' = some j ↔ _
    rw [Table.get?_insert, getElem?_added]
    by_cases hj : j = b.symbols.size
    · subst hj
      have hold : b.declarationSymbols.get? d' ≠ some b.symbols.size := fun hget => by
        obtain ⟨old, hold, -⟩ := (h.mapped d' _).1 hget
        exact Nat.lt_irrefl _ (Array.getElem?_eq_some_iff.1 hold).1
      by_cases hd : d = d'
      · simp [hd, hdeclarations]
      · simp [hd, hold, hdeclarations, Ne.symm hd]
    · rw [if_neg hj, ← h.mapped d' j]
      split
      · rename_i hd
        subst hd
        simp [hnew, Ne.symm hj]
      · rfl
  once j symbol' hsymbol := by
    rw [getElem?_added] at hsymbol
    split at hsymbol
    · cases hsymbol
      rw [hdeclarations]
      exact List.nodup_singleton d
    · exact h.once j symbol' hsymbol
  exported f table name id htable hname := by
    obtain ⟨j, hj, hentry'⟩ := h.exported f table name id htable hname
    refine ⟨j, hj, ?_⟩
    rw [nameIn?_added, if_neg, hentry']
    rintro ⟨⟨rfl, -⟩, rfl⟩
    rw [hentry] at hentry'
    cases hentry'

theorem WellFormed.exportedAs (h : WellFormed script b) {name : String} {id : SymbolId}
    (hroot : b.fileScopes[f]? = some i) (hentry : b.nameIn? i name = some id) :
    WellFormed script (b.exportedAs f name id) where
  toScopeTree := h.toScopeTree.of_frames (fun _ => rfl) rfl
  named := h.named
  alone := h.alone
  held := h.held
  declared := h.declared
  mapped := h.mapped
  once := h.once
  exported f' table name' id' htable hname := by
    unfold Bindings.exportedAs at htable
    rw [Array.getElem?_modify] at htable
    split at htable
    · rename_i hf
      obtain ⟨old, hold, rfl⟩ := Option.map_eq_some_iff.1 htable
      rw [Table.get?_insert] at hname
      split at hname
      · rename_i hname'
        cases hname
        exact ⟨i, hf ▸ hroot, hname' ▸ hentry⟩
      · exact h.exported f' old name' id' hold hname
    · exact h.exported f' table name' id' htable hname

/-! ## New scopes and files -/

def withScope (b : Bindings) (s : Scope) : Bindings :=
  { b with scopes := b.scopes.push s }

/-- One more file, whose top level has the scope `i`. -/
def withFile (b : Bindings) (i : ScopeId) : Bindings :=
  { b with fileScopes := b.fileScopes.push i }

theorem lt_size_of_frame {s : Scope} (h : b.frame? i = some s) : i < b.scopes.size := by
  obtain ⟨s', hs', -⟩ := Option.map_eq_some_iff.1 h
  exact (Array.getElem?_eq_some_iff.1 hs').1

theorem ScopeTree.exists_frame (h : ScopeTree script b) (howned : Owned script b f i) :
    ∃ s, b.frame? i = some s := by
  rcases howned with ⟨rfl, -⟩ | ⟨s, hs, -⟩
  · obtain ⟨s, hs, -⟩ := h.outermost
    exact ⟨s, hs⟩
  · exact ⟨s, hs⟩

theorem ScopeTree.lt_size (h : ScopeTree script b) (howned : Owned script b f i) :
    i < b.scopes.size := by
  obtain ⟨s, hs⟩ := h.exists_frame howned
  exact lt_size_of_frame hs

theorem frame?_withScope (b : Bindings) (s : Scope) (i : ScopeId) :
    (b.withScope s).frame? i =
      if i = b.scopes.size then some { s with symbols := .empty } else b.frame? i := by
  unfold withScope frame?
  rw [Array.getElem?_push]
  split <;> rfl

theorem nameIn?_withScope (b : Bindings) {s : Scope} (hs : s.symbols = .empty) (i : ScopeId)
    (name : String) : (b.withScope s).nameIn? i name = b.nameIn? i name := by
  unfold withScope nameIn?
  rw [Array.getElem?_push]
  split
  · rename_i hi
    rw [hi, Array.getElem?_eq_none (Nat.le_refl _)]
    show s.symbols.get? name = none
    rw [hs]
    rfl
  · rfl

theorem grows_withScope (b : Bindings) (s : Scope) : Grows b (b.withScope s) where
  frame i s' hs' := by
    rw [frame?_withScope, if_neg (Nat.ne_of_lt (lt_size_of_frame hs')), hs']
  files := rfl

theorem ScopeTree.withScope (h : ScopeTree script b) {s : Scope} {p : ScopeId}
    (hparent : s.parent = some p) (hp : p < b.scopes.size) (hfile : s.file = some f)
    (hnested : s.isFunction = false → Owned script b f p) : ScopeTree script (b.withScope s) := by
  have hgrows := grows_withScope b s
  obtain ⟨outer, houter, hfacts⟩ := h.outermost
  refine ⟨⟨outer, hgrows.frame _ _ houter, hfacts⟩, fun i t ht hi => ?_,
    fun i t g ht hg hinner => ?_, fun g i hi => ?_⟩
  · rw [frame?_withScope] at ht
    split at ht
    · rename_i hi
      cases ht
      exact ⟨⟨p, hparent, hi ▸ hp⟩, f, hfile⟩
    · exact h.opened i t ht hi
  · rw [frame?_withScope] at ht
    split at ht
    · cases ht
      cases hfile.symm.trans hg
      exact ⟨p, hparent, (hnested hinner).grows hgrows⟩
    · obtain ⟨q, hq, howned⟩ := h.nested i t g ht hg hinner
      exact ⟨q, hq, howned.grows hgrows⟩
  · obtain ⟨howned, t, ht, hfunction⟩ := h.root g i hi
    exact ⟨howned.grows hgrows, t, hgrows.frame i t ht, hfunction⟩

theorem WellFormed.withScope (h : WellFormed script b) {s : Scope} {p : ScopeId}
    (hsymbols : s.symbols = .empty) (hparent : s.parent = some p) (hp : p < b.scopes.size)
    (hfile : s.file = some f) (hnested : s.isFunction = false → Owned script b f p) :
    WellFormed script (b.withScope s) where
  toScopeTree := h.toScopeTree.withScope hparent hp hfile hnested
  named i name id hentry := by
    rw [nameIn?_withScope b hsymbols] at hentry
    exact h.named i name id hentry
  alone i j name name' id hi hj := by
    rw [nameIn?_withScope b hsymbols] at hi hj
    exact h.alone i j name name' id hi hj
  held i name id symbol hentry hsymbol d hd := by
    rw [nameIn?_withScope b hsymbols] at hentry
    exact (h.held i name id symbol hentry hsymbol d hd).grows (grows_withScope b s)
  declared := h.declared
  mapped := h.mapped
  once := h.once
  exported f table name id htable hname := by
    obtain ⟨i, hi, hentry⟩ := h.exported f table name id htable hname
    exact ⟨i, hi, by rw [nameIn?_withScope b hsymbols, hentry]⟩

theorem WellFormed.withFile (h : WellFormed script b) (howned : Owned script b b.fileScopes.size i)
    {s : Scope} (hs : b.frame? i = some s) (hfunction : s.isFunction = true) :
    WellFormed script (b.withFile i) where
  outermost := h.outermost
  opened := h.opened
  nested := h.nested
  root g j hj := by
    unfold Bindings.withFile at hj
    rw [Array.getElem?_push] at hj
    split at hj
    · rename_i hg
      cases hj
      exact ⟨hg ▸ howned, s, hs, hfunction⟩
    · exact h.root g j hj
  named := h.named
  alone := h.alone
  held := h.held
  declared := h.declared
  mapped := h.mapped
  once := h.once
  exported f table name id htable hname := by
    obtain ⟨j, hj, hentry⟩ := h.exported f table name id htable hname
    have hf := (Array.getElem?_eq_some_iff.1 hj).1
    exact ⟨j, by
      unfold Bindings.withFile
      rw [Array.getElem?_push, if_neg (Nat.ne_of_lt hf), hj], hentry⟩

end

end ScriptAnalysis.Bindings
