import ScriptAnalysis.Proofs.Binding.Steps
import ScriptAnalysis.Proofs.Parsing.Forest

/-!
# Binding gives well-formed tables

Every program, with or without syntax errors, has well-formed tables after its
files are bound.

**Why no node is declared twice.** The walk goes from a node to some of its
children and declares the node itself or one of them on the way. In a forest
the children have nothing below them in common, and files have no site in
common, so each step finds its part of the tree undeclared.

**Results.**
* `binds_function`, `binds_variable`, `binds_statement` and the others: each
  way through the walk declares only what is below its node.
* `walks_within`: the walk of any depth does.
* `After.bindFile`: one more file keeps the tables well formed.
* `bindProgram_consistent`: what follows for the scopes, names, declarations and
  exports of a program of parsed files.
-/
namespace ScriptAnalysis.Binding

open Bindings

/-! ## The walk over a file -/

/-- The walk declares nothing but the node that it is given and nodes below
it. It may export what it declares when the scope is that of the file. -/
structure Walks (script : FileId → Prop) (c : Context) (walk : Walk) : Prop where
  statement : ∀ b₀ node scope topLevel, Owned script b₀ c.fileId scope →
    (topLevel = true → b₀.fileScopes[c.fileId]? = some scope) →
      Binds script c b₀ (c.file.arena.under [node]) (walk.statement node scope topLevel)
  expression : ∀ b₀ node scope, Owned script b₀ c.fileId scope →
    Binds script c b₀ (c.file.arena.under [node]) (walk.expression node scope)

section

variable {script : FileId → Prop} {c : Context} {b₀ : Bindings} {walk : Walk} {scope : ScopeId}
  {node : NodeId} {α β : Type} {x : Binder α} {f : α → Binder β} {nodes nodes' : List NodeId}

theorem children_of_form {form : Form} (h : c.file.arena.form? node = some form) :
    c.file.arena.children node = form.children :=
  Arena.children_of_form? h

/-- A step on the node itself and one on nodes below it. -/
theorem Binds.node_then (hf : c.file.arena.Forest []) (hn : nodes ⊆ c.file.arena.children node)
    (hx : Binds script c b₀ {node} x)
    (hy : ∀ a, Binds script c b₀ (c.file.arena.under nodes) (f a)) :
    Binds script c b₀ (c.file.arena.under [node]) (x >>= f) := by
  have hbelow : c.file.arena.under nodes ⊆ _ := Arena.under_mono hn
  have hapart : Disjoint {node} (c.file.arena.under nodes) := by
    refine Set.disjoint_left.2 ?_
    rintro _ rfl hmem
    exact hf.not_mem_under _ (hbelow hmem)
  refine (hx.bind hy hapart).mono ?_
  rintro n (rfl | hmem)
  · exact Arena.self_mem_under n
  · exact Arena.under_children_subset node (hbelow hmem)

/-- Two steps on some siblings each. -/
theorem Binds.seq (hs : c.file.arena.Siblings (nodes ++ nodes'))
    (hx : c.file.arena.Siblings nodes → Binds script c b₀ (c.file.arena.under nodes) x)
    (hy : c.file.arena.Siblings nodes' →
      ∀ a, Binds script c b₀ (c.file.arena.under nodes') (f a)) :
    Binds script c b₀ (c.file.arena.under (nodes ++ nodes')) (x >>= f) := by
  obtain ⟨hfirst, hsecond, hapart⟩ := hs.append
  rw [Arena.under_append]
  exact (hx hfirst).bind (hy hsecond) hapart

variable (hf : c.file.arena.Forest []) (hwalk : Walks script c walk)
  (howned : Owned script b₀ c.fileId scope)

include hwalk howned

theorem binds_expressions (o : Option NodeId) :
    Binds script c b₀ (c.file.arena.under o.toList) (o.forM (walk.expression · scope)) :=
  .forM_option o fun n _ => hwalk.expression b₀ n scope howned

theorem binds_inner_statements (o : Option NodeId) :
    Binds script c b₀ (c.file.arena.under o.toList) (o.forM (walk.statement · scope false)) :=
  .forM_option o fun n _ => hwalk.statement b₀ n scope false howned (by simp)

include hf

theorem binds_parameter (parameter : NodeId) :
    Binds script c b₀ (c.file.arena.under [parameter])
      (match c.file.arena.parameterOf? parameter with
        | some q => do
          let _ ← declare scope q.name parameter .ofParameter false false
          q.initializer.forM (walk.expression · scope)
        | none => pure () : Binder Unit) := by
  split
  · rename_i q hq
    refine .node_then hf ?_ (binds_declare howned (by simp)) fun _ =>
      binds_expressions hwalk howned _
    rw [children_of_form (Arena.form?_of_parameterOf? hq)]
    exact fun n hn => List.mem_cons_of_mem _ (List.mem_append_right _ hn)
  · exact .pure ()

theorem binds_body (body : Option NodeId) :
    Binds script c b₀ (c.file.arena.under body.toList)
      (match body with
        | none => pure ()
        | some body =>
          match c.file.arena.form? body with
          | some (.block statements) => do
            let s ← site body
            modify fun b => { b with nodeScopes := b.nodeScopes.insert s scope }
            statements.forM (walk.statement · scope false)
          | some _ => walk.expression body scope
          | none => pure () : Binder Unit) := by
  cases body with
  | none => exact .pure ()
  | some body =>
    dsimp only
    split
    · rename_i statements hform
      have hchildren : c.file.arena.children body = statements := children_of_form hform
      refine .quiet_bind (fun _ b => .refl b) fun s => .quiet_bind
        (fun _ b => ⟨fun _ => rfl, rfl, rfl, rfl, rfl, rfl⟩) fun _ => ?_
      refine Binds.mono ?_ (Arena.under_children_subset body)
      rw [hchildren]
      exact .forM (hchildren ▸ hf.siblings body) fun n _ =>
        hwalk.statement b₀ n scope false howned (by simp)
    · exact hwalk.expression b₀ body scope howned
    · exact .pure ()

theorem binds_function {kind : FunctionKind} {p : FunctionParts}
    (hform : c.file.arena.form? node = some (.function kind p)) :
    Binds script c b₀ (c.file.arena.under (c.file.arena.children node))
      (bindFunction walk node p scope) := by
  have hsub : (p.parameters ++ p.body.toList).Sublist (c.file.arena.children node) := by
    rw [children_of_form hform]
    exact ((List.sublist_append_right _ _).trans (List.sublist_append_left _ _)).append
      (List.Sublist.refl _)
  refine Binds.mono ?_ (Arena.under_mono hsub.subset)
  refine .arena (.enterScope howned fun b₁ inner _ hinner => ?_)
  refine .seq ((hf.siblings node).sublist hsub) (fun hs => ?_) fun _ _ => ?_
  · exact .forM hs fun parameter _ => binds_parameter hf hwalk hinner parameter
  · exact binds_body hf hwalk hinner p.body

theorem binds_member (member : NodeId) :
    Binds script c b₀ (c.file.arena.under [member]) (bindMember walk scope member) := by
  have hbelow := Arena.under_children_subset (a := c.file.arena) member
  refine .arena ?_
  split
  · rename_i hform
    exact (binds_function hf hwalk howned hform).mono hbelow
  · rename_i p hform
    refine (binds_expressions hwalk howned p.initializer).mono ((Arena.under_mono ?_).trans hbelow)
    rw [children_of_form hform]
    exact fun n hn => List.mem_cons_of_mem _ (List.mem_append_right _ hn)
  · rename_i p hform
    refine (binds_expressions hwalk howned p.initializer).mono ((Arena.under_mono ?_).trans hbelow)
    rw [children_of_form hform]
    exact fun n hn => List.mem_cons_of_mem _ (List.mem_append_right _ hn)
  · exact .pure ()

theorem binds_variable {target : ScopeId} {exported : Bool} {kind : VariableKind}
    (htarget : Owned script b₀ c.fileId target)
    (hroot : exported = true → b₀.fileScopes[c.fileId]? = some target) (declaration : NodeId) :
    Binds script c b₀ (c.file.arena.under [declaration])
      (bindVariable walk target scope exported kind declaration) := by
  refine .arena ?_
  split
  · rename_i p hform
    refine .node_then hf ?_ (binds_declare htarget hroot) fun _ => .quiet_bind
      (fun _ b => .refl b) fun s => .quiet_bind
      (fun _ b => ⟨fun _ => rfl, rfl, rfl, rfl, rfl, rfl⟩) fun _ =>
        binds_expressions hwalk howned p.initializer
    rw [children_of_form hform]
    exact fun n hn => List.mem_cons_of_mem _ (List.mem_append_right _ hn)
  · exact .pure ()

omit hwalk hf in
theorem binds_import {specifiers : List NodeId} (hs : c.file.arena.Siblings specifiers)
    (source : Option NodeId) :
    Binds script c b₀ (c.file.arena.under specifiers) (bindImport scope specifiers source) := by
  refine .read (Binds.forM hs fun n _ => ?_)
  split
  · refine ((binds_declare howned (by simp)).then_quiet fun id => ?_).mono ?_
    · split
      · rename_i id
        refine fun c b => ⟨fun j => ?_, rfl, rfl, rfl, rfl, rfl⟩
        show ((b.symbols.modify id _)[j]?).map _ = _
        rw [Array.getElem?_modify]
        split
        · cases b.symbols[j]? <;> rfl
        · rfl
      · exact .pure ()
    · rintro _ rfl
      exact Arena.self_mem_under _
  · exact .pure ()

omit hf hwalk howned in
/-- The loop is around the declaration that its head holds. -/
theorem binds_noteIterated {initializer body : Option NodeId} {iterated : NodeId}
    (hform : c.file.arena.form? node = some (.forOfStatement initializer iterated body)) :
    Binds script c b₀ ∅ (noteIterated initializer iterated) := by
  have hchildren : c.file.arena.children node = initializer.toList ++ iterated :: body.toList :=
    children_of_form hform
  refine .arena ?_
  split
  · rename_i declarations hhead
    obtain ⟨head, rfl, hhead⟩ := Option.bind_eq_some_iff.1 hhead
    refine .forM_none fun d hd b _ hw _ => ?_
    refine ⟨hw.noteIterated _, ⟨fun _ _ h => h, rfl⟩, fun _ _ => rfl, fun e value he => ?_⟩
    have hget : (b.iterated.insert ⟨c.fileId, d⟩ iterated).get? e = some value := he
    rw [Table.get?_insert] at hget
    split at hget
    · rename_i hsame
      subst hsame
      obtain rfl := Option.some.inj hget
      refine .inr ⟨rfl, head, node, ?_, ?_, ?_⟩
      · rw [children_of_form hhead]
        exact hd
      · rw [hchildren]
        exact List.mem_append_left _ (List.mem_singleton_self head)
      · rw [hchildren]
        exact List.mem_append_right _ List.mem_cons_self
    · exact .inl hget
  · exact .pure ()

theorem binds_expression (node : NodeId) :
    Binds script c b₀ (c.file.arena.under [node]) (bindExpression walk node scope) := by
  have hbelow := Arena.under_children_subset (a := c.file.arena) node
  refine .arena ?_
  split
  · exact .pure ()
  · rename_i p hform
    exact (binds_function hf hwalk howned hform).mono hbelow
  · rename_i form _ hform
    refine Binds.mono ?_ hbelow
    rw [← children_of_form hform]
    exact .forM (hf.siblings node) fun n _ => hwalk.expression b₀ n scope howned

theorem binds_variables {exported : Bool} (kind : VariableKind) (node : NodeId)
    (hroot : exported = true → b₀.fileScopes[c.fileId]? = some scope) :
    Binds script c b₀ (c.file.arena.under (c.file.arena.children node)) (do
      let b ← get
      let target := if kind = .var then b.functionScope scope else scope
      (c.file.arena.children node).forM (bindVariable walk target scope exported kind)) := by
  refine .get fun b hb hw => ?_
  have howned' := howned.grows hb
  have hroot' (h : exported = true) : b.fileScopes[c.fileId]? = some scope := by
    rw [hb.files, hroot h]
  refine .forM (hf.siblings node) fun n _ => binds_variable hf hwalk howned' ?_ ?_ n
  · split
    · exact hw.functionScope_owned howned'
    · exact howned'
  · intro h
    split
    · -- the scope of a file takes variables itself
      obtain ⟨-, s, hs, hfunction⟩ := hw.root _ _ (hroot' h)
      rw [functionScope_of_isFunction hs hfunction, hroot' h]
    · exact hroot' h

theorem binds_other {form : Form} (hform : c.file.arena.form? node = some form) :
    Binds script c b₀ (c.file.arena.under [node]) (form.children.forM fun child =>
      if (c.file.arena.form? child).any isStatement then walk.statement child scope false
      else walk.expression child scope) := by
  refine Binds.mono ?_ (Arena.under_children_subset node)
  rw [← children_of_form hform]
  refine .forM (hf.siblings node) fun n _ => ?_
  split
  · exact hwalk.statement b₀ n scope false howned (by simp)
  · exact hwalk.expression b₀ n scope howned

theorem binds_statement (node : NodeId) {topLevel : Bool}
    (hroot : topLevel = true → b₀.fileScopes[c.fileId]? = some scope) :
    Binds script c b₀ (c.file.arena.under [node]) (bindStatement walk node scope topLevel) := by
  have hbelow := Arena.under_children_subset (a := c.file.arena) node
  have hexported (h : (topLevel && (c.file.arena.modifiers node).exported) = true) :
      b₀.fileScopes[c.fileId]? = some scope := hroot (Bool.and_eq_true_iff.1 h).1
  have hself : ({node} : Set NodeId) ⊆ c.file.arena.under [node] := by
    rintro _ rfl
    exact Arena.self_mem_under _
  refine .arena ?_
  dsimp only
  split
  · exact .pure ()
  rename_i form hform
  have hchildren : c.file.arena.children node = form.children := children_of_form hform
  split
  · -- a function
    rename_i p
    refine .node_then hf (List.Subset.refl _) ?_ fun _ => binds_function hf hwalk howned hform
    cases p.name with
    | none => exact .pure ()
    | some name => exact (binds_declare howned hexported).then_quiet fun _ => .pure ()
  · -- a class
    rename_i p
    have hsub : p.members.Sublist (c.file.arena.children node) := by
      rw [hchildren]
      exact (List.sublist_append_right _ _).trans (List.sublist_cons_self _ _)
    refine .node_then hf hsub.subset (binds_declare howned hexported) fun _ => ?_
    exact .forM ((hf.siblings node).sublist hsub) fun n _ => binds_member hf hwalk howned n
  · exact (Binds.then_quiet (binds_declare howned hexported) fun _ => .pure ()).mono hself
  · exact (Binds.then_quiet (binds_declare howned hexported) fun _ => .pure ()).mono hself
  · -- variables
    rename_i kind declarations
    have h := binds_variables hf hwalk howned kind node hexported
    rw [show c.file.arena.children node = declarations from hchildren] at h hbelow
    exact h.mono hbelow
  · -- an import
    rename_i specifiers source
    have hsub : specifiers.Sublist (c.file.arena.children node) := by
      rw [hchildren]
      exact List.sublist_append_left _ _
    exact (binds_import howned ((hf.siblings node).sublist hsub) source).mono
      ((Arena.under_mono hsub.subset).trans hbelow)
  · -- a block
    refine .enterScope howned fun b₁ inner _ hinner => Binds.mono ?_ hbelow
    have hsiblings := hf.siblings node
    rw [hchildren] at hsiblings ⊢
    exact .forM hsiblings fun n _ => hwalk.statement b₁ n inner false hinner (by simp)
  · -- a loop
    refine .enterScope howned fun b₁ inner _ hinner => Binds.mono ?_ hbelow
    have hsiblings := hf.siblings node
    rw [hchildren] at hsiblings ⊢
    simp only [Form.children, List.append_assoc] at hsiblings ⊢
    refine .seq hsiblings (fun _ => binds_inner_statements hwalk hinner _) fun hrest _ => ?_
    refine .seq hrest (fun _ => binds_expressions hwalk hinner _) fun hrest _ => ?_
    refine .seq hrest (fun _ => binds_expressions hwalk hinner _) fun _ _ => ?_
    exact binds_inner_statements hwalk hinner _
  · -- a loop over elements
    rename_i initializer iterated body
    refine .enterScope howned fun b₁ inner _ hinner => Binds.mono ?_ hbelow
    refine .none_bind (binds_noteIterated hform) fun _ => ?_
    have hsiblings := hf.siblings node
    rw [show c.file.arena.children node = initializer.toList ++ ([iterated] ++ body.toList) from
      hchildren] at hsiblings ⊢
    refine .seq hsiblings (fun _ => binds_inner_statements hwalk hinner _) fun hrest _ => ?_
    refine .seq hrest (fun _ => hwalk.expression b₁ iterated inner hinner) fun _ _ => ?_
    exact binds_inner_statements hwalk hinner _
  · exact binds_other hf hwalk howned hform

end

/-- However deep the walk may go. -/
theorem walks_within {script : FileId → Prop} {c : Context} (hf : c.file.arena.Forest [])
    (n : Nat) : Walks script c (walkWithin n) := by
  induction n with
  | zero => exact ⟨fun _ _ _ _ _ _ => .pure (), fun _ _ _ _ => .pure ()⟩
  | succ n ih =>
    exact ⟨fun _ node _ _ howned hroot => binds_statement hf ih howned node hroot,
      fun _ node _ howned => binds_expression hf ih howned node⟩

/-! ## The files of a program -/

/-- The files that are no modules. -/
def IsScript (files : List SourceFile) (f : FileId) : Prop :=
  ∃ file, files[f]? = some file ∧ file.isModule = false

/-- The tables after the first `k` files: well formed, and only of these. -/
structure After (files : List SourceFile) (k : Nat) (b : Bindings) : Prop where
  wellFormed : WellFormed (IsScript files) b
  count : b.fileScopes.size = k
  bound : ∀ d : Site, k ≤ d.file → b.declarationSymbols.get? d = none
  looped : ∀ d value, b.iterated.get? d = some value →
    ∃ file, files[d.file]? = some file ∧ LoopsOver file.arena d.node value

theorem start_nameIn {fileCount : Nat} {i : ScopeId} {name : String} {id : SymbolId}
    (h : (start fileCount).nameIn? i name = some id) :
    i = globalScope ∧ (start fileCount).symbols[id]? = some (builtin name) := by
  unfold nameIn? at h
  obtain ⟨s, hs, hname⟩ := Option.bind_eq_some_iff.1 h
  have hi : i < 1 := (Array.getElem?_eq_some_iff.1 hs).1
  obtain rfl : i = globalScope := Nat.lt_one_iff.1 hi
  cases hs
  have hmem := Table.mem_of_lookup hname
  refine ⟨rfl, ?_⟩
  show (builtins.map builtin).toArray[id]? = _
  rw [List.getElem?_toArray, List.getElem?_map, List.mem_zipIdx_iff_getElem?.1 hmem]
  rfl

theorem start_symbol {fileCount : Nat} {id : SymbolId} {symbol : Symbol}
    (h : (start fileCount).symbols[id]? = some symbol) : ∃ name, symbol = builtin name := by
  have h : (builtins.map builtin).toArray[id]? = some symbol := h
  rw [List.getElem?_toArray, List.getElem?_map] at h
  obtain ⟨name, -, hname⟩ := Option.map_eq_some_iff.1 h
  exact ⟨name, hname.symm⟩

theorem after_start (files : List SourceFile) : After files 0 (start files.length) where
  count := rfl
  bound _ _ := rfl
  looped _ _ h := by cases h
  wellFormed :=
    { outermost := ⟨_, rfl, rfl, rfl⟩
      opened := fun i s hs hi => by
        have := lt_size_of_frame hs
        exact absurd (Nat.lt_one_iff.1 this) hi
      nested := fun i s f hs hfile _ => by
        obtain rfl : i = 0 := Nat.lt_one_iff.1 (lt_size_of_frame hs)
        cases hs
        cases hfile
      root := fun f i h => by cases h
      named := fun i name id h => ⟨_, (start_nameIn h).2, rfl⟩
      alone := fun i j name name' id hi hj =>
        (start_nameIn hi).1.trans (start_nameIn hj).1.symm
      held := fun i name id symbol _ hsymbol d hd => by
        obtain ⟨name, rfl⟩ := start_symbol hsymbol
        cases hd
      declared := fun id symbol hsymbol => by
        obtain ⟨name, rfl⟩ := start_symbol hsymbol
        exact .inl rfl
      mapped := fun d id => by
        constructor
        · rintro ⟨⟩
        · rintro ⟨symbol, hsymbol, hd⟩
          obtain ⟨name, rfl⟩ := start_symbol hsymbol
          cases hd
      once := fun id symbol hsymbol => by
        obtain ⟨name, rfl⟩ := start_symbol hsymbol
        exact List.nodup_nil
      exported := fun f table name id htable hname => by
        have htable : (Array.replicate files.length Table.empty)[f]? = some table := htable
        rw [Array.getElem?_replicate] at htable
        split at htable
        · cases htable
          cases hname
        · cases htable }

/-- The statements of a file are siblings. -/
theorem siblings_statements {file : SourceFile} (hf : file.arena.Forest []) :
    file.arena.Siblings file.statements := by
  unfold SourceFile.statements
  split
  · rename_i statements hform
    have hsiblings := hf.siblings file.root
    rwa [show file.arena.children file.root = statements by simp [Arena.children, hform,
      Form.children]] at hsiblings
  · exact List.Pairwise.nil

section

variable {files : List SourceFile} {k : Nat} {b : Bindings} {file : SourceFile}

/-- One more file, which has a scope but no names yet. -/
theorem After.withFile (h : After files k b) {i : ScopeId} {s : Scope}
    (howned : Owned (IsScript files) b k i) (hs : b.frame? i = some s)
    (hfunction : s.isFunction = true) :
    After files (k + 1) (b.withFile i) ∧ (b.withFile i).fileScopes[k]? = some i := by
  have hcount := h.count
  subst hcount
  refine ⟨⟨h.wellFormed.withFile howned hs hfunction, Array.size_push _, fun d hd => ?_,
    h.looped⟩, ?_⟩
  · exact h.bound d (Nat.le_of_succ_le hd)
  · exact Array.getElem?_push_size

theorem After.opened (h : After files k b) (hfile : files[k]? = some file) :
    After files (k + 1) (openFile file k b).2 ∧
      (openFile file k b).2.fileScopes[k]? = some (openFile file k b).1 := by
  obtain ⟨outer, houter, -, hfunction⟩ := h.wellFormed.outermost
  unfold Binding.openFile
  split
  · let s : Scope := { parent := some globalScope, file := some k, node := none,
                       isFunction := true, symbols := .empty }
    have hw : WellFormed (IsScript files) (b.withScope s) := h.wellFormed.withScope rfl rfl
      (lt_size_of_frame houter) rfl fun hinner => by cases hinner
    have hs : (b.withScope s).frame? b.scopes.size = some s := by
      rw [frame?_withScope, if_pos rfl]
    have hafter : After files k (b.withScope s) := ⟨hw, h.count, h.bound, h.looped⟩
    exact hafter.withFile (.inr ⟨s, hs, rfl⟩) hs rfl
  · rename_i hmodule
    exact h.withFile (.inl ⟨rfl, file, hfile, Bool.eq_false_iff.2 hmodule⟩) houter hfunction

theorem After.bindFile (h : After files k b) (hfile : files[k]? = some file)
    (hf : file.arena.Forest []) (names : List String) :
    After files (k + 1) (bindFile names b file k) := by
  obtain ⟨hopened, hroot⟩ := h.opened hfile
  obtain ⟨hw, hcount, hbound, hlooped⟩ := hopened
  let c : Context := ⟨file, k, names⟩
  have hwalk : Walks (IsScript files) c (walkWithin (file.arena.size + 1)) := walks_within hf _
  obtain ⟨howned, -⟩ := hw.root k _ hroot
  have hbinds : Binds (IsScript files) c (openFile file k b).2 (file.arena.under file.statements)
      (file.statements.forM ((walkWithin (file.arena.size + 1)).statement ·
        (openFile file k b).1 true)) :=
    .forM (siblings_statements hf) fun n _ => hwalk.statement _ n _ true howned fun _ => hroot
  -- no node of this file is declared before
  have hfresh : ∀ n ∈ file.arena.under file.statements,
      (openFile file k b).2.declarationSymbols.get? ⟨k, n⟩ = none := by
    have hsame : (openFile file k b).2.declarationSymbols = b.declarationSymbols := by
      unfold Binding.openFile
      split <;> rfl
    intro n _
    rw [hsame]
    exact h.bound ⟨k, n⟩ (Nat.le_refl k)
  have hbound' := hbinds _ (.refl _) hw hfresh
  refine ⟨hbound'.wellFormed, ?_, fun d hd => ?_, fun d value hd => ?_⟩
  · exact (congrArg Array.size hbound'.grows.files).trans hcount
  · exact (hbound'.kept d fun hfile => absurd hfile (Nat.ne_of_gt hd)).trans (hbound d hd)
  · rcases hbound'.looped d value hd with hd | ⟨hd, hloop⟩
    · exact hlooped d value hd
    · exact ⟨file, hd ▸ hfile, hloop⟩

end

theorem After.bindFiles {files : List SourceFile} (hf : ∀ file ∈ files, file.arena.Forest [])
    (names : List String) {k : Nat} {b : Bindings} (h : After files k b) (rest : List SourceFile)
    (hrest : files.drop k = rest) : After files (k + rest.length)
      ((rest.zipIdx k).foldl (fun b (file, id) => Binding.bindFile names b file id) b) := by
  induction rest generalizing k b with
  | nil => exact h
  | cons file rest ih =>
    have hfile : files[k]? = some file := by
      rw [← List.head?_drop, hrest]
      rfl
    have hnext : files.drop (k + 1) = rest := by
      rw [← List.tail_drop, hrest]
      rfl
    rw [List.zipIdx_cons, List.foldl_cons, List.length_cons, Nat.add_comm rest.length 1,
      ← Nat.add_assoc]
    exact ih (h.bindFile hfile (hf file (List.mem_of_getElem? hfile)) names) hnext

theorem after_bindProgram {files : List SourceFile} (hf : ∀ file ∈ files, file.arena.Forest []) :
    After files files.length (bindProgram files) := by
  have h := After.bindFiles hf (files.map SourceFile.name) (after_start files) files rfl
  rwa [Nat.zero_add] at h

/-- The tables `b` of a program fit together and keep to its files.

* The scope around a scope has a smaller index, except around the global one.
* A name in a scope stands for a symbol of that name.
* A declaration is mapped to a symbol exactly if it is one of the symbol's. It
  is so once, and it is a declaration of no other symbol.
* What the global scope knows is built in or declared, and declared by scripts
  only; what any other scope knows is declared in the file of that scope.
* What a file exports is what its scope knows under that name. -/
structure Consistent (files : List SourceFile) (b : Bindings) : Prop where
  parent : ∀ (i : ScopeId) s, b.scopes[i]? = some s → i ≠ globalScope →
    ∃ p, s.parent = some p ∧ p < i
  named : ∀ (i : ScopeId) (s : Scope) name id, b.scopes[i]? = some s →
    s.symbols.get? name = some id → ∃ symbol, b.symbols[id]? = some symbol ∧ symbol.name = name
  mapped : ∀ d id, b.declarationSymbols.get? d = some id ↔
    ∃ symbol, b.symbols[id]? = some symbol ∧ d ∈ symbol.declarations
  once : ∀ (id : SymbolId) (symbol : Symbol), b.symbols[id]? = some symbol →
    symbol.declarations.Nodup ∧ ∀ (id' : SymbolId) (symbol' : Symbol),
      b.symbols[id']? = some symbol' → id ≠ id' →
        symbol.declarations.Disjoint symbol'.declarations
  globals : ∀ (s : Scope) name id (symbol : Symbol), b.scopes[globalScope]? = some s →
    s.symbols.get? name = some id → b.symbols[id]? = some symbol →
      (symbol.flags.builtin = true ∨ symbol.declarations ≠ []) ∧
      ∀ d ∈ symbol.declarations, IsScript files d.file
  locals : ∀ (i : ScopeId) s, b.scopes[i]? = some s → i ≠ globalScope →
    ∃ f, s.file = some f ∧ ∀ name id (symbol : Symbol), s.symbols.get? name = some id →
      b.symbols[id]? = some symbol → ∀ d ∈ symbol.declarations, d.file = f
  exports : ∀ f name id, (b.exportsOf f).get? name = some id →
    ∃ (s : Scope) (symbol : Symbol), b.scopes[b.fileScope f]? = some s ∧
      s.symbols.get? name = some id ∧ b.symbols[id]? = some symbol ∧ symbol.name = name

theorem consistent_of_wellFormed {files : List SourceFile} {b : Bindings}
    (h : WellFormed (IsScript files) b) : Consistent files b := by
  have hentry {i : ScopeId} {s : Scope} {name : String} {id : SymbolId}
      (hs : b.scopes[i]? = some s) (hname : s.symbols.get? name = some id) :
      b.nameIn? i name = some id := Option.bind_eq_some_iff.2 ⟨s, hs, hname⟩
  have hframe {i : ScopeId} {s : Scope} (hs : b.scopes[i]? = some s) :
      b.frame? i = some { s with symbols := .empty } := by
    unfold frame?
    rw [hs]
    rfl
  refine ⟨fun i s hs hi => (h.opened i _ (hframe hs) hi).1,
    fun i s name id hs hname => h.named i name id (hentry hs hname), h.mapped,
    fun id symbol hsymbol =>
      ⟨h.once id symbol hsymbol, fun id' symbol' hsymbol' hne d hd hd' => ?_⟩,
    fun s name id symbol hs hname hsymbol => ⟨h.declared id symbol hsymbol, fun d hd => ?_⟩,
    fun i s hs hi => ?_, fun f name id hname => ?_⟩
  · have hid := (h.mapped d id).2 ⟨symbol, hsymbol, hd⟩
    rw [(h.mapped d id').2 ⟨symbol', hsymbol', hd'⟩] at hid
    exact hne (Option.some.inj hid).symm
  · rcases h.held _ name id symbol (hentry hs hname) hsymbol d hd with ⟨-, hscript⟩ | ⟨t, ht, hfile⟩
    · exact hscript
    · obtain ⟨outer, houter, hnone, -⟩ := h.outermost
      rw [ht] at houter
      cases houter
      rw [hnone] at hfile
      cases hfile
  · obtain ⟨-, f, hfile⟩ := h.opened i _ (hframe hs) hi
    refine ⟨f, hfile, fun name id symbol hname hsymbol d hd => ?_⟩
    rcases h.held i name id symbol (hentry hs hname) hsymbol d hd with ⟨hglobal, -⟩ | ⟨t, ht, hd⟩
    · exact absurd hglobal hi
    · rw [hframe hs] at ht
      cases ht
      exact Option.some.inj (hd.symm.trans hfile)
  · unfold Bindings.exportsOf at hname
    rw [Array.getD_eq_getD_getElem?] at hname
    cases htable : b.exports[f]? with
    | none =>
      rw [htable] at hname
      cases hname
    | some table =>
      rw [htable] at hname
      obtain ⟨i, hi, hname'⟩ := h.exported f table name id htable hname
      obtain ⟨s, hs, hfound⟩ := Option.bind_eq_some_iff.1 hname'
      obtain ⟨symbol, hsymbol, hsame⟩ := h.named i name id hname'
      have hscope : b.fileScope f = i := by
        unfold Bindings.fileScope
        rw [Array.getD_eq_getD_getElem?, hi]
        rfl
      exact ⟨s, symbol, hscope ▸ hs, hfound, hsymbol, hsame⟩

/-- Whatever the files are, also with syntax errors, their tables fit. -/
theorem bindProgram_consistent (sources : List (String × List Char)) :
    Consistent (sources.map fun s => SourceFile.parse s.1 s.2)
      (bindProgram (sources.map fun s => SourceFile.parse s.1 s.2)) := by
  refine consistent_of_wellFormed (after_bindProgram fun file hfile => ?_).wellFormed
  obtain ⟨s, -, rfl⟩ := List.mem_map.1 hfile
  exact SourceFile.forest_parse s.1 s.2

end ScriptAnalysis.Binding
