import ScriptAnalysis.Proofs.Ast.Positions
import ScriptAnalysis.Proofs.Binding.Steps

/-!
# The walk declares every class

The walk over a file comes by every statement in it, also by those in the
bodies of functions that stand inside of expressions, and a class with a name
declares a symbol there, whether the name is taken or not.

**Ways.** The walk takes some nodes for others than they are: the name and the
type of a parameter for expressions, what a loop starts with for a statement.
So a way into the walk is good for more spots than the one it is meant for
(`Reaches`).

**Results.**
* `declarationSymbols_declare`: a declaration with a name is registered.
* `Registers.bind`, `Registers.forM`: what a step reaches its parts reach.
* `walk_reaches`: the walk of `n` levels reaches all nodes before `n`.
* `bindFile_declared`: after a file is bound, each class in it that has a name
  declares a symbol.
-/
namespace ScriptAnalysis.Binding

open Bindings

/-- The statement declares a class with a name. -/
def NamesClass (a : Arena) (i : NodeId) : Prop :=
  ∃ p name, a.form? i = some (.classDeclaration p) ∧ a.nameOf? p.name = some name ∧ name ≠ ""

/-- The classes in a spot that have names declare symbols. -/
def Declared (c : Context) (b : Bindings) (p : Spot) : Prop :=
  ∀ i, c.file.arena.Holds p (.statement i) → NamesClass c.file.arena i →
    (b.symbolOf? c.fileId i).isSome

/-- What was declared stays declared. -/
def Keeps (b b' : Bindings) : Prop :=
  ∀ d, (b.declarationSymbols.get? d).isSome → (b'.declarationSymbols.get? d).isSome

/-- The step declares what the spots hold. -/
def Registers {α : Type} (c : Context) (spots : List Spot) (x : Binder α) : Prop :=
  ∀ b, Keeps b (x c b).2 ∧ ∀ p ∈ spots, Declared c (x c b).2 p

section

variable {α β : Type} {c : Context} {b b' : Bindings} {p q : Spot} {spots spots' : List Spot}
  {x : Binder α} {f : α → Binder β}

/-! ## Spots -/

theorem Keeps.of_eq (h : b'.declarationSymbols = b.declarationSymbols) : Keeps b b' :=
  fun d hd => by rwa [h]

theorem Keeps.trans {b'' : Bindings} (h : Keeps b b') (h' : Keeps b' b'') : Keeps b b'' :=
  fun d hd => h' d (h d hd)

theorem Declared.keeps (h : Declared c b p) (hb : Keeps b b') : Declared c b' p :=
  fun i hi hname => hb ⟨c.fileId, i⟩ (h i hi hname)

theorem Declared.part (h : Declared c b p) (hq : q ∈ p.parts c.file.arena) : Declared c b q :=
  fun i hi => h i (.part hq hi)

theorem Declared.of_parts (hparts : ∀ q ∈ p.parts c.file.arena, Declared c b q)
    (hself : ∀ i, p = .statement i → NamesClass c.file.arena i →
      (b.symbolOf? c.fileId i).isSome) : Declared c b p := by
  intro i hi hname
  cases hi with
  | here => exact hself i rfl hname
  | part hq hi => exact hparts _ hq i hi hname

theorem Declared.of_none {node : NodeId} (hform : c.file.arena.form? node = none) :
    Declared c b (.statement node) ∧ Declared c b (.expression node) := by
  have hno : (c.file.arena.form? node).toList = [] := by rw [hform]; rfl
  constructor
  · refine .of_parts (fun q hq => ?_) ?_
    · obtain ⟨form, hmem, -⟩ := List.mem_flatMap.1 hq
      rw [hno] at hmem
      cases hmem
    · rintro _ hi ⟨p, _, hclass, -⟩
      cases hi
      rw [hform] at hclass
      cases hclass
  · refine .of_parts (fun q hq => ?_) fun i hi => by cases hi
    obtain ⟨form, hmem, -⟩ := List.mem_flatMap.1 hq
    rw [hno] at hmem
    cases hmem

theorem expressionParts_statement {a : Arena} {form : Form} (h : isStatement form = true) :
    a.expressionParts form = [] := by
  unfold isStatement at h
  split at h
  all_goals first | rfl | cases h

theorem statementParts_expression {a : Arena} {form : Form} (h : isStatement form = false) :
    a.statementParts form = [] := by
  unfold Arena.statementParts
  split
  all_goals first | rfl | cases h

/-- A statement says nothing as an expression. -/
theorem Declared.as_expression {node : NodeId} {form : Form}
    (hform : c.file.arena.form? node = some form) (h : isStatement form = true) :
    Declared c b (.expression node) := by
  refine .of_parts (fun q hq => ?_) fun i hi => by cases hi
  rw [Spot.parts_expression hform, expressionParts_statement h] at hq
  cases hq

/-- Of a statement that is no class, what it holds is all that counts. -/
theorem Declared.of_statement {node : NodeId} {form : Form}
    (hform : c.file.arena.form? node = some form) (hclass : ∀ p, form ≠ .classDeclaration p)
    (hparts : ∀ q ∈ c.file.arena.statementParts form, Declared c b q) :
    Declared c b (.statement node) := by
  refine .of_parts (by rwa [Spot.parts_statement hform]) ?_
  rintro i hi ⟨p, _, hform', -⟩
  cases hi
  exact absurd (Option.some.inj (hform.symm.trans hform')) (hclass p)

/-- An expression says nothing as a statement. -/
theorem Declared.as_statement {node : NodeId} {form : Form}
    (hform : c.file.arena.form? node = some form) (h : isStatement form = false) :
    Declared c b (.statement node) := by
  refine .of_statement hform ?_ fun q hq => ?_
  · rintro p rfl
    cases h
  · rw [statementParts_expression h] at hq
    cases hq

/-! ## Sequences -/

theorem Registers.weaken (h : Registers c spots x)
    (hs : ∀ b, (∀ p ∈ spots, Declared c b p) → ∀ q ∈ spots', Declared c b q) :
    Registers c spots' x :=
  fun b => ⟨(h b).1, hs _ (h b).2⟩

theorem Registers.none (h : ∀ b, Keeps b (x c b).2) : Registers c [] x :=
  fun b => ⟨h b, fun p hp => by cases hp⟩

theorem Registers.pure (a : α) : Registers c [] (Pure.pure a) :=
  .none fun _ => .of_eq rfl

theorem Registers.modify {change : Bindings → Bindings}
    (h : ∀ b, (change b).declarationSymbols = b.declarationSymbols) :
    Registers c [] (modify change : Binder PUnit) :=
  .none fun b => .of_eq (h b)

theorem Registers.bind (hx : Registers c spots x) (hf : ∀ a, Registers c spots' (f a)) :
    Registers c (spots ++ spots') (x >>= f) := by
  intro b
  obtain ⟨hkept, hfirst⟩ := hx b
  obtain ⟨hkept', hsecond⟩ := hf (x c b).1 (x c b).2
  refine ⟨hkept.trans hkept', fun p hp => ?_⟩
  exact (List.mem_append.1 hp).elim (fun hp => (hfirst p hp).keeps hkept') (hsecond p)

theorem Registers.none_bind (hx : Registers c [] x) (hf : ∀ a, Registers c spots (f a)) :
    Registers c spots (x >>= f) :=
  hx.bind hf

theorem Registers.read {f : Context → Binder β} (h : Registers c spots (f c)) :
    Registers c spots ((MonadReader.read : Binder Context) >>= f) :=
  h

theorem Registers.arena {f : Arena → Binder β} (h : Registers c spots (f c.file.arena)) :
    Registers c spots (Binding.arena >>= f) :=
  h

theorem Registers.get {f : Bindings → Binder β} (h : ∀ b, Registers c spots (f b)) :
    Registers c spots ((MonadState.get : Binder Bindings) >>= f) :=
  fun b => h b b

theorem Registers.site (node : NodeId) : Registers c [] (site node) :=
  .none fun _ => .of_eq rfl

theorem Registers.forM {xs : List α} {f : α → Binder PUnit} {parts : α → List Spot}
    (h : ∀ a ∈ xs, Registers c (parts a) (f a)) :
    Registers c (xs.flatMap parts) (xs.forM f) := by
  induction xs with
  | nil => exact .pure _
  | cons a rest ih =>
    rw [List.flatMap_cons]
    show Registers c _ (f a >>= fun _ => rest.forM f)
    exact (h a List.mem_cons_self).bind fun _ => ih fun b hb => h b (List.mem_cons_of_mem _ hb)

theorem Registers.forM_none {xs : List α} {f : α → Binder PUnit}
    (h : ∀ a, Registers c [] (f a)) : Registers c [] (xs.forM f) := by
  induction xs with
  | nil => exact .pure _
  | cons a rest ih =>
    show Registers c [] (f a >>= fun _ => rest.forM f)
    exact (h a).bind fun _ => ih

theorem Registers.forM_option_none {o : Option α} {f : α → Binder PUnit}
    (h : ∀ a, Registers c [] (f a)) : Registers c [] (o.forM f) := by
  cases o with
  | none => exact .pure _
  | some a => exact h a

end

/-! ## Declarations -/

section

variable {c : Context}

/-- Whether its name is taken or not, a declaration is registered. -/
theorem declarationSymbols_declare {nameNode : NodeId} {name : String}
    (hname : c.file.arena.nameOf? nameNode = some name) (hempty : ¬ name.isEmpty = true)
    (scope : ScopeId) (node : NodeId) (flags : Flags) (exported constant : Bool) (b : Bindings) :
    ∃ id, (declare scope nameNode node flags exported constant c b).2.declarationSymbols =
      b.declarationSymbols.insert ⟨c.fileId, node⟩ id := by
  rw [declare_named hname hempty]
  cases b.nameIn? scope name with
  | some id =>
    obtain ⟨ds, r, hjoin⟩ := exists_joinSymbol id name nameNode ⟨c.fileId, node⟩ flags exported
      c { b with declarationScopes := b.declarationScopes.insert ⟨c.fileId, node⟩ scope }
    refine ⟨id, ?_⟩
    show (register ⟨c.fileId, node⟩ name exported id c
      (joinSymbol id name nameNode ⟨c.fileId, node⟩ flags exported c _).2).2.declarationSymbols = _
    rw [hjoin, register_tables]
    cases exported <;> rfl
  | none =>
    refine ⟨b.symbols.size, ?_⟩
    show (register ⟨c.fileId, node⟩ name exported b.symbols.size c
      (newSymbol scope _ c _).2).2.declarationSymbols = _
    rw [register_tables]
    cases exported <;> rfl

theorem Registers.declare (scope : ScopeId) (nameNode node : NodeId) (flags : Flags)
    (exported constant : Bool) :
    Registers c [] (declare scope nameNode node flags exported constant) := by
  refine .none fun b => ?_
  rcases declare_tables scope nameNode node flags exported constant c b with
    hsame | ⟨name, id, b₁, hb₁, hsame⟩
  · exact .of_eq hsame.declarationSymbols
  · intro d hd
    have hkept : (if exported then b₁.exportedAs c.fileId name id else b₁).declarationSymbols =
        b₁.declarationSymbols := by split <;> rfl
    have htable : b₁.declarationSymbols = b.declarationSymbols.insert ⟨c.fileId, node⟩ id := by
      rcases hb₁ with ⟨-, rfl⟩ | ⟨-, rfl, rfl⟩ <;> rfl
    rw [hsame.declarationSymbols, hkept, htable, Table.get?_insert]
    split
    · rfl
    · exact hd

theorem Registers.enterScope (node : NodeId) (parent : ScopeId) (isFunction : Bool) :
    Registers c [] (enterScope node parent isFunction) :=
  .none fun _ => .of_eq rfl

theorem Registers.bindImport (scope : ScopeId) (specifiers : List NodeId)
    (source : Option NodeId) : Registers c [] (bindImport scope specifiers source) := by
  refine .read (.forM_none fun node => ?_)
  dsimp only
  split
  · refine (Registers.declare _ _ _ _ _ _).bind fun id => ?_
    split
    · exact .modify fun _ => rfl
    · exact .pure _
  · exact .pure _

theorem Registers.noteIterated (initializer : Option NodeId) (iterated : NodeId) :
    Registers c [] (noteIterated initializer iterated) := by
  refine .arena ?_
  split
  · exact .forM_none fun _ => (Registers.site _).bind fun s => .modify fun _ => rfl
  · exact .pure _

end

/-! ## The walk -/

/-- What is reached when a node is taken for an expression. -/
def carried (a : Arena) (node : NodeId) : List Spot :=
  .expression node :: (a.propertyParts node ++ a.parameterParts node)

theorem carried_statement {a : Arena} {node : NodeId} {form : Form}
    (hform : a.form? node = some form) (h : isStatement form = true) :
    carried a node = [.expression node] := by
  unfold carried Arena.propertyParts Arena.parameterParts
  rw [hform]
  cases form <;> first | rfl | cases h

theorem carried_arrow {a : Arena} {node : NodeId} {p : FunctionParts}
    (hform : a.form? node = some (.function .arrow p)) : carried a node = [.expression node] := by
  unfold carried Arena.propertyParts Arena.parameterParts
  rw [hform]
  rfl

/-- An expression and its values are declared when its children are. -/
theorem Declared.of_children {c : Context} {b : Bindings} {node : NodeId} {form : Form}
    (hform : c.file.arena.form? node = some form) (harrow : ∀ p, form ≠ .function .arrow p)
    (hb : ∀ child ∈ form.children, ∀ q ∈ carried c.file.arena child, Declared c b q) :
    ∀ q ∈ carried c.file.arena node, Declared c b q := by
  have hvalue {q : Spot} (hq : ∃ child ∈ c.file.arena.children node, q = .expression child) :
      Declared c b q := by
    obtain ⟨child, hchild, rfl⟩ := hq
    rw [Arena.children_of_form? hform] at hchild
    exact hb child hchild _ List.mem_cons_self
  intro q hq
  rcases List.mem_cons.1 hq with rfl | hq
  · refine .of_parts (fun q hq => ?_) fun i hi => by cases hi
    rw [Spot.parts_expression hform] at hq
    obtain ⟨child, hchild, rfl | hq⟩ := Arena.mem_expressionParts harrow hq
    · exact hb child hchild _ List.mem_cons_self
    · exact hb child hchild q (List.mem_cons_of_mem _ (List.mem_append_left _ hq))
  · exact hvalue ((List.mem_append.1 hq).elim Arena.mem_propertyParts Arena.mem_parameterParts)

/-- So is a function when it is looked through as if it were a statement. -/
theorem Declared.of_arrow_children {c : Context} {b : Bindings} {node : NodeId}
    {p : FunctionParts} (hform : c.file.arena.form? node = some (.function .arrow p))
    (hs : ∀ child ∈ (Form.function .arrow p).children, Declared c b (.statement child))
    (hb : ∀ child ∈ (Form.function .arrow p).children,
      ∀ q ∈ carried c.file.arena child, Declared c b q) :
    Declared c b (.expression node) := by
  refine .of_parts (fun q hq => ?_) fun i hi => by cases hi
  rw [Spot.parts_expression hform] at hq
  rcases List.mem_append.1 hq with hq | hq
  · obtain ⟨parameter, hparameter, hq⟩ := List.mem_flatMap.1 hq
    refine hb parameter ?_ q (List.mem_cons_of_mem _ (List.mem_append_right _ hq))
    exact List.mem_append_left _ (List.mem_append_left _ (List.mem_append_right _ hparameter))
  · obtain ⟨body, hbody, hq⟩ := List.mem_flatMap.1 hq
    have hmem : body ∈ (Form.function .arrow p).children := List.mem_append_right _ hbody
    unfold Arena.bodyParts at hq
    split at hq
    · rename_i statements hblock
      refine (hs body hmem).part ?_
      rwa [Spot.parts_statement hblock]
    · exact List.mem_singleton.1 hq ▸ hb body hmem _ List.mem_cons_self
    · cases hq

/-- The ways into the walk reach the nodes before `n`. -/
structure Reaches (c : Context) (n : Nat) (walk : Walk) : Prop where
  statement : ∀ node scope top, node < n →
    Registers c [.statement node, .expression node] (walk.statement node scope top)
  expression : ∀ node scope, node < n →
    Registers c (carried c.file.arena node) (walk.expression node scope)

/-- What stands in a condition or behind it is a child. -/
theorem exists_of_mem_head {condition : NodeId} {branches : List NodeId} {q : Spot}
    (hq : q ∈ Spot.expression condition :: branches.map .statement) :
    ∃ child ∈ condition :: branches, q = .statement child ∨ q = .expression child := by
  rcases List.mem_cons.1 hq with rfl | hq
  · exact ⟨condition, List.mem_cons_self, .inr rfl⟩
  · obtain ⟨i, hi, rfl⟩ := List.mem_map.1 hq
    exact ⟨i, List.mem_cons_of_mem _ hi, .inl rfl⟩

namespace Reaches

variable {c : Context} {n : Nat} {walk : Walk} {node : NodeId} {scope : ScopeId} {form : Form}
  (h : Reaches c n walk)

include h

theorem registers_value (node : NodeId) (scope : ScopeId) (hnode : node < n) :
    Registers c [.expression node] (walk.expression node scope) :=
  (h.expression node scope hnode).weaken fun _ hb _ hq =>
    List.mem_singleton.1 hq ▸ hb _ List.mem_cons_self

theorem registers_values {value : Option NodeId} (hvalue : ∀ i ∈ value.toList, i < n) :
    Registers c (Arena.valueParts value) (value.forM (walk.expression · scope)) := by
  cases value with
  | none => exact .pure _
  | some i => exact h.registers_value i scope (hvalue i List.mem_cons_self)

theorem registers_statement (node : NodeId) (scope : ScopeId) (hnode : node < n) :
    Registers c [.statement node] (walk.statement node scope false) :=
  (h.statement node scope false hnode).weaken fun _ hb _ hq =>
    List.mem_singleton.1 hq ▸ hb _ List.mem_cons_self

theorem registers_statements {nodes : List NodeId} (hnodes : ∀ i ∈ nodes, i < n) :
    Registers c (nodes.map .statement) (nodes.forM (walk.statement · scope false)) := by
  rw [List.map_eq_flatMap]
  exact .forM fun i hi => h.registers_statement i scope (hnodes i hi)

theorem registers_statement? {body : Option NodeId} (hbody : ∀ i ∈ body.toList, i < n) :
    Registers c (body.toList.map .statement) (body.forM (walk.statement · scope false)) := by
  cases body with
  | none => exact .pure _
  | some i => exact h.registers_statement i scope (hbody i List.mem_cons_self)

variable (hf : c.file.arena.Forest [])

include hf

theorem registers_parameter {parameter : NodeId} (hparameter : parameter < n) :
    Registers c (c.file.arena.parameterParts parameter)
      (match c.file.arena.parameterOf? parameter with
        | some q => do
          let _ ← declare scope q.name parameter .ofParameter false false
          q.initializer.forM (walk.expression · scope)
        | none => pure () : Binder Unit) := by
  unfold Arena.parameterParts Arena.parameterOf?
  cases hform : c.file.arena.form? parameter with
  | none => exact .pure _
  | some form =>
    cases form with
    | parameter q =>
      refine .none_bind (.declare _ _ _ _ _ _) fun _ => h.registers_values fun i hi => ?_
      refine Nat.lt_trans (hf.lt_of_form hform ?_) hparameter
      exact List.mem_cons_of_mem _ (List.mem_append_right _ hi)
    | _ => exact .pure _

theorem registers_function {kind : FunctionKind} {p : FunctionParts}
    (hform : c.file.arena.form? node = some (.function kind p)) (hnode : node ≤ n) :
    Registers c (c.file.arena.functionParts p) (bindFunction walk node p scope) := by
  have hlt : ∀ i ∈ (Form.function kind p).children, i < n := fun i hi =>
    Nat.lt_of_lt_of_le (hf.lt_of_form hform hi) hnode
  refine .arena (.none_bind (.enterScope _ _ _) fun inner => ?_)
  refine Registers.bind (.forM fun parameter hmem => ?_) fun _ => ?_
  · refine h.registers_parameter hf (hlt parameter ?_)
    exact List.mem_append_left _ (List.mem_append_left _ (List.mem_append_right _ hmem))
  · cases hbody : p.body with
    | none => exact .pure _
    | some body =>
      have hbelow : body < n := hlt body (List.mem_append_right _ (by rw [hbody]; exact
        List.mem_cons_self))
      rw [Option.toList_some, List.flatMap_singleton]
      unfold Arena.bodyParts
      dsimp only
      cases hform : c.file.arena.form? body with
      | none => exact .pure _
      | some form =>
        cases form with
        | block statements =>
          refine .none_bind (.site _) fun s => .none_bind (.modify fun _ => rfl) fun _ => ?_
          exact h.registers_statements fun i hi => Nat.lt_trans (hf.lt_of_form hform hi) hbelow
        | _ => exact h.registers_value body inner hbelow

theorem registers_variable {target lexical : ScopeId} {exported : Bool} {kind : VariableKind}
    {declaration : NodeId} (hdeclaration : declaration < n) :
    Registers c (c.file.arena.variableParts declaration)
      (bindVariable walk target lexical exported kind declaration) := by
  refine .arena ?_
  unfold Arena.variableParts
  cases hform : c.file.arena.form? declaration with
  | none => exact .pure _
  | some form =>
    cases form with
    | variableDeclaration p =>
      refine .none_bind (.declare _ _ _ _ _ _) fun _ => .none_bind (.site _) fun s => ?_
      refine .none_bind (.modify fun _ => rfl) fun _ => h.registers_values fun i hi => ?_
      refine Nat.lt_trans (hf.lt_of_form hform ?_) hdeclaration
      exact List.mem_cons_of_mem _ (List.mem_append_right _ hi)
    | _ => exact .pure _

theorem registers_member {member : NodeId} (hmember : member < n) :
    Registers c (c.file.arena.memberParts member) (bindMember walk scope member) := by
  refine .arena ?_
  unfold Arena.memberParts
  cases hform : c.file.arena.form? member with
  | none => exact .pure _
  | some form =>
    have hlt : ∀ i ∈ form.children, i < n := fun i hi =>
      Nat.lt_trans (hf.lt_of_form hform hi) hmember
    cases form with
    | function kind p =>
      have hfunction : Registers c (c.file.arena.functionParts p)
          (bindFunction walk member p scope) :=
        h.registers_function hf hform (Nat.le_of_lt hmember)
      have hmethod : Registers c [.method member] (bindFunction walk member p scope) := by
        refine hfunction.weaken fun b hb q hq => ?_
        rw [List.mem_singleton.1 hq]
        refine .of_parts ?_ fun i hi => by cases hi
        rwa [Spot.parts_method (Arena.functionOf?_of_form? hform)]
      cases kind with
      | method => exact hmethod
      | constructor => exact hmethod
      | _ => exact hfunction.weaken fun _ _ q hq => by cases hq
    | propertyDeclaration p =>
      exact h.registers_values fun i hi =>
        hlt i (List.mem_cons_of_mem _ (List.mem_append_right _ hi))
    | propertySignature p =>
      refine (h.registers_values fun i hi => ?_).weaken fun _ _ q hq => by cases hq
      exact hlt i (List.mem_cons_of_mem _ (List.mem_append_right _ hi))
    | _ => exact .pure _

/-! ### All ways -/

/-- A form that is looked through child by child holds what its children do. -/
theorem registers_children (hform : c.file.arena.form? node = some form) (hnode : node ≤ n)
    (hparts : ∀ q ∈ c.file.arena.statementParts form,
      ∃ child ∈ form.children, q = .statement child ∨ q = .expression child)
    (hclass : ∀ p, form ≠ .classDeclaration p) :
    Registers c [.statement node, .expression node] (form.children.forM fun child =>
      if (c.file.arena.form? child).any isStatement then walk.statement child scope false
      else walk.expression child scope) := by
  have hchild : ∀ child ∈ form.children, Registers c
      (.statement child :: carried c.file.arena child)
      (if (c.file.arena.form? child).any isStatement then walk.statement child scope false
        else walk.expression child scope) := by
    intro child hmem
    have hlt : child < n := Nat.lt_of_lt_of_le (hf.lt_of_form hform hmem) hnode
    split
    · rename_i hs
      cases hchild : c.file.arena.form? child with
      | none =>
        rw [hchild] at hs
        cases hs
      | some form =>
        rw [hchild, Option.any_some] at hs
        rw [carried_statement hchild hs]
        exact h.statement child scope false hlt
    · rename_i hs
      refine (h.expression child scope hlt).weaken fun b hb q hq => ?_
      rcases List.mem_cons.1 hq with rfl | hq
      · cases hchild : c.file.arena.form? child with
        | none => exact (Declared.of_none hchild).1
        | some form =>
          rw [hchild, Option.any_some, Bool.not_eq_true] at hs
          exact .as_statement hchild hs
      · exact hb q hq
  refine (Registers.forM hchild).weaken fun b hb => ?_
  have hs : ∀ child ∈ form.children, Declared c b (.statement child) := fun child hmem =>
    hb _ (List.mem_flatMap.2 ⟨child, hmem, List.mem_cons_self⟩)
  have hcarried : ∀ child ∈ form.children, ∀ q ∈ carried c.file.arena child, Declared c b q :=
    fun child hmem q hq => hb q (List.mem_flatMap.2 ⟨child, hmem, List.mem_cons_of_mem _ hq⟩)
  refine List.forall_mem_cons.2 ⟨.of_statement hform hclass fun q hq => ?_,
    List.forall_mem_singleton.2 ?_⟩
  · obtain ⟨child, hmem, rfl | rfl⟩ := hparts q hq
    · exact hs child hmem
    · exact hcarried child hmem _ List.mem_cons_self
  · by_cases harrow : ∃ p, form = .function .arrow p
    · obtain ⟨p, rfl⟩ := harrow
      exact .of_arrow_children hform hs hcarried
    · exact Declared.of_children hform (fun p hp => harrow ⟨p, hp⟩) hcarried _ List.mem_cons_self

omit hf in
theorem registers_start (start : Option NodeId) (hstart : ∀ i ∈ start.toList, i < n) :
    Registers c (c.file.arena.startParts start) (start.forM (walk.statement · scope false)) := by
  cases start with
  | none => exact .pure _
  | some i =>
    refine (h.statement i scope false (hstart i List.mem_cons_self)).weaken fun b hb q hq => ?_
    rw [List.mem_singleton.1 hq]
    dsimp only
    split
    · exact hb _ List.mem_cons_self
    · exact hb _ (List.mem_cons_of_mem _ List.mem_cons_self)

/-- A class is declared in front of its members. -/
theorem registers_class {p : ClassParts} {exported : Bool}
    (hform : c.file.arena.form? node = some (.classDeclaration p)) (hnode : node ≤ n) :
    Registers c [.statement node, .expression node] (do
      let _ ← declare scope p.name node .ofClass exported false
      p.members.forM (bindMember walk scope)) := by
  have hmembers : Registers c (p.members.flatMap c.file.arena.memberParts)
      (p.members.forM (bindMember walk scope)) := by
    refine .forM fun member hmem => h.registers_member hf ?_
    refine Nat.lt_of_lt_of_le (hf.lt_of_form hform ?_) hnode
    exact List.mem_cons_of_mem _ (List.mem_append_right _ hmem)
  intro b
  obtain ⟨hkept, hparts⟩ :=
    (Registers.none_bind (.declare scope p.name node .ofClass exported false) fun _ => hmembers) b
  refine ⟨hkept, List.forall_mem_cons.2 ⟨.of_parts ?_ ?_, List.forall_mem_singleton.2 ?_⟩⟩
  · rw [Spot.parts_statement hform]
    exact hparts
  · rintro i hi ⟨p', name, hform', hname, hne⟩
    cases hi
    cases hform.symm.trans hform'
    obtain ⟨id, hid⟩ := declarationSymbols_declare hname (by simpa using hne) scope node .ofClass
      exported false b
    have hdeclared : ((declare scope p.name node .ofClass exported false c b).2.declarationSymbols.get?
        ⟨c.fileId, node⟩).isSome := by
      rw [hid, Table.get?_insert, if_pos rfl]
      rfl
    exact (hmembers _).1 _ hdeclared
  · exact .as_expression hform rfl

section

variable {initializer condition increment body : Option NodeId} {iterated : NodeId}

omit hf in
theorem registers_for (hlt : ∀ i ∈ (Form.forStatement initializer condition increment body).children,
    i < n) :
    Registers c (c.file.arena.statementParts (.forStatement initializer condition increment body))
      (do
        initializer.forM (walk.statement · scope false)
        condition.forM (walk.expression · scope)
        increment.forM (walk.expression · scope)
        body.forM (walk.statement · scope false)) := by
  have hpart {part : Option NodeId} (hmem : part ∈ [initializer, condition, increment, body]) :
      ∀ i ∈ part.toList, i < n := by
    intro i hi
    have hsub : i ∈ [initializer, condition, increment, body].flatMap Option.toList :=
      List.mem_flatMap.2 ⟨part, hmem, hi⟩
    exact hlt i (by simpa [Form.children] using hsub)
  have hparts : c.file.arena.statementParts (.forStatement initializer condition increment body)
      = c.file.arena.startParts initializer ++ (Arena.valueParts condition ++
        (Arena.valueParts increment ++ body.toList.map .statement)) := by
    simp only [Arena.statementParts, List.append_assoc]
  rw [hparts]
  refine Registers.bind (h.registers_start _ (hpart (by simp))) fun _ => ?_
  refine Registers.bind (h.registers_values (hpart (by simp))) fun _ => ?_
  refine Registers.bind (h.registers_values (hpart (by simp))) fun _ => ?_
  exact h.registers_statement? (hpart (by simp))

omit hf in
theorem registers_forOf
    (hlt : ∀ i ∈ (Form.forOfStatement initializer iterated body).children, i < n) :
    Registers c (c.file.arena.statementParts (.forOfStatement initializer iterated body)) (do
      initializer.forM (walk.statement · scope false)
      walk.expression iterated scope
      body.forM (walk.statement · scope false)) := by
  have hstart : Registers c (c.file.arena.startParts initializer)
      (initializer.forM (walk.statement · scope false)) :=
    h.registers_start initializer fun i hi => hlt i (List.mem_append_left _ hi)
  have hvalue := h.registers_value iterated scope
    (hlt iterated (List.mem_append_right _ List.mem_cons_self))
  have hbody : Registers c (body.toList.map .statement)
      (body.forM (walk.statement · scope false)) :=
    h.registers_statement? fun i hi =>
      hlt i (List.mem_append_right _ (List.mem_cons_of_mem _ hi))
  refine (hstart.bind fun _ => hvalue.bind fun _ => hbody).weaken fun b hb q hq => hb q ?_
  -- the value is checked first and bound after the head of the loop
  simp only [Arena.statementParts, List.mem_cons, List.mem_append] at hq ⊢
  tauto

end

theorem registers_bindStatement (scope : ScopeId) (top : Bool) (hnode : node ≤ n) :
    Registers c [.statement node, .expression node] (bindStatement walk node scope top) := by
  refine .arena ?_
  dsimp only
  cases hform : c.file.arena.form? node with
  | none =>
    refine (Registers.pure ()).weaken fun b _ q hq => ?_
    rcases List.mem_cons.1 hq with rfl | hq
    · exact (Declared.of_none hform).1
    · exact List.mem_singleton.1 hq ▸ (Declared.of_none hform).2
  | some form =>
    have hlt : ∀ i ∈ form.children, i < n := fun i hi =>
      Nat.lt_of_lt_of_le (hf.lt_of_form hform hi) hnode
    have hstatement {x : Binder Unit} (hs : isStatement form = true)
        (hclass : ∀ p, form ≠ .classDeclaration p)
        (hx : Registers c (c.file.arena.statementParts form) x) :
        Registers c [.statement node, .expression node] x := by
      refine hx.weaken fun b hb q hq => ?_
      rcases List.mem_cons.1 hq with rfl | hq
      · exact .of_statement hform hclass hb
      · exact List.mem_singleton.1 hq ▸ .as_expression hform hs
    cases form with
    | function kind p =>
      cases kind with
      | declaration =>
        refine hstatement rfl (fun _ => Form.noConfusion) ?_
        refine .none_bind (.forM_option_none fun name => ?_) fun _ =>
          h.registers_function hf hform hnode
        exact (Registers.declare _ _ _ _ _ _).bind fun _ => .pure _
      | _ =>
        exact h.registers_children hf hform hnode (fun q hq => by cases hq)
          fun _ => Form.noConfusion
    | classDeclaration p => exact h.registers_class hf hform hnode
    | interfaceDeclaration p =>
      exact hstatement rfl (fun _ => Form.noConfusion)
        (.none_bind (.declare _ _ _ _ _ _) fun _ => .pure _)
    | typeAlias p =>
      exact hstatement rfl (fun _ => Form.noConfusion)
        (.none_bind (.declare _ _ _ _ _ _) fun _ => .pure _)
    | variableStatement modifiers kind declarations =>
      refine hstatement rfl (fun _ => Form.noConfusion)
        (.get fun b => .forM fun declaration hmem => ?_)
      exact h.registers_variable hf (hlt declaration hmem)
    | importDeclaration specifiers source =>
      exact hstatement rfl (fun _ => Form.noConfusion) (.bindImport _ _ _)
    | block statements =>
      exact hstatement rfl (fun _ => Form.noConfusion)
        (.none_bind (.enterScope _ _ _) fun inner => h.registers_statements hlt)
    | forStatement initializer condition increment body =>
      exact hstatement rfl (fun _ => Form.noConfusion)
        (.none_bind (.enterScope _ _ _) fun inner => h.registers_for hlt)
    | forOfStatement initializer iterated body =>
      exact hstatement rfl (fun _ => Form.noConfusion)
        (.none_bind (.enterScope _ _ _) fun inner =>
          .none_bind (.noteIterated _ _) fun _ => h.registers_forOf hlt)
    | expressionStatement e =>
      exact h.registers_children hf hform hnode
        (fun q hq => ⟨e, List.mem_cons_self, .inr (List.mem_singleton.1 hq)⟩)
        fun _ => Form.noConfusion
    | returnStatement value =>
      refine h.registers_children hf hform hnode (fun q hq => ?_) fun _ => Form.noConfusion
      obtain ⟨i, hi, rfl⟩ := List.mem_map.1 hq
      exact ⟨i, hi, .inr rfl⟩
    | ifStatement condition thenBranch elseBranch =>
      exact h.registers_children hf hform hnode (fun q hq => exists_of_mem_head hq)
        fun _ => Form.noConfusion
    | whileStatement condition body =>
      exact h.registers_children hf hform hnode (fun q hq => exists_of_mem_head hq)
        fun _ => Form.noConfusion
    | _ =>
      exact h.registers_children hf hform hnode (fun q hq => by cases hq)
        fun _ => Form.noConfusion

theorem registers_bindExpression (scope : ScopeId) (hnode : node ≤ n) :
    Registers c (carried c.file.arena node) (bindExpression walk node scope) := by
  refine .arena ?_
  cases hform : c.file.arena.form? node with
  | none =>
    refine (Registers.pure ()).weaken fun b _ q hq => ?_
    rcases List.mem_cons.1 hq with rfl | hq
    · exact (Declared.of_none hform).2
    · unfold Arena.propertyParts Arena.parameterParts at hq
      rw [hform] at hq
      cases hq
  | some form =>
    by_cases harrow : ∃ p, form = .function .arrow p
    · obtain ⟨p, rfl⟩ := harrow
      rw [carried_arrow hform]
      refine (h.registers_function hf hform hnode).weaken fun b hb q hq => ?_
      rw [List.mem_singleton.1 hq]
      refine .of_parts ?_ fun i hi => by cases hi
      rwa [Spot.parts_expression hform]
    · have harrow' : ∀ p, form ≠ .function .arrow p := fun p hp => harrow ⟨p, hp⟩
      have hchildren : Registers c (form.children.flatMap (carried c.file.arena))
          (form.children.forM (walk.expression · scope)) := .forM fun child hmem =>
        h.expression child scope (Nat.lt_of_lt_of_le (hf.lt_of_form hform hmem) hnode)
      have hcarried : Registers c (carried c.file.arena node)
          (form.children.forM (walk.expression · scope)) :=
        hchildren.weaken fun b hb => Declared.of_children hform harrow' fun child hmem q hq =>
          hb q (List.mem_flatMap.2 ⟨child, hmem, hq⟩)
      cases form with
      | function kind p =>
        cases kind with
        | arrow => exact absurd rfl (harrow' p)
        | _ => exact hcarried
      | _ => exact hcarried

end Reaches

/-- The walk of `n` levels reaches all nodes before `n`. -/
theorem walk_reaches {c : Context} (hf : c.file.arena.Forest []) (n : Nat) :
    Reaches c n (walkWithin n) := by
  induction n with
  | zero =>
    exact ⟨fun _ _ _ h => absurd h (Nat.not_lt_zero _), fun _ _ h => absurd h (Nat.not_lt_zero _)⟩
  | succ n ih =>
    exact ⟨fun _ scope top h => ih.registers_bindStatement hf scope top (Nat.le_of_lt_succ h),
      fun _ scope h => ih.registers_bindExpression hf scope (Nat.le_of_lt_succ h)⟩

theorem lt_size_of_mem_statements {file : SourceFile} (hf : file.arena.Forest []) {n : NodeId}
    (hn : n ∈ file.statements) : n < file.arena.size := by
  unfold SourceFile.statements at hn
  split at hn
  · rename_i statements hform
    have hchild : n ∈ file.arena.children file.root := by
      rw [Arena.children_of_form? hform]
      exact hn
    exact Nat.lt_trans (hf.below _ n hchild) (Arena.lt_size_of_mem_children hchild)
  · cases hn

/-- After a file is bound, every class in it that has a name declares a symbol. -/
theorem bindFile_declared {file : SourceFile} (hf : file.arena.Forest []) (names : List String)
    (b : Bindings) (id : FileId) {node i : NodeId} (hnode : node ∈ file.statements)
    (hi : file.arena.Holds (.statement node) (.statement i)) (hname : NamesClass file.arena i) :
    ((bindFile names b file id).symbolOf? id i).isSome := by
  let c : Context := ⟨file, id, names⟩
  have hall : Registers c (file.statements.flatMap fun n => [.statement n, .expression n])
      (file.statements.forM fun n =>
        (walkWithin (file.arena.size + 1)).statement n (openFile file id b).1 true) :=
    .forM fun n hn => (walk_reaches hf _).statement n _ true
      (Nat.lt_succ_of_lt (lt_size_of_mem_statements hf hn))
  exact (hall (openFile file id b).2).2 (.statement node)
    (List.mem_flatMap.2 ⟨node, hnode, List.mem_cons_self⟩) i hi hname

end ScriptAnalysis.Binding
