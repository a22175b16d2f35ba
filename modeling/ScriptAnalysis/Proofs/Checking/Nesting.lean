import ScriptAnalysis.Checker
import ScriptAnalysis.Proofs.Binding.Steps
import ScriptAnalysis.Proofs.Checking.Guards

/-!
# How deeply the rules of the checker are nested

Every use of a rule inside of another goes down in the tree of a file, or
looks at a symbol. Below a node there is less room than above it, and a
symbol is looked at elsewhere only after a guard was taken (`free`). So `n`
nested uses are enough for a node when they are `worth` the guards that are
free and the height of the node; `worth` lets every guard be followed by a
walk from the top of a file to its bottom.

**Loops.** The type of a variable in the head of a loop over elements is
found from the value that is looped over. That value does not stand below
the variable but beside the statement that declares it, below the loop. For a
statement `LoopsFit` asks for the room to go there.

**Results.**
* `Within.completes_…`: each function of the checker completes if the rules
  that it uses do, with what room there is.
* `rules_within`: the rules with at most `n` nested uses, for every `n`.
-/
namespace ScriptAnalysis.Checking

/-! ## Programs and room -/

/-- The files of a program are forests of at most `size` nodes, and its loops
over elements are loops in them. -/
structure Shaped (size : Nat) (files : Array SourceFile) (b : Bindings) : Prop where
  forest : ∀ file, (files.getD file default).arena.Forest []
  small : ∀ file, (files.getD file default).arena.size ≤ size
  looped : ∀ file d value, b.iterated? file d = some value →
    Binding.LoopsOver (files.getD file default).arena d value

/-- The nested uses that `g` free guards may lead to. Each of them may be
followed by two uses for each node of a file. -/
def worth (size g : Nat) : Nat :=
  g * (2 * size + 4)

theorem worth_succ (size g : Nat) : worth size (g + 1) = worth size g + 2 * size + 4 :=
  Nat.succ_mul g _

/-- With `g` free guards, `n` nested uses are enough to use a rule at a node.
A node that is not there is no deeper than the last one. -/
def Fits (size g n : Nat) (a : Arena) (node : Nat) : Prop :=
  worth size g + 2 * min node a.size + 3 ≤ n

/-- With `g` free guards, `n` nested uses are enough at any node. -/
def Wide (size g n : Nat) : Prop :=
  worth size g + 2 * size + 3 ≤ n

/-- For the variables that stand right below a node, `n` nested uses are
enough at the values that they loop over. -/
def LoopsFit (size g n : Nat) (c : Context) (node : NodeId) : Prop :=
  ∀ d ∈ c.arena.children node, ∀ value : Nat, c.bindings.iterated? c.file d = some value →
    worth size g + 2 * value + 4 ≤ n

section

variable {size n g : Nat} {c : Context} {a : Arena} {node child : Nat}

theorem Fits.more (h : Fits size g n a node) : Fits size g (n + 1) a node :=
  Nat.le_succ_of_le h

/-- Below a node one use less is enough. -/
theorem Fits.below (h : Fits size g (n + 1) a node) (ha : a.Forest [])
    (hc : child ∈ a.children node) : Fits size g n a child := by
  have hbelow : child < node := ha.below node child hc
  have hsize : node < a.size := Arena.lt_size_of_mem_children hc
  unfold Fits at h ⊢
  omega

theorem Fits.symbol (h : Fits size g (n + 1) a node) : worth size g + 2 ≤ n := by
  unfold Fits at h
  omega

/-- The value that a loop over elements loops over stands beside the head of
the loop. -/
theorem Fits.loops (h : Fits size g (n + 1) c.arena node) (hp : Shaped size c.files c.bindings)
    (hc : child ∈ c.arena.children node) : LoopsFit size g n c child := by
  intro d hd value hvalue
  obtain ⟨head, loop, hhead, hloop, hbeside⟩ := hp.looped _ _ _ hvalue
  have hforest : c.arena.Forest [] := hp.forest c.file
  obtain rfl := hforest.parent_unique hhead hd
  obtain rfl := hforest.parent_unique hloop hc
  have hbelow : value < loop := hforest.below _ _ hbeside
  unfold Fits at h
  rw [Nat.min_eq_left (Nat.le_of_lt (Arena.lt_size_of_mem_children hc))] at h
  omega

theorem Wide.fits (h : Wide size g n) (hp : Shaped size c.files c.bindings) :
    Fits size g n c.arena node := by
  have hsmall : c.arena.size ≤ size := hp.small c.file
  unfold Wide at h
  unfold Fits
  omega

theorem Wide.value (h : Wide size g n) {d value : Nat}
    (hvalue : c.bindings.iterated? c.file d = some value) (hp : Shaped size c.files c.bindings) :
    worth size g + 2 * value + 4 ≤ n := by
  obtain ⟨head, loop, -, -, hbeside⟩ := hp.looped _ _ _ hvalue
  have hforest : c.arena.Forest [] := hp.forest c.file
  have hbelow : value < loop := hforest.below _ _ hbeside
  have hsize : loop < size :=
    Nat.lt_of_lt_of_le (Arena.lt_size_of_mem_children hbeside) (hp.small c.file)
  have hdown : value + 2 ≤ size := Nat.lt_of_le_of_lt hbelow hsize
  unfold Wide at h
  omega

theorem Wide.symbol (h : Wide size g n) : worth size g + 2 ≤ n := by
  unfold Wide at h
  omega

/-- After a guard was taken there is room for a whole file. -/
theorem wide_of_succ (h : worth size (g + 1) ≤ n) : Wide size g n := by
  rw [worth_succ] at h
  unfold Wide
  omega

end

/-! ## Steps that report and use no rule -/

section

variable {c : Context} {g : Nat}

theorem Completes.checkTarget (target : NodeId) : Completes c g (checkTarget target) := by
  refine Completes.read ?_
  split
  · exact .pure _
  · split
    · exact Completes.bind (.report _ _) fun _ => .pure _
    · exact .pure _

theorem Completes.checkJump (node : NodeId) (length : Nat) (p : Problem) :
    Completes c g (checkJump node length p) := by
  refine Completes.read ?_
  split
  · exact .pure _
  · exact .reportStart _ _ _

theorem Completes.checkMethodName (types : ClassTypes) (members : List NodeId) (ambient : Bool)
    (p : FunctionParts) : Completes c g (checkMethodName types members ambient p) := by
  refine Completes.read ?_
  dsimp only
  split
  · exact Completes.bind (.forM_option fun _ _ => .report _ _) fun _ =>
      (Idle.ownPropertyType _ _).completes
  · exact (Idle.ownPropertyType _ _).completes

end

/-! ## The rules -/

/-- With `n` nested uses, the rules complete where these are enough. -/
structure Within (size n : Nat) (r : Rules) : Prop where
  typeNode : ∀ {c g node}, Shaped size c.files c.bindings → Fits size g n c.arena node →
    Completes c g (r.typeNode node)
  expression : ∀ {c g node expected}, Shaped size c.files c.bindings →
    Fits size g n c.arena node → Completes c g (r.expression node expected)
  statement : ∀ {c g node}, Shaped size c.files c.bindings → Fits size g n c.arena node →
    LoopsFit size g n c node → Completes c g (r.statement node)
  valueType : ∀ {c g id}, Shaped size c.files c.bindings → worth size g + 2 ≤ n →
    Completes c g (r.valueType id)
  declaredType : ∀ {c g id}, Shaped size c.files c.bindings → worth size g + 2 ≤ n →
    Completes c g (r.declaredType id)
  classTypes : ∀ {c g id}, Shaped size c.files c.bindings → worth size g + 1 ≤ n →
    Completes c g (r.classTypes id)

namespace Within

-- what a lemma is about is implicit, so that it is found from the goal: the
-- place of the goal is often another one than that of the hypotheses
variable {size n g : Nat} {self : Rules} {c : Context} {node child : NodeId}
  {o : Option NodeId} {expected declared annotated : Option TypeId} {nodes : List NodeId}
  {name : NodeId} {kind : FunctionKind} {p : FunctionParts} {arrow ambient : Bool} {form : Form}
  {id : SymbolId} {symbol : Symbol} {shape : Shape} {s : ClassShapes} {types : ClassTypes}
  {declaration : Site} {entry : String × List NodeId} {property : PropertyParts}
  {methods : Shape × Table String (List NodeId)} {members : ClassShapes × ClassMembers}
  {constructor : NodeId} {base : Option TypeId} {parts : ClassParts}
  {pairs : List (NodeId × Parameter)}
  (h : Within size n self) (hp : Shaped size c.files c.bindings)

include h hp

section

variable (hfits : Fits size g (n + 1) c.arena node)

include hfits

/-! ### Below a node -/

theorem typeNode_child (hc : child ∈ c.arena.children node) :
    Completes c g (self.typeNode child) :=
  h.typeNode hp (hfits.below (hp.forest _) hc)

theorem expression_child (hc : child ∈ c.arena.children node) :
    Completes c g (self.expression child expected) :=
  h.expression hp (hfits.below (hp.forest _) hc)

theorem statement_child (hc : child ∈ c.arena.children node) :
    Completes c g (self.statement child) :=
  h.statement hp (hfits.below (hp.forest _) hc) (hfits.loops hp hc)

/-! ### Functions -/

theorem completes_ascription (ho : o.toList ⊆ c.arena.children node) :
    Completes c g (ascription self o) := by
  cases o with
  | none => exact .pure _
  | some type =>
    exact (h.typeNode_child hp hfits (ho (List.mem_singleton_self type))).bind fun _ => .pure _

theorem completes_functionBody : Completes c g (functionBody self node declared) := by
  refine Completes.read ?_
  cases hbody : (c.arena.functionOf? node).bind FunctionParts.body with
  | none => exact .pure _
  | some body =>
    obtain ⟨p, hfunction, hbody⟩ := Option.bind_eq_some_iff.1 hbody
    obtain ⟨kind, hform⟩ := Arena.form?_of_functionOf? hfunction
    have hc : body ∈ c.arena.children node := by
      rw [Arena.children_of_form? hform]
      exact List.mem_append_right _ (Option.mem_toList.2 hbody)
    refine .in_scope (.in_function ?_)
    dsimp only
    cases hinner : c.arena.form? body with
    | none => exact .pure _
    | some form =>
      cases form with
      | block statements =>
        refine Completes.bind (.mapM fun s hs => ?_) fun _ => .pure _
        refine h.statement_child hp (hfits.below (hp.forest _) hc).more ?_
        exact (Arena.children_of_form? hinner).symm ▸ hs
      | _ =>
        refine Completes.bind (h.expression_child hp hfits hc) fun type => ?_
        exact Completes.bind (.forM_option fun _ _ => .checkAssignable _ _ _) fun _ => .pure _

theorem completes_parameterType : Completes c g (parameterType self node) := by
  refine Completes.read ?_
  cases hparameter : c.arena.parameterOf? node with
  | none => exact .pure _
  | some p =>
    have hchildren := Arena.children_of_form? (Arena.form?_of_parameterOf? hparameter)
    dsimp only
    cases htype : p.ascription with
    | some type =>
      refine h.typeNode_child hp hfits ?_
      simp [hchildren, Form.children, htype]
    | none =>
      cases hvalue : p.initializer with
      | none => exact Completes.get fun _ => .pure _
      | some value =>
        refine Completes.bind (h.expression_child hp hfits ?_) fun _ => .alloc _
        simp [hchildren, Form.children, hvalue]

theorem completes_parameterInfo : Completes c g (parameterInfo self node) := by
  refine Completes.read ?_
  cases c.arena.parameterOf? node with
  | none => exact .pure _
  | some p =>
    dsimp only
    cases c.declared? node with
    | some symbol => exact Completes.bind (h.valueType hp hfits.symbol) fun _ => .pure _
    | none => exact Completes.bind (h.completes_parameterType hp hfits) fun _ => .pure _

theorem completes_returnType (hform : c.arena.form? node = some (.function kind p)) :
    Completes c g (returnType self node kind p) := by
  unfold returnType
  cases htype : p.returnType with
  | some type =>
    have hc : type ∈ c.arena.children node := by
      simp [Arena.children_of_form? hform, Form.children, htype]
    exact Completes.read (.in_scope (h.typeNode_child hp hfits hc))
  | none =>
    dsimp only
    split
    · exact .pure _
    · split
      · refine Completes.bind (.in_silence ?_) fun _ => (Idle.inferredReturn _).completes
        exact h.completes_functionBody hp hfits
      · exact .pure _

theorem completes_signature : Completes c g (signature self node) := by
  refine Completes.read (.get fun s => ?_)
  split
  · exact .pure _
  · split
    · rename_i kind p hform
      have hparameters : p.parameters ⊆ c.arena.children node := by
        rw [Arena.children_of_form? hform]
        simp [Form.children]
      refine Completes.bind (.in_scope (.mapM fun parameter hmem => ?_)) fun parameters => ?_
      · refine h.completes_parameterInfo hp ?_
        exact (hfits.below (hp.forest _) (hparameters hmem)).more
      · split
        · exact .pure _
        · refine Completes.bind (.resolving_signature ?_) fun type => ?_
          · exact h.completes_returnType hp hfits hform
          · exact Completes.bind (.modify fun _ => .of_same rfl rfl rfl) fun _ => .pure _
    · exact .pure _

theorem completes_initializer (ho : o.toList ⊆ c.arena.children node) :
    Completes c g (checkInitializer self o annotated name) := by
  refine .forM_option fun value hvalue => ?_
  exact Completes.bind (h.expression_child hp hfits (ho hvalue)) fun _ =>
    .forM_option fun _ _ => .checkAssignable _ _ _

theorem completes_parameter : Completes c g (checkParameter self arrow node) := by
  refine Completes.read ?_
  cases hparameter : c.arena.parameterOf? node with
  | none => exact .pure _
  | some p =>
    have hchildren := Arena.children_of_form? (Arena.form?_of_parameterOf? hparameter)
    have htype : p.ascription.toList ⊆ c.arena.children node := by simp [hchildren, Form.children]
    have hvalue : p.initializer.toList ⊆ c.arena.children node := by
      simp [hchildren, Form.children]
    dsimp -zetaHave only
    extract_lets rest
    have hrest : ∀ type, Completes c g (rest type) := by
      intro type
      refine Completes.bind (h.completes_ascription hp hfits htype) fun annotated => ?_
      refine Completes.bind (h.completes_initializer hp hfits hvalue) fun _ => ?_
      refine Completes.get fun s => ?_
      have hrecord : Completes c g (do record node type; record p.name type) :=
        Completes.bind (.record _ _) fun _ => .record _ _
      dsimp only
      split
      · exact Completes.bind (.report _ _) fun _ => hrecord
      · exact hrecord
    cases c.declared? node with
    | some symbol => exact Completes.bind (h.valueType hp hfits.symbol) hrest
    | none => exact Completes.bind (.in_silence (h.completes_parameterType hp hfits)) hrest

theorem completes_function : Completes c g (checkFunction self node) := by
  refine Completes.read ?_
  cases hfunction : c.arena.functionOf? node with
  | none => exact .pure _
  | some p =>
    obtain ⟨kind, hform⟩ := Arena.form?_of_functionOf? hfunction
    have hchildren := Arena.children_of_form? hform
    have hparameters : p.parameters ⊆ c.arena.children node := by simp [hchildren, Form.children]
    have htype : p.returnType.toList ⊆ c.arena.children node := by
      rw [hchildren]
      exact fun type ht => List.mem_append_left _ (List.mem_append_right _ ht)
    refine .in_scope ?_
    refine Completes.bind (.forM fun parameter hmem => ?_) fun _ => ?_
    · refine h.completes_parameter hp ?_
      exact (hfits.below (hp.forest _) (hparameters hmem)).more
    refine Completes.bind (h.completes_ascription hp hfits htype) fun declared => ?_
    cases p.body with
    | none => exact .pure _
    | some body =>
      refine Completes.bind (h.completes_functionBody hp hfits) fun returned => ?_
      split
      · refine Completes.bind .table fun t => ?_
        split
        · exact .report _ _
        · exact .pure _
      · exact .pure _

/-! ### Types that are spelled out -/

theorem completes_reference : Completes c g (typeReference self node) := by
  have hrest : ∀ type : TypeId, Completes c g (do
      let type ← (pure type : Check TypeId)
      record node type
      return type) := fun type =>
    Completes.bind (.pure _) fun _ => Completes.bind (.record _ _) fun _ => .pure _
  refine Completes.read ?_
  split
  · exact .pure _
  · split
    · exact .pure _
    · split
      · refine Completes.bind (h.declaredType hp hfits.symbol) fun type => ?_
        split
        · exact hrest _
        · exact Completes.bind (.report _ _) fun _ => hrest _
      · split
        · exact Completes.bind (.report _ _) fun _ => hrest _
        · exact Completes.bind (.report _ _) fun _ => hrest _

theorem completes_signatureParameter : Completes c g (signatureParameter self node) := by
  refine Completes.read ?_
  cases hparameter : c.arena.parameterOf? node with
  | none => exact .pure _
  | some p =>
    have htype : p.ascription.toList ⊆ c.arena.children node := by
      simp [Arena.children_of_form? (Arena.form?_of_parameterOf? hparameter), Form.children]
    refine Completes.bind (h.completes_ascription hp hfits htype) fun _ => ?_
    exact Completes.bind (.record _ _) fun _ => .record _ _

theorem completes_typeForm (hform : c.arena.form? node = some form) :
    Completes c g (typeOfForm self node form) := by
  have hchildren := Arena.children_of_form? hform
  cases form with
  | literalType literal =>
    exact Completes.read (Completes.bind (Idle.literalType _ _).completes fun _ =>
      Completes.bind (.record _ _) fun _ => .pure _)
  | arrayType element =>
    refine Completes.bind (h.typeNode_child hp hfits ?_) fun _ => .alloc _
    simp [hchildren, Form.children]
  | parenthesizedType inner => exact h.typeNode_child hp hfits (by simp [hchildren, Form.children])
  | unionType members =>
    exact Completes.bind (.mapM fun member hmem => h.typeNode_child hp hfits (hchildren ▸ hmem))
      fun _ => .alloc _
  | typeReference name =>
    have hc : name ∈ c.arena.children node := by simp [hchildren, Form.children]
    exact h.completes_reference hp (hfits.below (hp.forest _) hc).more
  | function kind p =>
    cases kind with
    | functionType =>
      have hparameters : p.parameters ⊆ c.arena.children node := by simp [hchildren, Form.children]
      refine Completes.bind (.forM fun parameter hmem => ?_) fun _ => ?_
      · refine h.completes_signatureParameter hp ?_
        exact (hfits.below (hp.forest _) (hparameters hmem)).more
      · exact Completes.bind (h.completes_signature hp hfits) fun _ => .alloc _
    | _ => exact .pure _
  | _ => exact .pure _

theorem completes_typeNode : Completes c g (Checking.typeNode self node) := by
  refine Completes.read ?_
  cases hform : c.arena.form? node with
  | none => exact .pure _
  | some form =>
    refine Completes.bind (h.completes_typeForm hp hfits hform) fun _ => ?_
    exact Completes.bind (.record _ _) fun _ => .pure _

end

/-! ### Symbols

A symbol is looked at elsewhere after a guard was taken, when there is room
for any node. -/

section

variable (hw : Wide size g n)

include hw

theorem completes_wide_ascription : Completes c g (ascription self o) := by
  cases o with
  | none => exact .pure _
  | some type => exact Completes.bind (h.typeNode hp (hw.fits hp)) fun _ => .pure _

theorem completes_functionsType : Completes c g (functionsType self nodes) :=
  Completes.bind (.mapM fun _ _ => h.completes_signature hp (.more (hw.fits hp))) fun _ => .alloc _

/-! #### Interfaces -/

theorem completes_addBase : Completes c g (addBase self shape node) := by
  refine Completes.bind (h.typeNode hp (hw.fits hp)) fun base => ?_
  refine Completes.bind .table fun t => ?_
  split <;> exact .pure _

theorem completes_addSignatureProperty :
    Completes c g (addSignatureProperty self shape property) := by
  refine Completes.read ?_
  dsimp only
  split
  · exact .pure _
  · exact Completes.bind (h.completes_wide_ascription hp hw) fun _ => .pure _

theorem completes_addInterfaceMember :
    Completes c g (addInterfaceMember self methods node) := by
  refine Completes.read ?_
  dsimp only
  split
  · exact Completes.bind (h.completes_addSignatureProperty hp hw) fun _ => .pure _
  · exact .pure _
  · exact .pure _

theorem completes_addInterfaceMethod :
    Completes c g (addInterfaceMethod self shape entry) := by
  unfold addInterfaceMethod
  dsimp only
  split
  · exact .pure _
  · exact Completes.read (Completes.bind (h.completes_functionsType hp hw) fun _ => .pure _)

theorem completes_addInterface :
    Completes c g (addInterface self shape declaration) := by
  refine Completes.read (.at_declaration fun this => ?_)
  split
  · refine Completes.bind (.foldlM fun _ _ _ => h.completes_addBase hp hw) fun shape => ?_
    refine Completes.bind (.foldlM fun _ _ _ => h.completes_addInterfaceMember hp hw) fun acc => ?_
    exact .foldlM fun _ _ _ => h.completes_addInterfaceMethod hp hw
  · exact .pure _

/-! #### Classes -/

theorem completes_addBaseClass : Completes c g (addBaseClass self s o) := by
  unfold addBaseClass
  split
  · exact .pure _
  · refine Completes.bind (h.typeNode hp (hw.fits hp)) fun base => ?_
    refine Completes.bind .table fun t => ?_
    split
    · exact .pure _
    · split
      · exact .pure _
      · dsimp only
        split
        · exact .pure _
        · exact Completes.bind (h.classTypes hp (Nat.le_of_succ_le hw.symbol)) fun _ => .pure _

theorem completes_addClassMember :
    Completes c g (addClassMember self members node) := by
  refine Completes.read ?_
  dsimp only
  split
  · refine Completes.bind (h.completes_wide_ascription hp hw) fun type => ?_
    split <;> exact .pure _
  · exact .pure _
  · exact .pure _
  · exact .pure _

theorem completes_addParameterProperty :
    Completes c g (addParameterProperty self constructor s node) := by
  refine Completes.read ?_
  split
  · exact .pure _
  · split
    · refine Completes.bind (.in_scope ?_) fun _ => .pure _
      exact h.completes_parameterType hp (.more (hw.fits hp))
    · exact .pure _

theorem completes_addParameterProperties :
    Completes c g (addParameterProperties self s constructor) :=
  Completes.read (.foldlM fun _ _ _ => h.completes_addParameterProperty hp hw)

theorem completes_methodType : Completes c g (methodType self nodes) :=
  Completes.read (h.completes_functionsType hp hw)

theorem completes_addMethod :
    Completes c g (addMethod self s entry) := by
  refine Completes.read ?_
  dsimp only
  split
  · exact Completes.bind (h.completes_methodType hp hw) fun _ => .pure _
  · exact Completes.bind (.pure _) fun _ => .pure _

theorem completes_inferProperty :
    Completes c g (inferProperty self s property) := by
  unfold inferProperty
  extract_lets rest
  have hrest : ∀ type, Completes c g (rest type) := fun type =>
    Completes.read (Completes.bind (Idle.publish _).completes fun _ => .pure _)
  split
  · exact Completes.bind (.pure _) hrest
  · exact Completes.bind (h.expression hp (hw.fits hp)) fun _ => Completes.bind (.alloc _) hrest

theorem completes_inferMethod :
    Completes c g (inferMethod self s entry) := by
  unfold inferMethod
  exact Completes.bind (h.completes_methodType hp hw) fun _ =>
    Completes.read (Completes.bind (Idle.publish _).completes fun _ => .pure _)

theorem completes_constructSignatures :
    Completes c g (constructSignatures self types nodes base) := by
  refine Completes.read ?_
  extract_lets visible rest
  have hrest : ∀ found, Completes c g (rest found) := by
    intro found
    show Completes c g (if _ then _ else _)
    split <;> exact .pure _
  split
  · exact Completes.bind (.mapM fun _ _ => h.completes_signature hp (.more (hw.fits hp))) hrest
  · split
    · exact Completes.bind .table fun _ => Completes.bind (.pure _) hrest
    · exact Completes.bind (.pure _) hrest

theorem completes_buildClass : Completes c g (buildClass self id types parts) := by
  refine Completes.read ?_
  refine Completes.bind (.forM fun _ _ => .modify fun _ => .of_same rfl rfl rfl) fun _ => ?_
  refine .in_class ?_
  refine Completes.bind .table fun t => ?_
  refine Completes.bind (h.completes_addBaseClass hp hw) fun base => ?_
  refine Completes.bind (.foldlM fun _ _ _ => h.completes_addClassMember hp hw) fun members => ?_
  refine Completes.bind (.foldlM fun _ _ _ => h.completes_addParameterProperties hp hw) fun s => ?_
  refine Completes.bind (.foldlM fun _ _ _ => h.completes_addMethod hp hw) fun s => ?_
  refine Completes.bind (Idle.publish _).completes fun _ => ?_
  refine Completes.bind (.foldlM fun _ _ _ => h.completes_inferProperty hp hw) fun s => ?_
  refine Completes.bind (.foldlM fun _ _ _ => h.completes_inferMethod hp hw) fun s => ?_
  exact Completes.bind (h.completes_constructSignatures hp hw) fun _ => (Idle.publish _).completes

end

omit h hp in
theorem lt_of_symbol? (hid : c.symbol? id = some symbol) : id < c.bindings.symbols.size :=
  (Array.getElem?_eq_some_iff.1 hid).1

/-! #### What takes a guard -/

theorem completes_interface (hid : c.symbol? id = some symbol) (hn : worth size g ≤ n) :
    Completes c g (interfaceType self id symbol) := by
  refine fun s => Ends.get ?_
  split
  · exact Completes.pure _ s
  · rename_i hnew
    refine Ends.read (Ends.alloc fun type t => ?_)
    refine Ends.enter_interface (lt_of_symbol? hid) hnew fun g' hg => ?_
    have hw : Wide size g' n := wide_of_succ (hg ▸ hn)
    refine Completes.bind (.foldlM fun _ _ _ => ?_) fun _ => .pure _
    exact Completes.bind (h.completes_addInterface hp hw) fun _ =>
      Completes.bind (.alloc _) fun _ => .pure _

theorem completes_class (hn : worth size g ≤ n) :
    Completes c g (Checking.classTypes self id) := by
  refine fun s => Ends.get ?_
  split
  · exact Completes.pure _ s
  · rename_i hnew
    refine Ends.read ?_
    split
    · exact Completes.pure _ s
    · rename_i symbol hid
      refine Ends.alloc fun instanceType t => Ends.alloc fun constructorType t' => ?_
      refine Ends.enter_class (lt_of_symbol? hid) hnew fun g' hg => ?_
      have hw : Wide size g' n := wide_of_succ (hg ▸ hn)
      split
      · exact .pure _
      · extract_lets interfaces ending rest
        have hrest : ∀ r, Completes c g' (rest r) := by
          intro r
          show Completes c g' (if _ then _ else _)
          split
          · exact .pure _
          · refine Completes.bind .table fun t => ?_
            refine Completes.bind (.foldlM fun _ _ _ => h.completes_addInterface hp hw) fun _ => ?_
            exact Completes.bind (.alloc _) fun _ => .pure _
        split
        · exact Completes.bind (.at_declaration fun _ => h.completes_buildClass hp hw) hrest
        · exact hrest ()

theorem completes_alias (hid : c.symbol? id = some symbol) (hn : worth size g ≤ n) :
    Completes c g (aliasType self id symbol) := by
  refine Completes.get fun s => ?_
  split
  · exact .pure _
  · refine Completes.read ?_
    split
    · exact .pure _
    · rename_i hnew
      extract_lets rest
      have hrest : ∀ type, Completes c g (rest type) := fun type =>
        Completes.bind (.modify fun _ => .of_same rfl rfl rfl) fun _ => .pure _
      split
      · exact Completes.bind (.pure _) hrest
      · split
        · refine Completes.bind (.resolving_type (lt_of_symbol? hid) (by simpa using hnew)
            fun g' hg => .at_declaration fun _ => ?_) hrest
          have hw : Wide size g' n := wide_of_succ (hg ▸ hn)
          exact h.typeNode hp (hw.fits hp)
        · exact Completes.bind (.pure _) hrest

theorem completes_declaredType (hn : worth size g + 1 ≤ n) :
    Completes c g (Checking.declaredType self id) := by
  refine Completes.read ?_
  split
  · exact .pure _
  · rename_i symbol hid
    split
    · split
      · exact .pure _
      · split
        · exact .pure _
        · rename_i hnew
          refine .resolving_type (lt_of_symbol? hid) (by simpa using hnew) fun g' hg => ?_
          have hw : Wide size g' n := wide_of_succ (hg ▸ Nat.le_of_succ_le hn)
          exact h.declaredType hp hw.symbol
    · split
      · exact Completes.bind (h.classTypes hp hn) fun _ => .pure _
      · split
        · have hless : worth size g ≤ n := Nat.le_of_succ_le hn
          exact Completes.bind (h.completes_interface hp hid hless) fun _ => .pure _
        · split
          · have hless : worth size g ≤ n := Nat.le_of_succ_le hn
            exact Completes.bind (h.completes_alias hp hid hless) fun _ => .pure _
          · exact .pure _

/-! ### Values -/

/-- The type of a variable in the head of a loop is found beside it. -/
theorem completes_variableType (hfits : Fits size g (n + 1) c.arena node)
    (hvalue : ∀ value : Nat, c.bindings.iterated? c.file node = some value →
      worth size g + 2 * value + 3 ≤ n) : Completes c g (variableType self node) := by
  refine Completes.read ?_
  split
  · rename_i p hform
    have hchildren := Arena.children_of_form? hform
    split
    · rename_i type _ _ htype
      exact h.typeNode_child hp hfits (by simp [hchildren, Form.children, htype])
    · rename_i value _ hloop
      have hdeep : Fits size g n c.arena value := by
        have hroom := hvalue value hloop
        have hmin : min value c.arena.size ≤ value := Nat.min_le_left _ _
        unfold Fits
        omega
      exact Completes.bind (h.expression hp hdeep) fun _ =>
        Completes.bind .table fun _ => .pure _
    · exact .pure _
    · rename_i value _ _ hinitializer
      have hc : value ∈ c.arena.children node := by simp [hchildren, Form.children, hinitializer]
      refine Completes.bind (h.expression_child hp hfits hc) fun type => ?_
      split
      · exact .pure _
      · split
        · exact .pure _
        · exact .alloc _
  · exact .pure _

theorem completes_functionValue {declarations : List Site} (hw : Wide size g n) :
    Completes c g (functionType self declarations) := by
  refine Completes.read (Completes.bind (.mapM fun _ _ => ?_) fun _ => .alloc _)
  exact .at_declaration fun _ => h.completes_signature hp (.more (hw.fits hp))

theorem completes_importedType (hw : Wide size g n) :
    Completes c g (importedType self id) := by
  refine Completes.read ?_
  split
  · split
    · exact h.valueType hp hw.symbol
    · exact .pure _
  · exact .pure _

theorem completes_findValueType (hw : Wide size g n) :
    Completes c g (findValueType self id) := by
  refine Completes.read ?_
  split
  · exact .pure _
  · split
    · exact .pure _
    · split
      · exact h.completes_importedType hp hw
      · split
        · exact Completes.bind (h.classTypes hp (Nat.le_of_succ_le hw.symbol)) fun _ => .pure _
        · split
          · exact h.completes_functionValue hp hw
          · split
            · exact .pure _
            · dsimp only
              split
              · refine .at_declaration fun _ => ?_
                refine h.completes_variableType hp (.more (hw.fits hp)) fun value hvalue => ?_
                exact Nat.le_of_succ_le (hw.value hvalue hp)
              · split
                · exact .at_declaration fun _ => h.completes_parameterType hp (.more (hw.fits hp))
                · exact .pure _

omit h hp in
/-- A symbol that is not there takes no guard and is not looked at. -/
theorem completes_unknown (hid : c.symbol? id = none) :
    Completes c g (resolvingValue id (findValueType self id)) := by
  refine Completes.at_once (a := TypeId.error) (fun s => ?_) (by simp)
  have hnone : Context.symbol? { c with resolvingValues := id :: c.resolvingValues } id = none :=
    hid
  unfold findValueType
  rw [read_bind, hnone]
  rfl

theorem completes_valueType (hn : worth size g + 1 ≤ n) :
    Completes c g (Checking.valueType self id) := by
  refine Completes.get fun s => ?_
  split
  · exact .pure _
  · refine Completes.read ?_
    split
    · exact .pure _
    · rename_i hnew
      refine Completes.bind ?_ fun _ =>
        Completes.bind (.modify fun _ => .of_same rfl rfl rfl) fun _ => .pure _
      cases hid : c.symbol? id with
      | none => exact completes_unknown hid
      | some symbol =>
        refine .resolving_value (lt_of_symbol? hid) (by simpa using hnew) fun g' hg => ?_
        have hw : Wide size g' n := wide_of_succ (hg ▸ Nat.le_of_succ_le hn)
        exact h.completes_findValueType hp hw

/-! ### Expressions -/

section

variable (hfits : Fits size g (n + 1) c.arena node)

include hfits

theorem completes_name : Completes c g (checkName self node) := by
  refine Completes.read ?_
  dsimp only
  split
  · exact .pure _
  · split
    · exact h.valueType hp hfits.symbol
    · split
      · exact Completes.bind (.report _ _) fun _ => .pure _
      · exact Completes.bind (.report _ _) fun _ => .pure _

variable {object index left right callee operand body : NodeId} {arguments : List NodeId}
  {operator : TokenKind}

theorem completes_propertyAccess (ho : object ∈ c.arena.children node) :
    Completes c g (checkPropertyAccess self object name) := by
  refine Completes.bind (h.expression_child hp hfits ho) fun objectType => ?_
  refine Completes.read ?_
  extract_lets text rest
  split
  · exact .pure _
  · have hrest : ∀ type, Completes c g (rest type) := fun type =>
      Completes.bind (.record _ _) fun _ => .pure _
    refine Completes.bind (Idle.propertyType _ _).completes fun found => ?_
    split
    · exact Completes.bind (.pure _) hrest
    · refine Completes.bind (.display _) fun _ => ?_
      exact Completes.bind (.report _ _) fun _ => Completes.bind (.pure _) hrest

theorem completes_elementAccess (ho : object ∈ c.arena.children node)
    (hi : index ∈ c.arena.children node) :
    Completes c g (checkElementAccess self object index) := by
  refine Completes.bind (h.expression_child hp hfits ho) fun objectType => ?_
  refine Completes.bind (h.expression_child hp hfits hi) fun indexType => ?_
  split
  · exact .pure _
  · refine Completes.bind .table fun t => ?_
    split
    · exact .pure _
    · split
      · exact .pure _
      · split
        · exact Completes.bind (Idle.propertyType _ _).completes fun _ => .pure _
        · exact .pure _

theorem completes_array (hc : nodes ⊆ c.arena.children node) :
    Completes c g (checkArray self nodes expected) := by
  refine Completes.bind .table fun t => ?_
  refine Completes.bind (.mapM fun element hmem => ?_) fun types => ?_
  · exact Completes.bind (h.expression_child hp hfits (hc hmem)) fun _ => .alloc _
  · dsimp only
    split
    · exact Completes.bind (.pure _) fun _ => .alloc _
    · exact Completes.bind (.alloc _) fun _ => .alloc _

theorem completes_property : Completes c g (addLiteralProperty self expected shape node) := by
  refine Completes.read ?_
  extract_lets a
  cases hform : c.arena.form? node with
  | none => exact .pure _
  | some form =>
    have hchildren := Arena.children_of_form? hform
    cases form with
    | propertyAssignment name value =>
      refine Completes.bind .table fun t => ?_
      extract_lets wanted rest
      have hrest : ∀ found, Completes c g (rest found) := fun found =>
        Completes.bind (.alloc _) fun _ => Completes.bind (.record _ _) fun _ =>
          Completes.bind (.record _ _) fun _ => .pure _
      cases value with
      | some value =>
        refine Completes.bind (h.expression_child hp hfits ?_) hrest
        simp [hchildren, Form.children]
      | none =>
        have hc : name ∈ c.arena.children node := by simp [hchildren, Form.children]
        exact Completes.bind (h.completes_name hp (.more (hfits.below (hp.forest _) hc))) hrest
    | _ => exact .pure _

theorem completes_object (hc : nodes ⊆ c.arena.children node) :
    Completes c g (checkObject self nodes expected) := by
  refine Completes.bind (.foldlM fun shape property hmem => ?_) fun _ => .alloc _
  exact h.completes_property hp (.more (hfits.below (hp.forest _) (hc hmem)))

/-! #### Calls -/

theorem completes_arguments (ha : arguments ⊆ c.arena.children node) :
    Completes c g (checkArguments self arguments) :=
  .forM fun _ hmem =>
    Completes.bind (h.expression_child hp hfits (ha hmem)) fun _ => .pure _

theorem completes_argumentsFit
    (ha : ∀ pair ∈ pairs, pair.1 ∈ c.arena.children node) :
    Completes c g (argumentsFit self pairs) := by
  induction pairs with
  | nil => exact .pure _
  | cons pair rest ih =>
    refine Completes.bind (h.expression_child hp hfits (ha pair List.mem_cons_self)) fun type => ?_
    refine Completes.bind (.assignable _ _) fun fits => ?_
    split
    · exact ih fun pair hmem => ha pair (List.mem_cons_of_mem _ hmem)
    · exact .pure _

theorem completes_findSignature {signatures : List Signature}
    (ha : arguments ⊆ c.arena.children node) :
    Completes c g (findSignature self arguments signatures) := by
  induction signatures with
  | nil => exact .pure _
  | cons s rest ih =>
    refine Completes.bind (.in_silence ?_) fun fits => ?_
    · exact h.completes_argumentsFit hp hfits fun pair hmem => ha (List.of_mem_zip hmem).1
    · split
      · exact .pure _
      · exact ih

theorem completes_argument {parameter : Parameter} (hc : child ∈ c.arena.children node) :
    Completes c g (checkArgument self child parameter) := by
  refine Completes.bind (h.expression_child hp hfits hc) fun type => ?_
  refine Completes.bind (.assignable _ _) fun fits => ?_
  split
  · exact .pure _
  · exact Completes.bind .table fun t => Completes.read (.reportWith _ _ _)

theorem completes_resolveCall {signatures : List Signature}
    (ha : arguments ⊆ c.arena.children node) :
    Completes c g (resolveCall self node signatures arguments) := by
  unfold resolveCall
  split
  · refine Completes.bind (.report _ _) fun _ => ?_
    exact Completes.bind (h.completes_arguments hp hfits ha) fun _ => .pure _
  · extract_lets rest
    have hrest : ∀ chosen, Completes c g (rest chosen) := fun chosen =>
      Completes.bind (.forM fun pair hmem =>
        h.completes_argument hp hfits (ha (List.of_mem_zip hmem).1)) fun _ => .pure _
    split
    · exact Completes.bind (.pure _) hrest
    · exact Completes.bind (h.completes_findSignature hp hfits ha) fun _ =>
        Completes.bind (.pure _) hrest

theorem completes_call (hc : callee ∈ c.arena.children node)
    (ha : arguments ⊆ c.arena.children node) :
    Completes c g (checkCall self node callee arguments) := by
  refine Completes.read ?_
  split
  · refine Completes.bind (h.expression_child hp hfits hc) fun base => Completes.get fun s => ?_
    dsimp only
    split
    · exact Completes.bind (h.completes_arguments hp hfits ha) fun _ => .pure _
    · exact Completes.bind (h.completes_resolveCall hp hfits ha) fun _ => .pure _
  · refine Completes.bind (h.expression_child hp hfits hc) fun type => ?_
    split
    · exact Completes.bind (h.completes_arguments hp hfits ha) fun _ => .pure _
    · refine Completes.bind .table fun t => ?_
      split
      · refine Completes.bind (.report _ _) fun _ => ?_
        exact Completes.bind (h.completes_arguments hp hfits ha) fun _ => .pure _
      · exact h.completes_resolveCall hp hfits ha

theorem completes_new (hc : callee ∈ c.arena.children node)
    (ha : arguments ⊆ c.arena.children node) :
    Completes c g (checkNew self node callee arguments) := by
  refine Completes.bind (h.expression_child hp hfits hc) fun type => ?_
  split
  · exact Completes.bind (h.completes_arguments hp hfits ha) fun _ => .pure _
  · refine Completes.bind .table fun t => ?_
    split
    · refine Completes.bind (.report _ _) fun _ => ?_
      exact Completes.bind (h.completes_arguments hp hfits ha) fun _ => .pure _
    · exact h.completes_resolveCall hp hfits ha

/-! #### Operators -/

theorem completes_prefix (ho : operand ∈ c.arena.children node) :
    Completes c g (checkPrefix self operator operand) := by
  have hoperand : ∀ {α : Type} {x : Check α}, Completes c g x →
      Completes c g (do let _ ← self.expression operand none; x) :=
    fun hx => Completes.bind (h.expression_child hp hfits ho) fun _ => hx
  have hstep : Completes c g (do
      let _ ← self.expression operand none
      let _ ← checkTarget operand
      return TypeId.number) :=
    hoperand (Completes.bind (.checkTarget _) fun _ => .pure _)
  refine Completes.read ?_
  split
  · exact hoperand (.pure _)
  · exact hoperand (.alloc _)
  · exact hstep
  · exact hstep
  · exact hoperand (.pure _)

theorem completes_binary (hl : left ∈ c.arena.children node) (hr : right ∈ c.arena.children node) :
    Completes c g (checkBinary self left operator right) := by
  have hupdate : Completes c g (checkUpdate self left operator right) := by
    refine Completes.bind (h.expression_child hp hfits hl) fun target => ?_
    refine Completes.bind (.checkTarget _) fun _ => ?_
    refine Completes.bind (h.expression_child hp hfits hr) fun value => ?_
    split
    · exact Completes.bind .table fun _ => .pure _
    · exact .pure _
  unfold checkBinary
  split
  · refine Completes.bind (h.expression_child hp hfits hl) fun target => ?_
    refine Completes.bind (.checkTarget _) fun writable => ?_
    refine Completes.bind (h.expression_child hp hfits hr) fun value => ?_
    dsimp only
    split
    · exact Completes.bind (.checkAssignable _ _ _) fun _ => .pure _
    · exact .pure _
  · exact hupdate
  · exact hupdate
  · exact hupdate
  · exact hupdate
  · refine Completes.bind (h.expression_child hp hfits hl) fun l => ?_
    exact Completes.bind (h.expression_child hp hfits hr) fun _ =>
      (Idle.operatorType _ _ _).completes

/-! #### All expressions -/

theorem completes_arrow : Completes c g (checkArrow self node expected) := by
  have htype : Completes c g (arrowType self node expected) := by
    refine Completes.read (.get fun s => ?_)
    split
    · exact .pure _
    · refine Completes.bind (Idle.takeContext _ _).completes fun _ => ?_
      refine Completes.bind (h.completes_signature hp hfits) fun _ => ?_
      exact Completes.bind (.alloc _) fun _ =>
        Completes.bind (.modify fun _ => .of_same rfl rfl rfl) fun _ => .pure _
  refine Completes.bind htype fun type => Completes.read ?_
  split
  · exact Completes.bind (h.completes_function hp hfits) fun _ => .pure _
  · exact .pure _

theorem completes_expressionForm (hform : c.arena.form? node = some form) :
    Completes c g (expressionType self node expected form) := by
  have hchildren := Arena.children_of_form? hform
  cases form with
  | numericLiteral text => exact .alloc _
  | stringLiteral text => exact .alloc _
  | keyword word => exact (Idle.keyword _ _ _ _).completes
  | identifier text => exact h.completes_name hp hfits
  | parenthesized inner => exact h.expression_child hp hfits (by simp [hchildren, Form.children])
  | arrayLiteral elements => exact h.completes_array hp hfits (by simp [hchildren, Form.children])
  | objectLiteral properties =>
    exact h.completes_object hp hfits (by simp [hchildren, Form.children])
  | call callee arguments =>
    exact h.completes_call hp hfits (by simp [hchildren, Form.children])
      (by simp [hchildren, Form.children])
  | newExpression callee arguments =>
    exact h.completes_new hp hfits (by simp [hchildren, Form.children])
      (by simp [hchildren, Form.children])
  | propertyAccess object name =>
    exact h.completes_propertyAccess hp hfits (by simp [hchildren, Form.children])
  | elementAccess object index =>
    exact h.completes_elementAccess hp hfits (by simp [hchildren, Form.children])
      (by simp [hchildren, Form.children])
  | prefixUnary operator operand =>
    exact h.completes_prefix hp hfits (by simp [hchildren, Form.children])
  | postfixUnary operator operand =>
    refine Completes.bind (h.expression_child hp hfits (by simp [hchildren, Form.children]))
      fun _ => ?_
    exact Completes.bind (.checkTarget _) fun _ => .pure _
  | typeOf operand =>
    exact Completes.bind (h.expression_child hp hfits (by simp [hchildren, Form.children]))
      fun _ => .pure _
  | binary left operator right =>
    exact h.completes_binary hp hfits (by simp [hchildren, Form.children])
      (by simp [hchildren, Form.children])
  | conditional condition whenTrue whenFalse =>
    have hpart {part : NodeId} {wanted : Option TypeId}
        (hmem : part ∈ [condition, whenTrue, whenFalse]) :
        Completes c g (self.expression part wanted) :=
      h.expression_child hp hfits (hchildren ▸ hmem)
    refine Completes.bind (hpart (by simp)) fun _ => ?_
    refine Completes.bind (hpart (by simp)) fun t => ?_
    exact Completes.bind (hpart (by simp)) fun f => .alloc _
  | function kind p =>
    cases kind with
    | arrow => exact h.completes_arrow hp hfits
    | _ => exact .pure _
  | asExpression operand type =>
    refine Completes.bind (h.typeNode_child hp hfits (by simp [hchildren, Form.children]))
      fun target => ?_
    exact Completes.bind (h.expression_child hp hfits (by simp [hchildren, Form.children]))
      fun _ => .pure _
  | _ => exact .pure _

theorem completes_expression : Completes c g (Checking.expression self node expected) := by
  refine Completes.read ?_
  split
  · exact .pure _
  · refine Completes.bind (.in_expression ?_) fun type =>
      Completes.bind (.record _ _) fun _ => .pure _
    cases hform : c.arena.form? node with
    | none => exact .pure _
    | some form => exact h.completes_expressionForm hp hfits hform

end

/-! ### Statements -/

section

variable (hfits : Fits size g (n + 1) c.arena node)

include hfits

theorem completes_statement? (ho : o.toList ⊆ c.arena.children node) :
    Completes c g (statement? self o) := by
  cases o with
  | none => exact .pure _
  | some child => exact h.statement_child hp hfits (ho (List.mem_singleton_self child))

theorem completes_statements (hc : nodes ⊆ c.arena.children node) :
    Completes c g (statements self nodes) :=
  Completes.bind (.mapM fun _ hmem => h.statement_child hp hfits (hc hmem)) fun _ => .pure _

theorem completes_lookAt (ho : o.toList ⊆ c.arena.children node) :
    Completes c g (lookAt self o) :=
  .forM_option fun _ hmem =>
    Completes.bind (h.expression_child hp hfits (ho hmem)) fun _ => .pure _

theorem completes_loopBody (ho : o.toList ⊆ c.arena.children node) :
    Completes c g (loopBody self o) :=
  .in_loop (h.completes_statement? hp hfits ho)

theorem completes_loopStart (ho : o.toList ⊆ c.arena.children node) :
    Completes c g (loopStart self o) := by
  unfold loopStart
  cases o with
  | none => exact .pure _
  | some child =>
    have hc : child ∈ c.arena.children node := ho (List.mem_singleton_self child)
    refine Completes.read ?_
    split
    · exact h.statement_child hp hfits hc
    · exact Completes.bind (h.expression_child hp hfits hc) fun _ => .pure _

theorem completes_return (ho : o.toList ⊆ c.arena.children node) :
    Completes c g (checkReturn self node o) := by
  refine Completes.read ?_
  split
  · refine Completes.bind (.reportStart _ _ _) fun _ => ?_
    exact Completes.bind (h.completes_lookAt hp hfits ho) fun _ => .pure _
  · split
    · exact .pure _
    · rename_i value
      have hc : value ∈ c.arena.children node := ho (List.mem_singleton_self value)
      refine Completes.bind (h.expression_child hp hfits hc) fun type => ?_
      exact Completes.bind (.forM_option fun _ _ => .checkAssignable _ _ _) fun _ => .pure _

theorem completes_variable (hvalue : ∀ value : Nat, c.bindings.iterated? c.file node = some value →
    worth size g + 2 * value + 3 ≤ n) : Completes c g (checkVariable self node) := by
  refine Completes.read ?_
  cases hform : c.arena.form? node with
  | none => exact .pure _
  | some form =>
    have hchildren := Arena.children_of_form? hform
    cases form with
    | variableDeclaration p =>
      have htype : p.ascription.toList ⊆ c.arena.children node := by
        simp [hchildren, Form.children]
      have hinitializer : p.initializer.toList ⊆ c.arena.children node := by
        simp [hchildren, Form.children]
      dsimp -zetaHave only
      extract_lets rest
      have hrest : ∀ type, Completes c g (rest type) := by
        intro type
        refine Completes.bind (h.completes_ascription hp hfits htype) fun annotated => ?_
        refine Completes.bind (h.completes_initializer hp hfits hinitializer) fun _ => ?_
        exact Completes.bind (.record _ _) fun _ => .record _ _
      cases c.declared? node with
      | some symbol => exact Completes.bind (h.valueType hp hfits.symbol) hrest
      | none =>
        exact Completes.bind (.in_silence (h.completes_variableType hp hfits hvalue)) hrest
    | _ => exact .pure _

theorem completes_functionDeclaration :
    Completes c g (checkFunctionDeclaration self node p) := by
  refine Completes.read ?_
  extract_lets ambient symbol rest
  refine Completes.bind (.forM_option fun id _ => ?_) fun _ => ?_
  · refine Completes.bind (h.valueType hp hfits.symbol) fun type => ?_
    exact Completes.bind (.record _ _) fun _ => .record? _ _
  · have hrest : ∀ r, Completes c g (rest r) := fun _ => h.completes_function hp hfits
    split
    · split
      · exact Completes.bind (.reportStart _ _ _) hrest
      · exact hrest ()
    · split
      · exact Completes.bind (.forM_option fun _ _ => .report _ _) hrest
      · exact hrest ()

/-! #### Classes, interfaces and imports -/

theorem completes_classProperty (htype : property.ascription.toList ⊆ c.arena.children node)
    (hinitializer : property.initializer.toList ⊆ c.arena.children node) :
    Completes c g (checkProperty self types name property) := by
  refine Completes.read (Completes.bind (Idle.ownPropertyType _ _).completes fun type => ?_)
  refine Completes.bind (h.completes_ascription hp hfits htype) fun annotated => ?_
  refine Completes.bind (h.completes_initializer hp hfits hinitializer) fun _ => ?_
  exact Completes.bind (.record _ _) fun _ => .record _ _

theorem completes_member :
    Completes c g (checkMember self types parts ambient node) := by
  refine Completes.read ?_
  cases hform : c.arena.form? node with
  | none => exact .pure _
  | some form =>
    have hchildren := Arena.children_of_form? hform
    cases form with
    | propertyDeclaration p =>
      exact h.completes_classProperty hp hfits (by simp [hchildren, Form.children])
        (by simp [hchildren, Form.children])
    | function kind p =>
      have hrest : ∀ type, Completes c g (do
          record node type
          record? p.name type
          checkFunction self node) := fun type =>
        Completes.bind (.record _ _) fun _ => Completes.bind (.record? _ _) fun _ =>
          h.completes_function hp hfits
      dsimp only
      split
      · have hfound : Completes c g (do
            let type ←
              if kind = .constructor then pure types.constructorType
              else checkMethodName types parts.members (ambient || p.modifiers.ambient) p
            record node type
            record? p.name type
            checkFunction self node) := by
          split
          · exact Completes.bind (.pure _) hrest
          · exact Completes.bind (.checkMethodName _ _ _ _) hrest
        split
        · exact Completes.bind (.forM_option fun _ _ => .reportStart _ _ _) fun _ => hfound
        · exact hfound
      · exact .pure _
    | _ => exact .pure _

theorem completes_checkClass (hform : c.arena.form? node = some (.classDeclaration parts)) :
    Completes c g (checkClass self node parts) := by
  have hchildren := Arena.children_of_form? hform
  refine Completes.read ?_
  split
  · exact .pure _
  · refine Completes.bind (h.classTypes hp (Nat.le_of_succ_le hfits.symbol)) fun types => ?_
    refine Completes.bind (.record _ _) fun _ => Completes.bind (.record _ _) fun _ => ?_
    refine Completes.bind (.forM_option fun base hmem => ?_) fun _ => .in_class ?_
    · have hc : base ∈ c.arena.children node := by
        rw [hchildren]
        exact List.mem_cons_of_mem _ (List.mem_append_left _ hmem)
      exact Completes.bind (h.typeNode_child hp hfits hc) fun _ => .pure _
    · refine .forM fun member hmem => ?_
      have hc : member ∈ c.arena.children node := by
        rw [hchildren]
        exact List.mem_cons_of_mem _ (List.mem_append_right _ hmem)
      exact h.completes_member hp (.more (hfits.below (hp.forest _) hc))

theorem completes_declaredTypeOf : Completes c g (declaredTypeOf self node) := by
  refine Completes.read ?_
  split
  · exact .pure _
  · exact h.declaredType hp hfits.symbol

theorem completes_signatureMember {type : TypeId} :
    Completes c g (checkSignatureMember self type node) := by
  refine Completes.read ?_
  extract_lets a
  have hproperty : ∀ p : PropertyParts, p.ascription.toList ⊆ c.arena.children node →
      Completes c g (do
        let type := (← ascription self p.ascription).getD .any
        record node type
        record p.name type) := fun p htype =>
    Completes.bind (h.completes_ascription hp hfits htype) fun _ =>
      Completes.bind (.record _ _) fun _ => .record _ _
  cases hform : c.arena.form? node with
  | none => exact .pure _
  | some form =>
    have hchildren := Arena.children_of_form? hform
    cases form with
    | propertySignature p => exact hproperty p (by simp [hchildren, Form.children])
    | propertyDeclaration p => exact hproperty p (by simp [hchildren, Form.children])
    | function kind p =>
      have hparameters : p.parameters ⊆ c.arena.children node := by simp [hchildren, Form.children]
      have htype : p.returnType.toList ⊆ c.arena.children node := by
        rw [hchildren]
        exact fun type ht => List.mem_append_left _ (List.mem_append_right _ ht)
      refine Completes.bind (.forM fun parameter hmem => ?_) fun _ => ?_
      · refine h.completes_signatureParameter hp ?_
        exact (hfits.below (hp.forest _) (hparameters hmem)).more
      refine Completes.bind (h.completes_ascription hp hfits htype) fun _ => ?_
      refine Completes.bind (Idle.ownPropertyType _ _).completes fun _ => ?_
      exact Completes.bind (.record _ _) fun _ => .record? _ _
    | _ => exact .pure _

theorem completes_checkInterface {p : InterfaceParts}
    (hform : c.arena.form? node = some (.interfaceDeclaration p)) :
    Completes c g (checkInterface self node p) := by
  have hchildren := Arena.children_of_form? hform
  refine Completes.bind (h.completes_declaredTypeOf hp hfits) fun declared => ?_
  refine Completes.bind (.record _ _) fun _ => Completes.bind (.record _ _) fun _ => ?_
  refine Completes.bind (.forM fun base hmem => ?_) fun _ => .forM fun member hmem => ?_
  · have hc : base ∈ c.arena.children node := by
      rw [hchildren]
      exact List.mem_cons_of_mem _ (List.mem_append_left _ hmem)
    exact Completes.bind (h.typeNode_child hp hfits hc) fun _ => .pure _
  · have hc : member ∈ c.arena.children node := by
      rw [hchildren]
      exact List.mem_cons_of_mem _ (List.mem_append_right _ hmem)
    exact h.completes_signatureMember hp (hfits.below (hp.forest _) hc).more

theorem completes_checkAlias {p : AliasParts}
    (hform : c.arena.form? node = some (.typeAlias p)) :
    Completes c g (checkAlias self node p) := by
  have hc : p.aliased ∈ c.arena.children node := by
    simp [Arena.children_of_form? hform, Form.children]
  refine Completes.bind (h.completes_declaredTypeOf hp hfits) fun declared => ?_
  refine Completes.bind (h.typeNode_child hp hfits hc) fun _ => ?_
  exact .forM_option fun _ _ => Completes.bind (.record _ _) fun _ => .record _ _

theorem completes_import {source : Option NodeId} :
    Completes c g (checkImport self nodes source) := by
  refine Completes.read ?_
  dsimp only
  split
  · exact .forM_option fun _ _ => .report _ _
  · refine .forM fun specifier _ => Completes.read ?_
    split
    · split
      · exact .report _ _
      · have hrecord : ∀ (name : NodeId) (other : Option NodeId) (type : TypeId),
            Completes c g (do
              record specifier type
              record name type
              record? other type) := fun name other type =>
          Completes.bind (.record _ _) fun _ => Completes.bind (.record _ _) fun _ => .record? _ _
        dsimp only
        split
        · exact Completes.bind (h.valueType hp hfits.symbol) (hrecord _ _)
        · refine Completes.bind (h.declaredType hp hfits.symbol) fun _ => ?_
          exact Completes.bind (.pure _) (hrecord _ _)
    · exact .pure _

/-! #### All statements -/

theorem completes_statementForm (hloops : LoopsFit size g (n + 1) c node)
    (hform : c.arena.form? node = some form) : Completes c g (checkStatement self node form) := by
  have hchildren := Arena.children_of_form? hform
  have hnothing : ∀ {x : Check Unit}, Completes c g x → Completes c g (returningNothing x) :=
    fun hx => Completes.bind hx fun _ => .pure _
  cases form with
  | function kind p =>
    cases kind with
    | declaration => exact hnothing (h.completes_functionDeclaration hp hfits)
    | _ => exact .pure _
  | classDeclaration p => exact hnothing (h.completes_checkClass hp hfits hform)
  | interfaceDeclaration p => exact hnothing (h.completes_checkInterface hp hfits hform)
  | typeAlias p => exact hnothing (h.completes_checkAlias hp hfits hform)
  | variableStatement modifiers kind declarations =>
    refine hnothing (.forM fun declaration hmem => ?_)
    have hc : declaration ∈ c.arena.children node := hchildren ▸ hmem
    refine h.completes_variable hp (hfits.below (hp.forest _) hc).more fun value hvalue => ?_
    exact Nat.le_of_succ_le_succ (hloops declaration hc value hvalue)
  | importDeclaration specifiers source => exact hnothing (h.completes_import hp hfits)
  | block nodes =>
    have hnodes : nodes ⊆ c.arena.children node := by simp [hchildren, Form.children]
    exact Completes.read (.in_scope (h.completes_statements hp hfits hnodes))
  | expressionStatement e =>
    exact hnothing (h.completes_lookAt hp hfits (by simp [hchildren, Form.children]))
  | returnStatement value =>
    exact h.completes_return hp hfits (by simp [hchildren, Form.children])
  | ifStatement condition thenBranch elseBranch =>
    refine Completes.bind (h.completes_lookAt hp hfits (by simp [hchildren, Form.children]))
      fun _ => ?_
    refine Completes.bind (h.completes_statement? hp hfits (by simp [hchildren, Form.children]))
      fun _ => ?_
    exact Completes.bind (h.completes_statement? hp hfits (by simp [hchildren, Form.children]))
      fun _ => .pure _
  | whileStatement condition body =>
    exact Completes.bind (h.completes_lookAt hp hfits (by simp [hchildren, Form.children]))
      fun _ => h.completes_loopBody hp hfits (by simp [hchildren, Form.children])
  | forStatement start condition increment body =>
    have hpart {part : Option NodeId} (hmem : part ∈ [start, condition, increment, body]) :
        part.toList ⊆ c.arena.children node := by
      have hsub : part.toList ⊆ [start, condition, increment, body].flatMap Option.toList :=
        fun n hn => List.mem_flatMap.2 ⟨part, hmem, hn⟩
      simpa [hchildren, Form.children] using hsub
    refine Completes.read (.in_scope ?_)
    refine Completes.bind (h.completes_loopStart hp hfits (hpart (by simp))) fun _ => ?_
    refine Completes.bind (h.completes_lookAt hp hfits (hpart (by simp))) fun _ => ?_
    refine Completes.bind (h.completes_lookAt hp hfits (hpart (by simp))) fun _ => ?_
    exact Completes.bind (h.completes_loopBody hp hfits (hpart (by simp))) fun _ => .pure _
  | forOfStatement start iterated body =>
    have hstart : start.toList ⊆ c.arena.children node := by simp [hchildren, Form.children]
    have hvalue : (some iterated).toList ⊆ c.arena.children node := by
      simp [hchildren, Form.children]
    have hbody : body.toList ⊆ c.arena.children node := by
      rw [hchildren]
      exact fun n hn => List.mem_append_right _ (List.mem_cons_of_mem _ hn)
    refine Completes.read (.in_scope ?_)
    refine Completes.bind (h.completes_lookAt hp hfits hvalue) fun _ => ?_
    refine Completes.bind (h.completes_loopStart hp hfits hstart) fun _ => ?_
    exact Completes.bind (h.completes_loopBody hp hfits hbody) fun _ => .pure _
  | breakStatement => exact hnothing (.checkJump _ _ _)
  | continueStatement => exact hnothing (.checkJump _ _ _)
  | _ => exact .pure _

theorem completes_statement (hloops : LoopsFit size g (n + 1) c node) :
    Completes c g (Checking.statement self node) := by
  refine Completes.read ?_
  cases hform : c.arena.form? node with
  | none => exact .pure _
  | some form => exact h.completes_statementForm hp hfits hloops hform

end

end Within

/-- The rules with at most `n` nested uses complete wherever `n` nested uses
are enough. -/
theorem rules_within (size n : Nat) : Within size n (rules n) := by
  induction n with
  | zero =>
    exact
      { typeNode := fun _ hfits => absurd hfits (Nat.not_succ_le_zero _)
        expression := fun _ hfits => absurd hfits (Nat.not_succ_le_zero _)
        statement := fun _ hfits => absurd hfits (Nat.not_succ_le_zero _)
        valueType := fun _ hn => absurd hn (Nat.not_succ_le_zero _)
        declaredType := fun _ hn => absurd hn (Nat.not_succ_le_zero _)
        classTypes := fun _ hn => absurd hn (Nat.not_succ_le_zero _) }
  | succ n ih =>
    exact
      { typeNode := fun hp hfits => ih.completes_typeNode hp hfits
        expression := fun hp hfits => ih.completes_expression hp hfits
        statement := fun hp hfits hloops => ih.completes_statement hp hfits hloops
        valueType := fun hp hn => ih.completes_valueType hp (Nat.le_of_succ_le_succ hn)
        declaredType := fun hp hn => ih.completes_declaredType hp (Nat.le_of_succ_le_succ hn)
        classTypes := fun hp hn => ih.completes_class hp (Nat.le_of_succ_le_succ hn) }

end ScriptAnalysis.Checking
