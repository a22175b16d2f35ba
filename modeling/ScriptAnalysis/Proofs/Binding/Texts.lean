import ScriptAnalysis.Binding

/-!
# The walk over a file does not look at its text

Two files with one syntax tree and different texts declare the same. The
binder reads names off the tree, so no step of the walk can tell the files
apart (`Overlooks`). Each step is shown to be of this kind from its parts, the
steps that go further down from what they go down with (`Walks`).

**Results.**
* `walkWithin_overlooks`: the whole walk, by induction on its depth.
* `bindProgram_withTextOf`: the bindings of a program depend on the texts of
  its files only through their trees.
-/
namespace ScriptAnalysis

/-- The file with the text of another one, its syntax tree as it is. -/
def SourceFile.withTextOf (f g : SourceFile) : SourceFile :=
  { f with text := g.text, errors := g.errors }

namespace Binding

variable {α β : Type} {f g : SourceFile}

/-- The walk does the same in a file with another text. -/
def Overlooks (f g : SourceFile) (x : Binder α) : Prop :=
  ∀ id names b, x ⟨f.withTextOf g, id, names⟩ b = x ⟨f, id, names⟩ b

namespace Overlooks

theorem bind {x : Binder α} {k : α → Binder β} (hx : Overlooks f g x)
    (hk : ∀ a, Overlooks f g (k a)) : Overlooks f g (x >>= k) := by
  intro id names b
  show k (x ⟨f.withTextOf g, id, names⟩ b).1 _ (x ⟨f.withTextOf g, id, names⟩ b).2 = _
  rw [hx, hk]
  rfl

theorem pure (a : α) : Overlooks f g (Pure.pure a : Binder α) :=
  fun _ _ _ => rfl

theorem modify (k : Bindings → Bindings) : Overlooks f g (modify k : Binder PUnit) :=
  fun _ _ _ => rfl

theorem get {k : Bindings → Binder β} (hk : ∀ b, Overlooks f g (k b)) :
    Overlooks f g ((MonadState.get : Binder Bindings) >>= k) :=
  fun id names b => hk b id names b

theorem read {k : Context → Binder β}
    (hsame : ∀ id names, k ⟨f.withTextOf g, id, names⟩ = k ⟨f, id, names⟩)
    (hk : ∀ id names, Overlooks f g (k ⟨f, id, names⟩)) :
    Overlooks f g ((MonadReader.read : Binder Context) >>= k) := by
  intro id names b
  show k ⟨f.withTextOf g, id, names⟩ _ b = k ⟨f, id, names⟩ _ b
  rw [hsame]
  exact hk id names id names b

theorem forM {xs : List α} {k : α → Binder PUnit} (h : ∀ a, Overlooks f g (k a)) :
    Overlooks f g (xs.forM k) := by
  induction xs with
  | nil => exact pure _
  | cons a rest ih =>
    show Overlooks f g (k a >>= fun _ => rest.forM k)
    exact (h a).bind fun _ => ih

theorem forM_option {o : Option α} {k : α → Binder PUnit} (h : ∀ a, Overlooks f g (k a)) :
    Overlooks f g (o.forM k) := by
  cases o with
  | none => exact pure _
  | some a => exact h a

theorem arena : Overlooks f g arena :=
  fun _ _ _ => rfl

theorem site (node : NodeId) : Overlooks f g (site node) :=
  fun _ _ _ => rfl

theorem reportDuplicate (name : String) (declaration : Site) (nameNode : Option NodeId) :
    Overlooks f g (reportDuplicate name declaration nameNode) := by
  refine read (fun _ _ => rfl) fun id names => get fun b => ?_
  split
  · exact pure _
  · refine bind (fun _ _ _ => rfl) fun _ => ?_
    split
    · exact pure _
    · exact modify _

theorem reportFirst (name : String) (first : Site) : Overlooks f g (reportFirst name first) := by
  refine read (fun _ _ => rfl) fun id names => ?_
  split
  · exact reportDuplicate _ _ _
  · exact pure _

theorem joinSymbol (id : SymbolId) (name : String) (nameNode : NodeId) (declaration : Site)
    (flags : Flags) (exported : Bool) :
    Overlooks f g (joinSymbol id name nameNode declaration flags exported) := by
  refine get fun b => ?_
  dsimp only
  split
  · exact modify _
  · refine (reportDuplicate _ _ _).bind fun _ => ?_
    split
    · exact (reportFirst _ _).bind fun _ => modify _
    · exact modify _

theorem declare (scope : ScopeId) (nameNode declaration : NodeId) (flags : Flags)
    (exported constant : Bool) :
    Overlooks f g (declare scope nameNode declaration flags exported constant) := by
  refine arena.bind fun a => ?_
  split
  · exact pure _
  · split
    · exact pure _
    · refine (site _).bind fun declaration => (modify _).bind fun _ => get fun b => ?_
      extract_lets existing rest
      have hrest : ∀ id, Overlooks f g (rest id) := by
        intro id
        show Overlooks f g (if _ then _ else _)
        split
        · refine read (fun _ _ => rfl) fun _ _ => ?_
          exact (modify _).bind fun _ => (modify _).bind fun _ => pure _
        · exact (modify _).bind fun _ => pure _
      clear_value existing
      cases existing with
      | some id => exact (joinSymbol _ _ _ _ _ _).bind fun _ => (pure _).bind hrest
      | none => exact Overlooks.bind (fun _ _ _ => rfl) hrest

theorem enterScope (node : NodeId) (parent : ScopeId) (isFunction : Bool) :
    Overlooks f g (enterScope node parent isFunction) :=
  fun _ _ _ => rfl

theorem bindImport (scope : ScopeId) (specifiers : List NodeId) (source : Option NodeId) :
    Overlooks f g (bindImport scope specifiers source) := by
  refine read (fun _ _ => rfl) fun id names => forM fun node => ?_
  split
  · refine (declare _ _ _ _ _ _).bind fun found => ?_
    split
    · exact modify _
    · exact pure _
  · exact pure _

/-- The walks below do the same. -/
structure Walks (f g : SourceFile) (walk : Walk) : Prop where
  statement : ∀ node scope top, Overlooks f g (walk.statement node scope top)
  expression : ∀ node scope, Overlooks f g (walk.expression node scope)

variable {walk : Walk} (h : Walks f g walk)

include h

theorem bindFunction (node : NodeId) (p : FunctionParts) (scope : ScopeId) :
    Overlooks f g (bindFunction walk node p scope) := by
  refine arena.bind fun a => (enterScope _ _ _).bind fun inner => ?_
  refine (forM fun parameter => ?_).bind fun _ => ?_
  · split
    · exact (declare _ _ _ _ _ _).bind fun _ => forM_option fun _ => h.expression _ _
    · exact pure _
  · split
    · exact pure _
    · split
      · exact (site _).bind fun s => (modify _).bind fun _ => forM fun _ => h.statement _ _ _
      · exact h.expression _ _
      · exact pure _

theorem bindVariable (target lexical : ScopeId) (exported : Bool) (kind : VariableKind)
    (declaration : NodeId) :
    Overlooks f g (bindVariable walk target lexical exported kind declaration) := by
  refine arena.bind fun a => ?_
  split
  · refine (declare _ _ _ _ _ _).bind fun _ => (site _).bind fun s => (modify _).bind fun _ => ?_
    exact forM_option fun _ => h.expression _ _
  · exact pure _

theorem bindMember (scope : ScopeId) (member : NodeId) :
    Overlooks f g (bindMember walk scope member) := by
  refine arena.bind fun a => ?_
  split
  · exact bindFunction h _ _ _
  · exact forM_option fun _ => h.expression _ _
  · exact forM_option fun _ => h.expression _ _
  · exact pure _

omit h in
theorem noteIterated (initializer : Option NodeId) (iterated : NodeId) :
    Overlooks f g (noteIterated initializer iterated) := by
  refine arena.bind fun a => ?_
  split
  · exact forM fun _ => (site _).bind fun s => modify _
  · exact pure _

theorem bindStatement (node : NodeId) (scope : ScopeId) (top : Bool) :
    Overlooks f g (bindStatement walk node scope top) := by
  refine arena.bind fun a => ?_
  dsimp only
  split
  · exact pure _
  · split
    · exact (forM_option fun _ => (declare _ _ _ _ _ _).bind fun _ => pure _).bind fun _ =>
        bindFunction h _ _ _
    · exact (declare _ _ _ _ _ _).bind fun _ => forM fun _ => bindMember h _ _
    · exact (declare _ _ _ _ _ _).bind fun _ => pure _
    · exact (declare _ _ _ _ _ _).bind fun _ => pure _
    · exact get fun b => forM fun _ => bindVariable h _ _ _ _ _
    · exact bindImport _ _ _
    · exact (enterScope _ _ _).bind fun inner => forM fun _ => h.statement _ _ _
    · refine (enterScope _ _ _).bind fun inner => ?_
      refine (forM_option fun _ => h.statement _ _ _).bind fun _ => ?_
      refine (forM_option fun _ => h.expression _ _).bind fun _ => ?_
      refine (forM_option fun _ => h.expression _ _).bind fun _ => ?_
      exact forM_option fun _ => h.statement _ _ _
    · refine (enterScope _ _ _).bind fun inner => (noteIterated _ _).bind fun _ => ?_
      refine (forM_option fun _ => h.statement _ _ _).bind fun _ => ?_
      exact (h.expression _ _).bind fun _ => forM_option fun _ => h.statement _ _ _
    · refine forM fun child => ?_
      split
      · exact h.statement _ _ _
      · exact h.expression _ _

theorem bindExpression (node : NodeId) (scope : ScopeId) :
    Overlooks f g (bindExpression walk node scope) := by
  refine arena.bind fun a => ?_
  split
  · exact pure _
  · exact bindFunction h _ _ _
  · exact forM fun _ => h.expression _ _

end Overlooks

theorem walkWithin_overlooks (n : Nat) : Overlooks.Walks f g (walkWithin n) := by
  induction n with
  | zero => exact ⟨fun _ _ _ => .pure _, fun _ _ => .pure _⟩
  | succ n ih => exact ⟨Overlooks.bindStatement ih, Overlooks.bindExpression ih⟩

/-- What a file binds does not depend on its text. -/
theorem bindFile_withTextOf (names : List String) (b : Bindings) (id : FileId) :
    bindFile names b (f.withTextOf g) id = bindFile names b f id := by
  unfold bindFile
  have hwalk : Overlooks f g (f.statements.forM fun node =>
      (walkWithin (f.arena.size + 1)).statement node (openFile f id b).1 true) :=
    .forM fun node => (walkWithin_overlooks _).statement node _ true
  exact congrArg Prod.snd (hwalk id names (openFile f id b).2)

theorem bindProgram_withTextOf (w : SourceFile → SourceFile) (files : List SourceFile) :
    bindProgram (files.map fun f => f.withTextOf (w f)) = bindProgram files := by
  have hnames : (files.map fun f => f.withTextOf (w f)).map SourceFile.name =
      files.map SourceFile.name := by
    rw [List.map_map]
    rfl
  unfold bindProgram
  rw [hnames, List.length_map, List.zipIdx_map, List.foldl_map]
  simp only [Prod.map, bindFile_withTextOf, id_eq]

end Binding

end ScriptAnalysis
