import ScriptAnalysis.Checker
import ScriptAnalysis.Proofs.Binding.Texts
import ScriptAnalysis.Proofs.Checking.Record

/-!
# What the checker sees of a text

The checker reads the syntax trees of the files. It goes back to a text at one
place, to find the question mark behind the name of a method in an interface
(`isOptionalMethod`). So two programs whose files differ only in their texts,
with the same of these marks (`SameMarks`), are checked in the same way.

**Steps.** `Blind w c x` relates two runs of a step, one at `c` and one at the
same place with the text of `w f` for each file `f`: same result, same state,
and both end where they have started. A step that looks around may look at
anything that is the same with other texts (`Blind.read`); the lemmas
`Context.…_reworded` are tagged for `simp`, which settles that part.

**Results.**
* `Sightless.blind_…`: a lemma for each function of the checker, from the rules
  for its parts.
* `Sightless.signatures_of_members`: the methods that are put off while an
  interface is put together are the ones that `SameMarks` speaks of.
* `rules_sightless`: the rules with any number of nested uses, by induction.
-/
namespace ScriptAnalysis

namespace Checking

variable {α β : Type} {w : SourceFile → SourceFile} {c : Context}

/-- The context with the text of `w f` for each file `f`. -/
def Context.reworded (c : Context) (w : SourceFile → SourceFile) : Context :=
  { c with files := c.files.map fun f => f.withTextOf (w f) }

namespace Context

theorem sourceFile_reworded (file : FileId) :
    (c.reworded w).sourceFile file =
      ((c.files[file]?).map fun f => f.withTextOf (w f)).getD default := by
  show (c.files.map _).getD file default = _
  rw [Array.getD_eq_getD_getElem?, Array.getElem?_map]

/-- Whatever is the same for a file with another text is the same in the whole
context. -/
theorem field_reworded {p : SourceFile → β} (hp : ∀ f g : SourceFile, p (f.withTextOf g) = p f)
    (file : FileId) : p ((c.reworded w).sourceFile file) = p (c.sourceFile file) := by
  rw [sourceFile_reworded]
  show _ = p (c.files.getD file default)
  rw [Array.getD_eq_getD_getElem?]
  cases c.files[file]? with
  | none => rfl
  | some f => exact hp f _

@[simp] theorem toStandpoint_reworded : (c.reworded w).toStandpoint = c.toStandpoint := rfl

@[simp] theorem bindings_reworded : (c.reworded w).bindings = c.bindings := rfl

@[simp] theorem options_reworded : (c.reworded w).options = c.options := rfl

@[simp] theorem site_reworded (node : NodeId) : (c.reworded w).site node = c.site node := rfl

@[simp] theorem symbol?_reworded (id : SymbolId) : (c.reworded w).symbol? id = c.symbol? id := rfl

@[simp] theorem symbol?_reworded' : (c.reworded w).symbol? = c.symbol? := rfl

@[simp] theorem declared?_reworded (node : NodeId) :
    (c.reworded w).declared? node = c.declared? node := rfl

@[simp] theorem scopeOf_reworded (node : NodeId) :
    (c.reworded w).scopeOf node = c.scopeOf node := rfl

@[simp] theorem scopeAround_reworded (s : Site) :
    (c.reworded w).scopeAround s = c.scopeAround s := rfl

@[simp] theorem scopeInside_reworded (s : Site) :
    (c.reworded w).scopeInside s = c.scopeInside s := rfl

@[simp] theorem resolve_reworded (name : String) (meaning : Meaning) :
    (c.reworded w).resolve name meaning = c.resolve name meaning := rfl

@[simp] theorem importTarget?_reworded (id : SymbolId) :
    (c.reworded w).importTarget? id = c.importTarget? id := rfl

@[simp] theorem returns_reworded : (c.reworded w).returns = c.returns := rfl

@[simp] theorem this_reworded : (c.reworded w).this = c.this := rfl

@[simp] theorem inLoop_reworded : (c.reworded w).inLoop = c.inLoop := rfl

@[simp] theorem recording_reworded : (c.reworded w).recording = c.recording := rfl

@[simp] theorem arena_sourceFile_reworded (file : FileId) :
    ((c.reworded w).sourceFile file).arena = (c.sourceFile file).arena :=
  field_reworded (fun _ _ => rfl) file

@[simp] theorem arena_reworded : (c.reworded w).arena = c.arena :=
  arena_sourceFile_reworded _

@[simp] theorem form?_reworded (s : Site) : (c.reworded w).form? s = c.form? s :=
  congrArg (·.form? s.node) (arena_sourceFile_reworded s.file)

@[simp] theorem name_source_reworded : (c.reworded w).source.name = c.source.name :=
  field_reworded (p := SourceFile.name) (fun _ _ => rfl) _

@[simp] theorem isDeclaration_source_reworded :
    (c.reworded w).source.isDeclaration = c.source.isDeclaration :=
  field_reworded (p := SourceFile.isDeclaration) (fun _ _ => rfl) _

@[simp] theorem any_files_reworded (path : String) :
    (c.reworded w).files.any (·.name == path) = c.files.any (·.name == path) := by
  show (c.files.map _).any _ = _
  rw [Array.any_map]
  rfl

end Context

theorem thisOfChain_reworded (s : State) (scopes : List ScopeId) :
    thisOfChain (c.reworded w) s scopes = thisOfChain c s scopes := by
  induction scopes with
  | nil => rfl
  | cons id outer ih =>
    unfold thisOfChain
    simp only [Context.bindings_reworded, Context.form?_reworded, ih]

@[simp] theorem thisOfScope_reworded (s : State) (scope : ScopeId) :
    thisOfScope (c.reworded w) s scope = thisOfScope c s scope :=
  thisOfChain_reworded s _

@[simp] theorem hasImplementation_reworded (symbol : Option SymbolId) :
    hasImplementation (c.reworded w) symbol = hasImplementation c symbol := by
  unfold hasImplementation
  simp only [Context.symbol?_reworded', Context.arena_sourceFile_reworded]

/-! ## Steps that are blind to the texts -/

/-- A method of an interface of the file. -/
def IsSignature (c : Context) (node : NodeId) : Prop :=
  ∃ p, c.arena.form? node = some (.function .methodSignature p)

def AllSignatures (c : Context) (methods : Table String (List NodeId)) : Prop :=
  ∀ e ∈ methods.entries, ∀ node ∈ e.2, IsSignature c node

/-- The other texts have a question mark behind the name of a method of an
interface where these have one. -/
def SameMarks (w : SourceFile → SourceFile) (c : Context) : Prop :=
  ∀ file node p, (c.sourceFile file).arena.form? node = some (.function .methodSignature p) →
    isOptionalMethod ((c.reworded w).sourceFile file) node =
      isOptionalMethod (c.sourceFile file) node

theorem SameMarks.move {c' : Context} (h : SameMarks w c) (hfiles : c'.files = c.files) :
    SameMarks w c' := by
  unfold SameMarks Context.sourceFile Context.reworded at *
  rw [hfiles]
  exact h

/-- At `c` the step does the same with other texts for the files, as long as
these have the same marks, and it ends at `c` again. -/
def Blind (w : SourceFile → SourceFile) (c : Context) (x : Check α) : Prop :=
  SameMarks w c → ∀ s, (x c s).1.2 = c ∧
    x (c.reworded w) s = (((x c s).1.1, c.reworded w), (x c s).2)

namespace Blind

variable {x : Check α} {f : α → Check β}

theorem pure (a : α) : Blind w c (Pure.pure a : Check α) :=
  fun _ _ => ⟨rfl, rfl⟩

theorem bind_gives (hx : Blind w c x) (hf : ∀ a, Gives c x a → Blind w c (f a)) :
    Blind w c (x >>= f) := by
  intro hmarks s
  obtain ⟨hback, hsame⟩ := hx hmarks s
  obtain ⟨hback', hsame'⟩ := hf (x c s).1.1 ⟨s, rfl⟩ hmarks (x c s).2
  rw [bind_apply, bind_apply, hback, hsame]
  exact ⟨hback', hsame'⟩

theorem bind (hx : Blind w c x) (hf : ∀ a, Blind w c (f a)) : Blind w c (x >>= f) :=
  hx.bind_gives fun a _ => hf a

/-- What is read of the context is not the texts. -/
theorem read {f : Context → Check β} (hf : f (c.reworded w) = f c) (h : Blind w c (f c)) :
    Blind w c ((MonadReader.read : Check Context) >>= f) := by
  intro hmarks s
  obtain ⟨hback, hsame⟩ := h hmarks s
  refine ⟨hback, ?_⟩
  show f (c.reworded w) (c.reworded w) s = _
  rw [hf]
  exact hsame

theorem get {f : State → Check β} (h : ∀ s, Blind w c (f s)) :
    Blind w c ((MonadState.get : Check State) >>= f) :=
  fun hmarks s => h s hmarks s

theorem modify (f : State → State) : Blind w c (modify f : Check PUnit) :=
  fun _ _ => ⟨rfl, rfl⟩

theorem alloc (y : TypeTable.Alloc α) : Blind w c (alloc y) :=
  fun _ _ => ⟨rfl, rfl⟩

theorem table : Blind w c table :=
  fun _ _ => ⟨rfl, rfl⟩

theorem exhaust : Blind w c exhaust :=
  fun _ _ => ⟨rfl, rfl⟩

theorem display (id : TypeId) : Blind w c (display id) :=
  fun _ _ => ⟨rfl, rfl⟩

theorem assignable (source target : TypeId) : Blind w c (assignable source target) :=
  fun _ _ => ⟨rfl, rfl⟩

/-! ### Standing elsewhere -/

theorem moved {go : Context → Context} {back : Context → Context → Context}
    (hx : Blind w (go c) x) (hfiles : (go c).files = c.files)
    (hgo : go (c.reworded w) = (go c).reworded w) (hback : ∀ c, back c (go c) = c) :
    Blind w c (excursion go back x) := by
  intro hmarks s
  obtain ⟨hend, hsame⟩ := hx (hmarks.move hfiles) s
  refine ⟨(congrArg (back c) hend).trans (hback c), ?_⟩
  let r := x (go (c.reworded w)) s
  show ((r.1.1, back (c.reworded w) r.1.2), r.2) = _
  dsimp only [r]
  rw [hgo, hsame]
  show (((x (go c) s).1.1, back (c.reworded w) ((go c).reworded w)), (x (go c) s).2) = _
  rw [← hgo, hback]
  rfl

theorem in_scope {scope : ScopeId} (hx : Blind w { c with scope := scope } x) :
    Blind w c (inScope scope x) := by
  refine moved ?_ rfl rfl fun _ => rfl
  exact hx

theorem silently (hx : Blind w { c with speculative := c.speculative + 1 } x) :
    Blind w c (silently x) := by
  refine moved ?_ rfl rfl fun _ => rfl
  exact hx

theorem in_function {declared : Option TypeId}
    (hx : Blind w { c with functions := declared :: c.functions, loops := 0 } x) :
    Blind w c (inFunction declared x) := by
  refine moved ?_ rfl rfl fun _ => rfl
  exact hx

theorem in_loop (hx : Blind w { c with loops := c.loops + 1 } x) : Blind w c (inLoopBody x) := by
  refine moved ?_ rfl rfl fun _ => rfl
  exact hx

theorem in_class {instances : TypeId}
    (hx : Blind w { c with thisTypes := instances :: c.thisTypes } x) :
    Blind w c (inClass instances x) := by
  refine moved ?_ rfl rfl fun _ => rfl
  exact hx

theorem in_expression (hx : Blind w { c with depth := c.depth + 1 } x) :
    Blind w c (inExpression x) := by
  refine moved ?_ rfl rfl fun _ => rfl
  exact hx

theorem resolving_value {id : SymbolId}
    (hx : Blind w { c with resolvingValues := id :: c.resolvingValues } x) :
    Blind w c (resolvingValue id x) := by
  refine moved ?_ rfl rfl (by simp)
  exact hx

theorem resolving_type {id : SymbolId}
    (hx : Blind w { c with resolvingTypes := id :: c.resolvingTypes } x) :
    Blind w c (resolvingType id x) := by
  refine moved ?_ rfl rfl (by simp)
  exact hx

theorem resolving_signature {site : Site}
    (hx : Blind w { c with resolvingSignatures := site :: c.resolvingSignatures } x) :
    Blind w c (resolvingSignature site x) := by
  refine moved ?_ rfl rfl (by simp)
  exact hx

theorem at_top {file : FileId} (hx : Blind w (c.top file) x) : Blind w c (atTop file x) := by
  refine moved ?_ rfl rfl fun _ => rfl
  exact hx

theorem at_declaration {file : FileId} {scope : ScopeId} (hx : ∀ c, Blind w c x) :
    Blind w c (atDeclaration file scope x) := by
  refine read ?_ (get fun s => ?_)
  · simp
  · refine moved ?_ rfl rfl fun _ => rfl
    exact hx _

/-! ### Lists -/

theorem forM {xs : List α} {f : α → Check PUnit} (h : ∀ a ∈ xs, Blind w c (f a)) :
    Blind w c (xs.forM f) := by
  induction xs with
  | nil => exact pure _
  | cons a rest ih =>
    show Blind w c (f a >>= fun _ => rest.forM f)
    exact (h a List.mem_cons_self).bind fun _ => ih fun b hb => h b (List.mem_cons_of_mem _ hb)

theorem mapM {xs : List α} {f : α → Check β} (h : ∀ a, Blind w c (f a)) :
    Blind w c (xs.mapM f) := by
  induction xs with
  | nil => exact pure _
  | cons a rest ih =>
    rw [List.mapM_cons]
    exact (h a).bind fun _ => ih.bind fun _ => pure _

theorem foldlM {xs : List α} {f : β → α → Check β} (h : ∀ b, ∀ a ∈ xs, Blind w c (f b a))
    (b : β) : Blind w c (xs.foldlM f b) := by
  induction xs generalizing b with
  | nil => exact pure _
  | cons a rest ih =>
    rw [List.foldlM_cons]
    exact (h b a List.mem_cons_self).bind fun b' =>
      ih (fun b a ha => h b a (List.mem_cons_of_mem _ ha)) b'

theorem forM_option {o : Option α} {f : α → Check PUnit} (h : ∀ a, Blind w c (f a)) :
    Blind w c (o.forM f) := by
  cases o with
  | none => exact pure _
  | some a => exact h a

/-! ### The record -/

theorem record (node : NodeId) (type : TypeId) : Blind w c (record node type) := by
  refine read rfl ?_
  split
  · exact modify _
  · exact pure _

theorem record? (node : Option NodeId) (type : TypeId) : Blind w c (record? node type) :=
  forM_option fun _ => record _ _

theorem reportSpan (start length : Nat) (p : Problem) (details : List Message) :
    Blind w c (reportSpan start length p details) := by
  refine read (by simp) ?_
  split
  · exact modify _
  · exact pure _

theorem reportWith (node : NodeId) (p : Problem) (details : List Message) :
    Blind w c (reportWith node p details) := by
  refine read (by simp) ?_
  split
  · exact pure _
  · exact reportSpan _ _ _ _

theorem report (node : NodeId) (p : Problem) : Blind w c (report node p) :=
  reportWith node p []

theorem reportStart (node : NodeId) (length : Nat) (p : Problem) :
    Blind w c (reportStart node length p) := by
  refine read (by simp) ?_
  split
  · exact pure _
  · exact reportSpan _ _ _ _

theorem checkAssignable (source target : TypeId) (node : NodeId) :
    Blind w c (checkAssignable source target node) := by
  refine (assignable _ _).bind fun fits => ?_
  split
  · exact pure _
  · exact table.bind fun t => read rfl (reportWith _ _ _)

end Blind

/-- The rules are blind to the texts, wherever they are used. -/
structure Sightless (w : SourceFile → SourceFile) (r : Rules) : Prop where
  typeNode : ∀ c node, Blind w c (r.typeNode node)
  expression : ∀ c node expected, Blind w c (r.expression node expected)
  statement : ∀ c node, Blind w c (r.statement node)
  valueType : ∀ c id, Blind w c (r.valueType id)
  declaredType : ∀ c id, Blind w c (r.declaredType id)
  classTypes : ∀ c id, Blind w c (r.classTypes id)

namespace Sightless

variable {self : Rules} (h : Sightless w self)

include h

/-! ## Functions -/

theorem blind_ascription (type : Option NodeId) : Blind w c (ascription self type) := by
  cases type with
  | none => exact .pure _
  | some node => exact (h.typeNode c node).bind fun _ => .pure _

theorem blind_functionBody (node : NodeId) (declared : Option TypeId) :
    Blind w c (functionBody self node declared) := by
  refine .read (by simp) ?_
  split
  · exact .pure _
  · refine .in_scope (.in_function ?_)
    split
    · exact .pure _
    · exact (Blind.mapM fun node => h.statement _ node).bind fun _ => .pure _
    · refine (h.expression _ _ _).bind fun type => ?_
      exact (Blind.forM_option fun _ => .checkAssignable _ _ _).bind fun _ => .pure _

omit h in
theorem blind_inferredReturn (returned : List TypeId) : Blind w c (inferredReturn returned) := by
  unfold inferredReturn
  split
  · exact .pure _
  · exact (Blind.mapM fun _ => .alloc _).bind fun _ => .alloc _

theorem blind_parameterType (node : NodeId) : Blind w c (parameterType self node) := by
  refine .read (by simp) ?_
  split
  · exact .pure _
  · split
    · exact h.typeNode c _
    · exact (h.expression c _ none).bind fun _ => .alloc _
    · exact .get fun _ => .pure _

theorem blind_parameterInfo (node : NodeId) : Blind w c (parameterInfo self node) := by
  refine .read (by simp) ?_
  split
  · exact .pure _
  · split
    · exact (h.valueType c _).bind fun _ => .pure _
    · exact (h.blind_parameterType node).bind fun _ => .pure _

theorem blind_returnType (node : NodeId) (kind : FunctionKind) (p : FunctionParts) :
    Blind w c (returnType self node kind p) := by
  unfold returnType
  split
  · exact .read rfl (.in_scope (h.typeNode _ _))
  · split
    · exact .pure _
    · split
      · exact (Blind.silently (h.blind_functionBody node none)).bind blind_inferredReturn
      · exact .pure _

theorem blind_signature (node : NodeId) : Blind w c (signature self node) := by
  refine .read (by simp) (.get fun s => ?_)
  split
  · exact .pure _
  · split
    · refine Blind.bind (.in_scope (.mapM h.blind_parameterInfo)) fun parameters => ?_
      split
      · exact .pure _
      · refine (Blind.resolving_signature (h.blind_returnType node _ _)).bind fun type => ?_
        exact (Blind.modify _).bind fun _ => .pure _
    · exact .pure _

theorem blind_functionsType (nodes : List NodeId) : Blind w c (functionsType self nodes) :=
  (Blind.mapM h.blind_signature).bind fun _ => .alloc _

theorem blind_checkInitializer (initializer : Option NodeId) (annotated : Option TypeId)
    (name : NodeId) : Blind w c (checkInitializer self initializer annotated name) :=
  .forM_option fun value => (h.expression c value annotated).bind fun _ =>
    .forM_option fun _ => .checkAssignable _ _ _

theorem blind_checkParameter (arrow : Bool) (node : NodeId) :
    Blind w c (checkParameter self arrow node) := by
  refine .read (by simp) ?_
  split
  · exact .pure _
  · rename_i p hp
    extract_lets rest
    have hrest : ∀ type, Blind w c (rest type) := by
      intro type
      refine (h.blind_ascription p.ascription).bind fun annotated => ?_
      refine (h.blind_checkInitializer p.initializer annotated p.name).bind fun _ => ?_
      refine .get fun s => ?_
      have hrecord : Blind w c (do record node type; record p.name type) :=
        (Blind.record _ _).bind fun _ => .record _ _
      dsimp only
      split
      · exact (Blind.report _ _).bind fun _ => hrecord
      · exact hrecord
    split
    · exact (h.valueType c _).bind hrest
    · exact (Blind.silently (h.blind_parameterType node)).bind hrest

theorem blind_checkFunction (node : NodeId) : Blind w c (checkFunction self node) := by
  refine .read (by simp) ?_
  split
  · exact .pure _
  · refine .in_scope (Blind.bind (.forM fun node _ => h.blind_checkParameter _ node) fun _ => ?_)
    refine (h.blind_ascription _).bind fun declared => ?_
    split
    · exact .pure _
    · refine (h.blind_functionBody node declared).bind fun returned => ?_
      split
      · refine Blind.table.bind fun t => ?_
        split
        · exact .report _ _
        · exact .pure _
      · exact .pure _

/-! ## Types that are spelled out -/

theorem blind_typeReference (node : NodeId) : Blind w c (typeReference self node) := by
  refine .read (by simp) ?_
  split
  · exact .pure _
  · rename_i name hname
    split
    · exact .pure _
    · extract_lets rest
      have hrest : ∀ type, Blind w c (rest type) := fun type =>
        (Blind.record _ _).bind fun _ => .pure _
      split
      · refine (h.declaredType c _).bind fun found => ?_
        split
        · exact (Blind.pure _).bind hrest
        · exact (Blind.report _ _).bind fun _ => (Blind.pure _).bind hrest
      · split
        · exact (Blind.report _ _).bind fun _ => (Blind.pure _).bind hrest
        · exact (Blind.report _ _).bind fun _ => (Blind.pure _).bind hrest

omit h in
theorem blind_literalType (a : Arena) (literal : NodeId) : Blind w c (literalType a literal) := by
  unfold literalType
  split
  · exact .pure _
  · exact .pure _
  · exact .alloc _
  · exact .alloc _
  · exact .pure _

theorem blind_signatureParameter (node : NodeId) : Blind w c (signatureParameter self node) := by
  refine .read (by simp) ?_
  split
  · exact .pure _
  · exact (h.blind_ascription _).bind fun _ => (Blind.record _ _).bind fun _ => .record _ _

theorem blind_typeOfForm (node : NodeId) (form : Form) : Blind w c (typeOfForm self node form) := by
  unfold typeOfForm
  split
  · exact .pure _
  · refine .read (by simp) ?_
    exact (blind_literalType _ _).bind fun _ => (Blind.record _ _).bind fun _ => .pure _
  · exact (h.typeNode c _).bind fun _ => .alloc _
  · exact h.typeNode c _
  · exact (Blind.mapM (h.typeNode c)).bind fun _ => .alloc _
  · refine (Blind.forM fun node _ => h.blind_signatureParameter node).bind fun _ => ?_
    exact (h.blind_signature node).bind fun _ => .alloc _
  · exact h.blind_typeReference _
  · exact .pure _

theorem blind_typeNode (node : NodeId) : Blind w c (Checking.typeNode self node) := by
  refine .read (by simp) ?_
  split
  · exact .pure _
  · exact (h.blind_typeOfForm node _).bind fun _ => (Blind.record _ _).bind fun _ => .pure _

theorem blind_aliasType (id : SymbolId) (symbol : Symbol) :
    Blind w c (aliasType self id symbol) := by
  refine .get fun s => ?_
  split
  · exact .pure _
  · refine .read (by simp) ?_
    split
    · exact .pure _
    · extract_lets rest
      have hrest : ∀ type, Blind w c (rest type) := fun type =>
        (Blind.modify _).bind fun _ => .pure _
      split
      · exact (Blind.pure _).bind hrest
      · split
        · refine (Blind.resolving_type (.at_declaration fun c => ?_)).bind hrest
          exact h.typeNode c _
        · exact (Blind.pure _).bind hrest

/-! ## Interfaces

Only here the text matters, behind the names of methods. -/

theorem blind_addBase (shape : Shape) (heritage : NodeId) :
    Blind w c (addBase self shape heritage) := by
  refine (h.typeNode c heritage).bind fun base => Blind.table.bind fun t => ?_
  split <;> exact .pure _

theorem blind_addSignatureProperty (shape : Shape) (p : PropertyParts) :
    Blind w c (addSignatureProperty self shape p) := by
  refine .read (by simp) ?_
  extract_lets name
  split
  · exact .pure _
  · exact (h.blind_ascription _).bind fun _ => .pure _

theorem blind_addInterfaceMember (acc : Shape × Table String (List NodeId)) (member : NodeId) :
    Blind w c (addInterfaceMember self acc member) := by
  refine .read (by simp) ?_
  extract_lets a
  split
  · exact (h.blind_addSignatureProperty _ _).bind fun _ => .pure _
  · exact .pure _
  · exact .pure _

theorem blind_addInterfaceMethod (shape : Shape) {entry : String × List NodeId}
    (hentry : ∀ node ∈ entry.2, IsSignature c node) :
    Blind w c (addInterfaceMethod self shape entry) := by
  obtain ⟨name, nodes⟩ := entry
  unfold addInterfaceMethod
  dsimp only
  split
  · exact .pure _
  · intro hmarks
    have hmark : nodes.any (isOptionalMethod (c.reworded w).source) =
        nodes.any (isOptionalMethod c.source) := by
      rw [Bool.eq_iff_iff, List.any_eq_true, List.any_eq_true]
      refine exists_congr fun node => and_congr_right fun hnode => ?_
      obtain ⟨p, hp⟩ := hentry node hnode
      rw [show isOptionalMethod (c.reworded w).source node = isOptionalMethod c.source node from
        hmarks c.file node p hp]
    refine Blind.read ?_ ((h.blind_functionsType _).bind fun _ => .pure _) hmarks
    simp only [hmark]

omit h in
/-- Only methods of interfaces are put off. -/
theorem signatures_of_member {acc acc' : Shape × Table String (List NodeId)} {member : NodeId}
    (hacc : AllSignatures c acc.2) (hgives : Gives c (addInterfaceMember self acc member) acc') :
    AllSignatures c acc'.2 := by
  obtain ⟨s, rfl⟩ := hgives
  have hput : ∀ p, c.arena.form? member = some (.function .methodSignature p) →
      AllSignatures c (addNamed acc.2 (memberName? c.arena p.name) member) := by
    intro p hform e he node hnode
    rcases Table.mem_of_mem_put he with rfl | he
    · rcases List.mem_append.1 hnode with hnode | hnode
      · cases hold : acc.2.get? (memberName? c.arena p.name) with
        | none => rw [hold] at hnode; cases hnode
        | some nodes =>
          rw [hold] at hnode
          exact hacc _ (Table.mem_of_lookup hold) node hnode
      · cases List.mem_singleton.1 hnode
        exact ⟨p, hform⟩
    · exact hacc e he node hnode
  unfold addInterfaceMember
  rw [read_bind]
  cases hform : c.arena.form? member with
  | none => exact hacc
  | some form =>
    cases form with
    | function kind p =>
      cases kind with
      | methodSignature => exact hput p hform
      | _ => exact hacc
    | _ => exact hacc

theorem signatures_of_members {members : List NodeId}
    {acc acc' : Shape × Table String (List NodeId)} (hmarks : SameMarks w c)
    (hacc : AllSignatures c acc.2)
    (hgives : Gives c (members.foldlM (addInterfaceMember self) acc) acc') :
    AllSignatures c acc'.2 := by
  induction members generalizing acc with
  | nil =>
    obtain ⟨s, rfl⟩ := hgives
    exact hacc
  | cons member rest ih =>
    obtain ⟨s, hs⟩ := hgives
    rw [List.foldlM_cons, bind_apply, (h.blind_addInterfaceMember acc member hmarks s).1] at hs
    exact ih (signatures_of_member hacc ⟨s, rfl⟩) ⟨_, hs⟩

theorem blind_addInterface (shape : Shape) (declaration : Site) :
    Blind w c (addInterface self shape declaration) := by
  refine .read (by simp) (.at_declaration fun c => ?_)
  split
  · refine (Blind.foldlM (fun shape base _ => h.blind_addBase shape base) _).bind fun shape => ?_
    intro hmarks
    refine Blind.bind_gives (.foldlM (fun acc member _ => h.blind_addInterfaceMember acc member) _)
      (fun acc hacc => ?_) hmarks
    refine Blind.foldlM (fun shape entry hentry => ?_) _
    refine h.blind_addInterfaceMethod shape ?_
    exact h.signatures_of_members hmarks (fun _ he => by cases he) hacc entry hentry
  · exact .pure _

theorem blind_interfaceType (id : SymbolId) (symbol : Symbol) :
    Blind w c (interfaceType self id symbol) := by
  refine .get fun s => ?_
  split
  · exact .pure _
  · refine .read (by simp) ((Blind.alloc _).bind fun type => (Blind.modify _).bind fun _ => ?_)
    refine (Blind.foldlM (fun shape d _ => ?_) _).bind fun _ => .pure _
    exact (h.blind_addInterface shape d).bind fun _ => (Blind.alloc _).bind fun _ => .pure _

/-! ## Classes -/

omit h in
theorem blind_publish (s : ClassShapes) : Blind w c s.publish :=
  (Blind.alloc _).bind fun _ => .alloc _

theorem blind_addBaseClass (s : ClassShapes) (heritage : Option NodeId) :
    Blind w c (addBaseClass self s heritage) := by
  unfold addBaseClass
  split
  · exact .pure _
  · refine (h.typeNode c _).bind fun base => Blind.table.bind fun t => ?_
    split
    · exact .pure _
    · split
      · exact .pure _
      · extract_lets s
        split
        · exact .pure _
        · exact (h.classTypes c _).bind fun _ => .pure _

theorem blind_addClassMember (acc : ClassShapes × ClassMembers) (member : NodeId) :
    Blind w c (addClassMember self acc member) := by
  refine .read (by simp) ?_
  dsimp only
  split
  · refine (h.blind_ascription _).bind fun type => ?_
    split <;> exact .pure _
  · exact .pure _
  · exact .pure _
  · exact .pure _

theorem blind_addParameterProperty (constructor : NodeId) (s : ClassShapes) (node : NodeId) :
    Blind w c (addParameterProperty self constructor s node) := by
  refine .read (by simp) ?_
  split
  · exact .pure _
  · split
    · exact (Blind.in_scope (h.blind_parameterType node)).bind fun _ => .pure _
    · exact .pure _

theorem blind_addParameterProperties (s : ClassShapes) (constructor : NodeId) :
    Blind w c (addParameterProperties self s constructor) :=
  .read (by simp) (.foldlM (fun s node _ => h.blind_addParameterProperty constructor s node) _)

theorem blind_methodType (nodes : List NodeId) : Blind w c (methodType self nodes) :=
  .read (by simp) (h.blind_functionsType _)

theorem blind_addMethod (s : ClassShapes) (entry : String × List NodeId) :
    Blind w c (addMethod self s entry) := by
  refine .read (by simp) ?_
  dsimp only
  split
  · exact (h.blind_methodType _).bind fun _ => .pure _
  · exact (Blind.pure _).bind fun _ => .pure _

theorem blind_inferProperty (s : ClassShapes) (p : PropertyParts) :
    Blind w c (inferProperty self s p) := by
  unfold inferProperty
  extract_lets rest
  have hrest : ∀ type, Blind w c (rest type) := fun type =>
    .read (by simp) ((blind_publish _).bind fun _ => .pure _)
  split
  · exact (Blind.pure _).bind hrest
  · exact (h.expression c _ none).bind fun _ => (Blind.alloc _).bind hrest

theorem blind_inferMethod (s : ClassShapes) (entry : String × List NodeId) :
    Blind w c (inferMethod self s entry) := by
  unfold inferMethod
  exact (h.blind_methodType _).bind fun _ =>
    .read (by simp) ((blind_publish _).bind fun _ => .pure _)

theorem blind_constructSignatures (types : ClassTypes) (constructors : List NodeId)
    (base : Option TypeId) : Blind w c (constructSignatures self types constructors base) := by
  refine .read (by simp) ?_
  extract_lets visible rest
  have hrest : ∀ found, Blind w c (rest found) := by
    intro found
    show Blind w c (if _ then _ else _)
    split <;> exact .pure _
  split
  · exact (Blind.mapM h.blind_signature).bind hrest
  · split
    · exact Blind.table.bind fun _ => (Blind.pure _).bind hrest
    · exact (Blind.pure _).bind hrest

theorem blind_buildClass (id : SymbolId) (types : ClassTypes) (p : ClassParts) :
    Blind w c (buildClass self id types p) := by
  refine .read (by simp) ((Blind.forM fun _ _ => .modify _).bind fun _ => .in_class ?_)
  refine Blind.table.bind fun t => ?_
  refine (h.blind_addBaseClass _ _).bind fun base => ?_
  refine (Blind.foldlM (fun acc m _ => h.blind_addClassMember acc m) _).bind fun members => ?_
  refine (Blind.foldlM (fun s k _ => h.blind_addParameterProperties s k) _).bind fun s => ?_
  refine (Blind.foldlM (fun s e _ => h.blind_addMethod s e) _).bind fun s => ?_
  refine (blind_publish _).bind fun _ => ?_
  refine (Blind.foldlM (fun s p _ => h.blind_inferProperty s p) _).bind fun s => ?_
  refine (Blind.foldlM (fun s e _ => h.blind_inferMethod s e) _).bind fun s => ?_
  exact (h.blind_constructSignatures _ _ _).bind fun _ => blind_publish _

theorem blind_classTypes (id : SymbolId) : Blind w c (Checking.classTypes self id) := by
  refine .get fun s => ?_
  split
  · exact .pure _
  · refine .read (by simp) ?_
    split
    · exact .pure _
    · refine (Blind.alloc _).bind fun instanceType => (Blind.alloc _).bind fun _ => ?_
      refine (Blind.modify _).bind fun _ => ?_
      split
      · exact .pure _
      · extract_lets interfaces ending rest
        have hrest : ∀ r, Blind w c (rest r) := by
          intro r
          show Blind w c (if _ then _ else _)
          split
          · exact .pure _
          · refine Blind.table.bind fun t => ?_
            refine (Blind.foldlM (fun shape d _ => h.blind_addInterface shape d) _).bind fun _ => ?_
            exact (Blind.alloc _).bind fun _ => .pure _
        split
        · exact (Blind.at_declaration fun c => h.blind_buildClass _ _ _).bind hrest
        · exact hrest ()

theorem blind_declaredType (id : SymbolId) : Blind w c (Checking.declaredType self id) := by
  refine .read (by simp) ?_
  split
  · exact .pure _
  · split
    · split
      · exact .pure _
      · split
        · exact .pure _
        · exact .resolving_type (h.declaredType _ _)
    · split
      · exact (h.classTypes c id).bind fun _ => .pure _
      · split
        · exact (h.blind_interfaceType _ _).bind fun _ => .pure _
        · split
          · exact (h.blind_aliasType _ _).bind fun _ => .pure _
          · exact .pure _

/-! ## Values -/

theorem blind_variableType (node : NodeId) : Blind w c (variableType self node) := by
  refine .read (by simp) ?_
  split
  · split
    · exact h.typeNode c _
    · exact (h.expression c _ none).bind fun _ => Blind.table.bind fun _ => .pure _
    · exact .pure _
    · refine (h.expression c _ none).bind fun type => ?_
      split
      · exact .pure _
      · split
        · exact .pure _
        · exact .alloc _
  · exact .pure _

theorem blind_functionType (declarations : List Site) :
    Blind w c (functionType self declarations) := by
  have hform : (c.reworded w).form? = c.form? := funext Context.form?_reworded
  refine .read (by rw [hform]; rfl) ((Blind.mapM fun e => ?_).bind fun _ => .alloc _)
  exact .at_declaration fun c => h.blind_signature _

theorem blind_importedType (id : SymbolId) : Blind w c (importedType self id) := by
  refine .read rfl ?_
  split
  · split
    · exact h.valueType _ _
    · exact .pure _
  · exact .pure _

theorem blind_findValueType (id : SymbolId) : Blind w c (findValueType self id) := by
  refine .read (by simp) ?_
  split
  · exact .pure _
  · split
    · exact .pure _
    · split
      · exact h.blind_importedType id
      · split
        · exact (h.classTypes c id).bind fun _ => .pure _
        · split
          · exact h.blind_functionType _
          · split
            · exact .pure _
            · dsimp only
              split
              · exact .at_declaration fun c => h.blind_variableType _
              · split
                · exact .at_declaration fun c => h.blind_parameterType _
                · exact .pure _

theorem blind_valueType (id : SymbolId) : Blind w c (Checking.valueType self id) := by
  refine .get fun s => ?_
  split
  · exact .pure _
  · refine .read (by simp) ?_
    split
    · exact .pure _
    · refine (Blind.resolving_value (h.blind_findValueType id)).bind fun _ => ?_
      exact (Blind.modify _).bind fun _ => .pure _

/-! ## Expressions -/

theorem blind_checkName (node : NodeId) : Blind w c (checkName self node) := by
  refine .read (by simp) ?_
  extract_lets name
  split
  · exact .pure _
  · split
    · exact h.valueType c _
    · split
      · exact (Blind.report _ _).bind fun _ => .pure _
      · exact (Blind.report _ _).bind fun _ => .pure _

omit h in
theorem blind_thisType : Blind w c thisType :=
  .read (by simp) (.get fun _ => .pure _)

omit h in
theorem blind_superType : Blind w c superType :=
  Blind.table.bind fun _ => blind_thisType.bind fun _ => .pure _

omit h in
theorem blind_memberType (id : TypeId) (name : String) : Blind w c (memberType id name) := by
  unfold memberType
  split
  · exact .pure _
  · refine Blind.table.bind fun t => ?_
    split
    · exact .pure _
    · split
      · exact .pure _
      · split
        · refine .get fun s => ?_
          split
          · exact .pure _
          · exact (Blind.alloc _).bind fun type => (Blind.modify _).bind fun _ => .pure _
        · exact .pure _

omit h in
theorem blind_memberTypes (name : String) (ids : List TypeId) :
    Blind w c (memberTypes name ids) := by
  induction ids with
  | nil => exact .pure _
  | cons id rest ih =>
    refine (blind_memberType id name).bind fun found => ?_
    split
    · exact .pure _
    · refine Blind.bind ih fun others => ?_
      split <;> exact .pure _

omit h in
theorem blind_propertyType (id : TypeId) (name : String) : Blind w c (propertyType id name) := by
  refine Blind.table.bind fun t => ?_
  split
  · refine (blind_memberTypes _ _).bind fun types => ?_
    split
    · exact .pure _
    · exact (Blind.alloc _).bind fun _ => .pure _
  · exact blind_memberType id name

theorem blind_checkPropertyAccess (object name : NodeId) :
    Blind w c (checkPropertyAccess self object name) := by
  refine (h.expression c object none).bind fun objectType => .read (by simp) ?_
  extract_lets text rest
  split
  · exact .pure _
  · have hrest : ∀ type, Blind w c (rest type) := fun type =>
      (Blind.record _ _).bind fun _ => .pure _
    refine (blind_propertyType _ _).bind fun found => ?_
    split
    · exact (Blind.pure _).bind hrest
    · exact (Blind.display _).bind fun _ => (Blind.report _ _).bind fun _ =>
        (Blind.pure _).bind hrest

theorem blind_checkElementAccess (object index : NodeId) :
    Blind w c (checkElementAccess self object index) := by
  refine (h.expression c object none).bind fun objectType => ?_
  refine (h.expression c index none).bind fun indexType => ?_
  split
  · exact .pure _
  · refine Blind.table.bind fun t => ?_
    split
    · exact .pure _
    · split
      · exact .pure _
      · split
        · exact (blind_propertyType _ _).bind fun _ => .pure _
        · exact .pure _

theorem blind_checkArray (elements : List NodeId) (expected : Option TypeId) :
    Blind w c (checkArray self elements expected) := by
  refine Blind.table.bind fun t => ?_
  refine Blind.bind (.mapM fun e => ?_) fun types => ?_
  · exact (h.expression c e _).bind fun _ => .alloc _
  · dsimp only
    split
    · exact (Blind.pure _).bind fun _ => .alloc _
    · exact (Blind.alloc _).bind fun _ => .alloc _

theorem blind_addLiteralProperty (expected : Option TypeId) (shape : Shape) (element : NodeId) :
    Blind w c (addLiteralProperty self expected shape element) := by
  refine .read (by simp) ?_
  extract_lets a
  split
  · refine Blind.table.bind fun t => ?_
    extract_lets wanted rest
    have hrest : ∀ found, Blind w c (rest found) := fun found =>
      (Blind.alloc _).bind fun _ => (Blind.record _ _).bind fun _ =>
        (Blind.record _ _).bind fun _ => .pure _
    split
    · exact (h.expression c _ _).bind hrest
    · exact (h.blind_checkName _).bind hrest
  · exact .pure _

theorem blind_checkObject (properties : List NodeId) (expected : Option TypeId) :
    Blind w c (checkObject self properties expected) :=
  (Blind.foldlM (fun shape e _ => h.blind_addLiteralProperty expected shape e) _).bind fun _ =>
    .alloc _

/-! ### Calls -/

theorem blind_checkArguments (arguments : List NodeId) :
    Blind w c (checkArguments self arguments) :=
  .forM fun argument _ => (h.expression c argument none).bind fun _ => .pure _

theorem blind_argumentsFit (pairs : List (NodeId × Parameter)) :
    Blind w c (argumentsFit self pairs) := by
  induction pairs with
  | nil => exact .pure _
  | cons pair rest ih =>
    refine (h.expression c _ _).bind fun type => (Blind.assignable _ _).bind fun fits => ?_
    split
    · exact ih
    · exact .pure _

theorem blind_findSignature (arguments : List NodeId) (signatures : List Signature) :
    Blind w c (findSignature self arguments signatures) := by
  induction signatures with
  | nil => exact .pure _
  | cons s rest ih =>
    refine (Blind.silently (h.blind_argumentsFit _)).bind fun fits => ?_
    split
    · exact .pure _
    · exact ih

theorem blind_checkArgument (argument : NodeId) (p : Parameter) :
    Blind w c (checkArgument self argument p) := by
  refine (h.expression c argument _).bind fun type => (Blind.assignable _ _).bind fun fits => ?_
  split
  · exact .pure _
  · exact Blind.table.bind fun t => .read rfl (.reportWith _ _ _)

theorem blind_resolveCall (node : NodeId) (signatures : List Signature)
    (arguments : List NodeId) : Blind w c (resolveCall self node signatures arguments) := by
  unfold resolveCall
  split
  · exact (Blind.report _ _).bind fun _ => (h.blind_checkArguments _).bind fun _ => .pure _
  · extract_lets rest
    have hrest : ∀ chosen, Blind w c (rest chosen) := fun chosen =>
      (Blind.forM fun pair _ => h.blind_checkArgument pair.1 pair.2).bind fun _ => .pure _
    split
    · exact (Blind.pure _).bind hrest
    · exact (h.blind_findSignature _ _).bind fun _ => (Blind.pure _).bind hrest

theorem blind_checkSuperCall (node callee : NodeId) (arguments : List NodeId) :
    Blind w c (checkSuperCall self node callee arguments) := by
  refine (h.expression c callee none).bind fun base => .get fun s => ?_
  dsimp only
  split
  · exact (h.blind_checkArguments _).bind fun _ => .pure _
  · exact (h.blind_resolveCall _ _ _).bind fun _ => .pure _

theorem blind_checkCall (node callee : NodeId) (arguments : List NodeId) :
    Blind w c (checkCall self node callee arguments) := by
  refine .read (by simp) ?_
  split
  · exact h.blind_checkSuperCall _ _ _
  · refine (h.expression c callee none).bind fun type => ?_
    split
    · exact (h.blind_checkArguments _).bind fun _ => .pure _
    · refine Blind.table.bind fun t => ?_
      split
      · exact (Blind.report _ _).bind fun _ => (h.blind_checkArguments _).bind fun _ => .pure _
      · exact h.blind_resolveCall _ _ _

theorem blind_checkNew (node callee : NodeId) (arguments : List NodeId) :
    Blind w c (checkNew self node callee arguments) := by
  refine (h.expression c callee none).bind fun type => ?_
  split
  · exact (h.blind_checkArguments _).bind fun _ => .pure _
  · refine Blind.table.bind fun t => ?_
    split
    · exact (Blind.report _ _).bind fun _ => (h.blind_checkArguments _).bind fun _ => .pure _
    · exact h.blind_resolveCall _ _ _

/-! ### Operators -/

omit h in
theorem blind_checkTarget (target : NodeId) : Blind w c (checkTarget target) := by
  refine .read (by simp) ?_
  split
  · exact .pure _
  · split
    · exact (Blind.report _ _).bind fun _ => .pure _
    · exact .pure _

theorem blind_checkPrefix (operator : TokenKind) (operand : NodeId) :
    Blind w c (checkPrefix self operator operand) := by
  refine .read (by simp) ?_
  split
  · exact (h.expression c _ none).bind fun _ => .pure _
  · exact (h.expression c _ none).bind fun _ => .alloc _
  · exact (h.expression c _ none).bind fun _ => (blind_checkTarget _).bind fun _ => .pure _
  · exact (h.expression c _ none).bind fun _ => (blind_checkTarget _).bind fun _ => .pure _
  · exact (h.expression c _ none).bind fun _ => .pure _

theorem blind_checkAssignment (left right : NodeId) :
    Blind w c (checkAssignment self left right) := by
  refine (h.expression c left none).bind fun target => ?_
  refine (blind_checkTarget left).bind fun writable => ?_
  refine (h.expression c right _).bind fun value => ?_
  split
  · exact (Blind.checkAssignable _ _ _).bind fun _ => .pure _
  · exact .pure _

theorem blind_checkUpdate (left : NodeId) (operator : TokenKind) (right : NodeId) :
    Blind w c (checkUpdate self left operator right) := by
  refine (h.expression c left none).bind fun target => ?_
  refine (blind_checkTarget left).bind fun _ => (h.expression c right none).bind fun value => ?_
  split
  · exact Blind.table.bind fun _ => .pure _
  · exact .pure _

omit h in
theorem blind_operatorType (operator : TokenKind) (left right : TypeId) :
    Blind w c (operatorType operator left right) := by
  unfold operatorType
  split
  any_goals exact .pure _
  · exact Blind.table.bind fun _ => .pure _
  · exact Blind.table.bind fun _ => .alloc _
  · exact Blind.table.bind fun _ => .alloc _

theorem blind_checkBinary (left : NodeId) (operator : TokenKind) (right : NodeId) :
    Blind w c (checkBinary self left operator right) := by
  unfold checkBinary
  split
  · exact h.blind_checkAssignment _ _
  · exact h.blind_checkUpdate _ _ _
  · exact h.blind_checkUpdate _ _ _
  · exact h.blind_checkUpdate _ _ _
  · exact h.blind_checkUpdate _ _ _
  · exact (h.expression c left none).bind fun l => (h.expression c right none).bind fun r =>
      blind_operatorType _ _ _

/-! ### Arrow functions -/

omit h in
theorem blind_takeContext (node : NodeId) (expected : Option TypeId) :
    Blind w c (takeContext node expected) := by
  refine .read (by simp) (Blind.table.bind fun t => ?_)
  split
  · refine .forM fun pair _ => ?_
    dsimp only
    split
    · exact .pure _
    · exact .modify _
  · exact .pure _

theorem blind_arrowType (node : NodeId) (expected : Option TypeId) :
    Blind w c (arrowType self node expected) := by
  refine .read (by simp) (.get fun s => ?_)
  split
  · exact .pure _
  · refine (blind_takeContext node expected).bind fun _ => ?_
    refine (h.blind_signature node).bind fun _ => (Blind.alloc _).bind fun type => ?_
    exact (Blind.modify _).bind fun _ => .pure _

theorem blind_checkArrow (node : NodeId) (expected : Option TypeId) :
    Blind w c (checkArrow self node expected) := by
  refine (h.blind_arrowType node expected).bind fun type => .read (by simp) ?_
  split
  · exact (h.blind_checkFunction node).bind fun _ => .pure _
  · exact .pure _

theorem blind_expressionType (node : NodeId) (expected : Option TypeId) (form : Form) :
    Blind w c (expressionType self node expected form) := by
  unfold expressionType
  split
  · exact .alloc _
  · exact .alloc _
  · exact .pure _
  · exact .pure _
  · exact .pure _
  · exact blind_thisType.bind fun _ => .pure _
  · exact blind_superType
  · exact h.blind_checkName node
  · exact h.expression c _ _
  · exact h.blind_checkArray _ _
  · exact h.blind_checkObject _ _
  · exact h.blind_checkCall _ _ _
  · exact h.blind_checkNew _ _ _
  · exact h.blind_checkPropertyAccess _ _
  · exact h.blind_checkElementAccess _ _
  · exact h.blind_checkPrefix _ _
  · exact (h.expression c _ none).bind fun _ => (blind_checkTarget _).bind fun _ => .pure _
  · exact (h.expression c _ none).bind fun _ => .pure _
  · exact h.blind_checkBinary _ _ _
  · exact (h.expression c _ none).bind fun _ => (h.expression c _ _).bind fun t =>
      (h.expression c _ _).bind fun f => .alloc _
  · exact h.blind_checkArrow _ _
  · exact (h.typeNode c _).bind fun target => (h.expression c _ _).bind fun _ => .pure _
  · exact .pure _

theorem blind_expression (node : NodeId) (expected : Option TypeId) :
    Blind w c (Checking.expression self node expected) := by
  refine .read (by simp) ?_
  split
  · exact .pure _
  · refine Blind.bind (.in_expression ?_) fun _ => (Blind.record _ _).bind fun _ => .pure _
    split
    · exact .pure _
    · exact h.blind_expressionType _ _ _

/-! ## Statements -/

theorem blind_statement? (node : Option NodeId) : Blind w c (statement? self node) := by
  cases node with
  | none => exact .pure _
  | some node => exact h.statement c node

theorem blind_statements (nodes : List NodeId) : Blind w c (statements self nodes) :=
  (Blind.mapM (h.statement c)).bind fun _ => .pure _

theorem blind_lookAt (node : Option NodeId) : Blind w c (lookAt self node) :=
  .forM_option fun node => (h.expression c node none).bind fun _ => .pure _

theorem blind_loopBody (node : Option NodeId) : Blind w c (loopBody self node) :=
  .in_loop (h.blind_statement? node)

theorem blind_loopStart (start : Option NodeId) : Blind w c (loopStart self start) := by
  unfold loopStart
  split
  · exact .pure _
  · refine .read (by simp) ?_
    split
    · exact h.statement c _
    · exact (h.expression c _ none).bind fun _ => .pure _

theorem blind_checkReturn (node : NodeId) (value : Option NodeId) :
    Blind w c (checkReturn self node value) := by
  refine .read (by simp) ?_
  split
  · exact (Blind.reportStart _ _ _).bind fun _ => (h.blind_lookAt value).bind fun _ => .pure _
  · split
    · exact .pure _
    · refine (h.expression c _ _).bind fun type => ?_
      exact (Blind.forM_option fun _ => .checkAssignable _ _ _).bind fun _ => .pure _

omit h in
theorem blind_checkJump (node : NodeId) (length : Nat) (p : Problem) :
    Blind w c (checkJump node length p) := by
  refine .read rfl ?_
  split
  · exact .pure _
  · exact .reportStart _ _ _

theorem blind_checkVariable (node : NodeId) : Blind w c (checkVariable self node) := by
  refine .read (by simp) ?_
  split
  · rename_i p hform
    extract_lets rest
    have hrest : ∀ type, Blind w c (rest type) := fun type =>
      (h.blind_ascription p.ascription).bind fun annotated =>
        (h.blind_checkInitializer p.initializer annotated p.name).bind fun _ =>
          (Blind.record _ _).bind fun _ => .record _ _
    split
    · exact (h.valueType c _).bind hrest
    · exact (Blind.silently (h.blind_variableType node)).bind hrest
  · exact .pure _

theorem blind_checkFunctionDeclaration (node : NodeId) (p : FunctionParts) :
    Blind w c (checkFunctionDeclaration self node p) := by
  refine .read (by simp) ?_
  extract_lets ambient symbol rest
  have hrest : ∀ r, Blind w c (rest r) := fun _ => h.blind_checkFunction node
  refine (Blind.forM_option fun id => ?_).bind fun _ => ?_
  · exact (h.valueType c id).bind fun type => (Blind.record _ _).bind fun _ => .record? _ _
  · split
    · split
      · exact (Blind.reportStart _ _ _).bind hrest
      · exact hrest ()
    · split
      · exact (Blind.forM_option fun _ => .report _ _).bind hrest
      · exact hrest ()

/-! ### Classes, interfaces and imports -/

omit h in
theorem blind_ownPropertyType (owner : TypeId) (name : String) :
    Blind w c (ownPropertyType owner name) :=
  Blind.table.bind fun _ => .pure _

theorem blind_checkProperty (types : ClassTypes) (member : NodeId) (p : PropertyParts) :
    Blind w c (checkProperty self types member p) := by
  refine .read (by simp) ((blind_ownPropertyType _ _).bind fun type => ?_)
  refine (h.blind_ascription p.ascription).bind fun annotated => ?_
  refine (h.blind_checkInitializer p.initializer annotated p.name).bind fun _ => ?_
  exact (Blind.record _ _).bind fun _ => .record _ _

omit h in
theorem blind_checkMethodName (types : ClassTypes) (members : List NodeId) (ambient : Bool)
    (p : FunctionParts) : Blind w c (checkMethodName types members ambient p) := by
  refine .read (by simp) ?_
  extract_lets a name rest
  have hrest : ∀ r, Blind w c (rest r) := fun _ => blind_ownPropertyType _ _
  split
  · exact (Blind.forM_option fun _ => .report _ _).bind hrest
  · exact hrest ()

theorem blind_checkMember (types : ClassTypes) (k : ClassParts) (ambient : Bool)
    (member : NodeId) : Blind w c (checkMember self types k ambient member) := by
  refine .read (by simp) ?_
  split
  · exact h.blind_checkProperty types member _
  · rename_i kind p hform
    split
    · extract_lets ambient rest rest'
      have hrest : ∀ type, Blind w c (rest type) := fun type =>
        (Blind.record _ _).bind fun _ => (Blind.record? _ _).bind fun _ =>
          h.blind_checkFunction member
      have hrest' : ∀ r, Blind w c (rest' r) := by
        intro r
        show Blind w c (if _ then _ else _)
        split
        · exact (Blind.pure _).bind hrest
        · exact (blind_checkMethodName _ _ _ _).bind hrest
      split
      · exact (Blind.forM_option fun _ => .reportStart _ _ _).bind hrest'
      · exact hrest' ()
    · exact .pure _
  · exact .pure _

theorem blind_checkClass (node : NodeId) (p : ClassParts) :
    Blind w c (checkClass self node p) := by
  refine .read (by simp) ?_
  split
  · exact .pure _
  · refine (h.classTypes c _).bind fun types => (Blind.record _ _).bind fun _ => ?_
    refine (Blind.record _ _).bind fun _ => (Blind.forM_option fun base => ?_).bind fun _ => ?_
    · exact (h.typeNode c base).bind fun _ => .pure _
    · exact .in_class (.forM fun member _ => h.blind_checkMember types p _ member)

theorem blind_declaredTypeOf (node : NodeId) : Blind w c (declaredTypeOf self node) := by
  refine .read (by simp) ?_
  split
  · exact .pure _
  · exact h.declaredType c _

theorem blind_checkSignatureMember (declared : TypeId) (member : NodeId) :
    Blind w c (checkSignatureMember self declared member) := by
  refine .read (by simp) ?_
  extract_lets a
  have hproperty : ∀ p : PropertyParts, Blind w c (do
      let type := (← ascription self p.ascription).getD .any
      record member type
      record p.name type) := fun p =>
    (h.blind_ascription p.ascription).bind fun _ => (Blind.record _ _).bind fun _ => .record _ _
  split
  · exact hproperty _
  · exact hproperty _
  · refine (Blind.forM fun node _ => h.blind_signatureParameter node).bind fun _ => ?_
    refine (h.blind_ascription _).bind fun _ => (blind_ownPropertyType _ _).bind fun _ => ?_
    exact (Blind.record _ _).bind fun _ => .record? _ _
  · exact .pure _

theorem blind_checkInterface (node : NodeId) (p : InterfaceParts) :
    Blind w c (checkInterface self node p) := by
  refine (h.blind_declaredTypeOf node).bind fun declared => (Blind.record _ _).bind fun _ => ?_
  refine (Blind.record _ _).bind fun _ => (Blind.forM fun base _ => ?_).bind fun _ => ?_
  · exact (h.typeNode c base).bind fun _ => .pure _
  · exact .forM fun member _ => h.blind_checkSignatureMember _ member

theorem blind_checkAlias (node : NodeId) (p : AliasParts) :
    Blind w c (checkAlias self node p) := by
  refine (h.blind_declaredTypeOf node).bind fun declared => ?_
  refine (h.typeNode c p.aliased).bind fun _ => ?_
  exact .forM_option fun _ => (Blind.record _ _).bind fun _ => .record _ _

theorem blind_checkSpecifier (text : String) (node : NodeId) :
    Blind w c (checkSpecifier self text node) := by
  refine .read (by simp) ?_
  split
  · split
    · exact .report _ _
    · extract_lets rest
      have hrest : ∀ type, Blind w c (rest type) := fun type =>
        (Blind.record _ _).bind fun _ => (Blind.record _ _).bind fun _ => .record? _ _
      split
      · exact (h.valueType c _).bind hrest
      · exact (h.declaredType c _).bind fun _ => (Blind.pure _).bind hrest
  · exact .pure _

theorem blind_checkImport (specifiers : List NodeId) (source : Option NodeId) :
    Blind w c (checkImport self specifiers source) := by
  refine .read (by simp) ?_
  dsimp only
  split
  · exact .forM_option fun _ => .report _ _
  · exact .forM fun node _ => h.blind_checkSpecifier _ node

/-! ### All statements -/

theorem blind_checkStatement (node : NodeId) (form : Form) :
    Blind w c (checkStatement self node form) := by
  have hnothing : ∀ {x : Check Unit}, Blind w c x → Blind w c (returningNothing x) :=
    fun hx => hx.bind fun _ => .pure _
  unfold checkStatement
  split
  · exact hnothing (h.blind_checkFunctionDeclaration node _)
  · exact hnothing (h.blind_checkClass node _)
  · exact hnothing (h.blind_checkInterface node _)
  · exact hnothing (h.blind_checkAlias node _)
  · exact hnothing (.forM fun node _ => h.blind_checkVariable node)
  · exact hnothing (h.blind_checkImport _ _)
  · exact .read (by simp) (.in_scope (h.blind_statements _))
  · exact hnothing (h.blind_lookAt _)
  · exact h.blind_checkReturn node _
  · exact (h.blind_lookAt _).bind fun _ => (h.blind_statement? _).bind fun _ =>
      (h.blind_statement? _).bind fun _ => .pure _
  · exact (h.blind_lookAt _).bind fun _ => h.blind_loopBody _
  · refine .read (by simp) (.in_scope ((h.blind_loopStart _).bind fun _ => ?_))
    exact (h.blind_lookAt _).bind fun _ => (h.blind_lookAt _).bind fun _ =>
      (h.blind_loopBody _).bind fun _ => .pure _
  · refine .read (by simp) (.in_scope ((h.blind_lookAt _).bind fun _ => ?_))
    exact (h.blind_loopStart _).bind fun _ => (h.blind_loopBody _).bind fun _ => .pure _
  · exact hnothing (blind_checkJump _ _ _)
  · exact hnothing (blind_checkJump _ _ _)
  · exact .pure _

theorem blind_statement (node : NodeId) : Blind w c (Checking.statement self node) := by
  refine .read (by simp) ?_
  split
  · exact .pure _
  · exact h.blind_checkStatement node _

end Sightless

/-- The rules are blind to the texts, however deeply they are nested. -/
theorem rules_sightless (w : SourceFile → SourceFile) (n : Nat) : Sightless w (rules n) := by
  induction n with
  | zero =>
    have hexhaust : ∀ {α : Type} (c : Context) (a : α), Blind w c (do exhaust; return a) :=
      fun _ _ => Blind.exhaust.bind fun _ => .pure _
    exact
      { typeNode := fun c _ => hexhaust c _
        expression := fun c _ _ => hexhaust c _
        statement := fun c _ => hexhaust c _
        valueType := fun c _ => hexhaust c _
        declaredType := fun c _ => hexhaust c _
        classTypes := fun c _ => hexhaust c _ }
  | succ n ih =>
    exact
      { typeNode := fun _ node => ih.blind_typeNode node
        expression := fun _ node expected => ih.blind_expression node expected
        statement := fun _ node => ih.blind_statement node
        valueType := fun _ id => ih.blind_valueType id
        declaredType := fun _ id => ih.blind_declaredType id
        classTypes := fun _ id => ih.blind_classTypes id }

end Checking

end ScriptAnalysis
