import ScriptAnalysis.Proofs.Checking.Idle

/-!
# The checker follows the survey

Whatever types the checker has found before, the settled reports it adds at
a place are those that the survey lists for it. This is proved function by
function, each from the rules for the parts (`Follows`), and then for the
rules with any number of nested uses.

**What stays open.** Signatures, and types that are written down, may be
known from an earlier look and are then not looked at again. For a signature
the survey says only what can be added (`tells_signature`). All of it is
listed for the function as well, so a function that is checked adds it in
any case (`mem_function_of_signature`); a function type is never checked as
one, which is why reports inside of it are not settled.

**Results.**
* `Follows.silent_…`: computations that record nothing where nothing is
  recorded, those that leave the file to look at a declaration among them.
* `Follows.reports_…`: what each function of the checker adds.
* `rules_follow`: the rules with at most `n` nested uses follow the survey
  with at most `n`.
-/
namespace ScriptAnalysis.Checking

/-! ## Places -/

namespace Context

variable (c : Context)

@[simp] theorem place_arena : c.place.arena = c.arena := rfl

@[simp] theorem place_resolve (name : String) (meaning : Meaning) :
    c.place.resolve name meaning = c.resolve name meaning := rfl

@[simp] theorem place_symbol? (id : SymbolId) : c.place.symbol? id = c.symbol? id := rfl

@[simp] theorem place_scopeOf (node : NodeId) : c.place.scopeOf node = c.scopeOf node := rfl

@[simp] theorem place_importTarget? (id : SymbolId) :
    c.place.importTarget? id = c.importTarget? id := rfl

@[simp] theorem place_declared? (node : NodeId) : c.place.declared? node = c.declared? node := rfl

@[simp] theorem place_returns : c.place.returns = c.returns.map fun _ => none :=
  List.head?_map

end Context

theorem Silent.publish (s : ClassShapes) : Silent s.publish :=
  .of_quiet fun _ => (Idle.publish s).quiet

/-- The rules report what the survey with the same number of nested uses
lists. -/
structure Follows (r : Rules) (n : Nat) : Prop where
  typeNode : ∀ c node, Reports c ((survey n).typeNode c.place node) (r.typeNode node)
  expression : ∀ c node expected,
    Reports c ((survey n).expression c.place node) (r.expression node expected)
  statement : ∀ c node, Reports c ((survey n).statement c.place node) (r.statement node)
  valueType : ∀ c id, Quiet c (r.valueType id)
  declaredType : ∀ c id, Quiet c (r.declaredType id)
  classTypes : ∀ c id, Quiet c (r.classTypes id)
  declares : ∀ c id v, Gives c (r.declaredType id) v →
    v.isSome = (survey n).declares c.place id

namespace Follows

variable {self : Rules} {n : Nat} {c : Context} (h : Follows self n)

include h

theorem silent_typeNode (node : NodeId) : Silent (self.typeNode node) :=
  .of_tells fun c => h.typeNode c node

theorem silent_expression (node : NodeId) (expected : Option TypeId) :
    Silent (self.expression node expected) :=
  .of_tells fun c => h.expression c node expected

theorem silent_classTypes (id : SymbolId) : Silent (self.classTypes id) :=
  .of_quiet fun c => h.classTypes c id

/-! ## Functions -/

theorem reports_ascription (type : Option NodeId) :
    Reports c ((survey n).ascription c.place type) (ascription self type) := by
  cases type with
  | none => exact Quiet.pure _
  | some node =>
    unfold Survey.ascription
    rw [Option.toList_some, List.flatMap_singleton]
    exact Tells.then_quiet (h.typeNode c node) fun _ => .pure _

theorem reports_body (node : NodeId) (declared : Option TypeId) :
    Reports c ((survey n).body c.place node) (functionBody self node declared) := by
  refine Tells.read ?_
  unfold Survey.body
  simp only [Context.place_arena, Context.place_scopeOf]
  cases (c.arena.functionOf? node).bind FunctionParts.body with
  | none => exact Quiet.pure _
  | some body =>
    refine Tells.in_scope (Tells.in_function ?_)
    dsimp only
    cases c.arena.form? body with
    | none => exact Quiet.pure _
    | some form =>
      cases form with
      | block statements =>
        exact Tells.then_quiet (.mapM fun node => h.statement _ node) fun _ => .pure _
      | _ =>
        refine Tells.then_quiet (h.expression _ _ _) fun type => ?_
        exact Tells.then_quiet (Quiet.forM_option fun _ => .checkAssignable _ _ _) fun _ => .pure _

theorem reports_parameterType (node : NodeId) :
    Reports c ((survey n).parameterType c.place node) (parameterType self node) := by
  refine Tells.read ?_
  unfold Survey.parameterType
  rw [Context.place_arena]
  cases c.arena.parameterOf? node with
  | none => exact Quiet.pure _
  | some p =>
    dsimp only
    cases p.ascription with
    | some type => exact h.typeNode c type
    | none =>
      cases p.initializer with
      | none => exact Tells.get fun _ => Quiet.pure _
      | some value =>
        dsimp only [Survey.optional]
        rw [Option.toList_some, List.flatMap_singleton]
        exact Tells.then_quiet (h.expression c value none) fun _ => .alloc _

/-- A parameter that declares a symbol is looked up, which reports nothing. -/
theorem tells_parameterInfo (node : NodeId) :
    Tells c [] ((survey n).parameterType c.place node) (parameterInfo self node) := by
  refine Tells.read ?_
  cases c.arena.parameterOf? node with
  | none => exact (Quiet.pure _).possibly
  | some p =>
    dsimp only
    cases c.declared? node with
    | some symbol => exact Quiet.possibly (.bind (h.valueType c symbol) fun _ => Quiet.pure _)
    | none => exact (Tells.then_quiet (h.reports_parameterType node) fun _ => .pure _).possibly

theorem reports_returnType (node : NodeId) (kind : FunctionKind) (p : FunctionParts) :
    Reports c ((survey n).ascription { c.place with scope := c.scopeOf node } p.returnType)
      (returnType self node kind p) := by
  unfold returnType
  cases p.returnType with
  | some type =>
    unfold Survey.ascription
    rw [Option.toList_some, List.flatMap_singleton]
    exact Tells.read (Tells.in_scope (h.typeNode _ type))
  | none =>
    dsimp only
    split
    · exact Quiet.pure _
    · split
      · refine Quiet.bind (Silent.quiet_silently ?_) fun _ => (Idle.inferredReturn _).quiet
        exact .of_tells fun _ => h.reports_body node none
      · exact Quiet.pure _

/-- A signature is looked at only while it is not known. -/
theorem tells_signature (node : NodeId) :
    Tells c [] ((survey n).signature c.place node) (signature self node) := by
  refine Tells.read (Tells.get fun s => ?_)
  split
  · exact (Quiet.pure _).possibly
  · split
    · rename_i kind p hform
      have hf : c.arena.functionOf? node = some p := by
        unfold Arena.functionOf?
        rw [hform]
      unfold Survey.signature
      rw [Context.place_arena, hf]
      refine Tells.bind_possibly ?_ fun parameters => ?_
      · exact (Tells.in_scope (Tells.mapM fun node => h.tells_parameterInfo node)).possibly
      · split
        · exact (Quiet.pure _).possibly
        · refine Tells.then_quiet ?_ fun type => ?_
          · exact Tells.resolving_signature (Tells.possibly (h.reports_returnType node kind p))
          · exact Quiet.bind (.modify fun _ => ⟨rfl, rfl, rfl⟩) fun _ => Quiet.pure _
    · exact (Quiet.pure _).possibly

theorem silent_signature (node : NodeId) : Silent (signature self node) :=
  .of_tells fun _ => h.tells_signature node

theorem silent_functionsType (nodes : List NodeId) : Silent (functionsType self nodes) :=
  .bind (.mapM h.silent_signature) fun _ => .of_quiet fun _ => .alloc _

theorem reports_initializer (initializer : Option NodeId) (annotated : Option TypeId)
    (name : NodeId) : Reports c ((survey n).optional c.place initializer)
      (checkInitializer self initializer annotated name) := by
  refine Tells.forM_option fun value => ?_
  exact Tells.then_quiet (h.expression c value annotated) fun _ =>
    .forM_option fun _ => .checkAssignable _ _ _

theorem reports_parameter (arrow : Bool) (node : NodeId) :
    Reports c ((survey n).parameter c.place node) (checkParameter self arrow node) := by
  refine Tells.read ?_
  unfold Survey.parameter
  rw [Context.place_arena]
  cases c.arena.parameterOf? node with
  | none => exact Quiet.pure _
  | some p =>
    dsimp -zetaHave only
    extract_lets rest
    have hrest : ∀ type, Reports c ((survey n).ascription c.place p.ascription ++
        (survey n).optional c.place p.initializer) (rest type) := by
      intro type
      refine Tells.bind (h.reports_ascription p.ascription) fun annotated => ?_
      refine Tells.then_quiet (h.reports_initializer p.initializer annotated p.name) fun _ => ?_
      refine Tells.get fun s => ?_
      have hrecord : Quiet c (do record node type; record p.name type) :=
        Quiet.bind (.record _ _) fun _ => Quiet.record _ _
      dsimp only
      split
      · exact Quiet.bind (.report (by simp [Problem.code, typeCodes]) _) fun _ => hrecord
      · exact hrecord
    cases c.declared? node with
    | some symbol => exact Quiet.bind (h.valueType c symbol) hrest
    | none =>
      refine Quiet.bind (Silent.quiet_silently ?_) hrest
      exact .of_tells fun _ => h.reports_parameterType node

theorem reports_function (node : NodeId) :
    Reports c ((survey n).function c.place node) (checkFunction self node) := by
  refine Tells.read ?_
  unfold Survey.function
  rw [Context.place_arena]
  cases c.arena.functionOf? node with
  | none => exact Quiet.pure _
  | some p =>
    refine Tells.in_scope ?_
    refine Tells.bind (.forM fun parameter _ => h.reports_parameter _ parameter) fun _ => ?_
    refine Tells.bind (h.reports_ascription p.returnType) fun declared => ?_
    cases p.body with
    | none => exact Quiet.pure _
    | some body =>
      rw [Option.toList_some, List.flatMap_singleton]
      refine Tells.then_quiet (h.reports_body node declared) fun returned => ?_
      split
      · refine Quiet.bind .table fun t => ?_
        split
        · exact Quiet.report (by simp [Problem.code, typeCodes]) _
        · exact Quiet.pure _
      · exact Quiet.pure _

/-! ## Types that are spelled out -/

theorem reports_reference (node : NodeId) :
    Reports c ((survey n).reference c.place node) (typeReference self node) := by
  have hrest : ∀ type : TypeId, Quiet c (do
      let type ← (pure type : Check TypeId)
      record node type
      return type) := fun type =>
    Quiet.bind (.pure _) fun _ => Quiet.bind (.record _ _) fun _ => Quiet.pure _
  refine Tells.read ?_
  unfold Survey.reference
  rw [Context.place_arena]
  cases c.arena.nameOf? node with
  | none => exact Quiet.pure _
  | some name =>
    refine Tells.ite (fun _ => Quiet.pure _) fun _ => ?_
    rw [Context.place_resolve]
    cases c.resolve name .type with
    | some symbol =>
      refine Tells.bind_gives (l := []) (m := []) (h.declaredType c symbol) fun v hv => ?_
      dsimp only
      rw [← h.declares c symbol v hv]
      cases v with
      | some type => exact hrest type
      | none => exact Tells.then_quiet (Reports.report _ _) fun _ => hrest _
    | none =>
      refine Tells.ite (fun _ => ?_) fun _ => ?_
      · exact Tells.then_quiet (Reports.report _ _) fun _ => hrest _
      · exact Tells.then_quiet (Reports.report _ _) fun _ => hrest _

theorem reports_signatureParameter (node : NodeId) :
    Reports c ((survey n).signatureParameter c.place node) (signatureParameter self node) := by
  refine Tells.read ?_
  unfold Survey.signatureParameter
  rw [Context.place_arena]
  cases c.arena.parameterOf? node with
  | none => exact Quiet.pure _
  | some p =>
    refine Tells.then_quiet (h.reports_ascription p.ascription) fun _ => ?_
    exact Quiet.bind (.record _ _) fun _ => Quiet.record _ _

/-- What the signature of a function type gives rise to is not settled. -/
theorem quiet_functionType {node : NodeId} {p : FunctionParts}
    (hform : c.arena.form? node = some (.function .functionType p)) :
    Quiet c (signature self node) := by
  refine Tells.weaken (h.tells_signature node) (fun _ hd _ => hd) fun d hd hs => ?_
  exact absurd ⟨n, c.place, node, p, rfl, rfl, rfl, hform, hd⟩ hs.2

theorem reports_typeForm {node : NodeId} {form : Form} (hform : c.arena.form? node = some form) :
    Reports c ((survey n).typeForm c.place form) (typeOfForm self node form) := by
  cases form with
  | literalType literal =>
    exact Tells.read (Quiet.bind (Idle.literalType _ _).quiet fun _ =>
      Quiet.bind (.record _ _) fun _ => Quiet.pure _)
  | arrayType element => exact Tells.then_quiet (h.typeNode c element) fun _ => .alloc _
  | parenthesizedType inner => exact h.typeNode c inner
  | unionType members => exact Tells.then_quiet (.mapM (h.typeNode c)) fun _ => .alloc _
  | typeReference name => exact h.reports_reference name
  | function kind p =>
    cases kind with
    | functionType =>
      refine Tells.then_quiet (.forM fun node _ => h.reports_signatureParameter node) fun _ => ?_
      exact Quiet.bind (h.quiet_functionType hform) fun _ => Quiet.alloc _
    | _ => exact Quiet.pure _
  | _ => exact Quiet.pure _

theorem reports_typeNode (node : NodeId) :
    Reports c ((survey (n + 1)).typeNode c.place node) (Checking.typeNode self node) := by
  refine Tells.read ?_
  show Tells c (((c.arena.form? node).map _).getD []) (((c.arena.form? node).map _).getD []) _
  cases hform : c.arena.form? node with
  | none => exact Quiet.pure _
  | some form =>
    refine Tells.then_quiet (h.reports_typeForm hform) fun _ => ?_
    exact Quiet.bind (.record _ _) fun _ => Quiet.pure _

/-! ## Symbols

What a symbol stands for is worked out at its declaration, where nothing is
recorded. -/

theorem silent_ascription (type : Option NodeId) : Silent (Checking.ascription self type) :=
  .of_tells fun _ => h.reports_ascription type

theorem silent_parameterType (node : NodeId) : Silent (parameterType self node) :=
  .of_tells fun _ => h.reports_parameterType node

theorem quiet_alias (id : SymbolId) (symbol : Symbol) : Quiet c (aliasType self id symbol) := by
  refine Tells.get fun s => ?_
  split
  · exact Quiet.pure _
  · refine Tells.read ?_
    split
    · exact Quiet.pure _
    · extract_lets rest
      have hrest : ∀ type, Quiet c (rest type) := fun type =>
        Quiet.bind (.modify fun _ => ⟨rfl, rfl, rfl⟩) fun _ => Quiet.pure _
      split
      · exact Quiet.bind (.pure _) hrest
      · split
        · refine Quiet.bind (Tells.resolving_type ?_) hrest
          exact (h.silent_typeNode _).quiet_atDeclaration _ _
        · exact Quiet.bind (.pure _) hrest

/-! ### Interfaces -/

theorem silent_addBase (shape : Shape) (heritage : NodeId) :
    Silent (addBase self shape heritage) := by
  refine (h.silent_typeNode heritage).bind fun base => ?_
  refine Silent.bind (.of_quiet fun _ => .table) fun t => ?_
  split <;> exact Silent.pure _

theorem silent_addSignatureProperty (shape : Shape) (p : PropertyParts) :
    Silent (addSignatureProperty self shape p) := by
  refine Silent.read fun c => ?_
  dsimp only
  split
  · exact Silent.pure _
  · exact (h.silent_ascription _).bind fun _ => .pure _

theorem silent_addInterfaceMember (acc : Shape × Table String (List NodeId)) (member : NodeId) :
    Silent (addInterfaceMember self acc member) := by
  refine Silent.read fun c => ?_
  dsimp only
  split
  · exact (h.silent_addSignatureProperty _ _).bind fun _ => .pure _
  · exact Silent.pure _
  · exact Silent.pure _

theorem silent_addInterfaceMethod (shape : Shape) (entry : String × List NodeId) :
    Silent (addInterfaceMethod self shape entry) := by
  unfold addInterfaceMethod
  dsimp only
  split
  · exact Silent.pure _
  · exact Silent.read fun c => (h.silent_functionsType _).bind fun _ => .pure _

theorem quiet_addInterface (shape : Shape) (declaration : Site) :
    Quiet c (addInterface self shape declaration) := by
  refine Tells.read (Silent.quiet_atDeclaration ?_ _ _)
  split
  · refine Silent.bind (.foldlM h.silent_addBase _) fun shape => ?_
    refine Silent.bind (.foldlM h.silent_addInterfaceMember _) fun acc => ?_
    exact Silent.foldlM h.silent_addInterfaceMethod _
  · exact Silent.pure _

theorem quiet_interface (id : SymbolId) (symbol : Symbol) :
    Quiet c (interfaceType self id symbol) := by
  refine Tells.get fun s => ?_
  split
  · exact Quiet.pure _
  · refine Tells.read (Quiet.bind (.alloc _) fun type => ?_)
    refine Quiet.bind (.modify fun _ => ⟨rfl, rfl, rfl⟩) fun _ => ?_
    refine Quiet.bind (.foldlM (fun shape d => ?_) _) fun _ => Quiet.pure _
    exact Quiet.bind (h.quiet_addInterface shape d) fun _ =>
      Quiet.bind (.alloc _) fun _ => Quiet.pure _

/-! ### Classes -/

theorem silent_addBaseClass (s : ClassShapes) (heritage : Option NodeId) :
    Silent (addBaseClass self s heritage) := by
  unfold addBaseClass
  split
  · exact Silent.pure _
  · refine (h.silent_typeNode _).bind fun base => ?_
    refine Silent.bind (.of_quiet fun _ => .table) fun t => ?_
    split
    · exact Silent.pure _
    · split
      · exact Silent.pure _
      · dsimp only
        split
        · exact Silent.pure _
        · exact (h.silent_classTypes _).bind fun _ => .pure _

theorem silent_addClassMember (acc : ClassShapes × ClassMembers) (member : NodeId) :
    Silent (addClassMember self acc member) := by
  refine Silent.read fun c => ?_
  dsimp only
  split
  · refine (h.silent_ascription _).bind fun type => ?_
    split <;> exact Silent.pure _
  · exact Silent.pure _
  · exact Silent.pure _
  · exact Silent.pure _

theorem silent_addParameterProperty (constructor : NodeId) (s : ClassShapes) (node : NodeId) :
    Silent (addParameterProperty self constructor s node) := by
  refine Silent.read fun c => ?_
  split
  · exact Silent.pure _
  · split
    · refine Silent.bind ?_ fun _ => .pure _
      exact (h.silent_parameterType node).moved (fun _ => rfl) fun _ hr => hr
    · exact Silent.pure _

theorem silent_addParameterProperties (s : ClassShapes) (constructor : NodeId) :
    Silent (addParameterProperties self s constructor) :=
  .read fun _ => .foldlM (h.silent_addParameterProperty constructor) _

theorem silent_methodType (nodes : List NodeId) : Silent (methodType self nodes) :=
  .read fun _ => h.silent_functionsType _

theorem silent_addMethod (s : ClassShapes) (entry : String × List NodeId) :
    Silent (addMethod self s entry) := by
  refine Silent.read fun c => ?_
  dsimp only
  split
  · exact (h.silent_methodType _).bind fun _ => .pure _
  · exact Silent.bind (.pure _) fun _ => .pure _

theorem silent_inferProperty (s : ClassShapes) (p : PropertyParts) :
    Silent (inferProperty self s p) := by
  unfold inferProperty
  extract_lets rest
  have hrest : ∀ type, Silent (rest type) := fun type =>
    .read fun _ => Silent.bind (.publish _) fun _ => .pure _
  split
  · exact Silent.bind (.pure _) hrest
  · exact (h.silent_expression _ _).bind fun _ => Silent.bind (.of_quiet fun _ => .alloc _) hrest

theorem silent_inferMethod (s : ClassShapes) (entry : String × List NodeId) :
    Silent (inferMethod self s entry) := by
  unfold inferMethod
  exact (h.silent_methodType _).bind fun _ => .read fun _ =>
    Silent.bind (.publish _) fun _ => .pure _

theorem silent_constructSignatures (types : ClassTypes) (constructors : List NodeId)
    (base : Option TypeId) : Silent (constructSignatures self types constructors base) := by
  refine Silent.read fun c => ?_
  extract_lets visible rest
  have hrest : ∀ found, Silent (rest found) := by
    intro found
    show Silent (if _ then _ else _)
    split <;> exact Silent.pure _
  split
  · exact Silent.bind (.mapM h.silent_signature) hrest
  · split
    · exact Silent.bind (.of_quiet fun _ => .table) fun _ => Silent.bind (.pure _) hrest
    · exact Silent.bind (.pure _) hrest

theorem silent_buildClass (id : SymbolId) (types : ClassTypes) (p : ClassParts) :
    Silent (buildClass self id types p) := by
  refine Silent.read fun c => ?_
  refine Silent.bind (.forM fun _ _ => .of_quiet fun _ => .modify fun _ => ⟨rfl, rfl, rfl⟩)
    fun _ => ?_
  refine Silent.in_class ?_
  refine Silent.bind (.of_quiet fun _ => .table) fun t => ?_
  refine (h.silent_addBaseClass _ _).bind fun base => ?_
  refine Silent.bind (.foldlM h.silent_addClassMember _) fun members => ?_
  refine Silent.bind (.foldlM h.silent_addParameterProperties _) fun s => ?_
  refine Silent.bind (.foldlM h.silent_addMethod _) fun s => ?_
  refine Silent.bind (.publish _) fun _ => ?_
  refine Silent.bind (.foldlM h.silent_inferProperty _) fun s => ?_
  refine Silent.bind (.foldlM h.silent_inferMethod _) fun s => ?_
  exact (h.silent_constructSignatures _ _ _).bind fun _ => .publish _

theorem quiet_class (id : SymbolId) : Quiet c (Checking.classTypes self id) := by
  refine Tells.get fun s => ?_
  split
  · exact Quiet.pure _
  · refine Tells.read ?_
    split
    · exact Quiet.pure _
    · refine Quiet.bind (.alloc _) fun instanceType => Quiet.bind (.alloc _) fun _ => ?_
      refine Quiet.bind (.modify fun _ => ⟨rfl, rfl, rfl⟩) fun _ => ?_
      split
      · exact Quiet.pure _
      · extract_lets interfaces ending rest
        have hrest : ∀ r, Quiet c (rest r) := by
          intro r
          show Quiet c (if _ then _ else _)
          split
          · exact Quiet.pure _
          · refine Quiet.bind .table fun t => ?_
            refine Quiet.bind (.foldlM h.quiet_addInterface _) fun _ => ?_
            exact Quiet.bind (.alloc _) fun _ => Quiet.pure _
        split
        · exact Quiet.bind ((h.silent_buildClass _ _ _).quiet_atDeclaration _ _) hrest
        · exact hrest ()

theorem quiet_declaredType (id : SymbolId) : Quiet c (Checking.declaredType self id) := by
  refine Tells.read ?_
  split
  · exact Quiet.pure _
  · split
    · split
      · exact Quiet.pure _
      · split
        · exact Quiet.pure _
        · exact Tells.resolving_type (h.declaredType _ _)
    · split
      · exact Quiet.bind (h.classTypes c id) fun _ => Quiet.pure _
      · split
        · exact Quiet.bind (h.quiet_interface _ _) fun _ => Quiet.pure _
        · split
          · exact Quiet.bind (h.quiet_alias _ _) fun _ => Quiet.pure _
          · exact Quiet.pure _

/-- Whether a symbol names a type can be seen without the types. -/
theorem declares_declaredType {id : SymbolId} {v : Option TypeId}
    (hv : Gives c (Checking.declaredType self id) v) :
    v.isSome = (survey (n + 1)).declares c.place id := by
  obtain ⟨s, rfl⟩ := hv
  show _ = (survey n).namesType c.place id
  unfold Checking.declaredType Survey.namesType
  rw [read_bind]
  simp only [Context.place_symbol?, Context.place_importTarget?]
  cases c.symbol? id with
  | none => rfl
  | some symbol =>
    dsimp only
    cases symbol.flags.alias_ with
    | true =>
      simp only [↓reduceIte]
      cases c.importTarget? id with
      | none => rfl
      | some target =>
        show ((if c.resolvingTypes.contains id = true then _ else _ : Check (Option TypeId))
          c s).1.1.isSome = (c.resolvingTypes.contains id || _)
        cases c.resolvingTypes.contains id with
        | true => rfl
        | false => exact h.declares _ target _ ⟨s, rfl⟩
    | false =>
      cases symbol.flags.class_ with
      | true => rfl
      | false =>
        cases symbol.flags.interface with
        | true => rfl
        | false => cases symbol.flags.typeAlias <;> rfl

/-! ### Values -/

theorem silent_variableType (node : NodeId) : Silent (variableType self node) := by
  refine Silent.read fun c => ?_
  split
  · split
    · exact h.silent_typeNode _
    · exact (h.silent_expression _ _).bind fun _ =>
        Silent.bind (.of_quiet fun _ => .table) fun _ => .pure _
    · exact Silent.pure _
    · refine (h.silent_expression _ _).bind fun type => ?_
      split
      · exact Silent.pure _
      · split
        · exact Silent.pure _
        · exact .of_quiet fun _ => .alloc _
  · exact Silent.pure _

theorem quiet_functionValue (declarations : List Site) :
    Quiet c (functionType self declarations) := by
  refine Tells.read (Quiet.bind (.mapM fun e => ?_) fun _ => Quiet.alloc _)
  exact (h.silent_signature _).quiet_atDeclaration _ _

theorem quiet_importedType (id : SymbolId) : Quiet c (importedType self id) := by
  refine Tells.read ?_
  split
  · split
    · exact h.valueType _ _
    · exact Quiet.pure _
  · exact Quiet.pure _

theorem quiet_findValueType (id : SymbolId) : Quiet c (findValueType self id) := by
  refine Tells.read ?_
  split
  · exact Quiet.pure _
  · split
    · exact Quiet.pure _
    · split
      · exact h.quiet_importedType id
      · split
        · exact Quiet.bind (h.classTypes c id) fun _ => Quiet.pure _
        · split
          · exact h.quiet_functionValue _
          · split
            · exact Quiet.pure _
            · dsimp only
              split
              · exact (h.silent_variableType _).quiet_atDeclaration _ _
              · split
                · exact (h.silent_parameterType _).quiet_atDeclaration _ _
                · exact Quiet.pure _

theorem quiet_valueType (id : SymbolId) : Quiet c (Checking.valueType self id) := by
  refine Tells.get fun s => ?_
  split
  · exact Quiet.pure _
  · refine Tells.read ?_
    split
    · exact Quiet.pure _
    · refine Quiet.bind (Tells.resolving_value (h.quiet_findValueType id)) fun _ => ?_
      exact Quiet.bind (.modify fun _ => ⟨rfl, rfl, rfl⟩) fun _ => Quiet.pure _

/-! ## Expressions -/

theorem reports_value (node : NodeId) :
    Reports c (Survey.value c.place node) (checkName self node) := by
  refine Tells.read ?_
  unfold Survey.value
  refine Tells.ite (fun _ => Quiet.pure _) fun _ => ?_
  rw [Context.place_resolve, Context.place_arena]
  cases c.resolve ((c.arena.nameOf? node).getD "") .value with
  | some symbol => exact h.valueType c symbol
  | none =>
    refine Tells.ite (fun _ => ?_) fun _ => ?_
    · exact Tells.then_quiet (Reports.report _ _) fun _ => .pure _
    · exact Tells.then_quiet (Reports.report _ _) fun _ => .pure _

theorem reports_propertyAccess (object name : NodeId) :
    Reports c ((survey n).expression c.place object) (checkPropertyAccess self object name) := by
  refine Tells.then_quiet (h.expression c object none) fun objectType => ?_
  refine Tells.read ?_
  extract_lets text rest
  split
  · exact Quiet.pure _
  · have hrest : ∀ type, Quiet c (rest type) := fun type =>
      Quiet.bind (.record _ _) fun _ => Quiet.pure _
    refine Quiet.bind (Idle.propertyType _ _).quiet fun found => ?_
    split
    · exact Quiet.bind (.pure _) hrest
    · refine Quiet.bind (.display _) fun _ => ?_
      refine Quiet.bind (.report (by simp [Problem.code, typeCodes]) _) fun _ => ?_
      exact Quiet.bind (.pure _) hrest

theorem reports_elementAccess (object index : NodeId) :
    Reports c ((survey n).expression c.place object ++ (survey n).expression c.place index)
      (checkElementAccess self object index) := by
  refine Tells.bind (h.expression c object none) fun objectType => ?_
  refine Tells.then_quiet (h.expression c index none) fun indexType => ?_
  split
  · exact Quiet.pure _
  · refine Quiet.bind .table fun t => ?_
    split
    · exact Quiet.pure _
    · split
      · exact Quiet.pure _
      · split
        · exact Quiet.bind (Idle.propertyType _ _).quiet fun _ => Quiet.pure _
        · exact Quiet.pure _

theorem reports_array (elements : List NodeId) (expected : Option TypeId) :
    Reports c (elements.flatMap ((survey n).expression c.place))
      (checkArray self elements expected) := by
  refine Quiet.bind .table fun t => ?_
  refine Tells.then_quiet (.mapM fun e => ?_) fun types => ?_
  · exact Tells.then_quiet (h.expression c e _) fun _ => .alloc _
  · dsimp only
    split
    · exact Quiet.bind (.pure _) fun _ => Quiet.alloc _
    · exact Quiet.bind (.alloc _) fun _ => Quiet.alloc _

theorem reports_property (expected : Option TypeId) (shape : Shape) (element : NodeId) :
    Reports c ((survey n).property c.place element)
      (addLiteralProperty self expected shape element) := by
  refine Tells.read ?_
  unfold Survey.property
  rw [Context.place_arena]
  extract_lets a
  cases c.arena.form? element with
  | none => exact Quiet.pure _
  | some form =>
    cases form with
    | propertyAssignment name value =>
      refine Quiet.bind .table fun t => ?_
      extract_lets wanted rest
      have hrest : ∀ found, Quiet c (rest found) := fun found =>
        Quiet.bind (.alloc _) fun _ => Quiet.bind (.record _ _) fun _ =>
          Quiet.bind (.record _ _) fun _ => Quiet.pure _
      cases value with
      | some value => exact Tells.then_quiet (h.expression c value _) hrest
      | none => exact Tells.then_quiet (h.reports_value name) hrest
    | _ => exact Quiet.pure _

theorem reports_object (properties : List NodeId) (expected : Option TypeId) :
    Reports c (properties.flatMap ((survey n).property c.place))
      (checkObject self properties expected) :=
  Tells.then_quiet (.foldlM (h.reports_property expected) _) fun _ => .alloc _

/-! ### Calls -/

theorem reports_arguments (arguments : List NodeId) :
    Reports c (arguments.flatMap ((survey n).expression c.place))
      (checkArguments self arguments) :=
  Tells.forM fun argument _ => Tells.then_quiet (h.expression c argument none) fun _ => .pure _

theorem silent_argumentsFit (pairs : List (NodeId × Parameter)) :
    Silent (argumentsFit self pairs) := by
  induction pairs with
  | nil => exact Silent.pure _
  | cons pair rest ih =>
    refine (h.silent_expression _ _).bind fun type => ?_
    refine Silent.bind (.of_quiet fun _ => .assignable _ _) fun fits => ?_
    split
    · exact ih
    · exact Silent.pure _

theorem quiet_findSignature (arguments : List NodeId) (signatures : List Signature) :
    Quiet c (findSignature self arguments signatures) := by
  induction signatures with
  | nil => exact Quiet.pure _
  | cons s rest ih =>
    refine Quiet.bind (h.silent_argumentsFit _).quiet_silently fun fits => ?_
    split
    · exact Quiet.pure _
    · exact ih

omit h in
/-- The signature that is chosen is one of those to choose from. -/
theorem mem_of_findSignature {arguments : List NodeId} {signatures : List Signature}
    {found : Signature} (hf : Gives c (findSignature self arguments signatures) (some found)) :
    found ∈ signatures := by
  obtain ⟨s, hs⟩ := hf
  induction signatures generalizing c s with
  | nil => cases hs
  | cons first rest ih =>
    have hstep : findSignature self arguments (first :: rest) =
        silently (argumentsFit self (arguments.zip first.parameters)) >>= fun fits =>
          if fits = true then pure (some first) else findSignature self arguments rest := rfl
    rw [hstep, bind_apply] at hs
    split at hs
    · cases hs
      exact List.mem_cons_self
    · exact List.mem_cons_of_mem _ (ih _ hs)

theorem reports_argument (argument : NodeId) (p : Parameter) :
    Reports c ((survey n).expression c.place argument) (checkArgument self argument p) := by
  refine Tells.then_quiet (h.expression c argument _) fun type => ?_
  refine Quiet.bind (.assignable _ _) fun fits => ?_
  split
  · exact Quiet.pure _
  · refine Quiet.bind .table fun t => Tells.read ?_
    exact Quiet.reportWith (by simp [Problem.code, typeCodes]) _ _

/-- However a call is resolved, each argument is looked at once. -/
theorem reports_resolveCall (node : NodeId) (signatures : List Signature)
    (arguments : List NodeId) :
    Reports c (arguments.flatMap ((survey n).expression c.place))
      (resolveCall self node signatures arguments) := by
  unfold resolveCall
  split
  · refine Quiet.bind (.report (by simp [Problem.code, typeCodes]) _) fun _ => ?_
    exact Tells.then_quiet (h.reports_arguments arguments) fun _ => .pure _
  · rename_i first others hfits
    extract_lets rest
    have hrest : ∀ chosen ∈ first :: others,
        Reports c (arguments.flatMap ((survey n).expression c.place)) (rest chosen) := by
      intro chosen hmem
      have hcount : arguments.length ≤ chosen.parameters.length := by
        rw [← hfits] at hmem
        have htakes := (List.mem_filter.1 hmem).2
        unfold takesCount at htakes
        simp only [Bool.and_eq_true, decide_eq_true_eq] at htakes
        exact htakes.2
      have hall : arguments.flatMap ((survey n).expression c.place) =
          (arguments.zip chosen.parameters).flatMap
            fun pair => (survey n).expression c.place pair.1 := by
        conv => lhs; rw [← List.map_fst_zip hcount]
        rw [List.flatMap_map]
      rw [hall]
      exact Tells.then_quiet (.forM fun pair _ => h.reports_argument pair.1 pair.2) fun _ => .pure _
    split
    · exact Tells.pure_bind (hrest first List.mem_cons_self)
    · refine Tells.bind_gives (l := []) (m := []) (h.quiet_findSignature _ _) fun found hf => ?_
      refine Tells.pure_bind (hrest _ ?_)
      cases found with
      | none => exact List.mem_cons_self
      | some found => exact mem_of_findSignature hf

theorem reports_call (node callee : NodeId) (arguments : List NodeId) :
    Reports c ((survey n).expression c.place callee ++
        arguments.flatMap ((survey n).expression c.place))
      (checkCall self node callee arguments) := by
  refine Tells.read ?_
  split
  · refine Tells.bind (h.expression c callee none) fun base => Tells.get fun s => ?_
    dsimp only
    split
    · exact Tells.then_quiet (h.reports_arguments arguments) fun _ => .pure _
    · exact Tells.then_quiet (h.reports_resolveCall _ _ arguments) fun _ => .pure _
  · refine Tells.bind (h.expression c callee none) fun type => ?_
    split
    · exact Tells.then_quiet (h.reports_arguments arguments) fun _ => .pure _
    · refine Quiet.bind .table fun t => ?_
      split
      · refine Quiet.bind (.report (by simp [Problem.code, typeCodes]) _) fun _ => ?_
        exact Tells.then_quiet (h.reports_arguments arguments) fun _ => .pure _
      · exact h.reports_resolveCall _ _ arguments

theorem reports_new (node callee : NodeId) (arguments : List NodeId) :
    Reports c ((survey n).expression c.place callee ++
        arguments.flatMap ((survey n).expression c.place))
      (checkNew self node callee arguments) := by
  refine Tells.bind (h.expression c callee none) fun type => ?_
  split
  · exact Tells.then_quiet (h.reports_arguments arguments) fun _ => .pure _
  · refine Quiet.bind .table fun t => ?_
    split
    · refine Quiet.bind (.report (by simp [Problem.code, typeCodes]) _) fun _ => ?_
      exact Tells.then_quiet (h.reports_arguments arguments) fun _ => .pure _
    · exact h.reports_resolveCall _ _ arguments

/-! ### Operators -/

omit h in
theorem reports_target (target : NodeId) :
    Reports c (Survey.target c.place target) (checkTarget target) := by
  refine Tells.read ?_
  unfold Survey.target
  rw [Context.place_arena]
  cases c.arena.nameOf? target with
  | none => exact Quiet.pure _
  | some name =>
    refine Tells.ite (fun _ => ?_) fun _ => Quiet.pure _
    exact Tells.then_quiet (Reports.report _ _) fun _ => .pure _

theorem reports_prefix (operator : TokenKind) (operand : NodeId) :
    Reports c ((survey n).prefixed c.place operator operand)
      (checkPrefix self operator operand) := by
  have hoperand : ∀ {α : Type} (x : Check α), Quiet c x →
      Reports c ((survey n).expression c.place operand)
        (do let _ ← self.expression operand none; x) :=
    fun x hx => Tells.then_quiet (h.expression c operand none) fun _ => hx
  have hstep : Reports c ((survey n).expression c.place operand ++ Survey.target c.place operand)
      (do
        let _ ← self.expression operand none
        let _ ← checkTarget operand
        return TypeId.number) :=
    Tells.bind (h.expression c operand none) fun _ =>
      Tells.then_quiet (reports_target operand) fun _ => .pure _
  refine Tells.read ?_
  unfold Survey.prefixed
  split
  · exact hstep
  · exact hstep
  · rename_i hplus hminus
    split
    · exact hoperand _ (.pure _)
    · exact hoperand _ (.alloc _)
    · exact absurd rfl hplus
    · exact absurd rfl hminus
    · exact hoperand _ (.pure _)

theorem reports_assignment (left right : NodeId) :
    Reports c ((survey n).expression c.place left ++
      (Survey.target c.place left ++ (survey n).expression c.place right))
      (checkAssignment self left right) := by
  refine Tells.bind (h.expression c left none) fun target => ?_
  refine Tells.bind (reports_target left) fun writable => ?_
  refine Tells.then_quiet (h.expression c right _) fun value => ?_
  dsimp only
  split
  · exact Quiet.bind (.checkAssignable _ _ _) fun _ => Quiet.pure _
  · exact Quiet.pure _

theorem reports_update (left : NodeId) (operator : TokenKind) (right : NodeId) :
    Reports c ((survey n).expression c.place left ++
      (Survey.target c.place left ++ (survey n).expression c.place right))
      (checkUpdate self left operator right) := by
  refine Tells.bind (h.expression c left none) fun target => ?_
  refine Tells.bind (reports_target left) fun _ => ?_
  refine Tells.then_quiet (h.expression c right _) fun value => ?_
  split
  · exact Quiet.bind .table fun _ => Quiet.pure _
  · exact Quiet.pure _

theorem reports_binary (left : NodeId) (operator : TokenKind) (right : NodeId) :
    Reports c ((survey n).binary c.place left operator right)
      (checkBinary self left operator right) := by
  unfold checkBinary
  split
  · exact h.reports_assignment left right
  · exact h.reports_update left _ right
  · exact h.reports_update left _ right
  · exact h.reports_update left _ right
  · exact h.reports_update left _ right
  · unfold Survey.binary
    split
    · exact absurd rfl ‹_›
    · exact absurd rfl ‹_›
    · exact absurd rfl ‹_›
    · exact absurd rfl ‹_›
    · exact absurd rfl ‹_›
    · refine Tells.bind (h.expression c left none) fun l => ?_
      exact Tells.then_quiet (h.expression c right none) fun r => (Idle.operatorType _ _ _).quiet

/-! ### Arrow functions -/

theorem tells_arrowType (node : NodeId) (expected : Option TypeId) :
    Tells c [] ((survey n).signature c.place node) (arrowType self node expected) := by
  refine Tells.read (Tells.get fun s => ?_)
  split
  · exact (Quiet.pure _).possibly
  · refine Quiet.bind (Idle.takeContext _ _).quiet fun _ => ?_
    refine Tells.then_quiet (h.tells_signature node) fun _ => ?_
    exact Quiet.bind (.alloc _) fun _ =>
      Quiet.bind (.modify fun _ => ⟨rfl, rfl, rfl⟩) fun _ => Quiet.pure _

/-- An arrow function is checked whether its type is known or not. -/
theorem reports_arrow (node : NodeId) (expected : Option TypeId) :
    Reports c (if c.place.recording then (survey n).function c.place node else [])
      (checkArrow self node expected) := by
  cases hr : c.recording with
  | false =>
    rw [if_neg (by rw [show c.place.recording = c.recording from rfl, hr]; decide)]
    have hsilent : Silent (arrowType self node expected) :=
      .of_tells fun _ => h.tells_arrowType node expected
    refine Quiet.bind (hsilent.quiet hr) fun type => Tells.read ?_
    rw [hr]
    exact Quiet.pure _
  | true =>
    rw [if_pos (show c.place.recording = true from hr)]
    have hboth : Tells c ([] ++ (survey n).function c.place node)
        ((survey n).signature c.place node ++ (survey n).function c.place node)
        (checkArrow self node expected) := by
      refine Tells.bind (h.tells_arrowType node expected) fun type => Tells.read ?_
      rw [hr]
      exact Tells.then_quiet (h.reports_function node) fun _ => .pure _
    refine hboth.weaken (fun d hd _ => hd) fun d hd _ => ?_
    rcases List.mem_append.1 hd with hd | hd
    · exact Survey.mem_function_of_signature _ _ hd
    · exact hd

/-! ### All expressions -/

theorem reports_expressionForm (node : NodeId) (expected : Option TypeId) (form : Form) :
    Reports c ((survey n).expressionForm c.place node form)
      (expressionType self node expected form) := by
  cases form with
  | numericLiteral text => exact Quiet.alloc _
  | stringLiteral text => exact Quiet.alloc _
  | keyword word => exact (Idle.keyword _ _ _ _).quiet
  | identifier text => exact h.reports_value node
  | parenthesized inner => exact h.expression c inner expected
  | arrayLiteral elements => exact h.reports_array elements expected
  | objectLiteral properties => exact h.reports_object properties expected
  | call callee arguments => exact h.reports_call node callee arguments
  | newExpression callee arguments => exact h.reports_new node callee arguments
  | propertyAccess object name => exact h.reports_propertyAccess object name
  | elementAccess object index => exact h.reports_elementAccess object index
  | prefixUnary operator operand => exact h.reports_prefix operator operand
  | postfixUnary operator operand =>
    refine Tells.bind (h.expression c operand none) fun _ => ?_
    exact Tells.then_quiet (reports_target operand) fun _ => .pure _
  | typeOf operand => exact Tells.then_quiet (h.expression c operand none) fun _ => .pure _
  | binary left operator right => exact h.reports_binary left operator right
  | conditional condition whenTrue whenFalse =>
    refine Tells.bind (h.expression c condition none) fun _ => ?_
    refine Tells.bind (h.expression c whenTrue expected) fun _ => ?_
    exact Tells.then_quiet (h.expression c whenFalse expected) fun _ => .alloc _
  | function kind p =>
    cases kind with
    | arrow => exact h.reports_arrow node expected
    | _ => exact Quiet.pure _
  | asExpression operand type =>
    refine Tells.bind (h.typeNode c type) fun target => ?_
    exact Tells.then_quiet (h.expression c operand _) fun _ => .pure _
  | _ => exact Quiet.pure _

theorem reports_expression (node : NodeId) (expected : Option TypeId) :
    Reports c ((survey (n + 1)).expression c.place node)
      (Checking.expression self node expected) := by
  refine Tells.read ?_
  refine Tells.ite (l := []) (m := []) (fun _ => Quiet.pure _) fun _ => ?_
  refine Tells.then_quiet (Tells.in_expression ?_) fun type =>
    Quiet.bind (.record _ _) fun _ => Quiet.pure _
  show Tells _ (((c.arena.form? node).map _).getD []) (((c.arena.form? node).map _).getD []) _
  cases c.arena.form? node with
  | none => exact Quiet.pure _
  | some form => exact h.reports_expressionForm node expected form

/-! ## Statements -/

theorem reports_statement? (node : Option NodeId) :
    Reports c ((survey n).statement? c.place node) (statement? self node) := by
  cases node with
  | none => exact Quiet.pure _
  | some node =>
    unfold Survey.statement?
    rw [Option.toList_some, List.flatMap_singleton]
    exact h.statement c node

theorem reports_statements (nodes : List NodeId) :
    Reports c (nodes.flatMap ((survey n).statement c.place)) (statements self nodes) :=
  Tells.then_quiet (.mapM (h.statement c)) fun _ => .pure _

theorem reports_lookAt (node : Option NodeId) :
    Reports c ((survey n).optional c.place node) (lookAt self node) :=
  Tells.forM_option fun node => Tells.then_quiet (h.expression c node none) fun _ => .pure _

theorem reports_look (node : NodeId) :
    Reports c ((survey n).expression c.place node) (lookAt self (some node)) :=
  Tells.then_quiet (h.expression c node none) fun _ => .pure _

theorem reports_loopBody (node : Option NodeId) :
    Reports c ((survey n).loopBody c.place node) (loopBody self node) :=
  Tells.in_loop (h.reports_statement? node)

theorem reports_loopStart (start : Option NodeId) :
    Reports c ((survey n).loopStart c.place start) (loopStart self start) := by
  unfold loopStart
  cases start with
  | none => exact Quiet.pure _
  | some node =>
    refine Tells.read (Tells.ite (fun _ => h.statement c node) fun _ => ?_)
    exact Tells.then_quiet (h.expression c node none) fun _ => .pure _

theorem reports_returned (node : NodeId) (value : Option NodeId) :
    Reports c ((survey n).returned c.place node value) (checkReturn self node value) := by
  refine Tells.read ?_
  unfold Survey.returned
  rw [Context.place_returns]
  cases c.returns with
  | none =>
    refine Tells.bind (Reports.reportStart _ _ _) fun _ => ?_
    exact Tells.then_quiet (h.reports_lookAt value) fun _ => .pure _
  | some declared =>
    cases value with
    | none => exact Quiet.pure _
    | some value =>
      rw [Option.map_some]
      dsimp only [Survey.optional]
      rw [Option.toList_some, List.flatMap_singleton]
      refine Tells.then_quiet (h.expression c value declared) fun type => ?_
      exact Quiet.bind (.forM_option fun _ => .checkAssignable _ _ _) fun _ => Quiet.pure _

omit h in
theorem reports_jump (node : NodeId) (length : Nat) (problem : Problem) :
    Reports c (Survey.jump c.place node length problem) (checkJump node length problem) :=
  Tells.read (Tells.ite (fun _ => Quiet.pure _) fun _ => Reports.reportStart _ _ _)

theorem reports_variable (node : NodeId) :
    Reports c ((survey n).variable_ c.place node) (checkVariable self node) := by
  refine Tells.read ?_
  unfold Survey.variable_
  rw [Context.place_arena]
  cases c.arena.form? node with
  | none => exact Quiet.pure _
  | some form =>
    cases form with
    | variableDeclaration p =>
      dsimp -zetaHave only
      extract_lets rest
      have hrest : ∀ type, Reports c ((survey n).ascription c.place p.ascription ++
          (survey n).optional c.place p.initializer) (rest type) := by
        intro type
        refine Tells.bind (h.reports_ascription p.ascription) fun annotated => ?_
        refine Tells.then_quiet (h.reports_initializer p.initializer annotated p.name) fun _ => ?_
        exact Quiet.bind (.record _ _) fun _ => Quiet.record _ _
      cases c.declared? node with
      | some symbol => exact Quiet.bind (h.valueType c symbol) hrest
      | none => exact Quiet.bind (h.silent_variableType node).quiet_silently hrest
    | _ => exact Quiet.pure _

theorem reports_functionDeclaration (node : NodeId) (p : FunctionParts) :
    Reports c ((survey n).functionDeclaration c.place node p)
      (checkFunctionDeclaration self node p) := by
  refine Tells.read ?_
  extract_lets ambient symbol rest
  refine Quiet.bind (.forM_option fun id => ?_) fun _ => ?_
  · refine Quiet.bind (h.valueType c id) fun type => ?_
    exact Quiet.bind (.record _ _) fun _ => Quiet.record? _ _
  · have hrest : ∀ r, Reports c ((survey n).function c.place node) (rest r) :=
      fun _ => h.reports_function node
    unfold Survey.functionDeclaration
    cases p.body with
    | some body => exact Tells.when (Reports.reportStart _ _ _) (hrest ())
    | none => exact Tells.when (.forM_option fun name => Reports.report name _) (hrest ())

/-! ### Classes, interfaces and imports -/

theorem reports_classProperty (types : ClassTypes) (member : NodeId) (p : PropertyParts) :
    Reports c ((survey n).ascription c.place p.ascription ++
      (survey n).optional c.place p.initializer) (checkProperty self types member p) := by
  refine Tells.read (Quiet.bind (Idle.ownPropertyType _ _).quiet fun type => ?_)
  refine Tells.bind (h.reports_ascription p.ascription) fun annotated => ?_
  refine Tells.then_quiet (h.reports_initializer p.initializer annotated p.name) fun _ => ?_
  exact Quiet.bind (.record _ _) fun _ => Quiet.record _ _

omit h in
theorem reports_methodName (types : ClassTypes) (members : List NodeId) (ambient : Bool)
    (p : FunctionParts) : Reports c (Survey.methodName c.place members ambient p)
      (checkMethodName types members ambient p) := by
  have hwhen : Reports c (Survey.methodName c.place members ambient p ++ [])
      (checkMethodName types members ambient p) := by
    refine Tells.read ?_
    exact Tells.when (.forM_option fun name => Reports.report name _)
      (Idle.ownPropertyType _ _).quiet
  rwa [List.append_nil] at hwhen

theorem reports_member (types : ClassTypes) (k : ClassParts) (ambient : Bool) (member : NodeId) :
    Reports c ((survey n).member c.place k ambient member)
      (checkMember self types k ambient member) := by
  refine Tells.read ?_
  unfold Survey.member
  rw [Context.place_arena]
  cases c.arena.form? member with
  | none => exact Quiet.pure _
  | some form =>
    cases form with
    | propertyDeclaration p => exact h.reports_classProperty types member p
    | function kind p =>
      have hrest : ∀ type, Reports c ((survey n).function c.place member) (do
          record member type
          record? p.name type
          checkFunction self member) := fun type =>
        Quiet.bind (.record _ _) fun _ => Quiet.bind (.record? _ _) fun _ =>
          h.reports_function member
      refine Tells.ite (fun _ => ?_) fun _ => Quiet.pure _
      refine Tells.when (.forM_option fun body => Reports.reportStart _ _ _) ?_
      by_cases hk : kind = .constructor
      · simp only [hk, ↓reduceIte]
        exact Tells.pure_bind (hrest _)
      · simp only [hk, ↓reduceIte]
        exact Tells.bind (reports_methodName _ _ _ _) hrest
    | _ => exact Quiet.pure _

theorem reports_class (node : NodeId) (p : ClassParts) :
    Reports c ((survey n).class_ c.place node p) (checkClass self node p) := by
  refine Tells.read ?_
  unfold Survey.class_
  rw [Context.place_declared?]
  cases c.declared? node with
  | none => exact Quiet.pure _
  | some symbol =>
    refine Quiet.bind (h.classTypes c symbol) fun types => ?_
    refine Quiet.bind (.record _ _) fun _ => Quiet.bind (.record _ _) fun _ => ?_
    refine Tells.bind (.forM_option fun base => ?_) fun _ => ?_
    · exact Tells.then_quiet (h.typeNode c base) fun _ => .pure _
    · refine Tells.in_class ?_
      exact Tells.forM fun member _ => h.reports_member types p _ member

theorem quiet_declaredTypeOf (node : NodeId) : Quiet c (declaredTypeOf self node) := by
  refine Tells.read ?_
  split
  · exact Quiet.pure _
  · exact h.declaredType c _

theorem reports_signatureMember (declared : TypeId) (member : NodeId) :
    Reports c ((survey n).signatureMember c.place member)
      (checkSignatureMember self declared member) := by
  refine Tells.read ?_
  unfold Survey.signatureMember
  rw [Context.place_arena]
  extract_lets a
  have hproperty : ∀ p : PropertyParts, Reports c ((survey n).ascription c.place p.ascription)
      (do
        let type := (← ascription self p.ascription).getD .any
        record member type
        record p.name type) := fun p =>
    Tells.then_quiet (h.reports_ascription p.ascription) fun _ =>
      Quiet.bind (.record _ _) fun _ => Quiet.record _ _
  cases c.arena.form? member with
  | none => exact Quiet.pure _
  | some form =>
    cases form with
    | propertySignature p => exact hproperty p
    | propertyDeclaration p => exact hproperty p
    | function kind p =>
      refine Tells.bind (.forM fun node _ => h.reports_signatureParameter node) fun _ => ?_
      refine Tells.then_quiet (h.reports_ascription p.returnType) fun _ => ?_
      refine Quiet.bind (Idle.ownPropertyType _ _).quiet fun _ => ?_
      exact Quiet.bind (.record _ _) fun _ => Quiet.record? _ _
    | _ => exact Quiet.pure _

theorem reports_interface (node : NodeId) (p : InterfaceParts) :
    Reports c ((survey n).interface c.place p) (checkInterface self node p) := by
  refine Quiet.bind (h.quiet_declaredTypeOf node) fun declared => ?_
  refine Quiet.bind (.record _ _) fun _ => Quiet.bind (.record _ _) fun _ => ?_
  refine Tells.bind (.forM fun base _ => ?_) fun _ => ?_
  · exact Tells.then_quiet (h.typeNode c base) fun _ => .pure _
  · exact Tells.forM fun member _ => h.reports_signatureMember _ member

theorem reports_alias (node : NodeId) (p : AliasParts) :
    Reports c ((survey n).typeNode c.place p.aliased) (checkAlias self node p) := by
  refine Quiet.bind (h.quiet_declaredTypeOf node) fun declared => ?_
  refine Tells.then_quiet (h.typeNode c p.aliased) fun _ => ?_
  exact .forM_option fun _ => Quiet.bind (.record _ _) fun _ => Quiet.record _ _

theorem reports_specifier (text : String) (node : NodeId) :
    Reports c (Survey.specifier c.place text node) (checkSpecifier self text node) := by
  refine Tells.read ?_
  unfold Survey.specifier
  rw [Context.place_arena, Context.place_declared?]
  cases c.arena.form? node with
  | none => exact Quiet.pure _
  | some form =>
    cases form with
    | importSpecifier exportedName name =>
      cases c.declared? node with
      | none => exact Quiet.pure _
      | some symbol =>
        dsimp only
        rw [Context.place_importTarget?]
        cases c.importTarget? symbol with
        | none => exact Reports.report _ _
        | some target =>
          have hrecord : ∀ type, Quiet c (do
              record node type
              record name type
              record? exportedName type) := fun type =>
            Quiet.bind (.record _ _) fun _ => Quiet.bind (.record _ _) fun _ => Quiet.record? _ _
          dsimp only
          split
          · exact Quiet.bind (h.valueType c symbol) hrecord
          · refine Quiet.bind (h.declaredType c target) fun _ => ?_
            exact Quiet.bind (.pure _) hrecord
    | _ => exact Quiet.pure _

theorem reports_import (specifiers : List NodeId) (source : Option NodeId) :
    Reports c (Survey.import_ c.place specifiers source)
      (checkImport self specifiers source) := by
  refine Tells.read ?_
  unfold Survey.import_
  rw [show c.place.arena = c.arena from rfl, show c.place.source = c.source from rfl,
    show c.place.files = c.files from rfl]
  dsimp only
  cases Path.resolveModule c.source.name _ _ with
  | none => exact Tells.forM_option fun node => Reports.report node _
  | some path => exact Tells.forM fun node _ => h.reports_specifier _ node

/-! ### All statements -/

theorem reports_statementForm (node : NodeId) (form : Form) :
    Reports c ((survey n).statementForm c.place node form) (checkStatement self node form) := by
  have hnothing : ∀ {l : List Diagnostic} {x : Check Unit}, Reports c l x →
      Reports c l (returningNothing x) := fun hx => Tells.then_quiet hx fun _ => .pure _
  cases form with
  | function kind p =>
    cases kind with
    | declaration => exact hnothing (h.reports_functionDeclaration node p)
    | _ => exact Quiet.pure _
  | classDeclaration p => exact hnothing (h.reports_class node p)
  | interfaceDeclaration p => exact hnothing (h.reports_interface node p)
  | typeAlias p => exact hnothing (h.reports_alias node p)
  | variableStatement modifiers kind declarations =>
    exact hnothing (Tells.forM fun node _ => h.reports_variable node)
  | importDeclaration specifiers source => exact hnothing (h.reports_import specifiers source)
  | block nodes => exact Tells.read (Tells.in_scope (h.reports_statements nodes))
  | expressionStatement e => exact hnothing (h.reports_look e)
  | returnStatement value => exact h.reports_returned node value
  | ifStatement condition thenBranch elseBranch =>
    refine Tells.bind (h.reports_look condition) fun _ => ?_
    refine Tells.bind (h.reports_statement? thenBranch) fun _ => ?_
    exact Tells.then_quiet (h.reports_statement? elseBranch) fun _ => .pure _
  | whileStatement condition body =>
    exact Tells.bind (h.reports_look condition) fun _ => h.reports_loopBody body
  | forStatement start condition increment body =>
    refine Tells.read (Tells.in_scope ?_)
    refine Tells.bind (h.reports_loopStart start) fun _ => ?_
    refine Tells.bind (h.reports_lookAt condition) fun _ => ?_
    refine Tells.bind (h.reports_lookAt increment) fun _ => ?_
    exact Tells.then_quiet (h.reports_loopBody body) fun _ => .pure _
  | forOfStatement start iterated body =>
    refine Tells.read (Tells.in_scope ?_)
    refine Tells.bind (h.reports_look iterated) fun _ => ?_
    refine Tells.bind (h.reports_loopStart start) fun _ => ?_
    exact Tells.then_quiet (h.reports_loopBody body) fun _ => .pure _
  | breakStatement => exact hnothing (reports_jump _ _ _)
  | continueStatement => exact hnothing (reports_jump _ _ _)
  | _ => exact Quiet.pure _

theorem reports_statement (node : NodeId) :
    Reports c ((survey (n + 1)).statement c.place node) (Checking.statement self node) := by
  refine Tells.read ?_
  show Tells c (((c.arena.form? node).map _).getD []) (((c.arena.form? node).map _).getD []) _
  cases c.arena.form? node with
  | none => exact Quiet.pure _
  | some form => exact h.reports_statementForm node form

end Follows

/-- The rules with any number of nested uses report what the survey lists. -/
theorem rules_follow (n : Nat) : Follows (rules n) n := by
  induction n with
  | zero =>
    have hexhaust : ∀ {α : Type} (c : Context) (a : α), Quiet c (do exhaust; return a) :=
      fun _ _ => Quiet.bind .exhaust fun _ => Quiet.pure _
    exact
      { typeNode := fun c _ => hexhaust c _
        expression := fun c _ _ => hexhaust c _
        statement := fun c _ => hexhaust c _
        valueType := fun c _ => hexhaust c _
        declaredType := fun c _ => hexhaust c _
        classTypes := fun c _ => hexhaust c _
        declares := fun c id v hv => by obtain ⟨s, rfl⟩ := hv; rfl }
  | succ n ih =>
    exact
      { typeNode := fun _ node => ih.reports_typeNode node
        expression := fun _ node expected => ih.reports_expression node expected
        statement := fun _ node => ih.reports_statement node
        valueType := fun _ id => ih.quiet_valueType id
        declaredType := fun _ id => ih.quiet_declaredType id
        classTypes := fun _ id => ih.quiet_class id
        declares := fun _ _ _ hv => ih.declares_declaredType hv }

end ScriptAnalysis.Checking
