import ScriptAnalysis.Proofs.Checking.Marks
import ScriptAnalysis.Proofs.Checking.Overloads

/-!
# Which expressions get a type

The walk over a file comes by every expression that stands in code, whatever
the types are: with a callee that has no signatures, in the branch of a call
that does not fit, below a name that cannot be found. Expressions in each
other are looked at up to a depth, and what is deeper is left out.

**Results.**
* `Visitors.visits_…`: each function of the checker visits the parts of its
  node.
* `rules_visit`: the rules with `n` nested uses visit all nodes before `n`.
-/
namespace ScriptAnalysis.Checking

variable {g : Layout} {c : Context}

theorem mem_log_report {s : State} (hfile : c.file < s.diagnostics.size) (d : Diagnostic) :
    d ∈ ({ s with diagnostics := s.diagnostics.modify c.file (· ++ [d]) } : State).log c.file := by
  unfold State.log
  rw [Array.getD_eq_getD_getElem?, Array.getElem?_modify, if_pos rfl,
    Array.getElem?_eq_getElem hfile]
  exact List.mem_append_right _ (List.mem_singleton_self d)

/-! ## The rules -/

/-- The rules visit the nodes before `n`. -/
structure Visitors (g : Layout) (n : Nat) (r : Rules) : Prop where
  follows : Follows r n
  statement : ∀ c node, g.At c →
    Visits g n c.scope c.depth c [.statement node] (r.statement node)
  expression : ∀ c node expected, g.At c →
    Visits g n c.scope c.depth c [.expression node] (r.expression node expected)

theorem leaves_record (hat : g.At c) (node : NodeId) (type : TypeId) :
    Leaves g c (fun mark => mark = .typed node) (record node type) := by
  intro s
  have htells := Quiet.record (c := c) node type s
  refine ⟨htells.1, fun _ => htells.2.met hat.file, ?_⟩
  rintro _ rfl hnode
  rw [record_apply hat.recording, hat.file] at hnode ⊢
  rw [State.row_withType, Array.size_setIfInBounds] at hnode
  exact (State.typed_withType ..).2 (.inr ⟨rfl, hnode⟩)

namespace Visitors

variable {self : Rules} {n : Nat} (h : Visitors g n self) (hat : g.At c)

include h hat

/-! ### Functions -/

theorem visits_initializer (initializer : Option NodeId) (annotated : Option TypeId)
    (name : NodeId) : Visits g n c.scope c.depth c (Arena.valueParts initializer)
      (checkInitializer self initializer annotated name) := by
  cases initializer with
  | none => exact .none hat (Quiet.pure _)
  | some value =>
    exact (h.expression c value annotated hat).then_none fun _ =>
      .none hat (Quiet.forM_option fun _ => .checkAssignable _ _ _)

theorem visits_body {node : NodeId} {p : FunctionParts}
    (hp : g.arena.functionOf? node = some p) (declared : Option TypeId) :
    Visits g n (c.scopeOf node) c.depth c (p.body.toList.flatMap g.arena.bodyParts)
      (functionBody self node declared) := by
  refine Visits.read ?_
  rw [hat.arena, hp, Option.bind_some]
  cases p.body with
  | none => exact .none hat (Quiet.pure _)
  | some body =>
    rw [Option.toList_some, List.flatMap_singleton]
    refine Visits.moved (Visits.moved ?_ rfl) rfl
    have hinner : g.At { c with
        scope := c.scopeOf node, functions := declared :: c.functions, loops := 0 } :=
      hat.elsewhere rfl rfl rfl rfl
    unfold Arena.bodyParts
    dsimp only
    cases g.arena.form? body with
    | none => exact .none hinner (Quiet.pure _)
    | some form =>
      cases form with
      | block statements =>
        dsimp only
        rw [List.map_eq_flatMap]
        exact Visits.then_none (.mapM (fun node => h.statement _ node hinner) hinner) fun _ =>
          .none hinner (Quiet.pure _)
      | _ =>
        refine Visits.then_none (h.expression _ body declared hinner) fun type => ?_
        exact .none hinner (Quiet.bind (.forM_option fun _ => .checkAssignable _ _ _) fun _ =>
          Quiet.pure _)

theorem visits_parameter (arrow : Bool) (node : NodeId) :
    Visits g n c.scope c.depth c (g.arena.parameterParts node)
      (checkParameter self arrow node) := by
  refine Visits.read ?_
  rw [hat.arena]
  unfold Arena.parameterParts Arena.parameterOf?
  cases g.arena.form? node with
  | none => exact .none hat (Quiet.pure _)
  | some form =>
    cases form with
    | parameter p =>
      dsimp -zetaHave only
      extract_lets rest
      have hrest : ∀ type, Visits g n c.scope c.depth c (Arena.valueParts p.initializer)
          (rest type) := by
        intro type
        refine Visits.none_bind hat (h.follows.reports_ascription p.ascription) fun annotated => ?_
        refine (h.visits_initializer hat p.initializer annotated p.name).then_none fun _ => ?_
        refine Visits.get fun s => ?_
        have hrecord : Quiet c (do record node type; record p.name type) :=
          Quiet.bind (.record _ _) fun _ => Quiet.record _ _
        dsimp only
        split
        · exact .none hat (Quiet.bind (.report (by simp [Problem.code, typeCodes]) _) fun _ =>
            hrecord)
        · exact .none hat hrecord
      cases c.declared? node with
      | some symbol => exact Visits.none_bind hat (h.follows.valueType c symbol) hrest
      | none =>
        exact Visits.none_bind hat (h.follows.silent_parameterType node).quiet_silently hrest
    | _ => exact .none hat (Quiet.pure _)

theorem visits_function {node : NodeId} {p : FunctionParts}
    (hp : g.arena.functionOf? node = some p) :
    Visits g n (c.scopeOf node) c.depth c (g.arena.functionParts p) (checkFunction self node) := by
  refine Visits.read ?_
  rw [hat.arena, hp]
  refine Visits.moved ?_ rfl
  have hinner : g.At { c with scope := c.scopeOf node } :=
    hat.elsewhere rfl rfl rfl rfl
  refine Visits.bind (.forM (fun parameter _ => h.visits_parameter hinner _ parameter) hinner)
    fun _ => ?_
  refine Visits.none_bind hinner (h.follows.reports_ascription p.returnType) fun declared => ?_
  have hbody := h.visits_body hinner hp declared
  rw [Context.scopeOf_scopeOf] at hbody
  cases hsome : p.body with
  | none => exact .none hinner (Quiet.pure _)
  | some body =>
    rw [hsome] at hbody
    refine hbody.then_none fun returned => ?_
    split
    · refine Visits.quiet hinner (Quiet.bind .table fun t => ?_)
      split
      · exact Quiet.report (by simp [Problem.code, typeCodes]) _
      · exact Quiet.pure _
    · exact .none hinner (Quiet.pure _)

/-! ### Expressions -/

/-- A name that stands for no value is reported. -/
theorem leaves_checkName (node : NodeId) :
    Leaves g c (fun mark => mark = .reported node ∧ g.Unresolved node c.scope)
      (checkName self node) := by
  intro s
  have htells := h.follows.reports_value (c := c) node s
  refine ⟨htells.1, fun _ => htells.2.met hat.file, ?_⟩
  rintro _ ⟨rfl, name, hform, hname, hnone⟩ hfile
  obtain ⟨entry, hentry, -⟩ := Option.map_eq_some_iff.1 (hform : (g.arena[node]?).map _ = _)
  have hentry' : c.arena[node]? = some entry := hat.arena ▸ hentry
  have hsays : ∀ p : Problem, p.code = 2304 ∨ p.code = 2693 →
      checkName self node c s = (report node p >>= fun _ => pure TypeId.error) c s →
      ∃ d ∈ (checkName self node c s).2.log g.file, g.SaysUnresolved node d := by
    intro p hcode hstep
    obtain ⟨d, hreport, hplace⟩ := reportWith_apply (s := s) hat.recording hentry' p []
    have hstate : (checkName self node c s).2 =
        { s with diagnostics := s.diagnostics.modify c.file (· ++ [d]) } := by
      rw [hstep, bind_apply, show report node p c s = _ from hreport]
      rfl
    rw [htells.2.size, ← hat.file] at hfile
    rw [hstate, ← hat.file]
    exact ⟨d, mem_log_report hfile d,
      ⟨by rw [hplace.1]; exact hcode, entry, hentry, hplace.2.1⟩⟩
  have hmissing : c.resolve ((c.arena.nameOf? node).getD "") .value = none := by
    unfold Context.resolve Arena.nameOf?
    rw [hat.arena, hform, hat.bindings]
    exact hnone
  have hfull : ¬ ((c.arena.nameOf? node).getD "").isEmpty = true := by
    unfold Arena.nameOf?
    rw [hat.arena, hform]
    simpa [String.isEmpty_iff] using hname
  by_cases htype : (c.resolve ((c.arena.nameOf? node).getD "") .type).isSome = true
  · refine hsays (.typeUsedAsValue ((c.arena.nameOf? node).getD "")) (.inr rfl) ?_
    unfold checkName
    rw [read_bind]
    dsimp only
    rw [if_neg hfull, hmissing]
    dsimp only
    rw [if_pos htype]
  · refine hsays (.cannotFindName ((c.arena.nameOf? node).getD "")) (.inl rfl) ?_
    unfold checkName
    rw [read_bind]
    dsimp only
    rw [if_neg hfull, hmissing]
    dsimp only
    rw [if_neg htype]

theorem visits_propertyAccess (object name : NodeId) :
    Visits g n c.scope c.depth c [.expression object] (checkPropertyAccess self object name) := by
  refine Visits.then_none (h.expression c object none hat) fun objectType => ?_
  refine Visits.read (.none hat (?_ : Quiet c _))
  extract_lets text rest
  split
  · exact Quiet.pure _
  · have hrest : ∀ type, Quiet c (rest type) := fun type =>
      Quiet.bind (.record _ _) fun _ => Quiet.pure _
    refine Quiet.bind (Idle.propertyType _ _).quiet fun found => ?_
    split
    · exact Quiet.bind (.pure _) hrest
    · refine Quiet.bind (.display _) fun _ => ?_
      refine Quiet.bind (.report (by simp [Problem.code, typeCodes]) _) fun _ => ?_
      exact Quiet.bind (.pure _) hrest

theorem visits_elementAccess (object index : NodeId) :
    Visits g n c.scope c.depth c [.expression object, .expression index]
      (checkElementAccess self object index) := by
  refine Visits.bind (h.expression c object none hat) fun objectType => ?_
  refine Visits.then_none (h.expression c index none hat) fun indexType => .quiet hat ?_
  split
  · exact Quiet.pure _
  · refine Quiet.bind .table fun t => ?_
    split
    · exact Quiet.pure _
    · split
      · exact Quiet.pure _
      · split
        · exact Quiet.bind (Idle.propertyType _ _).quiet fun _ => Quiet.pure _
        · exact Quiet.pure _

theorem visits_array (elements : List NodeId) (expected : Option TypeId) :
    Visits g n c.scope c.depth c (elements.map .expression)
      (checkArray self elements expected) := by
  rw [List.map_eq_flatMap]
  refine Visits.none_bind hat Quiet.table fun t => ?_
  refine Visits.then_none (.mapM (fun e => ?_) hat) fun types => .quiet hat ?_
  · exact (h.expression c e _ hat).then_none fun _ => .none hat (Quiet.alloc _)
  · dsimp only
    split
    · exact Quiet.bind (.pure _) fun _ => Quiet.alloc _
    · exact Quiet.bind (.alloc _) fun _ => Quiet.alloc _

theorem visits_property (expected : Option TypeId) (shape : Shape) (element : NodeId) :
    Visits g n c.scope c.depth c (g.arena.propertyParts element)
      (addLiteralProperty self expected shape element) := by
  refine Visits.read ?_
  rw [hat.arena]
  unfold Arena.propertyParts
  extract_lets a
  cases g.arena.form? element with
  | none => exact .none hat (Quiet.pure _)
  | some form =>
    cases form with
    | propertyAssignment name value =>
      refine Visits.none_bind hat Quiet.table fun t => ?_
      extract_lets wanted rest
      have hrest : ∀ found, Leaves g c (fun mark => mark = .typed name) (rest found) := by
        intro found
        refine ((Leaves.nothing hat.file (Quiet.alloc _) fun _ => id).bind fun type =>
          (leaves_record hat name type).bind fun _ => .nothing hat.file
            (Quiet.bind (.record element type) fun _ => Quiet.pure _) fun _ => id).weaken ?_
        exact fun mark hmark => .inr (.inl hmark)
      cases value with
      | some value =>
        refine (h.expression c value _ hat).then_none fun found hlt => (hrest found).weaken ?_
        rintro mark ⟨p, hp, -⟩
        cases hp
      | none =>
        intro hlt
        refine ((h.leaves_checkName hat name).bind hrest).weaken ?_
        rintro mark ⟨p, hp, howes⟩
        obtain ⟨text, htext, rfl⟩ := List.mem_map.1 hp
        have hown := howes.own_of_name (Option.mem_toList.1 htext)
        cases mark with
        | typed node => exact .inr (congrArg Mark.typed hown)
        | reported node => exact .inl ⟨congrArg Mark.reported hown.1, hown.2⟩
    | _ => exact .none hat (Quiet.pure _)

theorem visits_object (properties : List NodeId) (expected : Option TypeId) :
    Visits g n c.scope c.depth c (properties.flatMap g.arena.propertyParts)
      (checkObject self properties expected) :=
  Visits.then_none (.foldlM (h.visits_property hat expected) hat _) fun _ =>
    .none hat (Quiet.alloc _)

/-! ### Calls -/

theorem visits_arguments (arguments : List NodeId) :
    Visits g n c.scope c.depth c (arguments.map .expression) (checkArguments self arguments) := by
  rw [List.map_eq_flatMap]
  exact Visits.forM (fun argument _ => (h.expression c argument none hat).then_none fun _ =>
    .none hat (Quiet.pure _)) hat

theorem visits_argument (argument : NodeId) (p : Parameter) :
    Visits g n c.scope c.depth c [.expression argument] (checkArgument self argument p) := by
  refine (h.expression c argument _ hat).then_none fun type => .quiet hat ?_
  refine Quiet.bind (.assignable _ _) fun fits => ?_
  split
  · exact Quiet.pure _
  · refine Quiet.bind .table fun t => Tells.read ?_
    exact Quiet.reportWith (by simp [Problem.code, typeCodes]) _ _

/-- A signature that takes the number of arguments has a parameter for each. -/
theorem visits_resolveCall (node : NodeId) (signatures : List Signature)
    (arguments : List NodeId) :
    Visits g n c.scope c.depth c (arguments.map .expression)
      (resolveCall self node signatures arguments) := by
  unfold resolveCall
  split
  · refine Visits.none_bind hat (Quiet.report (by simp [Problem.code, typeCodes]) _) fun _ => ?_
    exact (h.visits_arguments hat arguments).then_none fun _ => .none hat (Quiet.pure _)
  · rename_i first others hfits
    extract_lets rest
    have hrest : ∀ chosen ∈ first :: others,
        Visits g n c.scope c.depth c (arguments.map .expression) (rest chosen) := by
      intro chosen hmem
      have hcount : arguments.length ≤ chosen.parameters.length := by
        rw [← hfits] at hmem
        have htakes := (List.mem_filter.1 hmem).2
        unfold takesCount at htakes
        simp only [Bool.and_eq_true, decide_eq_true_eq] at htakes
        exact htakes.2
      have hall : arguments.map Spot.expression =
          (arguments.zip chosen.parameters).flatMap fun pair => [.expression pair.1] := by
        conv => lhs; rw [← List.map_fst_zip hcount]
        rw [List.map_map, List.map_eq_flatMap]
        rfl
      rw [hall]
      exact Visits.then_none (.forM (fun pair _ => h.visits_argument hat pair.1 pair.2) hat)
        fun _ => .none hat (Quiet.pure _)
    split
    · exact hrest first List.mem_cons_self
    · refine (Visits.none hat (h.follows.quiet_findSignature _ _)).bind_gives fun found hf => ?_
      refine hrest _ ?_
      cases found with
      | none => exact List.mem_cons_self
      | some found => exact Follows.mem_of_findSignature hf

theorem visits_call (node callee : NodeId) (arguments : List NodeId) :
    Visits g n c.scope c.depth c (.expression callee :: arguments.map .expression)
      (checkCall self node callee arguments) := by
  refine Visits.read ?_
  split
  · refine Visits.bind (h.expression c callee none hat) fun base => Visits.get fun s => ?_
    dsimp only
    split
    · exact (h.visits_arguments hat arguments).then_none fun _ => .none hat (Quiet.pure _)
    · exact (h.visits_resolveCall hat _ _ arguments).then_none fun _ => .none hat (Quiet.pure _)
  · refine Visits.bind (h.expression c callee none hat) fun type => ?_
    split
    · exact (h.visits_arguments hat arguments).then_none fun _ => .none hat (Quiet.pure _)
    · refine Visits.none_bind hat Quiet.table fun t => ?_
      split
      · refine Visits.none_bind hat (Quiet.report (by simp [Problem.code, typeCodes]) _)
          fun _ => ?_
        exact (h.visits_arguments hat arguments).then_none fun _ => .none hat (Quiet.pure _)
      · exact h.visits_resolveCall hat _ _ arguments

theorem visits_new (node callee : NodeId) (arguments : List NodeId) :
    Visits g n c.scope c.depth c (.expression callee :: arguments.map .expression)
      (checkNew self node callee arguments) := by
  refine Visits.bind (h.expression c callee none hat) fun type => ?_
  split
  · exact (h.visits_arguments hat arguments).then_none fun _ => .none hat (Quiet.pure _)
  · refine Visits.none_bind hat Quiet.table fun t => ?_
    split
    · refine Visits.none_bind hat (Quiet.report (by simp [Problem.code, typeCodes]) _) fun _ => ?_
      exact (h.visits_arguments hat arguments).then_none fun _ => .none hat (Quiet.pure _)
    · exact h.visits_resolveCall hat _ _ arguments

/-! ### Operators -/

theorem visits_prefix (operator : TokenKind) (operand : NodeId) :
    Visits g n c.scope c.depth c [.expression operand] (checkPrefix self operator operand) := by
  have hoperand : ∀ x : Check TypeId, Quiet c x →
      Visits g n c.scope c.depth c [.expression operand]
        (do let _ ← self.expression operand none; x) :=
    fun x hx => (h.expression c operand none hat).then_none fun _ => .none hat hx
  have hstep : Visits g n c.scope c.depth c [.expression operand] (do
      let _ ← self.expression operand none
      let _ ← checkTarget operand
      return TypeId.number) :=
    (h.expression c operand none hat).then_none fun _ =>
      .none hat (Tells.then_quiet (Follows.reports_target operand) fun _ => .pure _)
  refine Visits.read ?_
  split
  · exact hoperand _ (.pure _)
  · exact hoperand _ (.alloc _)
  · exact hstep
  · exact hstep
  · exact hoperand _ (.pure _)

theorem visits_assignment (left right : NodeId) :
    Visits g n c.scope c.depth c [.expression left, .expression right]
      (checkAssignment self left right) := by
  refine Visits.bind (h.expression c left none hat) fun target => ?_
  refine Visits.none_bind hat (Follows.reports_target left) fun writable => ?_
  refine (h.expression c right _ hat).then_none fun value => .quiet hat ?_
  dsimp only
  split
  · exact Quiet.bind (.checkAssignable _ _ _) fun _ => Quiet.pure _
  · exact Quiet.pure _

theorem visits_update (left : NodeId) (operator : TokenKind) (right : NodeId) :
    Visits g n c.scope c.depth c [.expression left, .expression right]
      (checkUpdate self left operator right) := by
  refine Visits.bind (h.expression c left none hat) fun target => ?_
  refine Visits.none_bind hat (Follows.reports_target left) fun _ => ?_
  refine (h.expression c right _ hat).then_none fun value => .quiet hat ?_
  split
  · exact Quiet.bind .table fun _ => Quiet.pure _
  · exact Quiet.pure _

theorem visits_binary (left : NodeId) (operator : TokenKind) (right : NodeId) :
    Visits g n c.scope c.depth c [.expression left, .expression right]
      (checkBinary self left operator right) := by
  unfold checkBinary
  split
  · exact h.visits_assignment hat left right
  · exact h.visits_update hat left _ right
  · exact h.visits_update hat left _ right
  · exact h.visits_update hat left _ right
  · exact h.visits_update hat left _ right
  · refine Visits.bind (h.expression c left none hat) fun l => ?_
    exact (h.expression c right none hat).then_none fun r =>
      .none hat (Idle.operatorType _ _ _).quiet

/-! ### Arrow functions -/

theorem visits_arrow {node : NodeId} {p : FunctionParts}
    (hform : g.arena.form? node = some (.function .arrow p)) (expected : Option TypeId) :
    Visits g n (c.scopeOf node) c.depth c (g.arena.functionParts p)
      (checkArrow self node expected) := by
  refine Visits.none_bind hat (h.follows.tells_arrowType node expected) fun type => ?_
  refine Visits.read ?_
  rw [hat.recording]
  exact (h.visits_function hat (Arena.functionOf?_of_form? hform)).then_none fun _ =>
    .none hat (Quiet.pure _)

/-! ### All expressions -/

theorem visits_expressionForm {node : NodeId} {form : Form}
    (hform : g.arena.form? node = some form) (expected : Option TypeId) :
    Visits g n (g.scopeInside c.scope (.expression node)) c.depth c (g.arena.expressionParts form)
      (expressionType self node expected form) := by
  have hscope (hcloses : form.opensScope = false) :
      g.scopeInside c.scope (.expression node) = c.scope := Layout.scopeInside_eq hform hcloses
  cases form with
  | numericLiteral text => exact .none hat (Quiet.alloc _)
  | stringLiteral text => exact .none hat (Quiet.alloc _)
  | keyword word => exact .none hat (Idle.keyword _ _ _ _).quiet
  | identifier text => exact .none hat (h.follows.reports_value node)
  | parenthesized inner =>
    rw [hscope rfl]
    exact h.expression c inner expected hat
  | arrayLiteral elements =>
    rw [hscope rfl]
    exact h.visits_array hat elements expected
  | objectLiteral properties =>
    rw [hscope rfl]
    exact h.visits_object hat properties expected
  | call callee arguments =>
    rw [hscope rfl]
    exact h.visits_call hat node callee arguments
  | newExpression callee arguments =>
    rw [hscope rfl]
    exact h.visits_new hat node callee arguments
  | propertyAccess object name =>
    rw [hscope rfl]
    exact h.visits_propertyAccess hat object name
  | elementAccess object index =>
    rw [hscope rfl]
    exact h.visits_elementAccess hat object index
  | prefixUnary operator operand =>
    rw [hscope rfl]
    exact h.visits_prefix hat operator operand
  | postfixUnary operator operand =>
    rw [hscope rfl]
    exact (h.expression c operand none hat).then_none fun _ =>
      .none hat (Tells.then_quiet (Follows.reports_target operand) fun _ => .pure _)
  | typeOf operand =>
    rw [hscope rfl]
    exact (h.expression c operand none hat).then_none fun _ => .none hat (Quiet.pure _)
  | binary left operator right =>
    rw [hscope rfl]
    exact h.visits_binary hat left operator right
  | conditional condition whenTrue whenFalse =>
    rw [hscope rfl]
    refine Visits.bind (h.expression c condition none hat) fun _ => ?_
    refine Visits.bind (h.expression c whenTrue expected hat) fun _ => ?_
    exact (h.expression c whenFalse expected hat).then_none fun _ => .none hat (Quiet.alloc _)
  | function kind p =>
    cases kind with
    | arrow =>
      rw [hat.scopeInside_eq (.expression node) hform rfl]
      exact h.visits_arrow hat hform expected
    | _ => exact .none hat (Quiet.pure _)
  | asExpression operand type =>
    rw [hscope rfl]
    refine Visits.none_bind hat (h.follows.typeNode c type) fun target => ?_
    exact (h.expression c operand _ hat).then_none fun _ => .none hat (Quiet.pure _)
  | _ => exact .none hat (Quiet.pure _)

/-- Only a name leaves anything but what is owed to its parts. -/
theorem leaves_form (hforest : g.arena.Forest []) {node : NodeId} {form : Form}
    (hform : g.arena.form? node = some form) (hnode : node ≤ n) (expected : Option TypeId) :
    Leaves g c (g.OwesInside c.scope c.depth node) (expressionType self node expected form) := by
  by_cases hname : ∃ text, form = .identifier text
  · obtain ⟨text, rfl⟩ := hname
    refine (h.leaves_checkName hat node).weaken ?_
    rintro mark (hown | ⟨q, hq, -⟩)
    · exact hown
    · rw [Spot.parts_expression hform] at hq
      cases hq
  · have hlt : ∀ q ∈ g.arena.expressionParts form, q.node < n := fun q hq =>
      Nat.lt_of_lt_of_le (hforest.lt_expression hform hq) hnode
    refine (h.visits_expressionForm hat hform expected hlt).weaken ?_
    rintro mark (⟨-, text, htext, -⟩ | hpart)
    · exact absurd ⟨text, Option.some.inj (hform.symm.trans htext)⟩ hname
    · rwa [Spot.parts_expression hform] at hpart

/-- An expression is visited if it does not stand too deep. -/
theorem visits_expression (hforest : g.arena.Forest []) (node : NodeId)
    (expected : Option TypeId) : Visits g (n + 1) c.scope c.depth c [.expression node]
      (Checking.expression self node expected) := by
  intro hlt
  have hnode : node < n + 1 := hlt _ List.mem_cons_self
  by_cases hdepth : maxExpressionDepth ≤ c.depth
  · refine Leaves.nothing hat.file (h.follows.reports_expression node expected) ?_
    rintro mark ⟨p, hp, howes⟩
    exact absurd howes.lt_depth (Nat.not_lt.2 hdepth)
  have hinner : g.At { c with depth := c.depth + 1 } := hat.elsewhere rfl rfl rfl rfl
  have howed : ∀ mark, (∃ p ∈ [Spot.expression node], g.Owes c.scope c.depth p mark) →
      g.OwesInside c.scope (c.depth + 1) node mark ∨ mark = .typed node ∨ False := by
    rintro mark ⟨p, hp, howes⟩
    obtain rfl := List.mem_singleton.1 hp
    exact howes.inside.symm.imp_right .inl
  refine Leaves.weaken ?_ howed
  refine Leaves.read ?_
  rw [if_neg hdepth, hat.arena]
  refine Leaves.bind (Leaves.moved ?_ rfl) fun type =>
    (leaves_record hat node type).bind fun _ => .nothing hat.file (Quiet.pure type) fun _ => id
  cases hform : g.arena.form? node with
  | none =>
    refine Leaves.nothing hinner.file (Quiet.pure _) ?_
    rintro mark (⟨-, text, htext, -⟩ | ⟨q, hq, -⟩)
    · rw [hform] at htext
      cases htext
    · obtain ⟨form, hmem, -⟩ := List.mem_flatMap.1 hq
      rw [hform] at hmem
      cases hmem
  | some form => exact h.leaves_form hinner hforest hform (Nat.le_of_lt_succ hnode) expected

/-! ### Statements -/

theorem visits_statement? (node : Option NodeId) :
    Visits g n c.scope c.depth c (node.toList.map .statement) (statement? self node) := by
  cases node with
  | none => exact .none hat (Quiet.pure _)
  | some node => exact h.statement c node hat

theorem visits_statements (nodes : List NodeId) :
    Visits g n c.scope c.depth c (nodes.map .statement) (statements self nodes) := by
  rw [List.map_eq_flatMap]
  exact Visits.then_none (.mapM (fun node => h.statement c node hat) hat) fun _ =>
    .none hat (Quiet.pure _)

theorem visits_lookAt (node : Option NodeId) :
    Visits g n c.scope c.depth c (Arena.valueParts node) (lookAt self node) := by
  cases node with
  | none => exact .none hat (Quiet.pure _)
  | some node =>
    exact (h.expression c node none hat).then_none fun _ => .none hat (Quiet.pure _)

theorem visits_loopBody (node : Option NodeId) :
    Visits g n c.scope c.depth c (node.toList.map .statement) (loopBody self node) :=
  have hinner : g.At { c with loops := c.loops + 1 } := hat.elsewhere rfl rfl rfl rfl
  Visits.moved (h.visits_statement? hinner node) rfl

theorem visits_loopStart (start : Option NodeId) :
    Visits g n c.scope c.depth c (g.arena.startParts start) (loopStart self start) := by
  cases start with
  | none => exact .none hat (Quiet.pure _)
  | some node =>
    refine Visits.read ?_
    rw [hat.arena]
    unfold Arena.startParts
    rw [Option.toList_some, List.map_singleton]
    split
    · exact h.statement c node hat
    · exact (h.expression c node none hat).then_none fun _ => .none hat (Quiet.pure _)

theorem visits_return (node : NodeId) (value : Option NodeId) :
    Visits g n c.scope c.depth c (Arena.valueParts value) (checkReturn self node value) := by
  refine Visits.read ?_
  cases c.returns with
  | none =>
    refine Visits.none_bind hat (Reports.reportStart _ _ _) fun _ => ?_
    exact (h.visits_lookAt hat value).then_none fun _ => .none hat (Quiet.pure _)
  | some declared =>
    cases value with
    | none => exact .none hat (Quiet.pure _)
    | some value =>
      refine (h.expression c value declared hat).then_none fun type => .quiet hat ?_
      exact Quiet.bind (.forM_option fun _ => .checkAssignable _ _ _) fun _ => Quiet.pure _

theorem visits_variable (node : NodeId) :
    Visits g n c.scope c.depth c (g.arena.variableParts node) (checkVariable self node) := by
  refine Visits.read ?_
  rw [hat.arena]
  unfold Arena.variableParts
  cases g.arena.form? node with
  | none => exact .none hat (Quiet.pure _)
  | some form =>
    cases form with
    | variableDeclaration p =>
      dsimp -zetaHave only
      extract_lets rest
      have hrest : ∀ type, Visits g n c.scope c.depth c (Arena.valueParts p.initializer)
          (rest type) := by
        intro type
        refine Visits.none_bind hat (h.follows.reports_ascription p.ascription) fun annotated => ?_
        refine (h.visits_initializer hat p.initializer annotated p.name).then_none fun _ => ?_
        exact .none hat (Quiet.bind (.record _ _) fun _ => Quiet.record _ _)
      cases c.declared? node with
      | some symbol => exact Visits.none_bind hat (h.follows.valueType c symbol) hrest
      | none => exact Visits.none_bind hat (h.follows.silent_variableType node).quiet_silently hrest
    | _ => exact .none hat (Quiet.pure _)

theorem visits_functionDeclaration {node : NodeId} {p : FunctionParts}
    (hp : g.arena.functionOf? node = some p) :
    Visits g n (c.scopeOf node) c.depth c (g.arena.functionParts p)
      (checkFunctionDeclaration self node p) := by
  refine Visits.read ?_
  extract_lets ambient symbol rest
  refine Visits.none_bind hat (Quiet.forM_option fun id => ?_) fun _ => ?_
  · refine Quiet.bind (h.follows.valueType c id) fun type => ?_
    exact Quiet.bind (.record _ _) fun _ => Quiet.record? _ _
  · have hrest : ∀ r, Visits g n (c.scopeOf node) c.depth c (g.arena.functionParts p) (rest r) :=
      fun _ => h.visits_function hat hp
    cases p.body with
    | some body => exact Visits.when hat (Reports.reportStart _ _ _) (hrest ())
    | none =>
      exact Visits.when hat (Tells.forM_option fun name => Reports.report name _) (hrest ())

/-! ### Classes -/

theorem visits_classProperty (types : ClassTypes) (member : NodeId) (p : PropertyParts) :
    Visits g n c.scope c.depth c (Arena.valueParts p.initializer)
      (checkProperty self types member p) := by
  refine Visits.read (Visits.none_bind hat (Idle.ownPropertyType _ _).quiet fun type => ?_)
  refine Visits.none_bind hat (h.follows.reports_ascription p.ascription) fun annotated => ?_
  refine (h.visits_initializer hat p.initializer annotated p.name).then_none fun _ => ?_
  exact .none hat (Quiet.bind (.record _ _) fun _ => Quiet.record _ _)

/-- A method as a spot of its own. -/
theorem visits_method {node : NodeId} {kind : FunctionKind} {p : FunctionParts}
    (hforest : g.arena.Forest []) (hform : g.arena.form? node = some (.function kind p)) :
    Visits g n c.scope c.depth c [.method node] (checkFunction self node) := by
  have hp := Arena.functionOf?_of_form? hform
  refine Visits.of_parts ?_ hforest rfl (Nat.le_succ n)
  rw [hat.scopeInside_eq (.method node) hform rfl, Spot.parts_method hp]
  exact h.visits_function hat hp

theorem visits_member (hforest : g.arena.Forest []) (types : ClassTypes) (k : ClassParts)
    (ambient : Bool) (member : NodeId) : Visits g n c.scope c.depth c (g.arena.memberParts member)
      (checkMember self types k ambient member) := by
  refine Visits.read ?_
  rw [hat.arena]
  unfold Arena.memberParts
  cases hform : g.arena.form? member with
  | none => exact .none hat (Quiet.pure _)
  | some form =>
    cases form with
    | propertyDeclaration p => exact h.visits_classProperty hat types member p
    | function kind p =>
      have hrest : ∀ type, Visits g n c.scope c.depth c [.method member] (do
          record member type
          record? p.name type
          checkFunction self member) := fun type =>
        Visits.none_bind hat (Quiet.record _ _) fun _ =>
          Visits.none_bind hat (Quiet.record? _ _) fun _ => h.visits_method hat hforest hform
      cases kind with
      | method =>
        dsimp only
        rw [if_pos (by decide)]
        refine Visits.when hat (Tells.forM_option fun body => Reports.reportStart _ _ _) ?_
        rw [if_neg (by decide)]
        exact Visits.none_bind hat (Follows.reports_methodName _ _ _ _) hrest
      | constructor =>
        dsimp only
        rw [if_pos (by decide)]
        refine Visits.when hat (Tells.forM_option fun body => Reports.reportStart _ _ _) ?_
        rw [if_pos rfl]
        exact hrest _
      | _ => exact .none hat (Quiet.pure _)
    | _ => exact .none hat (Quiet.pure _)

theorem visits_class (hforest : g.arena.Forest []) {node : NodeId} {p : ClassParts}
    (hdeclares : (g.bindings.symbolOf? g.file node).isSome) :
    Visits g n c.scope c.depth c (p.members.flatMap g.arena.memberParts)
      (checkClass self node p) := by
  refine Visits.read ?_
  have hdeclared : c.declared? node = g.bindings.symbolOf? g.file node := by
    unfold Context.declared?
    rw [hat.bindings, hat.file]
  obtain ⟨symbol, hsymbol⟩ := Option.isSome_iff_exists.1 hdeclares
  rw [hdeclared, hsymbol]
  refine Visits.none_bind hat (h.follows.classTypes c symbol) fun types => ?_
  refine Visits.none_bind hat (Quiet.record _ _) fun _ => ?_
  refine Visits.none_bind hat (Quiet.record _ _) fun _ => ?_
  have hbase : ∀ base, Reports c ((survey n).typeNode c.place base)
      (do let _ ← self.typeNode base; pure ()) := fun base =>
    Tells.then_quiet (h.follows.typeNode c base) fun _ => .pure _
  refine Visits.none_bind hat (Tells.forM_option hbase) fun _ => ?_
  have hinner : g.At { c with thisTypes := types.instanceType :: c.thisTypes } :=
    hat.elsewhere rfl rfl rfl rfl
  exact Visits.moved (.forM (fun member _ => h.visits_member hinner hforest types p _ member)
    hinner) rfl

/-! ### All statements -/

theorem visits_statementForm (hforest : g.arena.Forest []) {node : NodeId} {form : Form}
    (hform : g.arena.form? node = some form) (hdeclares : g.Declares (.statement node)) :
    Visits g n (g.scopeInside c.scope (.statement node)) c.depth c (g.arena.statementParts form)
      (checkStatement self node form) := by
  have hscope (hcloses : form.opensScope = false) :
      g.scopeInside c.scope (.statement node) = c.scope := Layout.scopeInside_eq hform hcloses
  have hnothing : ∀ {scope : ScopeId} {spots : List Spot} {x : Check Unit},
      Visits g n scope c.depth c spots x → Visits g n scope c.depth c spots (returningNothing x) :=
    fun hx => hx.then_none fun _ => .none hat (Quiet.pure _)
  have hinner : g.At { c with scope := c.scopeOf node } :=
    hat.elsewhere rfl rfl rfl rfl
  cases form with
  | function kind p =>
    cases kind with
    | declaration =>
      rw [hat.scopeInside_eq (.statement node) hform rfl]
      exact hnothing (h.visits_functionDeclaration hat (Arena.functionOf?_of_form? hform))
    | _ => exact .none hat (Quiet.pure _)
  | classDeclaration p =>
    rw [hscope rfl]
    exact hnothing (h.visits_class hat hforest (hdeclares node p rfl hform))
  | interfaceDeclaration p =>
    exact hnothing (.none hat (h.follows.reports_interface node p))
  | typeAlias p => exact hnothing (.none hat (h.follows.reports_alias node p))
  | variableStatement modifiers kind declarations =>
    rw [hscope rfl]
    exact hnothing (.forM (fun node _ => h.visits_variable hat node) hat)
  | importDeclaration specifiers source =>
    exact hnothing (.none hat (h.follows.reports_import specifiers source))
  | block nodes =>
    rw [hat.scopeInside_eq (.statement node) hform rfl]
    exact Visits.read (Visits.moved (h.visits_statements hinner nodes) rfl)
  | expressionStatement e =>
    rw [hscope rfl]
    exact hnothing (h.visits_lookAt hat (some e))
  | returnStatement value =>
    rw [hscope rfl]
    exact h.visits_return hat node value
  | ifStatement condition thenBranch elseBranch =>
    rw [hscope rfl]
    have hparts : g.arena.statementParts (.ifStatement condition thenBranch elseBranch) =
        .expression condition ::
          (thenBranch.toList.map .statement ++ elseBranch.toList.map .statement) :=
      congrArg _ List.map_append
    rw [hparts]
    refine Visits.bind (h.visits_lookAt hat (some condition)) fun _ => ?_
    refine Visits.bind (h.visits_statement? hat thenBranch) fun _ => ?_
    exact (h.visits_statement? hat elseBranch).then_none fun _ => .none hat (Quiet.pure _)
  | whileStatement condition body =>
    rw [hscope rfl]
    exact Visits.bind (h.visits_lookAt hat (some condition)) fun _ => h.visits_loopBody hat body
  | forStatement start condition increment body =>
    rw [hat.scopeInside_eq (.statement node) hform rfl]
    refine Visits.read (Visits.moved ?_ rfl)
    unfold Arena.statementParts
    simp only [List.append_assoc]
    refine Visits.bind (h.visits_loopStart hinner start) fun _ => ?_
    refine Visits.bind (h.visits_lookAt hinner condition) fun _ => ?_
    refine Visits.bind (h.visits_lookAt hinner increment) fun _ => ?_
    exact (h.visits_loopBody hinner body).then_none fun _ => .none hinner (Quiet.pure _)
  | forOfStatement start iterated body =>
    rw [hat.scopeInside_eq (.statement node) hform rfl]
    refine Visits.read (Visits.moved ?_ rfl)
    refine Visits.bind (h.visits_lookAt hinner (some iterated)) fun _ => ?_
    refine Visits.bind (h.visits_loopStart hinner start) fun _ => ?_
    exact (h.visits_loopBody hinner body).then_none fun _ => .none hinner (Quiet.pure _)
  | breakStatement => exact hnothing (.none hat (Follows.reports_jump _ _ _))
  | continueStatement => exact hnothing (.none hat (Follows.reports_jump _ _ _))
  | _ => exact .none hat (Quiet.pure _)

theorem visits_statement (hforest : g.arena.Forest []) (node : NodeId) :
    Visits g (n + 1) c.scope c.depth c [.statement node] (Checking.statement self node) := by
  by_cases hdeclares : g.Declares (.statement node)
  · refine Visits.of_parts (Visits.read ?_) hforest rfl (Nat.le_refl _)
    rw [hat.arena]
    cases hform : g.arena.form? node with
    | none =>
      have hparts : (Spot.statement node).parts g.arena = [] := by
        show (g.arena.form? node).toList.flatMap g.arena.statementParts = _
        rw [hform]
        rfl
      rw [hparts]
      exact .none hat (Quiet.pure _)
    | some form =>
      rw [Spot.parts_statement hform]
      exact h.visits_statementForm hat hforest hform hdeclares
  · intro hlt
    refine Leaves.nothing hat.file (h.follows.reports_statement node) ?_
    rintro mark ⟨p, hp, howes⟩
    obtain rfl := List.mem_singleton.1 hp
    exact hdeclares howes.declares

end Visitors

/-- The rules with `n` nested uses visit the nodes before `n`. -/
theorem rules_visit (hforest : g.arena.Forest []) (n : Nat) : Visitors g n (rules n) := by
  induction n with
  | zero =>
    exact
      { follows := rules_follow 0
        statement := fun _ node _ hlt => absurd (hlt _ List.mem_cons_self) (Nat.not_lt_zero _)
        expression := fun _ node _ _ hlt => absurd (hlt _ List.mem_cons_self) (Nat.not_lt_zero _) }
  | succ n ih =>
    exact
      { follows := rules_follow (n + 1)
        statement := fun _ node hat => ih.visits_statement hat hforest node
        expression := fun _ node expected hat => ih.visits_expression hat hforest node expected }

end ScriptAnalysis.Checking
