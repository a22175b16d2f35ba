import ScriptAnalysis.Proofs.Binding.Declared
import ScriptAnalysis.Proofs.Checking.Coverage
import ScriptAnalysis.Proofs.Checking.Termination
import ScriptAnalysis.Proofs.Parsing.Agreement
import ScriptAnalysis.Proofs.Parsing.Negations

/-!
# Every expression has a type

Parser, binder and checker together: a text without syntax errors is a tree in
which every class has a name, so the binder declares all classes, so the checker
comes by all code. After it every expression in code has a type, and every name
in code that stands for nothing is reported.

**Limits.** An expression with `maxExpressionDepth` others around it is left out
on purpose, so that the checker does not run out of stack. And a type is no code:
a function type or a method of an interface may give its parameters initial
values, and these are not looked at.

**Results.**
* `SourceFile.declares_below`: all classes in code declare symbols.
* `Checker.checkFile_met`: checking a file leaves all marks that it owes.
* `Checker.typeAt_expression`: expressions in code have types.
* `Checker.untyped_of_negates`: the limit on the depth is sharp.
-/
namespace ScriptAnalysis

open Checking

namespace SourceFile

/-- The file as the only one of a program. -/
def layout (f : SourceFile) : Layout :=
  ⟨f, Binding.bindProgram [f], 0⟩

/-- The expression stands in the code of the file, in the scope `inner`, and `k`
expressions are around it. -/
def HasExpression (f : SourceFile) (node : NodeId) (k : Nat) (inner : ScopeId) : Prop :=
  ∃ top ∈ f.statements, f.layout.Below (.statement top) (f.layout.bindings.fileScope 0) k
    (.expression node) inner

variable {name : String} {text : List Char} {i top : NodeId}

/-! ## Classes have names -/

/-- Without syntax errors every class has a name. -/
theorem namesClass_parse (hclean : (parse name text).errors = []) {p : ClassParts}
    (hform : (parse name text).arena.form? i = some (.classDeclaration p)) :
    Binding.NamesClass (parse name text).arena i := by
  have herrors : (Lexer.scan text).errors ++
      (Parsing.parseTokens (Lexer.scan text).tokens).2.errors.toList = [] := by
    have hperm := Order.perm_sort (fun a b : SyntaxError => decide (a.start ≤ b.start))
      ((Lexer.scan text).errors ++ (Parsing.parseTokens (Lexer.scan text).tokens).2.errors.toList)
    exact List.Perm.nil_eq (hclean ▸ hperm) |>.symm
  obtain ⟨hscan, hparse⟩ := List.append_eq_nil_iff.1 herrors
  have hblanked := Lexer.scan_blanked hscan
  have hplaced : ∀ t ∈ (Lexer.scan text).tokens, Parsing.Placed (fun _ => True) t := fun t ht =>
    ⟨trivial, trivial, fun hname =>
      Lexer.scan_spelled text t ht (Lexer.isWord_of_isName hname)⟩
  obtain ⟨-, halike⟩ := Parsing.parseTokens_alike hblanked.same hplaced trivial
  obtain ⟨n, hn, hnode⟩ := Option.map_eq_some_iff.1 hform
  have hsize : (Parsing.parseTokens (Lexer.scan text).tokens).2.errors.size = 0 := by
    rw [← Array.length_toList, hparse]
    rfl
  obtain ⟨word, hword, hne⟩ := halike.sound.named hsize n
    (Array.mem_toList_iff.2 (Array.mem_of_getElem? hn)) p.name (by rw [hnode]; rfl)
  exact ⟨p, word, hform, hword, hne⟩

theorem bindProgram_single (f : SourceFile) :
    Binding.bindProgram [f] = Binding.bindFile [f.name] (Binding.start 1) f 0 := rfl

/-- So each of them declares a symbol. -/
theorem declares_below (hclean : (parse name text).errors = [])
    (htop : top ∈ (parse name text).statements) {outer inner : ScopeId} {k : Nat} {q : Spot}
    (hbelow : (parse name text).layout.Below (.statement top) outer k q inner) :
    (parse name text).layout.Declares q := by
  intro i p hq hform
  rw [hq] at hbelow
  unfold layout
  rw [bindProgram_single]
  exact Binding.bindFile_declared (forest_parse name text) _ _ 0 htop hbelow.holds
    (namesClass_parse hclean hform)

end SourceFile

namespace Checker

variable {f : SourceFile} {options : Checking.Options}

/-! ## Checking a file -/

theorem at_context (f : SourceFile) (options : Checking.Options) :
    f.layout.At ((ofFiles [f] options).context 0) :=
  ⟨rfl, rfl, rfl, rfl⟩

theorem size_le_nestingBound (f : SourceFile) (options : Checking.Options) :
    f.arena.size ≤ nestingBound ((ofFiles [f] options).context 0) := by
  have hsize : f.arena.size ≤ nodeCount [f].toArray := size_le_nodeCount [f].toArray 0
  show f.arena.size ≤ 16 * Nat.pow (nodeCount [f].toArray + _ + 2) 2
  rw [Nat.pow_eq, Nat.pow_two]
  nlinarith

/-- What checking the only file of a program comes to. -/
def fileWalk (f : SourceFile) (options : Checking.Options) : Check PUnit :=
  f.statements.forM fun node => do
    let _ ← (rules (nestingBound ((ofFiles [f] options).context 0))).statement node

/-- The state in which it starts. -/
def walkStart (f : SourceFile) (options : Checking.Options) : State :=
  { (ofFiles [f] options).state with
    checked := (ofFiles [f] options).state.checked.setIfInBounds 0 true }

theorem state_checkFile (f : SourceFile) (options : Checking.Options) :
    ((ofFiles [f] options).checkFile 0).state =
      (fileWalk f options ((ofFiles [f] options).context 0) (walkStart f options)).2 :=
  rfl

/-- Checking a file leaves all marks that it owes. -/
theorem checkFile_met (options : Checking.Options) (hforest : f.arena.Forest []) {top : NodeId}
    (htop : top ∈ f.statements) {mark : Mark}
    (howes : f.layout.Owes (f.layout.bindings.fileScope 0) 0 (.statement top) mark) :
    f.layout.Met ((ofFiles [f] options).checkFile 0).state mark := by
  have hat := at_context f options
  have hvisits : Visits f.layout (nestingBound ((ofFiles [f] options).context 0))
      (f.layout.bindings.fileScope 0) 0 ((ofFiles [f] options).context 0)
      (f.statements.flatMap fun node => [.statement node]) (fileWalk f options) :=
    .forM (fun node _ => ((rules_visit (g := f.layout) hforest _).statement _ node hat).then_none
      fun _ => .none hat (Quiet.pure _)) hat
  have hbefore : ∀ p ∈ f.statements.flatMap fun node => [Spot.statement node],
      p.node < nestingBound ((ofFiles [f] options).context 0) := by
    intro p hp
    obtain ⟨node, hnode, hp⟩ := List.mem_flatMap.1 hp
    obtain rfl := List.mem_singleton.1 hp
    exact Nat.lt_of_lt_of_le (Binding.lt_size_of_mem_statements hforest hnode)
      (size_le_nestingBound f options)
  rw [state_checkFile]
  exact (hvisits hbefore (walkStart f options)).2.2 mark
    ⟨_, List.mem_flatMap.2 ⟨top, htop, List.mem_cons_self⟩, howes⟩

theorem size_row_checkFile (f : SourceFile) (options : Checking.Options) :
    (((ofFiles [f] options).checkFile 0).state.row 0).size = f.arena.size := by
  have htold := checkFile_told (rfl : (ofFiles [f] options).files[0]? = some f) rfl
  exact htold.room.trans Array.size_replicate

theorem size_diagnostics_checkFile (f : SourceFile) (options : Checking.Options) :
    ((ofFiles [f] options).checkFile 0).state.diagnostics.size = 1 :=
  (checkFile_told (rfl : (ofFiles [f] options).files[0]? = some f) rfl).size

/-- After a file was checked, a node has a type if one was recorded. -/
theorem typeAt_ok_iff {node : NodeId} :
    (∃ type, (((ofFiles [f] options).checkFile 0).typeAt 0 node).1 = .ok type) ↔
      ((ofFiles [f] options).checkFile 0).state.Typed 0 node := by
  have hfile : ((ofFiles [f] options).checkFile 0).files[0]? = some f := by
    rw [(checkFile_program _ 0).files]
    rfl
  have hdone : ((ofFiles [f] options).checkFile 0).state.checked[0]? ≠ some false := by
    rw [checked_checkFile (rfl : (ofFiles [f] options).files[0]? = some f) rfl, if_pos rfl]
    exact nofun
  show _ ↔ ((((ofFiles [f] options).checkFile 0).state.nodeTypes.getD 0 #[]).getD node none).isSome
  unfold typeAt
  rw [hfile]
  dsimp only
  rw [checkFile_done hdone]
  cases (((ofFiles [f] options).checkFile 0).state.nodeTypes.getD 0 #[]).getD node none with
  | none =>
    constructor
    · rintro ⟨type, htype⟩
      cases htype
    · intro h
      cases h
  | some type => exact ⟨fun _ => rfl, fun _ => ⟨type, rfl⟩⟩

/-- For every text without syntax errors, all options and every expression in
code with fewer than `maxExpressionDepth` expressions around it: after the
file was checked the expression has a type, and if it is a name that stands for
no value in its scope, that is reported at its place. -/
theorem typeAt_expression (name : String) (text : List Char) (options : Checking.Options)
    {node : NodeId} {k : Nat} {inner : ScopeId}
    (hclean : (SourceFile.parse name text).errors = [])
    (hnode : (SourceFile.parse name text).HasExpression node k inner)
    (hdepth : k < maxExpressionDepth) :
    (∃ type, (((ofFiles [SourceFile.parse name text] options).checkFile 0).typeAt 0 node).1 =
      .ok type) ∧
    ((SourceFile.parse name text).layout.Unresolved node inner →
      ∃ d ∈ ((ofFiles [SourceFile.parse name text] options).semanticDiagnostics 0).1,
        (SourceFile.parse name text).layout.SaysUnresolved node d) := by
  obtain ⟨top, htop, hbelow⟩ := hnode
  have hforest := SourceFile.forest_parse name text
  have hshows : (SourceFile.parse name text).layout.Shows
      ((SourceFile.parse name text).layout.bindings.fileScope 0) 0 (.statement top) node inner :=
    ⟨fun k q s hq => SourceFile.declares_below hclean htop hq, k, hbelow, by rwa [Nat.zero_add]⟩
  constructor
  · have hmet := checkFile_met options hforest htop
      (show Layout.Owes _ _ _ _ (.typed node) from ⟨inner, hshows⟩)
    refine typeAt_ok_iff.2 (hmet ?_)
    rw [show (SourceFile.parse name text).layout.file = 0 from rfl, size_row_checkFile]
    exact Nat.lt_of_le_of_lt (hbelow.le hforest) (Binding.lt_size_of_mem_statements hforest htop)
  · intro hunresolved
    have hmet := checkFile_met options hforest htop
      (show Layout.Owes _ _ _ _ (.reported node) from ⟨inner, hshows, hunresolved⟩)
    obtain ⟨d, hd, hsays⟩ := hmet (by
      rw [size_diagnostics_checkFile]
      exact Nat.zero_lt_one)
    obtain ⟨e, he, hstart, hcode, -⟩ := exists_of_mem_reports (k := ofFiles _ options)
      (List.mem_append_right _ hd)
    exact ⟨e, he, hcode ▸ hsays.code, hstart ▸ hsays.start⟩

/-- A call in an arrow function, which is the initial value of a property. -/
def callInProperty : SourceFile :=
  SourceFile.parse "/p/a.ts" "class A { p = (n) => f(n); }".toList

/-- The callee has a type, and it is reported that there is no such function. -/
theorem typeAt_expression_callee : ∃ k inner,
    callInProperty.errors = [] ∧ callInProperty.HasExpression 4 k inner ∧ k < maxExpressionDepth ∧
    (∃ type, (((ofFiles [callInProperty] ⟨true, false⟩).checkFile 0).typeAt 0 4).1 = .ok type) ∧
    callInProperty.layout.Unresolved 4 inner ∧
    ∃ d ∈ ((ofFiles [callInProperty] ⟨true, false⟩).semanticDiagnostics 0).1,
      callInProperty.layout.SaysUnresolved 4 d := by
  let g := callInProperty.layout
  obtain ⟨hclean, htop, hproperty, hbody, hcallee, hscope, hform, hnone⟩ :
      callInProperty.errors = [] ∧ 9 ∈ callInProperty.statements ∧
      Spot.expression 7 ∈ (Spot.statement 9).parts g.arena ∧
      Spot.expression 6 ∈ (Spot.expression 7).parts g.arena ∧
      Spot.expression 4 ∈ (Spot.expression 6).parts g.arena ∧
      g.scopeInside (g.scopeInside (g.scopeInside (g.bindings.fileScope 0) (.statement 9))
        (.expression 7)) (.expression 6) = 1 ∧
      g.arena.form? 4 = some (.identifier "f") ∧
      g.bindings.resolve 1 "f" .value = none := by
    unfold g callInProperty
    rw [String.toList_ofList]
    decide +kernel
  have hbelow : g.Below (.statement 9) (g.bindings.fileScope 0) (0 + (1 + (1 + 0)))
      (.expression 4) _ := .part hproperty (.part hbody (.part hcallee (.here _ _)))
  rw [hscope] at hbelow
  have hnode : callInProperty.HasExpression 4 (0 + (1 + (1 + 0))) 1 := ⟨9, htop, hbelow⟩
  have hunresolved : callInProperty.layout.Unresolved 4 1 := ⟨"f", hform, by decide, hnone⟩
  have hdepth : 0 + (1 + (1 + 0)) < maxExpressionDepth := by decide
  obtain ⟨name, text, hparse⟩ : ∃ name text, callInProperty = SourceFile.parse name text :=
    ⟨_, _, rfl⟩
  rw [hparse] at hclean hnode hunresolved ⊢
  obtain ⟨htyped, hreported⟩ := typeAt_expression name text ⟨true, false⟩ hclean hnode hdepth
  exact ⟨_, _, hclean, hnode, hdepth, htyped, hunresolved, hreported hunresolved⟩

end Checker

/-! ## At the limit -/

namespace Checking

variable {α β : Type} {c : Context} {node : NodeId}

/-- The computation comes back and gives the node no type. -/
def Spares (c : Context) (node : NodeId) (x : Check α) : Prop :=
  ∀ s, (x c s).1.2 = c ∧ ((x c s).2.Typed c.file node → s.Typed c.file node)

theorem Spares.pure (a : α) : Spares c node (Pure.pure a : Check α) :=
  fun _ => ⟨rfl, id⟩

theorem Spares.bind {x : Check α} {f : α → Check β} (hx : Spares c node x)
    (hf : ∀ a, Spares c node (f a)) : Spares c node (x >>= f) := by
  intro s
  obtain ⟨hback, hspares⟩ := hx s
  rw [bind_apply, hback]
  exact ⟨(hf _ _).1, fun h => hspares ((hf _ _).2 h)⟩

theorem Spares.read {f : Context → Check β} (h : Spares c node (f c)) :
    Spares c node ((MonadReader.read : Check Context) >>= f) :=
  h

theorem Spares.record {other : NodeId} (hother : other ≠ node) (type : TypeId) :
    Spares c node (record other type) := by
  intro s
  cases hrec : c.recording with
  | false =>
    rw [record_silent hrec]
    exact ⟨rfl, id⟩
  | true =>
    rw [record_apply hrec]
    refine ⟨rfl, fun h => ?_⟩
    exact ((State.typed_withType ..).1 h).resolve_right fun hnode => hother hnode.1.symm

theorem Spares.in_expression {x : Check α} (hx : Spares { c with depth := c.depth + 1 } node x) :
    Spares c node (inExpression x) :=
  fun s => ⟨congrArg (fun c' : Context => { c' with depth := c'.depth - 1 }) (hx s).1, (hx s).2⟩

/-- If the limit is reached among the exclamation marks, the walk turns around
there, and all that it records are the nodes in front. -/
theorem spares_negations {f : SourceFile} {n : Nat} (h : f.Negates n)
    (hsource : c.source = f) {i : NodeId} (hi : i ≤ n) (hdepth : maxExpressionDepth ≤ c.depth + i)
    (fuel : Nat) (expected : Option TypeId) :
    Spares c 0 ((rules fuel).expression i expected) := by
  induction fuel generalizing c i expected with
  | zero => exact fun s => ⟨rfl, id⟩
  | succ fuel ih =>
    refine Spares.read ?_
    split
    · exact .pure _
    · rename_i hshallow
      cases i with
      | zero => exact absurd hdepth hshallow
      | succ i =>
        have hform : c.arena.form? (i + 1) = some (.prefixUnary .exclamation i) := by
          unfold Context.arena
          rw [hsource]
          exact h.negation hi
        rw [hform]
        have hoperand : Spares { c with depth := c.depth + 1 } 0 ((rules fuel).expression i none) :=
          ih (c := { c with depth := c.depth + 1 }) hsource (Nat.le_of_succ_le hi)
            (by rw [Nat.add_right_comm]; exact hdepth) none
        refine (Spares.in_expression (.read (hoperand.bind fun _ => .pure _))).bind fun type => ?_
        exact (Spares.record (Nat.succ_ne_zero i) type).bind fun _ => .pure _

end Checking

namespace Checker

variable {f : SourceFile} {n : Nat}

theorem below_negations (h : f.Negates n) {i : NodeId} (hi : i ≤ n) (scope : ScopeId) :
    f.layout.Below (.expression i) scope i (.expression 0) scope := by
  induction i with
  | zero => exact .here _ _
  | succ i ih =>
    have hform : f.layout.arena.form? (i + 1) = some (.prefixUnary .exclamation i) := h.negation hi
    have hscope : f.layout.scopeInside scope (.expression (i + 1)) = scope :=
      Layout.scopeInside_eq hform rfl
    have hpart : Spot.expression i ∈ (Spot.expression (i + 1)).parts f.layout.arena := by
      rw [Spot.parts_expression hform]
      exact List.mem_cons_self
    have hbelow : f.layout.Below (.expression (i + 1)) scope (1 + i) (.expression 0) scope :=
      .part hpart (by rw [hscope]; exact ih (Nat.le_of_succ_le hi))
    rwa [Nat.add_comm 1 i] at hbelow

/-- The name stands in code and has `n` expressions around it. -/
theorem hasExpression_of_negates (h : f.Negates n) :
    f.HasExpression 0 n (f.layout.bindings.fileScope 0) := by
  have hform : f.layout.arena.form? (n + 1) = some (.expressionStatement n) := h.statement
  have hpart : Spot.expression n ∈ (Spot.statement (n + 1)).parts f.layout.arena := by
    rw [Spot.parts_statement hform]
    exact List.mem_cons_self
  have hscope : f.layout.scopeInside (f.layout.bindings.fileScope 0) (.statement (n + 1)) =
      f.layout.bindings.fileScope 0 := Layout.scopeInside_eq hform rfl
  have hbelow : f.layout.Below (.statement (n + 1)) (f.layout.bindings.fileScope 0) (0 + n)
      (.expression 0) (f.layout.bindings.fileScope 0) :=
    .part hpart (by rw [hscope]; exact below_negations h (Nat.le_refl n) _)
  rw [Nat.zero_add] at hbelow
  exact ⟨n + 1, by rw [h.statements]; exact List.mem_cons_self, hbelow⟩

theorem spares_fileWalk (h : f.Negates n) (hn : maxExpressionDepth ≤ n)
    (options : Checking.Options) :
    Spares ((ofFiles [f] options).context 0) 0 (fileWalk f options) := by
  have hform : ((ofFiles [f] options).context 0).arena.form? (n + 1) =
      some (.expressionStatement n) := h.statement
  have hstatement (fuel : Nat) : Spares ((ofFiles [f] options).context 0) 0
      ((rules fuel).statement (n + 1)) := by
    cases fuel with
    | zero => exact fun s => ⟨rfl, id⟩
    | succ fuel =>
      refine Spares.read ?_
      rw [hform]
      have hoperand := spares_negations (c := (ofFiles [f] options).context 0) h rfl
        (Nat.le_refl n) (Nat.le_add_left_of_le hn) fuel none
      exact (hoperand.bind fun _ => .pure _).bind fun _ => .pure _
  unfold fileWalk
  rw [h.statements]
  exact ((hstatement _).bind fun _ => .pure _).bind fun _ => .pure _

/-- A name with as many expressions around it as the limit, or more, gets no
type. -/
theorem untyped_of_negates (h : f.Negates n) (hn : maxExpressionDepth ≤ n)
    (options : Checking.Options) :
    ¬ ∃ type, (((ofFiles [f] options).checkFile 0).typeAt 0 0).1 = .ok type := by
  rw [typeAt_ok_iff, state_checkFile]
  intro htyped
  have hsome : ((Array.replicate f.arena.size (none : Option TypeId)).getD 0 none).isSome :=
    (spares_fileWalk h hn options (walkStart f options)).2 htyped
  have hnone : (Array.replicate f.arena.size (none : Option TypeId)).getD 0 none = none := by
    rw [Array.getD_eq_getD_getElem?, Array.getElem?_replicate]
    split <;> rfl
  rw [hnone] at hsome
  cases hsome

/-- A name with 400 expressions around it. -/
def manyNegations : SourceFile :=
  SourceFile.parse "/p/a.ts" (List.replicate 400 '!' ++ ['x'])

/-- The type of a function with an initial value for its parameter. -/
def valueInType : SourceFile :=
  SourceFile.parse "/p/a.ts" "let f: (x = y) => void;".toList

/-- In neither file the expression has a type, although there is no syntax
error. -/
theorem expressions_left_out :
    (manyNegations.errors = [] ∧
      manyNegations.HasExpression 0 400 (manyNegations.layout.bindings.fileScope 0) ∧
      ¬ ∃ type, (((ofFiles [manyNegations] ⟨true, false⟩).checkFile 0).typeAt 0 0).1 = .ok type) ∧
    (valueInType.errors = [] ∧
      (valueInType.arena.parameterOf? 3).bind ParameterParts.initializer = some 2 ∧
      ¬ ∃ type, (((ofFiles [valueInType] ⟨true, false⟩).checkFile 0).typeAt 0 2).1 = .ok type) := by
  obtain ⟨hclean, hnegates⟩ := SourceFile.parse_negations "/p/a.ts" 399
  have huntyped := untyped_of_negates hnegates (Nat.le_refl 400) ⟨true, false⟩
  refine ⟨⟨hclean, hasExpression_of_negates hnegates, huntyped⟩, ?_⟩
  rw [typeAt_ok_iff, valueInType, String.toList_ofList]
  unfold State.Typed
  decide +kernel

end Checker

end ScriptAnalysis
