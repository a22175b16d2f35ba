import ScriptAnalysis.Proofs.Ast.Forest
import ScriptAnalysis.Symbol
import ScriptAnalysis.Binding

/-!
# Where expressions stand in a file

A statement, a method and an expression are made of statements, methods and
expressions again. Types, names and declarations without code are none of them:
an interface, an alias or an import has no parts, a property access has no part
but the object, and a name in front of a colon is no expression. A parameter is
part of no spot itself; its initial value is a part of the function.

**Scopes.** Functions, blocks and loops with a head open a scope for their
parts. All other parts stand in the scope of the whole.

**Results.**
* `Layout.Below`: a spot with its scope below another one, with the number of
  expressions that are passed on the way.
* `Spot.lt_of_mem_parts`: in a forest the parts come before the whole.
-/
namespace ScriptAnalysis

/-- A node with what it is looked at as. A method may be a constructor. -/
inductive Spot where
  | statement (node : NodeId)
  | method (node : NodeId)
  | expression (node : NodeId)
  deriving DecidableEq, Repr

/-! ## Parts -/

namespace Arena

variable (a : Arena)

/-- An expression that may be missing. -/
def valueParts (value : Option NodeId) : List Spot :=
  value.toList.map .expression

/-- What a parameter starts with. -/
def parameterParts (parameter : NodeId) : List Spot :=
  match a.form? parameter with
  | some (.parameter p) => valueParts p.initializer
  | _ => []

/-- What a variable starts with. -/
def variableParts (declaration : NodeId) : List Spot :=
  match a.form? declaration with
  | some (.variableDeclaration p) => valueParts p.initializer
  | _ => []

/-- The value of a property of an object. A name that stands alone is the
value as well. -/
def propertyParts (property : NodeId) : List Spot :=
  match a.form? property with
  | some (.propertyAssignment _ (some value)) => [.expression value]
  | some (.propertyAssignment name none) => (a.nameOf? name).toList.map fun _ => .expression name
  | _ => []

/-- The statements of a body, or the expression that it is. -/
def bodyParts (body : NodeId) : List Spot :=
  match a.form? body with
  | some (.block statements) => statements.map .statement
  | some _ => [.expression body]
  | none => []

def functionParts (p : FunctionParts) : List Spot :=
  p.parameters.flatMap a.parameterParts ++ p.body.toList.flatMap a.bodyParts

/-- The initial value of a property of a class, or a method. -/
def memberParts (member : NodeId) : List Spot :=
  match a.form? member with
  | some (.propertyDeclaration p) => valueParts p.initializer
  | some (.function .method _) | some (.function .constructor _) => [.method member]
  | _ => []

/-- The first part of a loop, a declaration or an expression. -/
def startParts (start : Option NodeId) : List Spot :=
  start.toList.map fun i => if (a.form? i).any Binding.isStatement then .statement i
    else .expression i

def statementParts : Form → List Spot
  | .function .declaration p => a.functionParts p
  | .classDeclaration p => p.members.flatMap a.memberParts
  | .variableStatement _ _ declarations => declarations.flatMap a.variableParts
  | .block statements => statements.map .statement
  | .expressionStatement e => [.expression e]
  | .returnStatement value => valueParts value
  | .ifStatement condition thenBranch elseBranch =>
    .expression condition :: (thenBranch.toList ++ elseBranch.toList).map .statement
  | .whileStatement condition body => .expression condition :: body.toList.map .statement
  | .forStatement start condition increment body =>
    a.startParts start ++ valueParts condition ++ valueParts increment ++
      body.toList.map .statement
  | .forOfStatement start iterated body =>
    .expression iterated :: (a.startParts start ++ body.toList.map .statement)
  | _ => []

def expressionParts : Form → List Spot
  | .parenthesized inner => [.expression inner]
  | .arrayLiteral elements => elements.map .expression
  | .objectLiteral properties => properties.flatMap a.propertyParts
  | .call callee arguments => .expression callee :: arguments.map .expression
  | .newExpression callee arguments => .expression callee :: arguments.map .expression
  | .propertyAccess object _ => [.expression object]
  | .elementAccess object index => [.expression object, .expression index]
  | .prefixUnary _ operand => [.expression operand]
  | .postfixUnary _ operand => [.expression operand]
  | .typeOf operand => [.expression operand]
  | .binary left _ right => [.expression left, .expression right]
  | .conditional condition whenTrue whenFalse =>
    [.expression condition, .expression whenTrue, .expression whenFalse]
  | .asExpression operand _ => [.expression operand]
  | .function .arrow p => a.functionParts p
  | _ => []

end Arena

namespace Spot

def node : Spot → NodeId
  | statement i | method i | expression i => i

/-- How many expressions are passed on the way to the parts. -/
def cost : Spot → Nat
  | expression _ => 1
  | _ => 0

def parts (a : Arena) : Spot → List Spot
  | statement i => (a.form? i).toList.flatMap a.statementParts
  | method i => (a.functionOf? i).toList.flatMap a.functionParts
  | expression i => (a.form? i).toList.flatMap a.expressionParts

end Spot

/-- The forms that open a scope for their parts. -/
def Form.opensScope : Form → Bool
  | function _ _ | block _ | forStatement _ _ _ _ | forOfStatement _ _ _ => true
  | _ => false

namespace Spot

variable {a : Arena} {i : NodeId}

theorem parts_statement {form : Form} (h : a.form? i = some form) :
    (statement i).parts a = a.statementParts form := by
  show (a.form? i).toList.flatMap a.statementParts = _
  rw [h, Option.toList_some, List.flatMap_singleton]

theorem parts_method {p : FunctionParts} (h : a.functionOf? i = some p) :
    (method i).parts a = a.functionParts p := by
  show (a.functionOf? i).toList.flatMap a.functionParts = _
  rw [h, Option.toList_some, List.flatMap_singleton]

theorem parts_expression {form : Form} (h : a.form? i = some form) :
    (expression i).parts a = a.expressionParts form := by
  show (a.form? i).toList.flatMap a.expressionParts = _
  rw [h, Option.toList_some, List.flatMap_singleton]

end Spot

/-- `q` is `p` or a part of it, parts of parts included. -/
inductive Arena.Holds (a : Arena) : Spot → Spot → Prop
  | here (p : Spot) : Holds a p p
  | part {p q r : Spot} (hq : q ∈ p.parts a) (h : Holds a q r) : Holds a p r

/-! ## Layouts -/

/-- A file of a program, with what the program says about its names. -/
structure Layout where
  source : SourceFile
  bindings : Bindings
  file : FileId

namespace Layout

variable (g : Layout)

def arena : Arena :=
  g.source.arena

/-- The scope of the parts of a spot in the scope `scope`. -/
def scopeInside (scope : ScopeId) (p : Spot) : ScopeId :=
  if (g.arena.form? p.node).any Form.opensScope then
    (g.bindings.nodeScope? g.file p.node).getD scope
  else scope

/-- A class among the statements declares a symbol. -/
def Declares (p : Spot) : Prop :=
  ∀ i parts, p = .statement i → g.arena.form? i = some (.classDeclaration parts) →
    (g.bindings.symbolOf? g.file i).isSome

/-- `q` is `p` or a part of it, parts of parts included, and stands in the
scope `inner` when `p` stands in the scope `outer`. There are `k` expressions
around `q` that belong to `p`. -/
inductive Below : Spot → ScopeId → Nat → Spot → ScopeId → Prop
  | here (p : Spot) (scope : ScopeId) : Below p scope 0 p scope
  | part {p q r : Spot} {outer inner : ScopeId} {k : Nat} (hq : q ∈ p.parts g.arena)
      (h : Below q (g.scopeInside outer p) k r inner) : Below p outer (p.cost + k) r inner

end Layout

/-! ## Parts come first -/

namespace Arena

variable {a : Arena} {i : NodeId} {q : Spot}

theorem functionOf?_of_form? {kind : FunctionKind} {p : FunctionParts}
    (h : a.form? i = some (.function kind p)) : a.functionOf? i = some p := by
  unfold functionOf?
  rw [h]

theorem mem_valueParts {value : Option NodeId} (h : q ∈ valueParts value) :
    q.node ∈ value.toList := by
  obtain ⟨i, hi, rfl⟩ := List.mem_map.1 h
  exact hi

theorem mem_startParts {start : Option NodeId} (h : q ∈ a.startParts start) :
    q.node ∈ start.toList := by
  obtain ⟨i, hi, rfl⟩ := List.mem_map.1 h
  split <;> exact hi

theorem mem_statementSpots {l : List NodeId} (h : q ∈ l.map Spot.statement) : q.node ∈ l := by
  obtain ⟨i, hi, rfl⟩ := List.mem_map.1 h
  exact hi

theorem mem_expressionSpots {l : List NodeId} (h : q ∈ l.map Spot.expression) :
    ∃ i ∈ l, q = .expression i := by
  obtain ⟨i, hi, rfl⟩ := List.mem_map.1 h
  exact ⟨i, hi, rfl⟩

/-- What comes last among the children of a node, as an expression. -/
theorem mem_lastValue {form : Form} {value : Option NodeId} {l : List NodeId}
    (hform : a.form? i = some form) (hlast : form.children = l ++ value.toList)
    (h : q ∈ valueParts value) : ∃ child ∈ a.children i, q = .expression child := by
  obtain ⟨child, hchild, rfl⟩ := List.mem_map.1 h
  refine ⟨child, ?_, rfl⟩
  rw [children_of_form? hform, hlast]
  exact List.mem_append_right _ hchild

theorem mem_parameterParts (h : q ∈ a.parameterParts i) :
    ∃ child ∈ a.children i, q = .expression child := by
  unfold parameterParts at h
  split at h
  · rename_i p hform
    exact mem_lastValue hform (l := p.name :: p.ascription.toList) rfl h
  · cases h

theorem mem_variableParts (h : q ∈ a.variableParts i) :
    ∃ child ∈ a.children i, q = .expression child := by
  unfold variableParts at h
  split at h
  · rename_i p hform
    exact mem_lastValue hform (l := p.name :: p.ascription.toList) rfl h
  · cases h

theorem mem_propertyParts (h : q ∈ a.propertyParts i) :
    ∃ child ∈ a.children i, q = .expression child := by
  unfold propertyParts at h
  split at h
  · rename_i name value hform
    rw [children_of_form? hform]
    exact ⟨value, List.mem_cons_of_mem _ List.mem_cons_self, List.mem_singleton.1 h⟩
  · rename_i name hform
    obtain ⟨_, -, rfl⟩ := List.mem_map.1 h
    rw [children_of_form? hform]
    exact ⟨name, List.mem_cons_self, rfl⟩
  · cases h

/-- The parts of an expression that is no function are children of it, or values
in an object. -/
theorem mem_expressionParts {form : Form} (hform : ∀ p, form ≠ .function .arrow p)
    (h : q ∈ a.expressionParts form) :
    ∃ child ∈ form.children, q = .expression child ∨ q ∈ a.propertyParts child := by
  have hspot {l : List NodeId} (hl : ∀ i ∈ l, i ∈ form.children)
      (hq : q ∈ l.map Spot.expression) :
      ∃ child ∈ form.children, q = .expression child ∨ q ∈ a.propertyParts child := by
    obtain ⟨i, hi, rfl⟩ := mem_expressionSpots hq
    exact ⟨i, hl i hi, .inl rfl⟩
  cases form with
  | objectLiteral properties =>
    obtain ⟨property, hproperty, hq⟩ := List.mem_flatMap.1 h
    exact ⟨property, hproperty, .inr hq⟩
  | function kind p =>
    cases kind with
    | arrow => exact absurd rfl (hform p)
    | _ => cases h
  | arrayLiteral elements => exact hspot (fun _ hi => hi) h
  | call callee arguments => exact hspot (l := callee :: arguments) (fun _ hi => hi) h
  | newExpression callee arguments => exact hspot (l := callee :: arguments) (fun _ hi => hi) h
  | parenthesized inner => exact hspot (l := [inner]) (fun _ hi => hi) h
  | propertyAccess object name =>
    exact ⟨object, List.mem_cons_self, .inl (List.mem_singleton.1 h)⟩
  | elementAccess object index => exact hspot (l := [object, index]) (fun _ hi => hi) h
  | prefixUnary operator operand => exact hspot (l := [operand]) (fun _ hi => hi) h
  | postfixUnary operator operand => exact hspot (l := [operand]) (fun _ hi => hi) h
  | typeOf operand => exact hspot (l := [operand]) (fun _ hi => hi) h
  | binary left operator right => exact hspot (l := [left, right]) (fun _ hi => hi) h
  | conditional condition whenTrue whenFalse =>
    exact hspot (l := [condition, whenTrue, whenFalse]) (fun _ hi => hi) h
  | asExpression operand type =>
    exact ⟨operand, List.mem_cons_self, .inl (List.mem_singleton.1 h)⟩
  | _ => cases h

section

variable {roots : List NodeId} (hf : Forest a roots)

include hf

theorem Forest.lt_of_form {form : Form} {n : NodeId} (hform : a.form? i = some form)
    (hn : n ∈ form.children) : n < i :=
  hf.below i n (by rwa [children_of_form? hform])

theorem Forest.lt_value (h : ∃ child ∈ a.children i, q = .expression child) : q.node < i := by
  obtain ⟨child, hchild, rfl⟩ := h
  exact hf.below i child hchild

theorem Forest.le_body (h : q ∈ a.bodyParts i) : q.node ≤ i := by
  unfold bodyParts at h
  split at h
  · rename_i statements hform
    exact Nat.le_of_lt (hf.lt_of_form hform (mem_statementSpots h))
  · obtain rfl := List.mem_singleton.1 h
    exact Nat.le_refl i
  · cases h

theorem Forest.lt_function {kind : FunctionKind} {p : FunctionParts}
    (hform : a.form? i = some (.function kind p)) (h : q ∈ a.functionParts p) : q.node < i := by
  rcases List.mem_append.1 h with h | h
  · obtain ⟨parameter, hparameter, hq⟩ := List.mem_flatMap.1 h
    refine Nat.lt_trans (hf.lt_value (mem_parameterParts hq)) (hf.lt_of_form hform ?_)
    exact List.mem_append_left _ (List.mem_append_left _ (List.mem_append_right _ hparameter))
  · obtain ⟨body, hbody, hq⟩ := List.mem_flatMap.1 h
    exact Nat.lt_of_le_of_lt (hf.le_body hq) (hf.lt_of_form hform (List.mem_append_right _ hbody))

theorem Forest.le_member (h : q ∈ a.memberParts i) : q.node ≤ i := by
  unfold memberParts at h
  split at h
  · rename_i p hform
    refine Nat.le_of_lt (hf.lt_of_form hform ?_)
    exact List.mem_cons_of_mem _ (List.mem_append_right _ (mem_valueParts h))
  · exact Nat.le_of_eq (List.mem_singleton.1 h ▸ rfl)
  · exact Nat.le_of_eq (List.mem_singleton.1 h ▸ rfl)
  · cases h

theorem Forest.lt_statement {form : Form} (hform : a.form? i = some form)
    (h : q ∈ a.statementParts form) : q.node < i := by
  -- most parts are children
  suffices q.node < i ∨ q.node ∈ form.children from this.elim id (hf.lt_of_form hform)
  unfold statementParts at h
  split at h
  · exact .inl (hf.lt_function hform h)
  · obtain ⟨member, hmember, hq⟩ := List.mem_flatMap.1 h
    refine .inl (Nat.lt_of_le_of_lt (hf.le_member hq) (hf.lt_of_form hform ?_))
    exact List.mem_cons_of_mem _ (List.mem_append_right _ hmember)
  · obtain ⟨declaration, hdeclaration, hq⟩ := List.mem_flatMap.1 h
    exact .inl (Nat.lt_trans (hf.lt_value (mem_variableParts hq)) (hf.lt_of_form hform hdeclaration))
  · exact .inr (mem_statementSpots h)
  · exact .inr (List.mem_singleton.2 (List.mem_singleton.1 h ▸ rfl))
  · exact .inr (mem_valueParts h)
  · rcases List.mem_cons.1 h with rfl | h
    · exact .inr List.mem_cons_self
    · exact .inr (List.mem_cons_of_mem _ (mem_statementSpots h))
  · rcases List.mem_cons.1 h with rfl | h
    · exact .inr List.mem_cons_self
    · exact .inr (List.mem_cons_of_mem _ (mem_statementSpots h))
  · simp only [List.mem_append] at h
    simp only [Form.children, List.mem_append]
    exact .inr (h.imp (·.imp (·.imp mem_startParts mem_valueParts) mem_valueParts)
      mem_statementSpots)
  · rcases List.mem_cons.1 h with rfl | h
    · exact .inr (List.mem_append_right _ List.mem_cons_self)
    · rcases List.mem_append.1 h with h | h
      · exact .inr (List.mem_append_left _ (mem_startParts h))
      · exact .inr (List.mem_append_right _ (List.mem_cons_of_mem _ (mem_statementSpots h)))
  · cases h

theorem Forest.lt_expression {form : Form} (hform : a.form? i = some form)
    (h : q ∈ a.expressionParts form) : q.node < i := by
  by_cases harrow : ∃ p, form = .function .arrow p
  · obtain ⟨p, rfl⟩ := harrow
    exact hf.lt_function hform h
  · obtain ⟨child, hchild, rfl | hq⟩ :=
      mem_expressionParts (fun p hp => harrow ⟨p, hp⟩) h
    · exact hf.lt_of_form hform hchild
    · exact Nat.lt_trans (hf.lt_value (mem_propertyParts hq)) (hf.lt_of_form hform hchild)

/-- The parts of a spot are nodes before it. -/
theorem Forest.lt_of_mem_parts {p : Spot} (h : q ∈ p.parts a) : q.node < p.node := by
  cases p with
  | statement i =>
    obtain ⟨form, hform, hq⟩ := List.mem_flatMap.1 h
    exact hf.lt_statement (Option.mem_toList.1 hform) hq
  | method i =>
    obtain ⟨p, hp, hq⟩ := List.mem_flatMap.1 h
    obtain ⟨kind, hform⟩ := form?_of_functionOf? (Option.mem_toList.1 hp)
    exact hf.lt_function hform hq
  | expression i =>
    obtain ⟨form, hform, hq⟩ := List.mem_flatMap.1 h
    exact hf.lt_expression (Option.mem_toList.1 hform) hq

end

end Arena

theorem Layout.Below.holds {g : Layout} {p q : Spot} {outer inner : ScopeId} {k : Nat}
    (h : g.Below p outer k q inner) : g.arena.Holds p q := by
  induction h with
  | here p scope => exact .here p
  | part hq _ ih => exact .part hq ih

/-- What is below a spot is the spot itself or a node before it. -/
theorem Layout.Below.le {g : Layout} {p q : Spot} {outer inner : ScopeId} {k : Nat}
    (h : g.Below p outer k q inner) (hf : g.arena.Forest []) : q.node ≤ p.node := by
  induction h with
  | here => exact Nat.le_refl _
  | part hq _ ih => exact Nat.le_trans ih (Nat.le_of_lt (hf.lt_of_mem_parts hq))

end ScriptAnalysis
