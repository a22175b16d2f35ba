import ScriptAnalysis.Proofs.Analysis.Exports
import ScriptAnalysis.Proofs.Parsing.Names
import ScriptAnalysis.Proofs.Parsing.Speculation

/-!
# The names that a consumer is told

A consumer is told the names of functions and parameters as they stand in the text.
The binder and the checker take them from the identifiers of the tree. The two are the
same, since what names a function or a parameter is an identifier and an identifier has
the text that it covers (`SourceFile.nodeText_of_nameOf?`).

**Rules.** `Brings P x Q` says what a parser leaves in the arena. Only the rule for
declared functions gives nodes with `Form.declared?`, and what it gives is signed
(`givesSigned_functionDeclaration`); all other statements are of other forms
(`givesSigned_finish`).

**Results.**
* `signed_statements`: what names the functions that are declared in a file.
* `describe_names`, `names_reported`: what a consumer is told.
-/
namespace ScriptAnalysis

/-- A function that is declared, with what it is made of. -/
def Form.declared? : Form → Option FunctionParts
  | function .declaration p => some p
  | _ => none

namespace Arena

variable {a a' : Arena} {i : NodeId}

/-- The node is an identifier. -/
def IsName (a : Arena) (i : NodeId) : Prop :=
  a.Has (fun form => ∃ name, form = .identifier name) i

/-- The node is a parameter with an identifier for its name. -/
def IsParameter (a : Arena) (i : NodeId) : Prop :=
  ∃ p, a.form? i = some (.parameter p) ∧ a.IsName p.name

/-- The node is there, and if a function is declared there, identifiers name it and its
parameters. -/
def Signed (a : Arena) (i : NodeId) : Prop :=
  ∃ form, a.form? i = some form ∧ ∀ p, form.declared? = some p →
    (∃ name, p.name = some name ∧ a.IsName name) ∧ ∀ j ∈ p.parameters, a.IsParameter j

theorem IsParameter.grow (h : a.IsParameter i) (hgrows : a.toList <+: a'.toList) :
    a'.IsParameter i := by
  obtain ⟨p, hform, hname⟩ := h
  exact ⟨p, form?_grow hgrows hform, hname.grow hgrows⟩

theorem Signed.grow (h : a.Signed i) (hgrows : a.toList <+: a'.toList) : a'.Signed i := by
  obtain ⟨form, hform, hparts⟩ := h
  refine ⟨form, form?_grow hgrows hform, fun p hp => ?_⟩
  obtain ⟨⟨name, hname, hidentifier⟩, hparameters⟩ := hparts p hp
  exact ⟨⟨name, hname, hidentifier.grow hgrows⟩, fun j hj => (hparameters j hj).grow hgrows⟩

end Arena

namespace Parsing

/-! ## What a parser brings -/

/-- From an arena that satisfies `P` the parser comes to a result and an arena that
satisfy `Q`. -/
def Brings {α : Type} (P : Arena → Prop) (x : Parser α) (Q : α → Arena → Prop) : Prop :=
  ∀ s, P s.arena → Q (x s).1 (x s).2.arena

/-- More nodes do not change it. -/
def Lasts (P : Arena → Prop) : Prop :=
  ∀ a a' : Arena, P a → a.toList <+: a'.toList → P a'

section

variable {α β : Type} {n : Nat} {P : Arena → Prop} {Q Q' : α → Arena → Prop}
  {R : β → Arena → Prop} {x y : Parser α} {f : α → Parser β}

theorem lasts_isName (i : NodeId) : Lasts (·.IsName i) :=
  fun _ _ h hgrows => h.grow hgrows

theorem lasts_isParameter (i : NodeId) : Lasts (·.IsParameter i) :=
  fun _ _ h hgrows => h.grow hgrows

theorem lasts_signed (i : NodeId) : Lasts (·.Signed i) :=
  fun _ _ h hgrows => h.grow hgrows

theorem Lasts.and {P' : Arena → Prop} (h : Lasts P) (h' : Lasts P') : Lasts fun a => P a ∧ P' a :=
  fun a a' hs hgrows => ⟨h a a' hs.1 hgrows, h' a a' hs.2 hgrows⟩

theorem Lasts.each {K : Arena → NodeId → Prop} (h : ∀ i, Lasts (K · i)) (ids : List NodeId) :
    Lasts fun a => ∀ i ∈ ids, K a i :=
  fun a a' hs hgrows i hi => h i a a' (hs i hi) hgrows

theorem Brings.pure {a : α} (h : ∀ arena, P arena → Q a arena) :
    Brings P (Pure.pure a : Parser α) Q :=
  fun _ hs => h _ hs

theorem Brings.bind (hx : Brings P x Q) (hf : ∀ a, Brings (Q a) (f a) R) :
    Brings P (x >>= f) R :=
  fun s hs => hf _ _ (hx s hs)

theorem Brings.imp (h : Brings P x Q) (hQ : ∀ a arena, Q a arena → Q' a arena) : Brings P x Q' :=
  fun s hs => hQ _ _ (h s hs)

theorem Brings.ite {p : Prop} [Decidable p] (hx : Brings P x Q) (hy : Brings P y Q) :
    Brings P (if p then x else y) Q := by
  split
  · exact hx
  · exact hy

/-- What comes first does not matter. -/
theorem Brings.skip (hf : ∀ a, Brings (fun _ => True) (f a) R) : Brings P (x >>= f) R :=
  fun _ _ => hf _ _ trivial

/-- What was known before is known behind what is composed of the rules. -/
theorem Brings.keep (h : Brings (fun _ => True) x Q) (hx : Composed (productions n) x)
    (hP : Lasts P) : Brings P x fun r a => P a ∧ Q r a :=
  fun s hs => ⟨hP _ _ hs (hx.appends s).arena, h s trivial⟩

theorem Brings.past (n : Nat) (hx : Composed (productions n) x) (hP : Lasts P)
    (hf : ∀ a, Brings P (f a) R) : Brings P (x >>= f) R :=
  fun s hs => hf _ _ (hP _ _ hs (hx.appends s).arena)

/-- The node that is made, and what was known before. -/
theorem brings_finish (hP : Lasts P) (form : Form) (pos : Nat) :
    Brings P (finish pos form) fun i a => a.form? i = some form ∧ P a := by
  refine fun s hs => ⟨?_, hP _ _ hs (Arena.prefix_push _ _)⟩
  exact Option.map_eq_some_iff.2 ⟨_, Array.getElem?_push_size, rfl⟩

theorem Brings.nested {fallback : Parser α} (hx : Brings P x Q) (hfallback : Brings P fallback Q) :
    Brings P (nested x fallback) Q := by
  intro s hs
  rw [nested_eq]
  split
  · exact hfallback (s.report _ _ _) (by rwa [report_arena])
  · exact hx { s with depth := s.depth + 1 } hs

/-- What every turn keeps, a loop keeps. -/
theorem brings_iterate {J : β → Arena → Prop} {body : β → Parser (Turn β)}
    (h : ∀ b, Brings (J b) (body b) fun t => J t.value) (b : β) :
    Brings (J b) (iterate b body) J := by
  have hloop : ∀ n b, Brings (J b) (iterateUpTo body n b) J := by
    intro n
    induction n with
    | zero => exact fun b s hs => hs
    | succ n ih =>
      refine fun b => (h b).bind fun t => ?_
      cases t with
      | again b => exact ih b
      | done b => exact .pure fun _ hs => hs
  exact fun s => hloop _ b s

theorem each_append {K : NodeId → Prop} {ids ids' : List NodeId}
    (h : (∀ i ∈ ids, K i) ∧ ∀ i ∈ ids', K i) : ∀ i ∈ ids ++ ids', K i :=
  fun i hi => (List.mem_append.1 hi).elim (h.1 i) (h.2 i)

end

/-! ## Declared functions -/

section

variable {n : Nat}

theorem brings_wordAsName : Brings (fun _ => True) wordAsName fun i a => a.IsName i :=
  fun _ _ => Arena.has_push _ ⟨_, rfl⟩

theorem brings_bindingName : Brings (fun _ => True) bindingName fun i a => a.IsName i :=
  .skip fun _ => .ite brings_wordAsName (.skip fun _ _ _ => Arena.has_push _ ⟨_, rfl⟩)

theorem brings_parameter :
    Brings (fun _ => True) (parameter (productions n)) fun i a => a.IsParameter i := by
  refine .skip fun start => .skip fun modifiers => brings_bindingName.bind fun name => ?_
  refine .past n (.accept _) (lasts_isName name) fun optional => ?_
  refine .past n (.after _ .type) (lasts_isName name) fun ascription => ?_
  refine .past n (.after _ .assignment) (lasts_isName name) fun initializer => ?_
  exact (brings_finish (lasts_isName name) _ start).imp fun _ _ ⟨hform, hname⟩ =>
    ⟨_, hform, hname⟩

theorem brings_parameters : Brings (fun _ => True) (parameters (productions n)) fun ps a =>
    ∀ j ∈ ps, a.IsParameter j := by
  have hlasts := Lasts.each lasts_isParameter
  have hnone : ∀ a : Arena, ∀ j ∈ ([] : List NodeId), a.IsParameter j :=
    fun _ _ hj => absurd hj List.not_mem_nil
  have hturn : ∀ items, Brings (fun a => ∀ j ∈ items, a.IsParameter j)
      (commaTurn closesParens (parameter (productions n)) items) fun t a =>
        ∀ j ∈ t.value, a.IsParameter j := by
    refine fun items => .past n (.look fun _ => rfl) (hlasts _) fun k => .ite (.pure fun _ => id) ?_
    refine (brings_parameter.keep .parameter (hlasts items)).bind fun item => ?_
    refine Brings.bind (Q := fun _ a => ∀ j ∈ items ++ [item], a.IsParameter j) (fun s hs => ?_)
      fun _ => .ite (.pure fun _ => id) (.pure fun _ => id)
    have hcomma : Composed (productions n) (accept .comma) := .accept _
    exact hlasts _ _ _ (each_append ⟨hs.1, by simpa using hs.2⟩) (hcomma.appends s).arena
  have hitems : Brings (fun _ => True) (commaSeparated closesParens (parameter (productions n)))
      fun ps a => ∀ j ∈ ps, a.IsParameter j :=
    fun s _ => brings_iterate hturn [] s (hnone s.arena)
  refine .skip fun _ => .ite (hitems.bind fun ps => ?_) (.pure fun a _ => hnone a)
  exact .past n (.expect _) (hlasts ps) fun _ => .pure fun _ => id

/-- The parser gives a node, and if it is a declared function, it and its parameters have
names. -/
def GivesSigned (x : Parser NodeId) : Prop :=
  Brings (fun _ => True) x fun i a => a.Signed i

/-- The same where a statement may be missing. -/
def StatesSigned (x : Parser (Option NodeId)) : Prop :=
  Brings (fun _ => True) x fun r a => ∀ i ∈ r.toList, a.Signed i

theorem givesSigned_functionDeclaration (start : Nat) (modifiers : Modifiers) :
    GivesSigned (functionDeclaration (productions n) start modifiers) := by
  refine .skip fun _ => brings_bindingName.bind fun name => ?_
  refine (brings_parameters.keep .parameters (lasts_isName name)).bind fun ps => ?_
  have hlasts := (lasts_isName name).and (Lasts.each lasts_isParameter ps)
  refine .past n (.after _ .type) hlasts fun returnType =>
    .past n .functionBody hlasts fun body => ?_
  refine (brings_finish hlasts _ start).imp fun i a ⟨hform, hname, hps⟩ => ⟨_, hform, ?_⟩
  rintro p ⟨⟩
  exact ⟨⟨name, rfl, hname⟩, hps⟩

end

/-! ## Statements

All but one sort of declarations are nodes of other forms. -/

section

variable {α : Type} {n : Nat} {self : Productions}

theorem GivesSigned.bind {x : Parser α} {f : α → Parser NodeId} (hf : ∀ a, GivesSigned (f a)) :
    GivesSigned (x >>= f) :=
  Brings.skip hf

theorem GivesSigned.ite {p : Prop} [Decidable p] {x y : Parser NodeId} (hx : GivesSigned x)
    (hy : GivesSigned y) : GivesSigned (if p then x else y) :=
  Brings.ite hx hy

theorem statesSigned_some {x : Parser NodeId} (hx : GivesSigned x) :
    StatesSigned (do return some (← x)) :=
  Brings.bind hx fun i => .pure fun a hi => by simpa using hi

theorem statesSigned_none (x : Parser α) : StatesSigned (do
    let _ ← x
    return none) :=
  .skip fun _ => .pure fun _ _ _ hi => absurd hi List.not_mem_nil

theorem givesSigned_finish {form : Form} (h : form.declared? = none) (pos : Nat) :
    GivesSigned (finish pos form) := by
  refine (brings_finish (P := fun _ => True) (fun _ _ h _ => h) form pos).imp
    fun i a hi => ⟨form, hi.1, fun p hp => ?_⟩
  rw [h] at hp
  cases hp

theorem givesSigned_block : GivesSigned (block self) :=
  .bind fun _ => .bind fun _ => .bind fun _ => .bind fun _ => givesSigned_finish rfl _

theorem givesSigned_emptyStatement : GivesSigned emptyStatement :=
  .bind fun _ => .bind fun _ => givesSigned_finish rfl _

theorem givesSigned_ifStatement : GivesSigned (ifStatement self) :=
  .bind fun _ => .bind fun _ => .bind fun _ => .bind fun _ => .bind fun _ =>
    .ite (.bind fun _ => givesSigned_finish rfl _) (givesSigned_finish rfl _)

theorem givesSigned_whileStatement : GivesSigned (whileStatement self) :=
  .bind fun _ => .bind fun _ => .bind fun _ => .bind fun _ => givesSigned_finish rfl _

theorem givesSigned_forStatement : GivesSigned (forStatement self) := by
  refine .bind fun _ => .bind fun _ => .bind fun _ => .bind fun _ => .bind fun _ => ?_
  refine .ite (.bind fun _ => .bind fun _ => .bind fun _ => givesSigned_finish rfl _) ?_
  refine .bind fun _ => .bind fun _ => .bind fun _ => .bind fun _ => .bind fun _ => ?_
  exact .bind fun _ => givesSigned_finish rfl _

theorem givesSigned_returnStatement : GivesSigned (returnStatement self) :=
  .bind fun _ => .bind fun _ => .bind fun _ =>
    .ite (.bind fun _ => .bind fun _ => givesSigned_finish rfl _)
      (.bind fun _ => .bind fun _ => .bind fun _ => givesSigned_finish rfl _)

theorem givesSigned_wordStatement {form : Form} (h : form.declared? = none) :
    GivesSigned (wordStatement form) :=
  .bind fun _ => .bind fun _ => .bind fun _ => givesSigned_finish h _

theorem givesSigned_importDeclaration : GivesSigned importDeclaration :=
  .bind fun _ => .bind fun _ => .bind fun _ => .bind fun _ => .bind fun _ =>
    .ite (.bind fun _ => .bind fun _ => .bind fun _ => givesSigned_finish rfl _)
      (.bind fun _ => .bind fun _ => .bind fun _ => givesSigned_finish rfl _)

theorem givesSigned_expressionStatement : GivesSigned (expressionStatement self) :=
  .bind fun _ => .bind fun _ => .bind fun _ => givesSigned_finish rfl _

theorem givesSigned_classDeclaration (start : Nat) (modifiers : Modifiers) :
    GivesSigned (classDeclaration self start modifiers) :=
  .bind fun _ => .bind fun _ => .bind fun _ => .bind fun _ => givesSigned_finish rfl _

theorem givesSigned_interfaceDeclaration (start : Nat) (modifiers : Modifiers) :
    GivesSigned (interfaceDeclaration self start modifiers) :=
  .bind fun _ => .bind fun _ => .bind fun _ => .bind fun _ => givesSigned_finish rfl _

theorem givesSigned_typeAlias (start : Nat) (modifiers : Modifiers) :
    GivesSigned (typeAlias self start modifiers) :=
  .bind fun _ => .bind fun _ => .bind fun _ => .bind fun _ => .bind fun _ =>
    givesSigned_finish rfl _

theorem givesSigned_variableStatement (start : Nat) (modifiers : Modifiers) (kind : VariableKind) :
    GivesSigned (variableStatement self start modifiers kind) :=
  .bind fun _ => .bind fun _ => .bind fun _ => givesSigned_finish rfl _

theorem statesSigned_declaration : StatesSigned (declaration (productions n)) := by
  refine .skip fun start => .skip fun modifiers => .skip fun k => ?_
  split
  · exact statesSigned_some (givesSigned_functionDeclaration start modifiers)
  · exact statesSigned_some (givesSigned_classDeclaration start modifiers)
  · exact statesSigned_some (givesSigned_interfaceDeclaration start modifiers)
  · exact statesSigned_some (givesSigned_typeAlias start modifiers)
  · refine .skip fun s => ?_
    split
    · exact statesSigned_some (givesSigned_variableStatement start modifiers _)
    · exact statesSigned_none _

theorem statesSigned_anyStatement : StatesSigned (anyStatement (productions n)) := by
  have hnone : StatesSigned (pure none) := .pure fun _ _ _ hi => absurd hi List.not_mem_nil
  refine .skip fun k => ?_
  split
  · exact hnone
  · exact hnone
  · exact statesSigned_some givesSigned_block
  · exact statesSigned_some givesSigned_emptyStatement
  · exact statesSigned_some givesSigned_ifStatement
  · exact statesSigned_some givesSigned_whileStatement
  · exact statesSigned_some givesSigned_forStatement
  · exact statesSigned_some givesSigned_returnStatement
  · exact statesSigned_some (givesSigned_wordStatement rfl)
  · exact statesSigned_some (givesSigned_wordStatement rfl)
  · exact .skip fun _ => statesSigned_some givesSigned_importDeclaration
  · exact .skip fun s => .ite statesSigned_declaration
      (statesSigned_some givesSigned_expressionStatement)

theorem statesSigned_statement : StatesSigned (productions n).statement := by
  cases n with
  | zero => exact statesSigned_none exhaust
  | succ n => exact statesSigned_anyStatement.nested (statesSigned_none advance)

/-- Of the statements of a file those that declare functions have names. -/
theorem brings_statementsUntil (stops : TokenKind → Bool) :
    Brings (fun _ => True) (statementsUntil (productions n) stops) fun ids a =>
      ∀ i ∈ ids, a.Signed i := by
  have hlasts := Lasts.each lasts_signed
  have hturn : ∀ items, Brings (fun a => ∀ i ∈ items, a.Signed i)
      (statementsTurn (productions n) stops items) fun t a => ∀ i ∈ t.value, a.Signed i := by
    refine fun items => .past n (.look fun _ => rfl) (hlasts _) fun k => .ite (.pure fun _ => id) ?_
    refine .past n (.look fun _ => rfl) (hlasts _) fun before => ?_
    refine (statesSigned_statement.keep .statement (hlasts items)).bind fun r => ?_
    refine .past n (.look fun _ => rfl) ((hlasts items).and (hlasts r.toList)) fun left => ?_
    refine .ite ?_ (.pure fun _ => each_append)
    have hpassed := Lasts.and (hlasts items) (hlasts r.toList)
    exact .past n (.report _) hpassed fun _ => .past n .advance hpassed fun _ =>
      .pure fun _ hs => hs.1
  exact fun s _ => brings_iterate hturn [] s fun _ hi => absurd hi List.not_mem_nil

end

end Parsing

namespace SourceFile

open Parsing

/-- Identifiers name the functions that are declared at the top level, and their
parameters. -/
theorem signed_statements (name : String) (text : List Char) :
    ∀ i ∈ (parse name text).statements, (parse name text).arena.Signed i := by
  obtain ⟨last, hlast, harena, hroot, -⟩ := parse_statements name text
  have hsigned := brings_statementsUntil (n := nestingBound (Lexer.scan text).tokens.length)
    (· == .endOfFile) (.start (Lexer.scan text).tokens) trivial
  rw [← hlast] at hsigned
  have hstatements : (parse name text).statements = last.1 := by
    unfold statements Arena.form?
    rw [harena, hroot, Array.getElem?_push_size]
    rfl
  rw [hstatements, harena]
  exact fun i hi => (hsigned i hi).grow (Arena.prefix_push _ _)

theorem nameOf?_of_isName {name : String} {text : List Char} {i : NodeId}
    (h : (parse name text).arena.IsName i) :
    (parse name text).arena.nameOf? i = some ((parse name text).nodeText i) := by
  obtain ⟨form, hform, t, rfl⟩ := h
  have hname := Arena.nameOf?_eq_some_iff.2 hform
  rw [hname, nodeText_of_nameOf? hname]

end SourceFile

/-! ## What a consumer is told -/

namespace Exports

/-- The name by which a parameter is bound. -/
def boundName? (f : SourceFile) (node : NodeId) : Option String :=
  (f.arena.parameterOf? node).bind fun p => f.arena.nameOf? p.name

section

variable {φ α β γ : Type}

/-- What is the same of a result wherever it is computed. -/
theorem map_mapM {xs : List α} {x : α → StateM φ β} {k : β → γ} {m : α → γ}
    (h : ∀ a ∈ xs, ∀ s, k (x a s).1 = m a) (s : φ) : (xs.mapM x s).1.map k = xs.map m := by
  induction xs generalizing s with
  | nil => rfl
  | cons a xs ih =>
    rw [List.mapM_cons, List.map_cons, ← h a List.mem_cons_self s,
      ← ih (fun b hb => h b (List.mem_cons_of_mem a hb)) (x a s).2]
    rfl

theorem exists_of_mem_functions {f : SourceFile} {g : Function} (h : g ∈ functions f) :
    ∃ i ∈ f.statements, f.arena.form? i = some (.function .declaration g.parts) ∧
      g.parts.name = some g.name := by
  obtain ⟨i, hi, hof⟩ := List.mem_filterMap.1 h
  refine ⟨i, hi, ?_⟩
  unfold ofStatement? at hof
  split at hof
  · rename_i p hform
    split at hof
    · rename_i hname _
      split at hof
      · cases hof
        exact ⟨hform, hname⟩
      · cases hof
    · cases hof
  · cases hof

section

variable {f : SourceFile} {g : Function}
  (hf : ∀ i, f.arena.IsName i → f.arena.nameOf? i = some (f.nodeText i))

include hf

theorem boundName?_parameter {j : NodeId} (h : f.arena.IsParameter j) (F : Frontend φ)
    (inferred : Option TypeId) (s : φ) :
    some (parameter F f j inferred s).1.name = boundName? f j := by
  obtain ⟨p, hform, hname⟩ := h
  have hparameter : f.arena.parameterOf? j = some p := by
    unfold Arena.parameterOf?
    rw [hform]
  unfold boundName? parameter
  rw [hparameter]
  dsimp only [Option.bind_some]
  rw [hf p.name hname]
  cases p.ascription <;> rfl

variable (hparameters : ∀ j ∈ g.parts.parameters, f.arena.IsParameter j)

include hparameters

theorem boundName?_parametersOf (F : Frontend φ) (signature : Option Signature) (s : φ) :
    ((parametersOf F f g signature s).1.map fun p => some p.name) =
      g.parts.parameters.map (boundName? f) := by
  have hnodes : g.parts.parameters.zipIdx.map (fun e => boundName? f e.1) =
      g.parts.parameters.map (boundName? f) := by
    conv_rhs => rw [← List.zipIdx_map_fst 0 g.parts.parameters, List.map_map]
    rfl
  refine (map_mapM (fun e he s => ?_) s).trans hnodes
  exact boundName?_parameter hf (hparameters e.1 (List.fst_mem_of_mem_zipIdx he)) F _ s

/-- The names that are told of a function are those of its identifiers. -/
theorem describe_names (hname : f.arena.IsName g.name) (F : Frontend φ) (s : φ) :
    (∀ r, (describe F f g s).1 = .error r → f.arena.nameOf? g.name = some r.name) ∧
      ∀ d, (describe F f g s).1 = .ok d → f.arena.nameOf? g.name = some d.name ∧
        g.parts.parameters.map (boundName? f) = d.parameters.map fun p => some p.name := by
  have htold := hf g.name hname
  rw [describe_eq]
  dsimp only
  generalize TypeDescriptor.ofDisplay _ = told
  match told with
  | _ :: _ :: _ =>
    refine ⟨fun r hr => ?_, nofun⟩
    cases hr
    exact htold
  | [] | [_] =>
    refine ⟨nofun, fun d hd => ?_⟩
    cases hd
    exact ⟨htold, (boundName?_parametersOf hf hparameters F _ _).symm⟩

end

end

/-- In every file the text of an identifier is what it covers. So a consumer is told the
names of functions and parameters that the binder and the checker use: what names an
exported function, rejected or not, and each of its parameters is an identifier. -/
theorem names_reported (name : String) (text : List Char) :
    (∀ i t, (SourceFile.parse name text).arena.nameOf? i = some t →
      (SourceFile.parse name text).nodeText i = t) ∧
    ∀ g ∈ functions (.parse name text), ∀ {φ : Type} (F : Frontend φ) (s : φ),
      (∀ r, (describe F (.parse name text) g s).1 = .error r →
        (SourceFile.parse name text).arena.nameOf? g.name = some r.name) ∧
      ∀ d, (describe F (.parse name text) g s).1 = .ok d →
        (SourceFile.parse name text).arena.nameOf? g.name = some d.name ∧
        g.parts.parameters.map (boundName? (.parse name text)) =
          d.parameters.map fun p => some p.name := by
  refine ⟨fun i t => SourceFile.nodeText_of_nameOf?, fun g hg φ F s => ?_⟩
  obtain ⟨i, hi, hform, hname⟩ := exists_of_mem_functions hg
  obtain ⟨form, hform', hparts⟩ := SourceFile.signed_statements name text i hi
  cases hform.symm.trans hform'
  obtain ⟨⟨bound, hbound, hidentifier⟩, hparameters⟩ := hparts g.parts rfl
  cases hname.symm.trans hbound
  exact describe_names (fun _ => SourceFile.nameOf?_of_isName) hparameters hidentifier F s

/-- A file with words of the language for names, and with names that are missing. -/
def wordFile : SourceFile :=
  SourceFile.parse "/p/a.ts"
    "export function type(of, = 1) \x7b \x7d\nexport function () \x7b \x7d".toList

theorem words_reported :
    (wordFile.arena.nameOf? 8 = some "" ∧ wordFile.nodeText 8 = "") ∧
    ∃ g ∈ functions wordFile, ∃ d,
      (describe Program.frontend wordFile g (freshProgram [wordFile] default)).1 = .ok d ∧
        d.name = "type" ∧ (d.parameters.map fun p => some p.name) = [some "of", some ""] := by
  have hall := names_reported "/p/a.ts"
    "export function type(of, = 1) \x7b \x7d\nexport function () \x7b \x7d".toList
  obtain ⟨hmissing, hfunction⟩ : wordFile.arena.nameOf? 8 = some "" ∧
      ∃ g ∈ functions wordFile, wordFile.arena.nameOf? g.name = some "type" ∧
        g.parts.parameters.map (boundName? wordFile) = [some "of", some ""] ∧
        (describe Program.frontend wordFile g
          (freshProgram [wordFile] default)).1.toOption.isSome = true := by
    rw [wordFile, String.toList_ofList]
    decide +kernel
  refine ⟨⟨hmissing, hall.1 8 "" hmissing⟩, ?_⟩
  obtain ⟨g, hg, hname, hparameters, hdescribed⟩ := hfunction
  have hok : ∀ r : Except Rejection FunctionDescriptor, r.toOption.isSome = true →
      ∃ d, r = .ok d := by
    rintro (_ | d) h
    · cases h
    · exact ⟨d, rfl⟩
  obtain ⟨d, hd⟩ := hok _ hdescribed
  obtain ⟨hnamed, hnames⟩ :=
    (hall.2 g hg Program.frontend (freshProgram [wordFile] default)).2 d hd
  exact ⟨g, hg, d, hd, (Option.some.inj (hname.symm.trans hnamed)).symm,
    hnames.symm.trans hparameters⟩

end Exports

end ScriptAnalysis
