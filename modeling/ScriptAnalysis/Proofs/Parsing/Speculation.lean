import ScriptAnalysis.Proofs.Parsing.Nested

/-!
# Attempts that are given up

Whether a parenthesis opens the parameters of an arrow function is tried. An attempt
that fails, or that reports anything, is undone: the tokens passed are at hand again,
and the arena and the errors are cut off at the length they had. That this is the
state there was rests on two things. Nothing is ever changed in the front of the
arena or of the errors, and whoever goes a level deeper comes back, also where the
deepest level is reached and also in an attempt within an attempt (`Appends`).

**Parsers.** `Composed rules x`: the parser `x` is put together from the steps of the
parser, its loops, levels and attempts, and the recursive rules of the grammar. All
rules are; here it is shown of the head of an arrow function, which is what is tried
(`Composed.arrowHead`).

**Results.**
* `Composed.appends`: from every state, whatever is at hand there.
* `attempt_undone`: what an attempt leaves. The note that a file is a module stays,
  as `SourceFile.isModule_parse` tells.
-/
namespace ScriptAnalysis.Parsing

/-- Put together from the steps of the parser and the recursive rules. -/
inductive Composed (rules : Productions) : {α : Type} → Parser α → Prop where
  | pure {α : Type} (a : α) : Composed rules (Pure.pure a : Parser α)
  | bind {α β : Type} {x : Parser α} {f : α → Parser β} (first : Composed rules x)
    (second : ∀ a, Composed rules (f a)) : Composed rules (x >>= f)
  /-- A parser that only looks. -/
  | look {α : Type} {x : Parser α} (same : ∀ s, (x s).2 = s) : Composed rules x
  | advance : Composed rules advance
  | report (problem : Problem) : Composed rules (report problem)
  | addNode (form : Form) (pos stop : Nat) : Composed rules (addNode form pos stop)
  | note (moduleSyntax : Bool) :
    Composed rules (modify fun s => { s with moduleSyntax := moduleSyntax })
  | exhaust : Composed rules exhaust
  | nested {α : Type} {x fallback : Parser α} (deeper : Composed rules x)
    (deepest : Composed rules fallback) : Composed rules (nested x fallback)
  | attempt {α : Type} {x : Parser (Option α)} (tried : Composed rules x) :
    Composed rules (attempt x)
  | statement : Composed rules rules.statement
  | type : Composed rules rules.type
  | assignment : Composed rules rules.assignment
  | binary (least : Nat) : Composed rules (rules.binary least)
  | unary : Composed rules rules.unary
  | newExpression : Composed rules rules.newExpression

namespace Composed

variable {α β : Type} {rules : Productions}

theorem ite {p : Prop} [Decidable p] {x y : Parser α} (hx : Composed rules x)
    (hy : Composed rules y) : Composed rules (if p then x else y) := by
  split
  · exact hx
  · exact hy

theorem iterate {body : β → Parser (Turn β)} (h : ∀ b, Composed rules (body b)) (b : β) :
    Composed rules (iterate b body) := by
  have hloop : ∀ n b, Composed rules (iterateUpTo body n b) := by
    intro n
    induction n with
    | zero => exact fun b => exhaust.bind fun _ => .pure b
    | succ n ih =>
      refine fun b => (h b).bind fun t => ?_
      cases t with
      | again b => exact ih b
      | done b => exact .pure b
  exact (look fun _ => rfl).bind fun _ => hloop _ b

/-! ## Rules -/

theorem accept (k : TokenKind) : Composed rules (accept k) :=
  (look fun _ => rfl).bind fun _ => (advance.bind fun _ => .pure true).ite (.pure false)

theorem expect (k : TokenKind) : Composed rules (expect k) :=
  (accept k).bind fun _ => (Composed.pure true).ite ((report _).bind fun _ => .pure false)

theorem endStatement : Composed rules endStatement := by
  have hends : Composed rules canEndStatement := by
    refine (look fun _ => rfl).bind fun k => ?_
    split
    · exact .pure true
    · exact .pure true
    · exact .pure true
    · exact look fun _ => rfl
  exact (accept _).bind fun _ => ite (.pure ()) (hends.bind fun _ => ite (.pure ()) (report _))

theorem finish (pos : Nat) (form : Form) : Composed rules (finish pos form) :=
  (look fun _ => rfl).bind fun _ => addNode form pos _

theorem wordAsName : Composed rules wordAsName :=
  (look fun _ => rfl).bind fun _ => advance.bind fun _ => addNode _ _ _

theorem bindingName : Composed rules bindingName :=
  (look fun _ => rfl).bind fun _ => wordAsName.ite <| (report _).bind fun _ =>
    (look fun _ => rfl).bind fun _ => addNode _ _ _

theorem after (k : TokenKind) {x : Parser NodeId} (hx : Composed rules x) :
    Composed rules (after k x) :=
  (accept k).bind fun _ => (hx.bind fun _ => .pure _).ite (.pure none)

theorem memberModifiers : Composed rules memberModifiers := by
  refine iterate (fun modifiers => (look fun _ => rfl).bind fun s => ?_) _
  split
  · exact .pure _
  · exact advance.bind fun _ => .pure _

theorem parameter : Composed rules (parameter rules) := by
  refine (look fun _ => rfl).bind fun start => memberModifiers.bind fun modifiers => ?_
  refine bindingName.bind fun name => (accept _).bind fun optional => ?_
  refine (after _ type).bind fun ascription => (after _ assignment).bind fun initializer => ?_
  exact finish start _

theorem parameters : Composed rules (parameters rules) := by
  have hitems : Composed rules (commaSeparated closesParens (Parsing.parameter rules)) := by
    refine iterate (fun items => (look fun _ => rfl).bind fun k => ite (.pure _) ?_) _
    exact parameter.bind fun item => (accept _).bind fun _ => ite (.pure _) (.pure _)
  refine (expect _).bind fun _ => ite ?_ (.pure _)
  exact hitems.bind fun ps => (expect _).bind fun _ => .pure ps

theorem block : Composed rules (block rules) := by
  have hstatements : Composed rules (statementsUntil rules closesBraces) := by
    refine iterate (fun statements => (look fun _ => rfl).bind fun k => ite (.pure _) ?_) _
    refine (look fun _ => rfl).bind fun before => statement.bind fun r => ?_
    refine (look fun _ => rfl).bind fun left => ite ?_ (.pure _)
    exact (report _).bind fun _ => advance.bind fun _ => .pure _
  refine (look fun _ => rfl).bind fun start => (expect _).bind fun _ => ?_
  exact hstatements.bind fun statements => (expect _).bind fun _ => finish start _

theorem functionBody : Composed rules (functionBody rules) :=
  (look fun _ => rfl).bind fun _ =>
    ite (block.bind fun _ => .pure _) (endStatement.bind fun _ => .pure none)

theorem simpleParameter : Composed rules simpleParameter :=
  (look fun _ => rfl).bind fun start => wordAsName.bind fun _ => finish start _

/-- What is tried. -/
theorem arrowHead (simple : Bool) : Composed rules (arrowHead rules simple) := by
  have hrest : ∀ ps : List NodeId, Composed rules (do
      let result ← ascription rules
      if ← Parsing.accept .arrow then return some (ps, result)
      else return none) := fun ps =>
    (after _ type).bind fun result => (accept _).bind fun _ => ite (.pure _) (.pure _)
  refine ite ?_ ?_
  · exact simpleParameter.bind fun p => (Composed.pure _).bind hrest
  · exact parameters.bind hrest

/-! ## Every state -/

/-- What is composed of rules that go on from every state goes on from every state. -/
theorem appends {n : Nat} {x : Parser α} (h : Composed (productions n) x) (s : State) :
    Appends s (x s).2 := by
  have hT := sequence_scan []
  have hrules := lawful_productions hT 0 n (Nat.zero_le n)
  induction h generalizing s with
  | pure a => exact .refl s
  | bind _ _ ih ih' => exact (ih s).trans (ih' _ _)
  | look same => exact (same s).symm ▸ .refl s
  | advance => exact appends_advance s
  | report problem => exact appends_report s _ _ _
  | addNode form pos stop => exact appends_push s _
  | note m => exact appends_note s m s.exhausted
  | exhaust => exact appends_note s s.moduleSyntax true
  | nested _ _ ih ih' =>
    rw [nested_eq]
    split
    · exact (appends_report s _ _ _).trans (ih' _)
    · exact (ih _).up
  | attempt _ ih => exact appends_attempt (ih s)
  | statement => exact (hrules.statement 0 [] false).appends s
  | type => exact (hrules.type 0 [] false).appends s
  | assignment => exact (hrules.assignment 0 [] false).appends s
  | binary least => exact (hrules.binary least 0 [] false).appends s
  | unary => exact (hrules.unary 0 [] false).appends s
  | newExpression => exact (hrules.newExpression 0 [] false).appends s

end Composed

/-- Going back to a mark leaves nothing of what was done since but two notes. -/
theorem Appends.rewind_eq {s t : State} (h : Appends s t) : t.rewind s.mark =
    { s with moduleSyntax := t.moduleSyntax, exhausted := t.exhausted } := by
  have harena : t.arena.take s.arena.size = s.arena := rewind_arena h.toGrows
  have herrors : t.errors.take s.errors.size = s.errors := errors_rewind h.reports
  simp only [State.rewind, State.mark, harena, herrors, h.depth]

/-- Whatever is tried, and wherever: if the attempt comes to nothing, the tokens left,
the arena, the errors, the place of the last of them and the level are those that there
were; if it comes to something, no error was added. The head of an arrow function is
among what can be tried. -/
theorem attempt_undone (n : Nat) :
    (∀ simple, Composed (productions n) (arrowHead (productions n) simple)) ∧
      ∀ {α : Type} {x : Parser (Option α)}, Composed (productions n) x → ∀ s,
        ((attempt x s).1 = none → (attempt x s).2 =
          { s with moduleSyntax := (x s).2.moduleSyntax, exhausted := (x s).2.exhausted }) ∧
        ((attempt x s).1.isSome = true → (attempt x s).2.errors = s.errors) := by
  refine ⟨Composed.arrowHead, fun {α x} hx s => ?_⟩
  have happends := hx.appends s
  rw [attempt_eq]
  split
  · rename_i hkept
    obtain ⟨hsome, hsize⟩ := Bool.and_eq_true_iff.1 hkept
    refine ⟨fun hnone => ?_, fun _ => ?_⟩
    · rw [hnone] at hsome
      cases hsome
    · apply Array.toList_inj.1
      exact (happends.reports.eq_of_length (by simpa using (beq_iff_eq.1 hsize).symm)).symm
  · exact ⟨fun _ => happends.rewind_eq, fun hsome => absurd hsome Bool.false_ne_true⟩

/-- Two attempts at the head of an arrow function. What stands before the colon of a
conditional looks like one and is given up; in front of an arrow it is kept. -/
theorem conditional_head_undone :
    ((attempt (arrowHead (productions 9) false) (.start (Lexer.scan "(a) : b;".toList).tokens)).1 =
        none ∧
      (attempt (arrowHead (productions 9) false) (.start (Lexer.scan "(a) : b;".toList).tokens)).2 =
        .start (Lexer.scan "(a) : b;".toList).tokens) ∧
    (attempt (arrowHead (productions 9) false)
        (.start (Lexer.scan "(a) : b => a;".toList).tokens)).1.isSome = true ∧
      (attempt (arrowHead (productions 9) false)
        (.start (Lexer.scan "(a) : b => a;".toList).tokens)).2.errors = #[] := by
  have hhead := (attempt_undone 9).1 false
  refine ⟨⟨by decide +kernel, ?_⟩, by decide +kernel, ?_⟩
  · refine (((attempt_undone 9).2 hhead _).1 (by decide +kernel)).trans ?_
    have hnotes : (arrowHead (productions 9) false
          (.start (Lexer.scan "(a) : b;".toList).tokens)).2.moduleSyntax = false ∧
        (arrowHead (productions 9) false
          (.start (Lexer.scan "(a) : b;".toList).tokens)).2.exhausted = false := by
      decide +kernel
    rw [hnotes.1, hnotes.2]
    rfl
  · exact ((attempt_undone 9).2 hhead _).2 (by decide +kernel)

end ScriptAnalysis.Parsing
