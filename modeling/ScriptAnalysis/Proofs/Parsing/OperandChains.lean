import ScriptAnalysis.Proofs.Parsing.Forest
import ScriptAnalysis.Proofs.Parsing.Negations
import ScriptAnalysis.Proofs.Parsing.Traced

/-!
# Operands of operands

How deep can prefix operators, `typeof` and `new` stand in each other, each the
operand or callee of the one around it? The rules for them call each other directly
and count no level, so `maxDepth` says nothing about it.

**The bound.** Every such node uses up a token of its own. `State.operators` counts
the nodes that there are and the tokens that can still lead to one, and no step lets
that grow (`Trace.operators`); an attempt that is given up takes its nodes back with
the tokens it has passed. Since the operand of a node stands before it in the arena,
the nodes of a chain are all different (`Arena.OperandChain.le`).

**Results.** `SourceFile.operandChain_bound`: a chain is at most as long as there are
such tokens in the text, and for every length there is a text without errors with a
chain that long. `SourceFile.operands_beyond_maxDepth`: so a chain can be longer than
`maxDepth`.
-/
namespace ScriptAnalysis

namespace Form

theorem operand?_of_isFree {form : Form} (h : form.isFree = true) : form.operand? = none := by
  cases form <;> first | rfl | cases h

theorem operand?_of_body? {form : Form} {body : Option NodeId} (h : form.body? = some body) :
    form.operand? = none := by
  cases form <;> first | rfl | cases h

theorem mem_children_of_operand? {form : Form} {i : NodeId} (h : form.operand? = some i) :
    i ∈ form.children := by
  cases form <;> cases h <;> simp [children]

end Form

namespace Arena

/-- What the node stands in front of, if it is an operator, `typeof` or `new`. -/
def operand? (a : Arena) (i : NodeId) : Option NodeId :=
  (a.form? i).bind Form.operand?

/-- `k` nodes from `i` on are each the operand or callee of the one before. -/
def OperandChain (a : Arena) : Nat → NodeId → Prop
  | 0, _ => True
  | k + 1, i => ∃ j, a.operand? i = some j ∧ a.OperandChain k j

/-- How many nodes of the list stand in front of an operand or a callee. -/
def operators (nodes : List Node) : Nat :=
  nodes.countP fun n => n.form.operand?.isSome

theorem operators_concat (nodes : List Node) (n : Node) :
    operators (nodes ++ [n]) = operators nodes + if n.form.operand?.isSome then 1 else 0 := by
  simp [operators, List.countP_append, List.countP_cons]

/-- Where operands stand before what they are the operands of, the nodes of a chain are
all different. -/
theorem OperandChain.le {a : Arena} (hbelow : ∀ i, ∀ c ∈ a.children i, c < i) {k : Nat}
    {i : NodeId} (h : a.OperandChain k i) : k ≤ operators (a.toList.take (i + 1)) := by
  induction k generalizing i with
  | zero => exact Nat.zero_le _
  | succ k ih =>
    obtain ⟨j, hj, hrest⟩ := h
    obtain ⟨form, hform, hoperand⟩ := Option.bind_eq_some_iff.1 hj
    obtain ⟨n, hn, rfl⟩ := Option.map_eq_some_iff.1 hform
    have hless : j < i := by
      refine hbelow i j ?_
      rw [children_of_getElem? hn]
      exact Form.mem_children_of_operand? hoperand
    have hfirst : operators (a.toList.take (j + 1)) ≤ operators (a.toList.take i) :=
      (List.take_sublist_take_left (Nat.succ_le_of_lt hless)).countP_le
    have hlast : a.toList.take (i + 1) = a.toList.take i ++ [n] := by
      rw [List.take_add_one, Array.getElem?_toList, hn]
      rfl
    rw [hlast, operators_concat, hoperand]
    have := ih hrest
    simp only [Option.isSome_some, if_true]
    omega

end Arena

namespace Parsing

/-- The nodes that stand in front of an operand or a callee, and the tokens that can
still become one. -/
def State.operators (s : State) : Nat :=
  Arena.operators s.arena.toList + s.rest.countP fun t => t.kind.takesOperand

section

variable {s t : State}

theorem operators_advance (s : State) : s.advance.operators ≤ s.operators := by
  by_cases hnext : s.kindAt 0 = .endOfFile
  · exact (advance_at_end hnext).symm ▸ Nat.le_refl _
  · obtain ⟨rest, hrest, hadvance⟩ := advance_next hnext
    unfold State.operators
    rw [hadvance, hrest]
    exact Nat.add_le_add_left ((List.sublist_cons_self _ _).countP_le) _

/-- The token in front of an operand is one less. -/
theorem operators_advance_operator (h : (s.kindAt 0).takesOperand = true) :
    s.advance.operators + 1 ≤ s.operators := by
  have hnext : s.kindAt 0 ≠ .endOfFile := by
    intro hend
    rw [hend] at h
    exact Bool.noConfusion h
  obtain ⟨rest, hrest, hadvance⟩ := advance_next hnext
  unfold State.operators
  rw [hadvance, hrest, List.countP_cons_of_pos (by exact h)]
  exact Nat.le_of_eq (Nat.add_assoc _ _ _)

theorem operators_push (s : State) (form : Form) (pos stop : Nat) :
    (s.push form pos stop).operators =
      s.operators + if form.operand?.isSome then 1 else 0 := by
  unfold State.operators State.push
  rw [Array.toList_push, Arena.operators_concat]
  exact Nat.add_right_comm _ _ _

theorem operators_push_other {form : Form} (h : form.operand? = none) (s : State)
    (pos stop : Nat) : (s.push form pos stop).operators = s.operators := by
  rw [operators_push, h]
  rfl

theorem Trace.operators (h : Trace s t) : t.operators ≤ s.operators := by
  induction h with
  | refl => exact Nat.le_refl _
  | trans _ _ ih ih' => exact ih'.trans ih
  | pass _ | skip _ => exact operators_advance _
  | report s p =>
    unfold State.report
    split <;> exact Nat.le_refl _
  | note | exhaust => exact Nat.le_refl _
  | word => exact (operators_push_other rfl _ _ _).trans_le (operators_advance _)
  | missing => exact (operators_push_other rfl _ _ _).le
  | node s hfree => exact (operators_push_other (Form.operand?_of_isFree hfree) _ _ _).le
  | closed hbody => exact (operators_push_other (Form.operand?_of_body? hbody) _ _ _).le
  | operator hnext _ htakes _ _ ih =>
    have hadvance := operators_advance_operator hnext
    rw [operators_push, if_pos htakes]
    omega
  | otherwise _ _ _ _ _ _ _ ih =>
    exact (operators_push_other rfl _ _ _).trans_le (ih.trans (operators_advance _))
  | nested _ ih => exact ih
  | @abandoned s t attempt _ =>
    unfold State.operators
    rw [rewind_arena attempt.forward.toGrows]
    exact Nat.le_refl _

end

end Parsing

namespace SourceFile

open Parsing

/-- How many tokens of a text stand in front of an operand or a callee. -/
def operatorTokens (text : List Char) : Nat :=
  (Lexer.scan text).tokens.countP fun t => t.kind.takesOperand

theorem operandChain_le (name : String) (text : List Char) {k : Nat} {i : NodeId}
    (h : (parse name text).arena.OperandChain k i) : k ≤ operatorTokens text := by
  have hle := h.le (forest_parse name text).below
  have hall : Arena.operators ((parse name text).arena.toList.take (i + 1)) ≤
      Arena.operators (parse name text).arena.toList :=
    (List.take_sublist _ _).countP_le
  have htrace := (trace_parseTokens (Lexer.scan text).tokens).operators
  have hstart : (State.start (Lexer.scan text).tokens).operators = operatorTokens text := by
    unfold State.operators Arena.operators State.start
    exact Nat.zero_add _
  have hend : Arena.operators (parse name text).arena.toList ≤
      (parseTokens (Lexer.scan text).tokens).2.operators := Nat.le_add_right _ _
  omega

theorem Negates.operandChain {f : SourceFile} {n k : Nat} (h : f.Negates n) (hk : k ≤ n) :
    f.arena.OperandChain k k := by
  induction k with
  | zero => trivial
  | succ k ih =>
    refine ⟨k, ?_, ih (by omega)⟩
    unfold Arena.operand?
    rw [h.negation (by omega)]
    rfl

theorem operatorTokens_negations (n : Nat) :
    operatorTokens (List.replicate (n + 1) '!' ++ ['x']) = n + 1 := by
  have hcount : ∀ n start, (Token.negations n start).countP (fun t => t.kind.takesOperand) = n := by
    intro n
    induction n with
    | zero => exact fun _ => rfl
    | succ n ih =>
      intro start
      rw [Token.negations, List.countP_cons_of_pos rfl, ih]
  unfold operatorTokens Lexer.scan
  rw [Lexer.scanFrom_negations (by simp)]
  exact hcount (n + 1) 0

/-- The nodes that are directly nested as operands and callees are at most as many as
the tokens of the text that can stand in front of one, and nothing else bounds them:
for every number there is a text with that many such tokens that is parsed without
errors and has all of them nested. -/
theorem operandChain_bound (name : String) :
    (∀ text k i, (parse name text).arena.OperandChain k i → k ≤ operatorTokens text) ∧
      ∀ n, ∃ text i, (parse name text).errors = [] ∧
        (parse name text).arena.OperandChain (n + 1) i ∧ operatorTokens text = n + 1 := by
  refine ⟨fun text k i h => operandChain_le name text h, fun n => ?_⟩
  obtain ⟨hclean, hnegates⟩ := parse_negations name n
  exact ⟨_, n + 1, hclean, hnegates.operandChain (Nat.le_refl _), operatorTokens_negations n⟩

/-- With one exclamation mark more than levels are allowed the text has no errors, and
its one statement is an expression with that many nodes, each the operand of the one
before. -/
theorem operands_beyond_maxDepth :
    maxDepth < 401 ∧
      (parse "/a.ts" (List.replicate 401 '!' ++ ['x'])).errors = [] ∧
      (parse "/a.ts" (List.replicate 401 '!' ++ ['x'])).statements = [402] ∧
      (parse "/a.ts" (List.replicate 401 '!' ++ ['x'])).arena.form? 402 =
        some (.expressionStatement 401) ∧
      (parse "/a.ts" (List.replicate 401 '!' ++ ['x'])).arena.OperandChain 401 401 := by
  obtain ⟨hclean, hnegates⟩ := parse_negations "/a.ts" 400
  exact ⟨by decide, hclean, hnegates.statements, hnegates.statement,
    hnegates.operandChain (Nat.le_refl _)⟩

end SourceFile

end ScriptAnalysis
