import ScriptAnalysis.SourceFile
import ScriptAnalysis.Proofs.Parsing.Steps
import ScriptAnalysis.Proofs.Token.Gap

/-!
# A name behind exclamation marks

A text in which expressions nest as deep as one likes: `n` exclamation marks and
a name behind them. It is followed through the lexer and through every rule of
the grammar that it comes by, so that its tree is known for every `n`.

**Steps.** `Lexer.scanFrom_negations` by induction on the marks, with one token
for each. `Parsing.unary_negations` by induction again: the rule for unary
operators passes one mark, reads the rest and adds one node. The rules around it
(`binary`, `assignment`, `statement`) are each run once.

**Result.** `SourceFile.parse_negations`.
-/
namespace ScriptAnalysis

open Parsing

/-- The tokens of a name behind `n` exclamation marks, from an offset on. -/
def Token.negations : Nat → Nat → List Token
  | 0, start =>
    [⟨.identifier, start, start + 1, false, some "x"⟩,
      ⟨.endOfFile, start + 1, start + 1, false, none⟩]
  | n + 1, start => ⟨.exclamation, start, start + 1, false, none⟩ :: Token.negations n (start + 1)

theorem Token.length_negations (n start : Nat) : (Token.negations n start).length = n + 2 := by
  induction n generalizing start with
  | zero => rfl
  | succ n ih => exact congrArg (· + 1) (ih (start + 1))

/-- The nodes of a name behind `n` exclamation marks, behind `size` others. -/
def Form.negations (size n : Nat) : List Form :=
  .identifier "x" :: (List.range n).map fun i => .prefixUnary .exclamation (size + i)

namespace Form

@[simp] theorem length_negations (size n : Nat) : (negations size n).length = n + 1 := by
  simp [negations]

theorem negations_succ (size n : Nat) :
    negations size (n + 1) = negations size n ++ [.prefixUnary .exclamation (size + n)] := by
  simp [negations, List.range_succ]

end Form

/-! ## Tokens -/

namespace Lexer

theorem lexeme_exclamation {c : Char} (hc : c ≠ '=') (cs : List Char) :
    lexeme '!' (c :: cs) = ⟨.exclamation, none, 1, c :: cs, none⟩ := by
  have hmark : mark? ('!' :: c :: cs) = some .exclamation := by
    simp [mark?, TokenKind.marks, TokenKind.text, List.isPrefixOf, hc.symm]
  have hnumber : startsNumber ('!' :: c :: cs) = false := rfl
  have hname : Text.isNameStart '!' = false := by decide
  rw [lexeme, if_neg (by decide), hnumber, if_neg Bool.false_ne_true, hname,
    if_neg Bool.false_ne_true, hmark]
  rfl

theorem lexeme_name : lexeme 'x' [] = ⟨.identifier, some "x", 1, [], none⟩ := by
  rfl

theorem scanFrom_negations {n fuel start : Nat} (hfuel : n + 2 ≤ fuel) :
    scanFrom fuel start (List.replicate n '!' ++ ['x']) = ⟨Token.negations n start, []⟩ := by
  induction n generalizing fuel start with
  | zero =>
    obtain ⟨fuel, rfl⟩ := Nat.exists_eq_add_of_le' hfuel
    have hgap : skipGap .blank start false ['x'] = ⟨['x'], start, false, none⟩ :=
      skipGap_of_not_opensGap (List.cons_ne_nil _ _) (by decide) start false
    rw [List.replicate_zero, List.nil_append, scanFrom, hgap]
    dsimp only
    rw [lexeme_name]
    rfl
  | succ n ih =>
    obtain ⟨fuel, rfl⟩ := Nat.exists_eq_add_of_le' (Nat.le_of_add_left_le hfuel : 1 ≤ fuel)
    obtain ⟨c, cs, hcs, hc⟩ : ∃ c cs, List.replicate n '!' ++ ['x'] = c :: cs ∧ c ≠ '=' := by
      cases n with
      | zero => exact ⟨'x', [], rfl, by decide⟩
      | succ n => exact ⟨'!', _, rfl, by decide⟩
    have hgap : skipGap .blank start false ('!' :: c :: cs) = ⟨'!' :: c :: cs, start, false, none⟩ :=
      skipGap_of_not_opensGap (List.cons_ne_nil _ _) rfl start false
    have hrest : scanFrom fuel (start + 1) (c :: cs) = ⟨Token.negations n (start + 1), []⟩ :=
      hcs ▸ ih (Nat.le_of_succ_le_succ hfuel)
    rw [List.replicate_succ, List.cons_append, hcs, scanFrom, hgap]
    dsimp only
    rw [lexeme_exclamation hc]
    dsimp only
    rw [hrest]
    rfl

end Lexer

/-! ## The tree -/

namespace Parsing

namespace State

/-- The state with `n` exclamation marks and a name left to read. -/
def atNegations (s : State) (n start : Nat) : State :=
  { s with rest := Token.negations n start, remaining := n + 2 }

/-- The state when all is read up to `stop` and the tree has grown. -/
def atEnd (s : State) (stop : Nat) (arena : Arena) : State :=
  { s with
    rest := [⟨.endOfFile, stop, stop, false, none⟩]
    remaining := 1
    prevStop := stop
    arena }

end State

/-- The parser reads all of `n` exclamation marks and a name, and adds their
nodes to the tree. -/
def ReadsNegations (n start : Nat) (x : Parser NodeId) (s : State) : Prop :=
  ∃ arena : Arena,
    arena.toList.map (·.form) = s.arena.toList.map (·.form) ++ Form.negations s.arena.size n ∧
      x (s.atNegations n start) = (s.arena.size + n, s.atEnd (start + n + 1) arena)

theorem size_of_negations {n : Nat} {old new : Arena}
    (h : new.toList.map (·.form) = old.toList.map (·.form) ++ Form.negations old.size n) :
    new.size = old.size + n + 1 := by
  have hlength := congrArg List.length h
  simpa [Nat.add_assoc] using hlength

variable (fuel start n : Nat)

theorem unary_negations (s : State) :
    ReadsNegations n start (productions (fuel + n + 1)).unary s := by
  induction n generalizing start s with
  | zero =>
    exact ⟨s.arena.push ⟨.identifier "x", start, start + 1⟩, by simp [Form.negations], rfl⟩
  | succ n ih =>
    obtain ⟨arena, hforms, hoperand⟩ := ih (start + 1) { s with prevStop := start + 1 }
    have hprefixed : unary (productions (fuel + n + 1)) (s.atNegations (n + 1) start) =
        prefixed (productions (fuel + n + 1)) .exclamation (s.atNegations (n + 1) start) := rfl
    have hpassed : (advance (s.atNegations (n + 1) start)).2 =
        { s with prevStop := start + 1 }.atNegations n (start + 1) := rfl
    have hsize := size_of_negations hforms
    refine ⟨arena.push ⟨.prefixUnary .exclamation (s.arena.size + n), start, start + (n + 1) + 1⟩,
      ?_, ?_⟩
    · rw [Array.toList_push, List.map_append, hforms, Form.negations_succ, List.append_assoc]
      rfl
    · change unary (productions (fuel + n + 1)) (s.atNegations (n + 1) start) = _
      rw [hprefixed]
      unfold prefixed
      rw [here_bind, bind_run, hpassed, bind_run, hoperand, ← Nat.add_assoc s.arena.size, ← hsize,
        Nat.add_right_comm start 1 n]
      rfl

theorem binary_negations (s : State) :
    ReadsNegations n start ((productions (fuel + n + 2)).binary 0) s := by
  obtain ⟨arena, hforms, hunary⟩ := unary_negations fuel start n s
  refine ⟨arena, hforms, ?_⟩
  change binary (productions (fuel + n + 1)) 0 (s.atNegations n start) = _
  unfold binary
  rw [here_bind, bind_run, hunary]
  rfl

/-- Behind at least one mark, so that the name is no parameter of an arrow
function. -/
theorem assignment_negations {s : State} (h : s.depth < maxDepth) :
    ReadsNegations (n + 1) start (productions (fuel + (n + 1) + 3)).assignment s := by
  obtain ⟨arena, hforms, hbinary⟩ := binary_negations fuel start (n + 1) s.deeper
  have harrow : arrowFunction (productions (fuel + (n + 1) + 2))
      (s.atNegations (n + 1) start).deeper = (none, s.deeper.atNegations (n + 1) start) := rfl
  refine ⟨arena, hforms, ?_⟩
  change assignment (productions (fuel + (n + 1) + 2)) (s.atNegations (n + 1) start) = _
  unfold assignment
  rw [nested_run (s := s.atNegations (n + 1) start) h, bind_run, harrow]
  dsimp only
  unfold assignmentOrTighter
  rw [here_bind, bind_run, hbinary]
  rfl

theorem statement_negations {s : State} (h : s.depth + 1 < maxDepth) :
    ∃ arena : Arena,
      arena.toList.map (·.form) = s.arena.toList.map (·.form) ++
        (Form.negations s.arena.size (n + 1) ++ [.expressionStatement (s.arena.size + (n + 1))]) ∧
      (productions (fuel + (n + 1) + 4)).statement (s.atNegations (n + 1) start) =
        (some (s.arena.size + (n + 1) + 1), s.atEnd (start + (n + 1) + 1) arena) := by
  obtain ⟨arena, hforms, hexpression⟩ := assignment_negations fuel start n (s := s.deeper) h
  have hany : anyStatement (productions (fuel + (n + 1) + 3)) (s.atNegations (n + 1) start).deeper =
      (expressionStatement (productions (fuel + (n + 1) + 3)) >>= fun i => pure (some i))
        (s.deeper.atNegations (n + 1) start) := by
    unfold anyStatement
    rw [kind_bind]
    change (get >>= fun s => if startsDeclaration s.rest = true then _ else _ :
      Parser (Option NodeId)) _ = _
    rw [get_bind, if_neg (by exact Bool.false_ne_true)]
    rfl
  refine ⟨arena.push ⟨.expressionStatement (s.arena.size + (n + 1)), start, start + (n + 1) + 1⟩,
    ?_, ?_⟩
  · rw [Array.toList_push, List.map_append, hforms, List.append_assoc]
    rfl
  · change statement (productions (fuel + (n + 1) + 3)) (s.atNegations (n + 1) start) = _
    unfold statement
    rw [nested_run (s := s.atNegations (n + 1) start) (Nat.lt_of_succ_lt h), hany, bind_run]
    unfold expressionStatement
    rw [here_bind, bind_run, hexpression]
    have hsize := size_of_negations hforms
    change arena.size = s.arena.size + (n + 1) + 1 at hsize
    rw [← hsize]
    rfl

/-- A list of one statement. -/
theorem statementsUntil_one {self : Productions} {stops : TokenKind → Bool} {s s' : State}
    {i : NodeId} (hfirst : stops (s.kindAt 0) = false) (hstatement : self.statement s = (some i, s'))
    (hless : s'.remaining < s.remaining) (hlast : stops (s'.kindAt 0) = true) :
    statementsUntil self stops s = ([i], s') := by
  obtain ⟨k, hk⟩ := Nat.exists_eq_add_of_lt hless
  have hpassed : (s'.remaining == s.remaining) = false := beq_false_of_ne (Nat.ne_of_lt hless)
  unfold statementsUntil iterate
  rw [get_bind, hk]
  refine (iterateUpTo_again (?_ : _ = (Turn.again [i], s')) _).trans (iterateUpTo_done ?_ _)
  · rw [kind_bind, hfirst, if_neg Bool.false_ne_true, remaining_bind, bind_run, hstatement,
      remaining_bind, hpassed, if_neg Bool.false_ne_true]
    rfl
  · rw [kind_bind, hlast, if_pos rfl]
    rfl

theorem file_negations :
    ∃ arena : Arena,
      arena.toList.map (·.form) = Form.negations 0 (n + 1) ++
        [.expressionStatement (n + 1), .sourceFile [n + 1 + 1]] ∧
      file (productions (fuel + (n + 1) + 4)) ((State.start []).atNegations (n + 1) 0) =
        (n + 1 + 2, (State.start []).atEnd (n + 1 + 1) arena) := by
  obtain ⟨arena, hforms, hstatement⟩ :=
    statement_negations fuel 0 n (s := State.start []) (by decide)
  have hsize : arena.size = n + 1 + 2 := by
    have hlength := congrArg List.length hforms
    simpa [State.start] using hlength
  have hstatements : statementsUntil (productions (fuel + (n + 1) + 4)) (· == .endOfFile)
      ((State.start []).atNegations (n + 1) 0) =
        ([0 + (n + 1) + 1], (State.start []).atEnd (0 + (n + 1) + 1) arena) :=
    statementsUntil_one rfl hstatement (Nat.succ_lt_succ (Nat.succ_pos _)) rfl
  refine ⟨arena.push ⟨.sourceFile [0 + (n + 1) + 1], 0, 0 + (n + 1) + 1⟩, ?_, ?_⟩
  · rw [Array.toList_push, List.map_append, hforms]
    simp [State.start]
  · unfold file
    rw [bind_run, hstatements, ← hsize]
    simp only [Nat.zero_add]
    rfl

end Parsing

namespace SourceFile

/-- The tree of the file is a name behind `n` exclamation marks. -/
structure Negates (f : SourceFile) (n : Nat) : Prop where
  root : f.root = n + 2
  forms : f.arena.toList.map (·.form) =
    Form.negations 0 n ++ [.expressionStatement n, .sourceFile [n + 1]]

namespace Negates

variable {f : SourceFile} {n i : Nat} (h : f.Negates n)

include h

theorem form? (i : NodeId) : f.arena.form? i =
    (Form.negations 0 n ++ [.expressionStatement n, .sourceFile [n + 1]])[i]? := by
  rw [← h.forms, List.getElem?_map, Array.getElem?_toList]
  rfl

theorem negation (hi : i < n) :
    f.arena.form? (i + 1) = some (.prefixUnary .exclamation i) := by
  rw [h.form?, List.getElem?_append_left (by rw [Form.length_negations]; omega)]
  unfold Form.negations
  rw [List.getElem?_cons_succ, List.getElem?_map, List.getElem?_range hi, Option.map_some,
    Nat.zero_add]

theorem statement : f.arena.form? (n + 1) = some (.expressionStatement n) := by
  rw [h.form?]
  simp

theorem statements : f.statements = [n + 1] := by
  unfold SourceFile.statements
  rw [h.root, h.form?]
  simp

end Negates

/-- Exclamation marks before a name, as many as one likes, are a file without
errors, and its tree is known. -/
theorem parse_negations (name : String) (n : Nat) :
    (parse name (List.replicate (n + 1) '!' ++ ['x'])).errors = [] ∧
      (parse name (List.replicate (n + 1) '!' ++ ['x'])).Negates (n + 1) := by
  have hscan : Lexer.scan (List.replicate (n + 1) '!' ++ ['x']) =
      ⟨Token.negations (n + 1) 0, []⟩ :=
    Lexer.scanFrom_negations (by simp)
  obtain ⟨fuel, hfuel⟩ : ∃ fuel, nestingBound (n + 1 + 2) = fuel + (n + 1) + 4 :=
    ⟨3 * n + 4 * maxDepth + 15, by unfold nestingBound; omega⟩
  obtain ⟨arena, hforms, hfile⟩ := file_negations fuel n
  have hparse : parseTokens (Token.negations (n + 1) 0) =
      (n + 1 + 2, (State.start []).atEnd (n + 1 + 1) arena) := by
    rw [← hfile, ← hfuel]
    unfold parseTokens State.start
    rw [Token.length_negations]
    rfl
  unfold parse
  rw [hscan]
  dsimp only
  rw [hparse]
  exact ⟨rfl, rfl, hforms⟩

end SourceFile

end ScriptAnalysis
