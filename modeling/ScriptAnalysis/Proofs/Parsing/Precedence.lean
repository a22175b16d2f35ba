import ScriptAnalysis.Proofs.Parsing.Upheld

/-!
# Operators and their operands

Operands of an operator that bind more loosely stand in parentheses, and
operators that bind alike are grouped from the left. So it is in every tree, also
that of a text with errors.

**Operands.** The rule for unary expressions gives a form that is an operand of
any operator (`finds_unary`).

**Operators.** With precedence `least`, the rule for binary expressions gives a
form that binds more tightly than `least`, and stops before a token that does not
(`Climbs`). What stands in front of an operator is what the loop had so far; it
stopped there once already, so the operator binds no more tightly.

**Result.** `SourceFile.parse_grouped`.
-/
namespace ScriptAnalysis

namespace Form

/-- Binds more loosely than all operators but assignments. -/
def isLoose : Form → Bool
  | .binary _ operator _ => operator.isAssignment
  | .conditional _ _ _ => true
  | .function .arrow _ => true
  | _ => false

/-- Binds more tightly than all operators. -/
def isTight (form : Form) : Bool :=
  !form.isOperation && !form.isLoose

/-- Can stand on the left of an operator with precedence `p`. -/
def standsLeft (p : Nat) : Form → Prop
  | .binary _ operator _ => p ≤ operator.precedence
  | form => form.isLoose = false

/-- Can stand on the right of an operator with precedence `p`. -/
def standsRight (p : Nat) : Form → Prop
  | .binary _ operator _ => p < operator.precedence
  | .asExpression _ _ => p < TokenKind.kwAs.precedence
  | form => form.isLoose = false

theorem standsRight_of_isTight {form : Form} (h : form.isTight = true) (p : Nat) :
    form.standsRight p := by
  unfold standsRight
  split
  all_goals simp_all [isTight, isOperation, isLoose]

end Form

namespace Arena

/-- The operands of the form bind tightly enough. -/
def Fits (a : Arena) : Form → Prop
  | .binary left operator right => operator.isAssignment = true ∨ 0 < operator.precedence ∧
      a.Has (Form.standsLeft operator.precedence) left ∧
      a.Has (Form.standsRight operator.precedence) right
  | .asExpression operand _ => a.Has (Form.standsLeft TokenKind.kwAs.precedence) operand
  | _ => True

/-- The operands of all nodes bind tightly enough. -/
def Grouped (a : Arena) : Prop :=
  ∀ i form, a.form? i = some form → a.Fits form

variable {a a' : Arena}

theorem Fits.grow {form : Form} (h : a.Fits form) (hgrows : a.toList <+: a'.toList) :
    a'.Fits form := by
  unfold Fits at h ⊢
  split at h
  · exact h.imp_right fun h => ⟨h.1, h.2.1.grow hgrows, h.2.2.grow hgrows⟩
  · exact h.grow hgrows
  · trivial

/-- Forms that are no operations have no operands. -/
theorem fits_of_not_isOperation {form : Form} (h : form.isOperation = false) : a.Fits form := by
  unfold Fits
  split
  · exact .inl (by simpa [Form.isOperation] using h)
  · simp [Form.isOperation] at h
  · trivial

theorem Grouped.push (h : a.Grouped) {n : Node} (hn : a.Fits n.form) :
    Arena.Grouped (a.push n) := by
  intro i form hform
  rcases form?_of_push hform with hold | hnew
  · exact (h i form hold).grow (prefix_push a n)
  · rw [hnew]
    exact hn.grow (prefix_push a n)

end Arena

namespace Parsing

/-! ## Operands -/

/-- The node is an operand of any operator. -/
def State.HasTight (s : State) (i : NodeId) : Prop :=
  s.arena.Has (·.isTight = true) i

/-- Whatever it starts from, the parser gives an operand of any operator. -/
def FindsTight {α : Type} (node : α → NodeId) (x : Parser α) : Prop :=
  ∀ s, (x s).2.HasTight (node (x s).1)

section

variable {α β : Type} {node : β → NodeId} {x : Parser NodeId} {form : Form}

theorem FindsTight.bind {x : Parser α} {f : α → Parser β} (hf : ∀ a, FindsTight node (f a)) :
    FindsTight node (x >>= f) :=
  fun s => hf (x s).1 (x s).2

theorem FindsTight.ite {p : Prop} [Decidable p] {x y : Parser β} (hx : FindsTight node x)
    (hy : FindsTight node y) : FindsTight node (if p then x else y) := by
  split
  · exact hx
  · exact hy

theorem findsTight_addNode (h : form.isTight = true) (pos stop : Nat) :
    FindsTight id (addNode form pos stop) :=
  fun s => Arena.has_push s.arena h

theorem findsTight_finish (h : form.isTight = true) (start : Nat) :
    FindsTight id (finish start form) :=
  .bind fun _ => findsTight_addNode h start _

/-- The parser keeps the operand that there is or gives a new one. -/
def TurnsTight (i : NodeId) (x : Parser (Turn NodeId)) : Prop :=
  ∀ s, s.HasTight i → (x s).2.HasTight (x s).1.value

theorem turnsTight_done (i : NodeId) : TurnsTight i (return .done i) :=
  fun _ => id

theorem TurnsTight.kind {i : NodeId} {f : TokenKind → Parser (Turn NodeId)}
    (hf : ∀ k, TurnsTight i (f k)) : TurnsTight i (Parsing.kind >>= f) :=
  fun s => hf (s.kindAt 0) s

theorem FindsTight.turns {y : Parser (Turn NodeId)} (h : FindsTight Turn.value y) (i : NodeId) :
    TurnsTight i y :=
  fun s _ => h s

theorem FindsTight.iterate {body : NodeId → Parser (Turn NodeId)} (hx : FindsTight id x)
    (hbody : ∀ i, TurnsTight i (body i)) :
    FindsTight id (x >>= fun i => iterate i body) := by
  have hloop : ∀ n i s, s.HasTight i →
      (iterateUpTo body n i s).2.HasTight (iterateUpTo body n i s).1 := by
    intro n
    induction n with
    | zero => exact fun i s hi => hi
    | succ n ih =>
      intro i s hi
      have hturn := hbody i s hi
      generalize hrun : body i s = run at hturn
      obtain ⟨turn, t⟩ := run
      cases turn with
      | again i' =>
        rw [iterateUpTo_again hrun]
        exact ih i' t hturn
      | done i' =>
        rw [iterateUpTo_done hrun]
        exact hturn
  exact fun s => hloop _ _ _ (hx s)

end

section

variable {self : Productions}

theorem findsTight_wordAsName : FindsTight id wordAsName :=
  .bind fun _ => .bind fun _ => findsTight_addNode rfl _ _

theorem findsTight_keywordNode : FindsTight id keywordNode :=
  .bind fun _ => .bind fun _ => findsTight_addNode rfl _ _

theorem findsTight_literal : FindsTight id literal := by
  refine .bind fun t => .bind fun _ => findsTight_addNode ?_ _ _
  split <;> rfl

theorem findsTight_missingName : FindsTight id missingName :=
  .bind fun _ => findsTight_addNode rfl _ _

theorem findsTight_missingExpression : FindsTight id missingExpression := by
  refine .bind fun _ s => ?_
  have hname := findsTight_missingName s
  show ((if closesConstruct _ = true then _ else _ : Parser NodeId) (missingName s).2).2.HasTight
    ((if closesConstruct _ = true then _ else _ : Parser NodeId) (missingName s).2).1
  split
  · exact hname
  · show (State.advance (missingName s).2).HasTight _
    unfold State.HasTight
    rw [advance_arena]
    exact hname

theorem findsTight_primaryExpression : FindsTight id (primaryExpression self) := by
  have hbracketed : ∀ {α β : Type} {x : Parser α} {y : Parser β} {form : α → Form},
      (∀ a, (form a).isTight = true) → FindsTight id (do
        let start ← here
        advance
        let a ← x
        let _ ← y
        finish start (form a)) := fun hform =>
    .bind fun _ => .bind fun _ => .bind fun _ => .bind fun _ => findsTight_finish (hform _) _
  refine .bind fun k => ?_
  split
  case h_1 | h_2 => exact findsTight_literal
  case h_8 => exact hbracketed fun _ => rfl
  case h_9 => exact hbracketed fun _ => rfl
  case h_10 => exact hbracketed fun _ => rfl
  case h_11 => exact .ite findsTight_wordAsName findsTight_missingExpression
  all_goals exact findsTight_keywordNode

theorem findsTight_suffixes {x : Parser NodeId} (hx : FindsTight id x) (start : Nat)
    (allowCalls : Bool) : FindsTight id (x >>= suffixes self start allowCalls) := by
  refine hx.iterate fun i => .kind fun k => ?_
  have hagain : ∀ {form : Form}, form.isTight = true →
      FindsTight Turn.value (do return .again (← finish start form)) :=
    fun hform => findsTight_finish hform start
  split
  · exact FindsTight.turns (.bind fun _ => .bind fun _ => hagain rfl) i
  · exact FindsTight.turns (.bind fun _ => .bind fun _ => .bind fun _ => hagain rfl) i
  · split
    · exact FindsTight.turns (.bind fun _ => hagain rfl) i
    · exact turnsTight_done i
  · exact turnsTight_done i

theorem findsTight_newOrPrimary (hnew : FindsTight id self.newExpression) :
    FindsTight id (newOrPrimary self) :=
  .bind fun _ => .ite hnew findsTight_primaryExpression

theorem findsTight_newExpression : FindsTight id (newExpression self) := by
  refine .bind fun _ => .bind fun _ => .bind fun _ => ?_
  refine .bind fun _ => .bind fun _ => .bind fun _ => ?_
  exact .ite (.bind fun _ => findsTight_finish rfl _) (findsTight_finish rfl _)

theorem findsTight_postfixed (hnew : FindsTight id self.newExpression) :
    FindsTight id (postfixed self) := by
  have hoperand : FindsTight id (leftHandSide self) :=
    .bind fun start => findsTight_suffixes (findsTight_newOrPrimary hnew) start true
  refine .bind fun start s => ?_
  rw [bind_run, kind_bind]
  generalize hrun : leftHandSide self s = run
  have hrun' := hoperand s
  rw [hrun] at hrun'
  show ((if _ then _ else _ : Parser NodeId) run.2).2.HasTight
    ((if _ then _ else _ : Parser NodeId) run.2).1
  split
  · exact FindsTight.bind (fun _ => findsTight_finish rfl start) run.2
  · exact hrun'

theorem findsTight_unary (hnew : FindsTight id self.newExpression) :
    FindsTight id (unary self) := by
  refine .bind fun k => ?_
  split
  case h_7 => exact findsTight_postfixed hnew
  all_goals exact .bind fun _ => .bind fun _ => .bind fun _ => findsTight_finish rfl _

theorem findsTight_productions (n : Nat) : FindsTight id (productions n).newExpression ∧
    FindsTight id (productions n).unary := by
  induction n with
  | zero => exact ⟨.bind fun _ => findsTight_missingName, .bind fun _ => findsTight_missingName⟩
  | succ n ih => exact ⟨findsTight_newExpression, findsTight_unary ih.1⟩

end

/-! ## Operators -/

/-- The token at hand joins nothing that binds more tightly than `least`. The
word `as` behind a line break joins nothing at all. -/
def State.StopsAt (s : State) (least : Nat) : Prop :=
  (s.kindAt 0).precedence ≤ least ∨ s.kindAt 0 = .kwAs ∧ (s.tokenAt 0).afterBreak = true

/-- What the loop of a binary expression has so far: it binds more tightly than
`least`, and the token at hand binds no more tightly than it. -/
def State.Joins (s : State) (least : Nat) (left : NodeId) : Prop :=
  s.arena.Has (fun form => form.standsRight least ∧ ∀ l operator r,
    form = .binary l operator r → s.StopsAt operator.precedence) left

/-- What a binary expression ends with. -/
def State.Joined (s : State) (least : Nat) (id : NodeId) : Prop :=
  s.arena.Has (Form.standsRight least) id ∧ s.StopsAt least

theorem State.HasTight.joins {s : State} {i : NodeId} (h : s.HasTight i) (least : Nat) :
    s.Joins least i := by
  refine h.imp fun form hform => ⟨Form.standsRight_of_isTight hform least, ?_⟩
  intro l operator r hbinary
  subst hbinary
  cases hassign : operator.isAssignment <;>
    simp [Form.isTight, Form.isOperation, Form.isLoose, hassign] at hform

/-- What the loop has so far can stand on the left of the operator at hand. -/
theorem State.Joins.left {s : State} {least : Nat} {left : NodeId} (h : s.Joins least left)
    (has : ¬(s.kindAt 0 = .kwAs ∧ (s.tokenAt 0).afterBreak = true)) :
    s.arena.Has (Form.standsLeft (s.kindAt 0).precedence) left := by
  refine h.imp fun form ⟨hright, hstops⟩ => ?_
  unfold Form.standsRight at hright
  split at hright
  · exact (hstops _ _ _ rfl).resolve_right has
  · rfl
  · rename_i hbinary _
    unfold Form.standsLeft
    split
    · exact absurd rfl (hbinary _ _ _)
    · exact hright

theorem State.Joins.joined {s : State} {least : Nat} {left : NodeId} (h : s.Joins least left)
    (hstops : s.StopsAt least) : s.Joined least left :=
  ⟨h.imp fun _ => And.left, hstops⟩

section

variable {I : State → Prop} (hI : Invariant I)
  (hoperation : ∀ s n, s.arena.Fits n.form → I s → I { s with arena := s.arena.push n })

include hoperation

/-- A turn that goes on with a new operation. -/
theorem ends_operation {k least : Nat} {form : Form} (start : Nat)
    (hform : form.standsRight least) {K : NodeId → State → Prop} :
    Ends (fun s => Able I k s ∧ s.arena.Fits form ∧ ∀ l operator r,
        form = .binary l operator r → s.StopsAt operator.precedence)
      (do return .again (← finish start form))
      (Turn.Leaves (fun id s => Able I k s ∧ s.Joins least id) K) := by
  intro s ⟨hs, hfits, hstops⟩
  have hI' := hoperation s ⟨form, start, s.prevStop⟩ hfits hs.holds
  exact ⟨forward_push s _, hs.same rfl rfl rfl rfl hI', Arena.has_push s.arena ⟨hform, hstops⟩⟩

include hI

omit hoperation in
/-- An operator is passed. What the loop has so far will stand on its left. -/
theorem ends_passOperator {k least : Nat} {left : NodeId} {operator : TokenKind}
    {f : Unit → Parser (Turn NodeId)} {Q : Turn NodeId → State → Prop}
    (hnext : operator ≠ .endOfFile)
    (hf : Ends (fun s => Able I k s ∧ s.arena.Has (Form.standsLeft operator.precedence) left)
      (f ()) Q) :
    Ends (fun s => ((Able I (k + 1) s ∧ s.Joins least left) ∧ s.kindAt 0 = operator) ∧
      ¬(operator = .kwAs ∧ (s.tokenAt 0).afterBreak = true)) (advance >>= f) Q := by
  refine Ends.bind (Q := fun _ s => Able I k s ∧
    s.arena.Has (Form.standsLeft operator.precedence) left) (fun s hs => ?_) fun _ => hf
  obtain ⟨⟨⟨hs, hjoins⟩, hkind⟩, has⟩ := hs
  subst hkind
  have hleft := (hjoins.left has).grow (forward_advance s).arena
  exact ⟨forward_advance s, hs.advance_less hI hnext, hleft⟩

/-- The loop of a binary expression keeps what it has so far on the left of the
operators it passes. -/
theorem ends_binary {b c : Nat} {self : Productions} (h : Ample I b self) (hc : c ≤ b + 1)
    (hunary : Upholds I c self.unary) (hoperand : FindsTight id self.unary)
    (hbinary : ∀ least, Ends (Able I b) (self.binary least) fun id s =>
      Able I b s ∧ s.Joined least id) (least : Nat) :
    Ends (Able I c) (binary self least) fun id s => Able I c s ∧ s.Joined least id := by
  have hfirst : Ends (Able I c) self.unary fun id s => Able I c s ∧ s.Joins least id :=
    fun s hs => ⟨(hunary s hs).1, (hunary s hs).2, (hoperand s).joins least⟩
  refine .look (fun _ => rfl) fun start => hfirst.bind fun first => ?_
  refine ends_iterate (J := fun left s => s.Joins least left) (K := fun id s => s.Joined least id)
    (fun left k hk => Ends.kind fun operator => ?_) first
  have hk' : k ≤ b := by omega
  refine .ite (fun hleast => ?_) fun hleast => ?_
  · refine .pure fun s hs => ⟨hs.1.1, hs.1.2.joined (.inl ?_)⟩
    rw [hs.2]
    exact hleast
  -- the end of the text binds as loosely as what is no operator
  have hnext : operator ≠ .endOfFile := by
    intro hend
    rw [hend] at hleast
    exact hleast (Nat.zero_le least)
  have hkeep : ∀ s t, Forward s t → s.arena.Has (Form.standsLeft operator.precedence) left →
      t.arena.Has (Form.standsLeft operator.precedence) left :=
    fun s t hforward hs => hs.grow hforward.arena
  refine .ite (fun has => ?_) fun has => ?_
  · have has' : operator = .kwAs := eq_of_beq has
    refine Ends.bind (Q := fun r s => ((Able I (k + 1) s ∧ s.Joins least left) ∧
      s.kindAt 0 = operator) ∧ r = (s.tokenAt 0).afterBreak) (fun s hs => ⟨.refl s, hs, rfl⟩)
      fun r => .ite (fun hr => ?_) fun hr => ?_
    · refine .pure fun s hs => ⟨hs.1.1.1, hs.1.1.2.joined (.inr ⟨hs.1.2.trans has', ?_⟩)⟩
      rw [← hs.2]
      exact hr
    · have hcast : ∀ type, (Form.asExpression left type).standsRight least := by
        intro type
        subst has'
        exact Nat.lt_of_not_le hleast
      have htype := (h.shrink hk').type.keeping hkeep
      refine (ends_passOperator hI hnext (htype.bind fun type => ?_)).weaken fun s hs =>
        ⟨hs.1, fun hbreak => hr (hs.2.trans hbreak.2)⟩
      refine (ends_operation hoperation start (hcast type)).weaken fun s hs => ⟨hs.1, ?_, nofun⟩
      subst has'
      exact hs.2
  · have hright := ((hbinary operator.precedence).shrink_and hk').keeping hkeep
    refine (ends_passOperator hI hnext (hright.bind fun right => ?_)).weaken fun s hs =>
      ⟨hs, fun hbreak => has (beq_iff_eq.2 hbreak.1)⟩
    have hform : (Form.binary left operator right).standsRight least := Nat.lt_of_not_le hleast
    refine (ends_operation hoperation start hform).weaken fun s hs =>
      ⟨hs.1.1, .inr ⟨Nat.zero_lt_of_lt hform, hs.2, hs.1.2.1⟩, fun l inner r hinner => ?_⟩
    cases hinner
    exact hs.1.2.2

end

/-! ## The recursion -/

theorem ends_productions_binary (b : Nat) : ∀ n, 3 * b ≤ n → ∀ least,
    Ends (Able (fun _ => True) b) ((productions n).binary least) fun id s =>
      Able (fun _ => True) b s ∧ s.Joined least id := by
  induction b with
  | zero =>
    intro n _ least s hs
    exact absurd hs.pos (Nat.lt_irrefl 0)
  | succ b ih =>
    intro n hn least
    obtain ⟨m, rfl⟩ : ∃ m, n = m + 3 := ⟨n - 3, by omega⟩
    exact ends_binary lenient_true.toInvariant (fun _ _ _ _ => trivial)
      (ample_productions allows_true b (m + 2) (by omega)) (Nat.le_refl _)
      (upholds_productions_unary allows_true (by omega)) (findsTight_productions _).2
      (ih (m + 2) (by omega)) least

theorem lenient_grouped : Lenient fun s => s.arena.Grouped := by
  have hmakes : ∀ form : Form, form.isOperation = false →
      Makes (fun s => s.arena.Grouped) (fun s => s.arena.Grouped) form :=
    fun form hform s _ _ hs => hs.push (Arena.fits_of_not_isOperation hform)
  refine ⟨⟨fun s hs => ?_, fun s _ _ _ hs => ?_, fun _ _ hs => hs, fun form hform => ?_⟩,
    fun s t hs _ hforward => ?_, fun _ hs => hs, hmakes⟩
  · rw [advance_arena]
    exact hs
  · rw [report_arena]
    exact hs
  · refine hmakes form ?_
    unfold Form.isPlain at hform
    simp_all
  · rw [rewind_arena hforward.toGrows]
    exact hs

theorem allows_grouped : Allows fun s => s.arena.Grouped := by
  refine lenient_grouped.allows fun b c n least hn hc h hunary => ?_
  have hbinary : ∀ least, Ends (Able (fun s => s.arena.Grouped) b) ((productions n).binary least)
      fun id s => Able (fun s => s.arena.Grouped) b s ∧ s.Joined least id := fun least s hs =>
    ⟨(h.binary least s hs).1, (h.binary least s hs).2,
      (ends_productions_binary b n hn least s { hs with holds := trivial }).2.2⟩
  exact (ends_binary lenient_grouped.toInvariant (fun _ _ hfits hs => hs.push hfits) h hc hunary
    (findsTight_productions n).2 hbinary least).imp fun _ _ => And.left

end Parsing

namespace SourceFile

/-- The operands of every operator bind tightly enough. Assignments, conditionals
and arrow functions are no operands; operators with the precedence of the one
they are operands of stand on the left only; a cast stands on the right only
where it binds more tightly. -/
structure Grouped (f : SourceFile) : Prop where
  operator : ∀ i left operator right, f.arena.form? i = some (.binary left operator right) →
    operator.isAssignment = false → 0 < operator.precedence
  left : ∀ i left operator right, f.arena.form? i = some (.binary left operator right) →
    operator.isAssignment = false → ∃ form, f.arena.form? left = some form ∧
      form.isLoose = false ∧ ∀ l inner r, form = .binary l inner r →
        operator.precedence ≤ inner.precedence
  right : ∀ i left operator right, f.arena.form? i = some (.binary left operator right) →
    operator.isAssignment = false → ∃ form, f.arena.form? right = some form ∧
      form.isLoose = false ∧
      (∀ l inner r, form = .binary l inner r → operator.precedence < inner.precedence) ∧
      ∀ e type, form = .asExpression e type → operator.precedence < TokenKind.kwAs.precedence
  operand : ∀ i e type, f.arena.form? i = some (.asExpression e type) →
    ∃ form, f.arena.form? e = some form ∧ form.isLoose = false ∧
      ∀ l inner r, form = .binary l inner r → 4 ≤ inner.precedence

end SourceFile

/-- Assignments have no precedence. -/
theorem TokenKind.isAssignment_of_precedence_pos {k : TokenKind} (h : 0 < k.precedence) :
    k.isAssignment = false := by
  unfold isAssignment
  split
  all_goals first | rfl | exact absurd h (Nat.lt_irrefl 0)

namespace Form

variable {form : Form} {p : Nat}

theorem isLoose_of_standsLeft (h : form.standsLeft p) (hp : 0 < p) : form.isLoose = false := by
  unfold standsLeft at h
  split at h
  · exact TokenKind.isAssignment_of_precedence_pos (hp.trans_le h)
  · exact h

theorem isLoose_of_standsRight (h : form.standsRight p) : form.isLoose = false := by
  unfold standsRight at h
  split at h
  · exact TokenKind.isAssignment_of_precedence_pos (Nat.zero_lt_of_lt h)
  · rfl
  · exact h

end Form

namespace SourceFile

/-- Whatever the text is, operators are grouped by their precedence and from the
left, also in operands with errors. -/
theorem parse_grouped (name : String) (text : List Char) : (parse name text).Grouped := by
  obtain ⟨b, hable⟩ := Parsing.able_parseTokens Parsing.allows_grouped
    (Parsing.sequence_scan text).ends
    fun i form hform => by simp [Parsing.State.start, Arena.form?] at hform
  have hfits : ∀ i form, (parse name text).arena.form? i = some form →
      (parse name text).arena.Fits form := hable.holds
  have hbinary : ∀ i left operator right,
      (parse name text).arena.form? i = some (.binary left operator right) →
      operator.isAssignment = false → 0 < operator.precedence ∧
        (parse name text).arena.Has (Form.standsLeft operator.precedence) left ∧
        (parse name text).arena.Has (Form.standsRight operator.precedence) right :=
    fun i left operator right hi hassign =>
      (hfits i _ hi).resolve_left (Bool.eq_false_iff.1 hassign)
  refine ⟨fun i left operator right hi hassign => (hbinary i left operator right hi hassign).1,
    fun i left operator right hi hassign => ?_, fun i left operator right hi hassign => ?_,
    fun i e type hi => ?_⟩
  · obtain ⟨hpos, ⟨form, hform, hleft⟩, -⟩ := hbinary i left operator right hi hassign
    refine ⟨form, hform, Form.isLoose_of_standsLeft hleft hpos, fun l inner r hinner => ?_⟩
    subst hinner
    exact hleft
  · obtain ⟨-, -, form, hform, hright⟩ := hbinary i left operator right hi hassign
    refine ⟨form, hform, Form.isLoose_of_standsRight hright, fun l inner r hinner => ?_,
      fun e type hcast => ?_⟩
    · subst hinner
      exact hright
    · subst hcast
      exact hright
  · obtain ⟨form, hform, hleft⟩ := hfits i _ hi
    refine ⟨form, hform, Form.isLoose_of_standsLeft hleft (by decide), fun l inner r hinner => ?_⟩
    subst hinner
    exact hleft

/-- Two operators of one precedence are grouped from the left. -/
example : (parse "/a.ts" "a - b - c".toList).arena.form? 4 = some (.binary 2 .minus 3) := by
  decide +kernel

end SourceFile

end ScriptAnalysis
