import ScriptAnalysis.Parsing.Productions
import ScriptAnalysis.Proofs.Ast.Forest

/-!
# What parsers do to the arena

A parser holds some nodes, its roots, until it makes them the children of a
new node. `Builds given x gives` says what a parser takes and leaves: when it
starts with the roots `given`, it ends with the roots `gives r`, where `r` is
its result. Whatever other roots there are, it leaves them alone, and so it
does all nodes that are already in the arena.

The second half is what an abandoned attempt relies on: its nodes stand
behind those that were there before, so dropping them gives the old arena.

**Rules.** `Builds.bind` and `Builds.more` for sequences, where `more` keeps
roots back for later; `Builds.finish` for a node that takes all roots for its
children; `builds_iterate` for loops; `builds_attempt` for attempts. A parser
that adds no nodes is `Idle`.
-/
namespace ScriptAnalysis.Parsing

/-- Started with the roots `given` the parser ends with the roots `gives r`,
where `r` is its result; it keeps other roots and adds nodes at the end of the
arena only. -/
def Builds {α : Type} (given : List NodeId) (x : Parser α) (gives : α → List NodeId) : Prop :=
  ∀ held s, s.arena.Forest (held ++ given) →
    (x s).2.arena.Forest (held ++ gives (x s).1) ∧ s.arena.toList <+: (x s).2.arena.toList

/-- The parser adds no nodes. -/
def Idle {α : Type} (x : Parser α) : Prop :=
  Builds [] x fun _ => []

/-- The parser gives a new node. -/
def BuildsOne (x : Parser NodeId) : Prop :=
  Builds [] x fun id => [id]

/-- The parser gives a new node or none. -/
def BuildsOption (x : Parser (Option NodeId)) : Prop :=
  Builds [] x Option.toList

/-- The parser gives new nodes. -/
def BuildsList (x : Parser (List NodeId)) : Prop :=
  Builds [] x id

section

variable {α β : Type} {given : List NodeId} {x : Parser α} {f : α → Parser β}
  {mid : α → List NodeId} {gives : β → List NodeId}

/-! ## Sequences -/

/-- A step that is not taken. Roots may be forgotten. -/
theorem Builds.pure {b : β} (h : (gives b).Sublist given) :
    Builds given (Pure.pure b : Parser β) gives :=
  fun held _ hs => ⟨hs.sublist (h.append_left held), List.prefix_refl _⟩

/-- The next parser starts with the roots that the one before has left. -/
theorem Builds.bind_gives (hx : Builds given x mid)
    (hf : ∀ a, (∃ s, (x s).1 = a) → Builds (mid a) (f a) gives) :
    Builds given (x >>= f) gives := by
  intro held s hs
  obtain ⟨hroots, hold⟩ := hx held s hs
  obtain ⟨hroots', hold'⟩ := hf (x s).1 ⟨s, rfl⟩ held (x s).2 hroots
  exact ⟨hroots', hold.trans hold'⟩

theorem Builds.bind (hx : Builds given x mid) (hf : ∀ a, Builds (mid a) (f a) gives) :
    Builds given (x >>= f) gives :=
  hx.bind_gives fun a _ => hf a

/-- Roots may be held back. -/
theorem Builds.hold (hx : Builds given x mid) (back : List NodeId) :
    Builds (back ++ given) x fun a => back ++ mid a := by
  intro held s hs
  rw [← List.append_assoc] at hs ⊢
  exact hx (held ++ back) s hs

/-- A parser that starts without roots adds its own to those that there are. -/
theorem Builds.more (hx : Builds [] x mid) (hf : ∀ a, Builds (given ++ mid a) (f a) gives) :
    Builds given (x >>= f) gives := by
  have h := (hx.hold given).bind hf
  rwa [List.append_nil] at h

theorem Idle.bind (hx : Idle x) (hf : ∀ a, Builds given (f a) gives) :
    Builds given (x >>= f) gives :=
  Builds.more hx fun a => by
    rw [List.append_nil]
    exact hf a

theorem Builds.pure_bind {a : α} (h : Builds given (f a) gives) :
    Builds given (Pure.pure a >>= f) gives :=
  h

theorem Builds.ite {p : Prop} [Decidable p] {y : Parser β} {z : Parser β}
    (hy : p → Builds given y gives) (hz : ¬ p → Builds given z gives) :
    Builds given (if p then y else z) gives := by
  split
  · exact hy ‹_›
  · exact hz ‹_›

/-! ## Parsers that add no nodes -/

theorem Idle.of_same (h : ∀ s, (x s).2.arena = s.arena) : Idle x := by
  intro held s hs
  rw [h s]
  exact ⟨hs, List.prefix_refl _⟩

theorem Idle.pure (a : α) : Idle (Pure.pure a : Parser α) :=
  .of_same fun _ => rfl

theorem Idle.get : Idle (MonadState.get : Parser State) :=
  .of_same fun _ => rfl

end

theorem advance_arena (s : State) : s.advance.arena = s.arena := by
  unfold State.advance
  split
  · rfl
  · split <;> rfl

theorem report_arena (s : State) (start length : Nat) (p : Problem) :
    (s.report start length p).arena = s.arena := by
  unfold State.report
  split <;> rfl

theorem idle_token : Idle token := .of_same fun _ => rfl

theorem idle_kind : Idle kind := .of_same fun _ => rfl

theorem idle_ahead (n : Nat) : Idle (ahead n) := .of_same fun _ => rfl

theorem idle_isAt (k : TokenKind) : Idle (isAt k) := .of_same fun _ => rfl

theorem idle_afterBreak : Idle afterBreak := .of_same fun _ => rfl

theorem idle_here : Idle here := .of_same fun _ => rfl

theorem idle_prevStop : Idle prevStop := .of_same fun _ => rfl

theorem idle_remaining : Idle remaining := .of_same fun _ => rfl

theorem idle_advance : Idle advance := .of_same advance_arena

theorem idle_report (p : Problem) : Idle (report p) := .of_same fun s => report_arena s _ _ p

theorem idle_exhaust : Idle exhaust := .of_same fun _ => rfl

theorem idle_accept (k : TokenKind) : Idle (accept k) :=
  (idle_isAt k).bind fun _ => .ite (fun _ => idle_advance.bind fun _ => Idle.pure _) fun _ => Idle.pure _

theorem idle_expect (k : TokenKind) : Idle (expect k) :=
  (idle_accept k).bind fun _ =>
    .ite (fun _ => Idle.pure _) fun _ => (idle_report _).bind fun _ => Idle.pure _

theorem idle_canEndStatement : Idle canEndStatement := by
  refine idle_kind.bind fun k => ?_
  split
  · exact Idle.pure _
  · exact Idle.pure _
  · exact Idle.pure _
  · exact idle_afterBreak

theorem idle_endStatement : Idle endStatement := by
  refine (idle_accept _).bind fun _ => .ite (fun _ => Idle.pure _) fun _ => ?_
  exact idle_canEndStatement.bind fun _ => .ite (fun _ => Idle.pure _) fun _ => idle_report _

/-! ## Nodes -/

section

variable {given : List NodeId} {form : Form}

/-- A node that takes all roots for its children. -/
theorem Builds.addNode {pos stop : Nat} (h : given = form.children) :
    Builds given (addNode form pos stop) fun id => [id] := by
  intro held s hs
  subst h
  refine ⟨hs.push ⟨form, pos, stop⟩, ?_⟩
  show s.arena.toList <+: (s.arena.push ⟨form, pos, stop⟩).toList
  rw [Array.toList_push]
  exact List.prefix_append _ _

theorem Builds.finish {pos : Nat} (h : given = form.children) :
    Builds given (finish pos form) fun id => [id] :=
  idle_prevStop.bind fun _ => .addNode h

end

theorem buildsOne_missingName : BuildsOne missingName :=
  idle_here.bind fun _ => .addNode rfl

theorem buildsOne_wordAsName : BuildsOne wordAsName :=
  idle_token.bind fun _ => idle_advance.bind fun _ => .addNode rfl

theorem buildsOne_bindingName : BuildsOne bindingName :=
  idle_kind.bind fun _ => .ite (fun _ => buildsOne_wordAsName) fun _ =>
    (idle_report _).bind fun _ => buildsOne_missingName

theorem buildsOne_literal : BuildsOne literal := by
  refine idle_token.bind fun _ => idle_advance.bind fun _ => .addNode ?_
  split <;> rfl

theorem buildsOne_propertyName : BuildsOne propertyName := by
  refine idle_kind.bind fun k => ?_
  split
  · exact buildsOne_literal
  · exact buildsOne_literal
  · exact .ite (fun _ => buildsOne_wordAsName) fun _ =>
      (idle_report _).bind fun _ => buildsOne_missingName

theorem buildsOne_keywordNode : BuildsOne keywordNode :=
  idle_token.bind fun _ => idle_advance.bind fun _ => .addNode rfl

/-! ## Control -/

section

variable {α β : Type}

theorem attempt_eq (x : Parser (Option α)) (s : State) :
    attempt x s = if (x s).1.isSome && (x s).2.errors.size == s.errors.size then x s
      else (none, (x s).2.rewind s.mark) := by
  show (if (x s).1.isSome && (x s).2.errors.size == s.errors.size then _ else _ :
    Parser (Option α)) (x s).2 = _
  split <;> rfl

/-- An attempt that fails leaves the arena as it was: the nodes that were
there before are the first ones. -/
theorem builds_attempt {x : Parser (Option α)} {gives : α → List NodeId}
    (hx : Builds [] x fun r => r.elim [] gives) :
    Builds [] (attempt x) fun r => r.elim [] gives := by
  intro held s hs
  obtain ⟨hroots, hold⟩ := hx held s hs
  rw [attempt_eq]
  split
  · exact ⟨hroots, hold⟩
  · have harena : ((x s).2.rewind s.mark).arena = s.arena := by
      apply Array.toList_inj.1
      show ((x s).2.arena.take s.arena.size).toList = _
      rw [Array.take_eq_extract, Array.toList_extract]
      exact (List.prefix_iff_eq_take.1 hold).symm
    rw [harena]
    exact ⟨hs, List.prefix_refl _⟩

theorem builds_nested {x fallback : Parser α} {gives : α → List NodeId} (hx : Builds [] x gives)
    (hfallback : Builds [] fallback gives) : Builds [] (nested x fallback) gives := by
  refine Idle.get.bind fun s => .ite (fun _ => (idle_report _).bind fun _ => hfallback) fun _ => ?_
  refine Idle.bind (.of_same fun _ => rfl) fun _ => hx.bind fun a => ?_
  exact Idle.bind (.of_same fun _ => rfl) fun _ => .pure (.refl _)

/-- What a turn goes on or ends with. -/
def Turn.value : Turn β → β
  | .again b => b
  | .done b => b

/-- What every turn keeps, a loop keeps. -/
theorem builds_iterate (gives : β → List NodeId) {body : β → Parser (Turn β)}
    (h : ∀ b, Builds (gives b) (body b) fun t => gives t.value) (b : β) :
    Builds (gives b) (iterate b body) gives := by
  have hloop : ∀ n b, Builds (gives b) (iterateUpTo body n b) gives := by
    intro n
    induction n with
    | zero => exact fun b => idle_exhaust.bind fun _ => .pure (.refl _)
    | succ n ih =>
      refine fun b => (h b).bind fun t => ?_
      cases t with
      | again b => exact ih b
      | done b => exact .pure (.refl _)
  exact Idle.get.bind fun s => hloop _ b

theorem idle_iterate {body : β → Parser (Turn β)} (h : ∀ b, Idle (body b)) (b : β) :
    Idle (iterate b body) :=
  builds_iterate (fun _ => []) h b

/-- What every turn has, the result of a loop has. -/
theorem iterate_gives {body : β → Parser (Turn β)} {P : β → Prop}
    (h : ∀ b, P b → ∀ s, P (body b s).1.value) {b : β} (hb : P b) (s : State) :
    P (iterate b body s).1 := by
  have hloop : ∀ n b s, P b → P (iterateUpTo body n b s).1 := by
    intro n
    induction n with
    | zero => exact fun b s hb => hb
    | succ n ih =>
      intro b s hb
      have hturn := h b hb s
      show P ((match (body b s).1 with | .again b => _ | .done b => _ : Parser β) (body b s).2).1
      cases ht : (body b s).1 with
      | again b' =>
        rw [ht] at hturn
        exact ih b' _ hturn
      | done b' =>
        rw [ht] at hturn
        exact hturn
  exact hloop _ b s hb

end

end ScriptAnalysis.Parsing
