import ScriptAnalysis.Proofs.Parsing.Upheld

/-!
# What makes a file a module

The parser notes in a flag that it came by an import or by the word `export` in
front of a declaration. It does so wherever that is, and an attempt that is given
up does not take it back. So the flag says that there is an import or an exported
declaration somewhere in the tree, in blocks too, unless it was left behind by the
head of an arrow function that was none (`LeavesMark`).

**Invariants.** `Noted`: the flag and the nodes agree. Between the word and the
node of its declaration they do not; there the flag is set already (`Flagged`).

**Results.** `SourceFile.isModule_parse`; `SourceFile.module_without_export` is a
file that exports nothing and is a module.
-/
namespace ScriptAnalysis

/-- An import or an exported declaration is among the nodes. -/
def Arena.Marked (a : Arena) : Prop :=
  ∃ i, a.Has (·.marksModule = true) i

theorem Arena.Marked.push {a : Arena} (h : a.Marked) (n : Node) : Arena.Marked (a.push n) := by
  obtain ⟨i, hi⟩ := h
  exact ⟨i, hi.grow (prefix_push a n)⟩

theorem Arena.marked_push {a : Arena} {n : Node} (h : n.form.marksModule = true) :
    Arena.Marked (a.push n) :=
  ⟨a.size, has_push a h⟩

/-- Other nodes make nothing a module. -/
theorem Arena.marked_of_push {a : Arena} {n : Node} (hn : n.form.marksModule = false)
    (h : Arena.Marked (a.push n)) : a.Marked := by
  obtain ⟨i, form, hform, hmark⟩ := h
  rcases form?_of_push hform with hold | hnew
  · exact ⟨i, form, hold, hmark⟩
  · rw [hnew, hn] at hmark
    exact absurd hmark Bool.false_ne_true

namespace Parsing

/-- Somewhere in the tokens a parenthesis looks like one around the parameters of
an arrow function; it is tried and given up, and the flag was set on the way. -/
def LeavesMark (tokens : List Token) : Prop :=
  ∃ n s, s.rest <:+ tokens ∧ s.kindAt 0 = .openParen ∧ arrowFollows 0 s.rest = true ∧
    s.moduleSyntax = false ∧ (attempt (arrowHead (productions n) false) s).1 = none ∧
    (attempt (arrowHead (productions n) false) s).2.moduleSyntax = true

/-- The flag is set. -/
structure Flagged (tokens : List Token) (s : State) : Prop where
  within : s.rest <:+ tokens
  flag : s.moduleSyntax = true

/-- The flag says what the nodes say, up to attempts that were given up. -/
structure Noted (tokens : List Token) (s : State) : Prop where
  within : s.rest <:+ tokens
  flag : s.arena.Marked → s.moduleSyntax = true
  nodes : s.moduleSyntax = true → s.arena.Marked ∨ LeavesMark tokens

/-! ## The two invariants -/

theorem advance_moduleSyntax (s : State) : s.advance.moduleSyntax = s.moduleSyntax := by
  unfold State.advance
  split
  · rfl
  · split <;> rfl

theorem report_moduleSyntax (s : State) (start length : Nat) (p : Problem) :
    (s.report start length p).moduleSyntax = s.moduleSyntax := by
  unfold State.report
  split <;> rfl

section

variable {tokens : List Token}

theorem lenient_flagged (tokens : List Token) : Lenient (Flagged tokens) where
  advance s hs := ⟨(forward_advance s).rest.trans hs.within, by
    rw [advance_moduleSyntax]
    exact hs.flag⟩
  report s start length p hs := ⟨(forward_report s start length p).rest.trans hs.within, by
    rw [report_moduleSyntax]
    exact hs.flag⟩
  deeper _ _ hs := ⟨hs.within, hs.flag⟩
  plain _ _ _ _ _ hs := ⟨hs.within, hs.flag⟩
  rewind _ _ hs ht _ := ⟨hs.within, ht.flag⟩
  note _ hs := ⟨hs.within, rfl⟩
  makes _ _ _ _ _ hs := ⟨hs.within, hs.flag⟩

theorem allows_flagged (tokens : List Token) : Allows (Flagged tokens) :=
  (lenient_flagged tokens).allows fun _ _ _ least _ hc h hunary =>
    h.upholds_binary (lenient_flagged tokens).toInvariant
      (fun _ _ _ _ _ hs => ⟨hs.within, hs.flag⟩) hc hunary least

/-- What is not about the nodes and the flag keeps them in agreement. -/
theorem Noted.same {s t : State} (h : Noted tokens s) (hrest : t.rest <:+ s.rest)
    (harena : t.arena = s.arena) (hflag : t.moduleSyntax = s.moduleSyntax) : Noted tokens t := by
  refine ⟨hrest.trans h.within, fun hmarked => ?_, fun hset => ?_⟩
  · rw [hflag]
    rw [harena] at hmarked
    exact h.flag hmarked
  · rw [harena]
    rw [hflag] at hset
    exact h.nodes hset

theorem makes_noted {form : Form} (hform : form.marksModule = false) :
    Makes (Noted tokens) (Noted tokens) form :=
  fun _ _ _ hs => ⟨hs.within, fun hmarked => hs.flag (Arena.marked_of_push hform hmarked),
    fun hset => (hs.nodes hset).imp_left fun hmarked => hmarked.push _⟩

theorem invariant_noted (tokens : List Token) : Invariant (Noted tokens) where
  advance s hs := hs.same (forward_advance s).rest (advance_arena s) (advance_moduleSyntax s)
  report s start length p hs := hs.same (forward_report s start length p).rest
    (report_arena s start length p) (report_moduleSyntax s start length p)
  deeper _ _ hs := hs.same (List.suffix_refl _) rfl rfl
  plain form hform := makes_noted (by
    unfold Form.isPlain at hform
    simp_all)

/-- The node that the word was in front of brings flag and nodes together. -/
theorem makes_noted_of_flagged {form : Form} (hform : form.marksModule = true) :
    Makes (Flagged tokens) (Noted tokens) form :=
  fun _ _ _ hs => ⟨hs.within, fun _ => hs.flag, fun _ => .inl (Arena.marked_push hform)⟩

/-! ## Attempts -/

/-- A name in front of an arrow is the parameter of an arrow function, in any
case. -/
theorem attempt_simple (self : Productions) {s : State} (h : s.startsSimpleArrow = true) :
    (attempt (arrowHead self true) s).1.isSome = true := by
  obtain ⟨hname, harrow⟩ := Bool.and_eq_true_iff.1 h
  have hnext := kindAt_advance (ne_endOfFile_of_isName hname) 0
  obtain ⟨p, t, hparameter⟩ : ∃ p t, simpleParameter s = (p, t) := ⟨_, _, rfl⟩
  have ht : t.kindAt 0 = .arrow := by
    have hrest : (simpleParameter s).2.kindAt 0 = s.advance.kindAt 0 := rfl
    rw [hparameter] at hrest
    rw [hrest, hnext]
    exact eq_of_beq harrow
  have herrors : t.advance.errors = s.errors := by
    have hsame : (simpleParameter s).2.errors = s.advance.errors := rfl
    rw [hparameter] at hsame
    rw [advance_errors, hsame, advance_errors]
  have hascription : ascription self t = (none, t) := after_none (by rw [ht]; decide) _
  have hhead : arrowHead self true s = (some ([p], none), t.advance) := by
    unfold arrowHead
    rw [if_pos rfl, bind_run, bind_run, hparameter]
    show (ascription self >>= _) t = _
    rw [bind_run, hascription, bind_run, accept_eq, ht]
    rfl
  rw [attempt_eq, hhead]
  simp [herrors]

theorem ends_attempt_noted {b n : Nat} (hn : 3 * b ≤ n) (h : Ample (Noted tokens) b (productions n))
    (simple : Bool) : Ends (fun s => Able (Noted tokens) b s ∧ s.OpensArrow simple)
      (attempt (arrowHead (productions n) simple)) fun _ => Able (Noted tokens) b := by
  intro s ⟨hs, hopens⟩
  obtain ⟨hforward, hend⟩ := h.upholds_arrowHead (invariant_noted tokens) simple s hs
  have hrun := attempt_eq (arrowHead (productions n) simple) s
  rw [hrun]
  split
  · exact ⟨hforward, hend⟩
  · rename_i hfailed
    rw [if_neg hfailed] at hrun
    refine ⟨hforward.rewind, hs.rewind hend hforward ?_⟩
    refine ⟨hs.holds.within, fun hmarked => ?_, fun hset => ?_⟩
    · -- a flag that was set is still set
      rw [rewind_arena hforward.toGrows] at hmarked
      have hflagged := (ample_productions (allows_flagged tokens) b n hn).upholds_arrowHead
        (lenient_flagged tokens).toInvariant simple s
          { hs with holds := ⟨hs.holds.within, hs.holds.flag hmarked⟩ }
      exact hflagged.2.holds.flag
    · rw [rewind_arena hforward.toGrows]
      cases hold : s.moduleSyntax with
      | true => exact hs.holds.nodes hold
      | false =>
        cases simple with
        | true =>
          have hsome := attempt_simple (productions n) hopens.1.symm
          rw [hrun] at hsome
          exact absurd hsome Bool.false_ne_true
        | false =>
          obtain ⟨hparen, hfollows⟩ := Bool.and_eq_true_iff.1 hopens.2
          refine .inr ⟨n, s, hs.holds.within, eq_of_beq hparen, hfollows, hold, ?_, ?_⟩
          · rw [hrun]
          · rw [hrun]
            exact hset

/-! ## Imports and declarations -/

theorem ends_import_noted (b : Nat) :
    Ends (fun s => Able (Noted tokens) b s ∧ s.kindAt 0 = .kwImport) (do
      modify fun s => { s with moduleSyntax := true }
      return some (← importDeclaration)) fun _ => Able (Noted tokens) b := by
  refine .note (J := Flagged tokens) (fun s _ hs => ⟨hs.within, rfl⟩) (fun _ => id) ?_
  refine .standing (Ends.bind ?_ fun _ => .pure fun _ => id)
  exact Ample.ends_importDeclaration (lenient_flagged tokens).toInvariant fun _ _ =>
    makes_noted_of_flagged rfl

/-- What is known once the modifiers are read: behind `export` the flag is set. -/
def Behind (tokens : List Token) (m : Modifiers) : State → Prop :=
  if m.exported then Flagged tokens else Noted tokens

theorem invariant_behind (tokens : List Token) (m : Modifiers) : Invariant (Behind tokens m) := by
  unfold Behind
  split
  · exact (lenient_flagged tokens).toInvariant
  · exact invariant_noted tokens

/-- A declaration starts with a token. -/
theorem rest_of_startsDeclaration {s : State} (h : startsDeclaration s.rest = true) :
    ∃ t rest, s.rest = t :: rest ∧ s.kindAt 0 = t.kind := by
  unfold State.kindAt State.tokenAt
  cases hrest : s.rest with
  | nil =>
    rw [hrest] at h
    exact absurd h Bool.false_ne_true
  | cons t rest => exact ⟨t, rest, rfl, rfl⟩

/-- In front of a declaration the word `declare` is a modifier. -/
theorem declarationWord_of_startsDeclaration {s : State} (h : startsDeclaration s.rest = true)
    (hkind : s.kindAt 0 = .kwDeclare) : declarationWord (s.rest.drop 1) = true := by
  obtain ⟨t, rest, hrest, ht⟩ := rest_of_startsDeclaration h
  rw [hrest, startsDeclaration, ← ht, hkind] at h
  rw [hrest]
  exact (Bool.and_eq_true_iff.1 h).1

theorem startsDeclaration_advance {s : State} (h : startsDeclaration s.rest = true)
    (hkind : s.kindAt 0 = .kwExport ∨ s.kindAt 0 = .kwDeclare) :
    startsDeclaration s.advance.rest = true := by
  obtain ⟨t, rest, hrest, ht⟩ := rest_of_startsDeclaration h
  have hadvance : s.advance.rest = rest := by
    have hnext : t.kind ≠ .endOfFile := by
      rw [← ht]
      rcases hkind with hkind | hkind <;> rw [hkind] <;> decide
    unfold State.advance
    rw [hrest]
    simp only [if_neg hnext]
  rw [hadvance]
  rw [hrest, startsDeclaration, ← ht] at h
  rcases hkind with hkind | hkind
  · rw [hkind] at h
    exact h
  · rw [hkind] at h
    exact (Bool.and_eq_true_iff.1 h).2

/-- Behind the modifiers there is a word that declares something. -/
theorem not_undeclared {s : State} (h : startsDeclaration s.rest = true)
    (hexport : s.kindAt 0 ≠ .kwExport) (hdeclare : s.kindAt 0 ≠ .kwDeclare) : ¬s.Undeclared := by
  obtain ⟨t, rest, hrest, ht⟩ := rest_of_startsDeclaration h
  have hword : declarationWord (t :: rest) = true := by
    rw [hrest, startsDeclaration, ← ht] at h
    split at h
    · exact absurd ‹_› hexport
    · exact absurd ‹_› hdeclare
    · exact h
  intro hnone
  have hvariable := hnone.noVariable
  unfold State.variableKind? at hvariable
  unfold declarationWord at hword
  rw [← ht] at hword
  split at hword
  · exact hnone.noFunction ‹_›
  · exact hnone.noClass ‹_›
  · rename_i hk
    rw [hk] at hvariable
    cases hvariable
  · rename_i hk
    rw [hk] at hvariable
    cases hvariable
  · exact hexport ‹_›
  · rename_i hk
    rw [hk] at hvariable
    cases rest with
    | nil => exact Bool.false_ne_true hword
    | cons next _ =>
      have hname : (s.kindAt 1).isName = true := by
        unfold State.kindAt State.tokenAt
        rw [hrest]
        exact hword
      simp [hname] at hvariable
  · exact hnone.noInterface ‹_›
  · exact hnone.noAlias ‹_›
  · exact hdeclare ‹_›
  · exact absurd hword Bool.false_ne_true

theorem Behind.within {m : Modifiers} {s : State} (h : Behind tokens m s) : s.rest <:+ tokens := by
  unfold Behind at h
  split at h
  · exact h.within
  · exact h.within

/-- The modifiers in front of a declaration are read up to the word that
declares something. -/
theorem ends_declarationModifiers_noted (b : Nat) :
    Ends (fun s => Able (Noted tokens) b s ∧ startsDeclaration s.rest = true)
      declarationModifiers fun m s => Able (Behind tokens m) b s ∧ ¬s.Undeclared := by
  have hloop : Ends (fun s => Able (fun _ => True) b s ∧
        (Behind tokens .none s ∧ startsDeclaration s.rest = true)) declarationModifiers
      fun m s => Able (fun _ => True) b s ∧ (Behind tokens m s ∧ ¬s.Undeclared) := by
    refine ends_iterate (J := fun m s => Behind tokens m s ∧ startsDeclaration s.rest = true)
      (K := fun m s => Behind tokens m s ∧ ¬s.Undeclared) (fun m k _ => Ends.kind fun next => ?_) _
    split
    · intro s ⟨⟨hs, hm, hstarts⟩, hkind⟩
      have hnext : s.kindAt 0 ≠ .endOfFile := by
        rw [hkind]
        decide
      have hnote : Able (fun _ => True) (k + 1) { s with moduleSyntax := true } :=
        hs.same rfl rfl rfl rfl trivial
      have hflagged : Flagged tokens { s with moduleSyntax := true } := ⟨hm.within, rfl⟩
      have hforward := forward_advance { s with moduleSyntax := true }
      refine ⟨(forward_note s true).trans hforward, ?_⟩
      exact ⟨hnote.advance_less lenient_true.toInvariant hnext,
        (lenient_flagged tokens).advance _ hflagged,
        startsDeclaration_advance (s := { s with moduleSyntax := true }) hstarts (.inl hkind)⟩
    · refine Ends.get fun t => .ite (fun _ => ?_) fun hword => ?_
      · intro s ⟨_, ⟨hs, hm, hstarts⟩, hkind⟩
        have hnext : s.kindAt 0 ≠ .endOfFile := by
          rw [hkind]
          decide
        exact ⟨forward_advance s, hs.advance_less lenient_true.toInvariant hnext,
          (invariant_behind tokens m).advance s hm, startsDeclaration_advance hstarts (.inr hkind)⟩
      · intro s ⟨hst, ⟨_, _, hstarts⟩, hkind⟩
        subst hst
        exact absurd (declarationWord_of_startsDeclaration hstarts hkind) hword
    · rename_i hexport hdeclare
      refine .pure fun s hs => ⟨hs.1.1, hs.1.2.1, not_undeclared hs.1.2.2 ?_ ?_⟩
      · rw [hs.2]
        exact hexport
      · rw [hs.2]
        exact hdeclare
  refine (hloop.weaken fun s hs => ?_).imp fun m s hs => ?_
  · exact ⟨{ hs.1 with holds := trivial }, hs.1.holds, hs.2⟩
  · exact ⟨{ hs.1 with holds := hs.2.1 }, hs.2.2⟩

theorem ends_declaration_noted {b n : Nat} (hn : 3 * b ≤ n)
    (h : Ample (Noted tokens) b (productions n)) :
    Ends (fun s => Able (Noted tokens) b s ∧ startsDeclaration s.rest = true)
      (declaration (productions n)) fun _ => Able (Noted tokens) b := by
  refine ends_declaration (ends_declarationModifiers_noted b) (invariant_behind tokens)
    (fun m => ?_) (fun m form hform => ?_) fun m s hs => absurd hs.2 hs.1.2
  · unfold Behind
    split
    · exact ample_productions (allows_flagged tokens) b n hn
    · exact h
  · unfold Behind
    split
    · rename_i hm
      exact makes_noted_of_flagged (hform.mark.trans hm)
    · rename_i hm
      exact makes_noted (hform.mark.trans (Bool.eq_false_iff.2 hm))

theorem allows_noted (tokens : List Token) : Allows (Noted tokens) where
  toInvariant := invariant_noted tokens
  attempt _ _ simple hn h := ends_attempt_noted hn h simple
  binary _ _ _ least _ hc h hunary :=
    h.upholds_binary (invariant_noted tokens) (fun _ => makes_noted) hc hunary least
  imports := ends_import_noted
  declaration _ _ hn h := ends_declaration_noted hn h

end

end Parsing

namespace SourceFile

open Parsing

/-- A file with an import or an exported declaration, at any depth, is a module. A
module has one, or parentheses in it left the mark that were tried as the head of
an arrow function and are none. -/
theorem isModule_parse (name : String) (text : List Char) :
    ((parse name text).arena.Marked → (parse name text).isModule = true) ∧
      ((parse name text).isModule = true →
        (parse name text).arena.Marked ∨ LeavesMark (Lexer.scan text).tokens) := by
  have hempty : ¬Arena.Marked #[] := by
    rintro ⟨i, form, hform, -⟩
    simp [Arena.form?] at hform
  obtain ⟨b, hable⟩ := able_parseTokens (allows_noted (Lexer.scan text).tokens)
    (sequence_scan text).ends
    ⟨List.suffix_refl _, fun hmarked => absurd hmarked hempty,
      fun hset => absurd hset Bool.false_ne_true⟩
  exact ⟨hable.holds.flag, hable.holds.nodes⟩

/-- A statement of the file itself is an import or an exported declaration. -/
def exportsAtTop (f : SourceFile) : Bool :=
  f.statements.any fun i => (f.arena.form? i).any Form.marksModule

/-- The word `export` in a block makes the file a module, though what is declared
there cannot be imported. -/
theorem module_without_export :
    ¬((parse "/a.ts" "\x7b export class A \x7b \x7d \x7d".toList).isModule = true ↔
      (parse "/a.ts" "\x7b export class A \x7b \x7d \x7d".toList).exportsAtTop = true) := by
  rw [String.toList_ofList]
  decide +kernel

end SourceFile

end ScriptAnalysis
