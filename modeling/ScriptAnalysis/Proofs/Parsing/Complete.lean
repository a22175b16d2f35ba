import ScriptAnalysis.Proofs.Parsing.Errors
import ScriptAnalysis.Proofs.Parsing.Finishes
import ScriptAnalysis.Proofs.Parsing.Nested
import ScriptAnalysis.Proofs.Parsing.OperandChains

/-!
# What a file without errors may lack

Where a part of the program is missing, the parser reports it and goes on: a name is
missing only behind an error. There is one hole that is not reported. A statement in
front of a closing brace or of the end of the text is none at all; a list of statements
sees that no token was passed and reports it, but `if`, `while` and `for` do not look,
and what they are about is missing without a word.

**Nodes.** `Whole` says of a node what it has without errors. Each node has it when it is
made, unless there is a fault, and a fault stays (`Trace.whole`).

**Words.** Every `else` that is passed is either a name or ends up in an `if`
(`ElseRead`). This is about the tokens between two states and the nodes of the second
one, so that it composes (`Trace.elses`).

**Result.** `SourceFile.parse_complete`, and `SourceFile.if_without_branch` for the hole.
-/
namespace ScriptAnalysis

theorem Form.body?_of_isFree {form : Form} (h : form.isFree = true) : form.body? = none := by
  cases form <;> first | rfl | cases h

namespace Parsing

open Lexer (stopAfter)

/-- The first of the tokens that does not start in front of `offset`. -/
def tokenFrom (tokens : List Token) (offset : Nat) : Token :=
  (tokens.find? fun t => offset ≤ t.start).getD noToken

/-- What a node has without errors: a name has characters, a statement may be missing
at its end only in front of a closing brace or the end of the text, and an `if`
without a first branch has no second one. -/
structure Whole (tokens : List Token) (n : Node) : Prop where
  named : ∀ text, n.form = .identifier text → text ≠ ""
  ended : n.form.body? = some none → closesBraces (tokenFrom tokens n.stop).kind = true
  branched : ∀ condition elseBranch,
    n.form = .ifStatement condition none elseBranch → elseBranch = none

/-- What became of an `else` in front of the tokens `rest`: a name; or the second branch
of an `if` that has both, where that branch starts with the next token; or an `if` that
ends with it, because a closing brace or the end of the text comes next. -/
inductive ElseRead (a : Arena) (u : Token) (rest : List Token) : Prop where
  | name {i : NodeId} {text : String}
    (there : a[i]? = some ⟨.identifier text, u.start, u.stop⟩)
  | branch {i branch condition thenBranch : NodeId} {n m : Node} (there : a[i]? = some n)
    (form : n.form = .ifStatement condition (some thenBranch) (some branch))
    (starts : a[branch]? = some m) (pos : m.pos = (rest.getD 0 noToken).start)
  | lacking {i condition thenBranch : NodeId} {n : Node} (there : a[i]? = some n)
    (form : n.form = .ifStatement condition (some thenBranch) none) (stop : n.stop = u.stop)
    (closes : closesBraces (rest.getD 0 noToken).kind = true)

theorem ElseRead.grow {a a' : Arena} {u : Token} {rest : List Token} (h : ElseRead a u rest)
    (hgrows : a.toList <+: a'.toList) : ElseRead a' u rest := by
  cases h with
  | name hthere => exact .name (Arena.getElem?_grow hgrows hthere)
  | branch hthere hform hstarts hpos =>
    exact .branch (Arena.getElem?_grow hgrows hthere) hform (Arena.getElem?_grow hgrows hstarts)
      hpos
  | lacking hthere hform hstop hcloses =>
    exact .lacking (Arena.getElem?_grow hgrows hthere) hform hstop hcloses

/-! ## Tokens behind a place -/

section

variable {tokens : List Token} {s t : State}

/-- What was passed starts in front of where the last token passed ends. -/
theorem start_lt_of_passed (hT : Sequence tokens) {words rest : List Token}
    (hwords : tokens = words ++ rest) (hends : ∀ t ∈ words, t.kind ≠ .endOfFile) :
    ∀ t ∈ words, t.start < stopAfter 0 words := by
  have hproper : ∀ t ∈ words, t.start < t.stop := fun t ht =>
    hT.proper t (hwords ▸ List.mem_append_left _ ht) (hends t ht)
  have hordered := hT.ordered
  rw [hwords] at hordered
  rcases List.eq_nil_or_concat words with rfl | ⟨front, last, rfl⟩
  · exact fun t ht => absurd ht List.not_mem_nil
  · rw [List.concat_eq_append] at *
    rw [stopAfter_concat]
    have hlast := hproper last (by simp)
    intro t ht
    rcases List.mem_append.1 ht with hfront | hsame
    · have hbefore := (List.pairwise_append.1 (List.pairwise_append.1 hordered).1).2.2 t hfront last
        (List.mem_singleton_self _)
      have := hproper t ht
      omega
    · cases List.mem_singleton.1 hsame
      exact hlast

/-- The first token behind the last one passed is the one at hand. -/
theorem Seated.tokenFrom (h : Seated tokens s) (hT : Sequence tokens) :
    Parsing.tokenFrom tokens s.prevStop = s.tokenAt 0 := by
  obtain ⟨words, hwords, hstop, hends⟩ := h.words
  have hpassed := start_lt_of_passed hT hwords hends
  have hbehind : s.prevStop ≤ (s.tokenAt 0).start := h.prevStop_le_here hT
  obtain ⟨rest, hrest⟩ : ∃ rest, s.rest = s.tokenAt 0 :: rest := by
    have hmem : s.tokenAt 0 ∈ s.rest := h.mem_tokenAt hT
    unfold State.tokenAt at hmem ⊢
    cases hrest : s.rest with
    | nil =>
      rw [hrest] at hmem
      cases hmem
    | cons u rest => exact ⟨rest, rfl⟩
  have hnone : words.find? (fun t => decide (s.prevStop ≤ t.start)) = none :=
    List.find?_eq_none.2 fun t ht => by
      have := hpassed t ht
      simpa [hstop] using this
  unfold Parsing.tokenFrom
  rw [hwords, List.find?_append, hnone, hrest, List.find?_cons_of_pos (by simpa using hbehind)]
  rfl

/-- Where `u` stands among what is left, it is the token at hand or still left behind it. -/
theorem advance_split {before after : List Token} {u : Token}
    (h : s.rest = before ++ u :: after) :
    s.rest = u :: after ∨ ∃ before, s.advance.rest = before ++ u :: after := by
  by_cases hnext : s.kindAt 0 = .endOfFile
  · rw [advance_at_end hnext]
    exact .inr ⟨before, h⟩
  · obtain ⟨rest, hrest, hadvance⟩ := advance_next hnext
    cases before with
    | nil => exact .inl h
    | cons t before =>
      rw [hrest] at h
      refine .inr ⟨before, ?_⟩
      rw [hadvance]
      exact (List.cons.inj h).2

theorem tokenAt_of_rest {u : Token} {after : List Token} (h : s.rest = u :: after) :
    s.tokenAt 0 = u := by
  unfold State.tokenAt
  rw [h]
  rfl

/-- What stands behind a token that is not the last one ends with the last one. -/
theorem suffix_of_ne {before after words : List Token} {u last : Token} (hne : u ≠ last)
    (h : before ++ u :: after = words ++ [last]) : [last] <:+ after := by
  rcases List.eq_nil_or_concat after with rfl | ⟨front, t, rfl⟩
  · obtain ⟨-, hsame⟩ := List.append_inj' h rfl
    exact absurd (List.cons.inj hsame).1 hne
  · rw [List.concat_eq_append, ← List.cons_append, ← List.append_assoc] at h
    obtain ⟨-, hsame⟩ := List.append_inj' h rfl
    rw [List.concat_eq_append, ← hsame]
    exact List.suffix_append _ _

/-- What is left has not been passed. -/
theorem not_passed {before after : List Token} {u : Token} (h : s.rest = before ++ u :: after)
    (hrest : t.rest = s.rest) : ¬t.rest <:+ after := by
  intro hpassed
  have hle := hpassed.length_le
  rw [hrest, h, List.length_append, List.length_cons] at hle
  omega

end

/-! ## Every node has what it needs -/

section

variable {tokens : List Token} {s t : State} {form : Form} {pos stop : Nat}

theorem whole_of_isFree (h : form.isFree = true) : Whole tokens ⟨form, pos, stop⟩ where
  named _ hform := by
    cases hform
    cases h
  ended hbody := by
    rw [Form.body?_of_isFree h] at hbody
    cases hbody
  branched _ _ hform := by
    cases hform
    cases h

theorem whole_of_operand? (h : form.operand?.isSome = true) : Whole tokens ⟨form, pos, stop⟩ where
  named _ hform := by
    cases hform
    cases h
  ended hbody := by
    rw [Form.operand?_of_body? hbody] at h
    cases h
  branched _ _ hform := by
    cases hform
    cases h

theorem whole_of_text {text : String} (h : text ≠ "") :
    Whole tokens ⟨.identifier text, pos, stop⟩ where
  named _ hform := by
    cases hform
    exact h
  ended hbody := by cases hbody
  branched _ _ hform := by cases hform

/-- Without a fault the statement at the end is missing only where it may be. -/
theorem State.Lacks.closes {statement : Option NodeId} (h : s.Lacks statement)
    (hs : ¬s.Faulty) (hnone : statement = none) : closesBraces (s.kindAt 0) = true :=
  (h hnone).resolve_left hs

/-- In front of an `else` no statement is missing. -/
theorem State.Lacks.isSome {statement : Option NodeId} (h : s.Lacks statement)
    (hs : ¬s.Faulty) (hnext : s.kindAt 0 = .kwElse) : ∃ i, statement = some i := by
  cases statement with
  | some i => exact ⟨i, rfl⟩
  | none =>
    have hcloses := h.closes hs rfl
    rw [hnext] at hcloses
    cases hcloses

theorem not_faulty_of_trace (h : Trace s t) (ht : ¬t.Faulty) : ¬s.Faulty :=
  fun hs => ht (h.faulty hs)

variable (hT : Sequence tokens)
  (hspelled : ∀ t ∈ tokens, t.kind.isWord = true → t.value.getD t.kind.text ≠ "")

include hT

theorem whole_of_body? {body : Option NodeId} (h : form.body? = some body) (hs : Seated tokens s)
    (hlacks : s.Lacks body) (hfault : ¬s.Faulty) : Whole tokens ⟨form, pos, s.prevStop⟩ where
  named _ hform := by
    cases hform
    cases h
  ended hbody := by
    cases h.symm.trans hbody
    show closesBraces (tokenFrom tokens s.prevStop).kind = true
    rw [hs.tokenFrom hT]
    exact hlacks.closes hfault rfl
  branched condition elseBranch hform := by
    cases hform
    cases elseBranch with
    | none => rfl
    | some i => cases h

include hspelled

/-- A step that leads to no fault makes only nodes that have what they need. -/
theorem Trace.whole (h : Trace s t) (ht : ¬t.Faulty) (hs : Seated tokens s)
    (hnodes : ∀ n ∈ s.arena, Whole tokens n) : ∀ n ∈ t.arena, Whole tokens n := by
  have hpush : ∀ {s : State} {form : Form} {pos stop : Nat}, (∀ n ∈ s.arena, Whole tokens n) →
      Whole tokens ⟨form, pos, stop⟩ → ∀ n ∈ (s.push form pos stop).arena, Whole tokens n :=
    fun hnodes hnode n hn => (Array.mem_push.1 hn).elim (hnodes n) fun heq => heq ▸ hnode
  have hadvance : ∀ {s : State}, (∀ n ∈ s.arena, Whole tokens n) →
      ∀ n ∈ s.advance.arena, Whole tokens n := fun hnodes => by rwa [advance_arena]
  induction h with
  | refl | note | exhaust => exact hnodes
  | trans first second ih ih' =>
    have hmid := not_faulty_of_trace second ht
    exact ih' ht (first.seated hT hs) (ih hmid hs hnodes)
  | pass _ | skip _ => exact hadvance hnodes
  | report s => exact absurd (report_faulty s _ _ _) ht
  | word hnext =>
    refine hpush (hadvance hnodes) (whole_of_text ?_)
    exact hspelled _ (hs.tokenAt_mem hT) hnext
  | missing hfault => exact absurd hfault ht
  | node s hfree => exact hpush hnodes (whole_of_isFree hfree)
  | operator _ _ htakes _ _ ih =>
    exact hpush (ih ht (hs.advance hT) (hadvance hnodes)) (whole_of_operand? htakes)
  | closed hbody hlacks pos => exact hpush hnodes (whole_of_body? hT hbody hs hlacks ht)
  | @otherwise s t elseBranch condition thenBranch hnext hlacks hbranch hstated pos ih =>
    refine hpush (ih ht (hs.advance hT) (hadvance hnodes)) ?_
    have hmid : ¬s.Faulty := fun hfault => ht (hbranch.faulty hfault.advance)
    obtain ⟨i, rfl⟩ := hlacks.isSome hmid hnext
    constructor
    · exact fun _ hform => by cases hform
    · intro hbody
      cases elseBranch <;> cases hbody
    · exact fun _ _ hform => by cases hform
  | nested _ ih => exact ih ht (hs.same rfl rfl rfl) hnodes
  | @abandoned s t attempt _ =>
    rw [rewind_arena attempt.forward.toGrows]
    exact hnodes

end

/-! ## Every `else` is read -/

section

variable {tokens : List Token} {s t : State}

/-- Without a fault, what became of the `else` tokens that were passed can be seen in the
nodes. -/
theorem Trace.elses (h : Trace s t) (ht : ¬t.Faulty) {before after : List Token} {u : Token}
    (hrest : s.rest = before ++ u :: after) (hu : u.kind = .kwElse) (hpassed : t.rest <:+ after) :
    ElseRead t.arena u after := by
  have hfirst : ∀ {s : State}, s.rest = u :: after → s.kindAt 0 = .kwElse := fun h => by
    unfold State.kindAt
    rw [tokenAt_of_rest h]
    exact hu
  induction h generalizing before with
  | refl s => exact absurd hpassed (not_passed hrest rfl)
  | @trans s t v first second ih ih' =>
    have hmid := not_faulty_of_trace second ht
    -- the token was passed on the way to `t` or on the way from there
    have hsuffix : u :: after <:+ s.rest := ⟨before, hrest.symm⟩
    rcases List.suffix_or_suffix_of_suffix hsuffix first.forward.rest with ⟨between, hleft⟩ | hleft
    · exact ih' ht hleft.symm hpassed
    · rcases List.suffix_cons_iff.1 hleft with hsame | hleft
      · have hleft : t.rest = [] ++ u :: after := hsame
        exact ih' ht hleft hpassed
      · exact (ih hmid hrest hleft).grow second.forward.arena
  | @pass s hnext =>
    rcases advance_split hrest with hhand | ⟨before, hlater⟩
    · exact absurd (hfirst hhand) hnext
    · exact absurd hpassed (not_passed hlater rfl)
  | skip hfault => exact absurd hfault.advance ht
  | report s => exact absurd (report_faulty s _ _ _) ht
  | note | exhaust | missing | node | closed => exact absurd hpassed (not_passed hrest rfl)
  | @word s hnext =>
    rcases advance_split hrest with hhand | ⟨before, hlater⟩
    · have htoken := tokenAt_of_rest hhand
      rw [← htoken]
      exact .name Array.getElem?_push_size
    · exact absurd hpassed (not_passed hlater rfl)
  | @operator s t form hnext operand htakes pos stop ih =>
    rcases advance_split hrest with hhand | ⟨before, hlater⟩
    · rw [hfirst hhand] at hnext
      cases hnext
    · exact (ih ht hlater hpassed).grow (Arena.prefix_push _ _)
  | @otherwise s t elseBranch condition thenBranch hnext hlacks hbranch hstated pos ih =>
    rcases advance_split hrest with hhand | ⟨before, hlater⟩
    · have htoken := tokenAt_of_rest hhand
      have hadvance := advance_of_rest hhand (hu ▸ by decide)
      obtain ⟨i, rfl⟩ := hlacks.isSome (fun hfault => ht (hbranch.faulty hfault.advance)) hnext
      cases hstated with
      | @node branch _ m hthere hpos =>
        refine .branch Array.getElem?_push_size rfl
          (Arena.getElem?_grow (Arena.prefix_push _ _) hthere) ?_
        rw [hpos, hadvance]
        rfl
      | nothing hcloses _ hstop =>
        refine .lacking Array.getElem?_push_size rfl ?_ ?_
        · show t.prevStop = u.stop
          rw [hstop, hadvance]
        · rw [hadvance] at hcloses
          exact hcloses
      | fault hfault => exact absurd hfault ht
    · exact (ih ht hlater hpassed).grow (Arena.prefix_push _ _)
  | nested _ ih => exact ih ht hrest hpassed
  | abandoned => exact absurd hpassed (not_passed hrest rfl)

end

end Parsing

namespace SourceFile

open Parsing

/-- Names and references to types take some of the text, as do all parts of nodes. A
statement is missing at the end of a loop or an `if` only where a closing brace or the end
of the text comes next, and an `if` with a second branch has a first one. What became of an
`else` can be seen in the nodes. -/
structure Complete (f : SourceFile) : Prop where
  named : ∀ (i : NodeId) text pos stop, f.arena[i]? = some ⟨.identifier text, pos, stop⟩ →
    text ≠ "" ∧ pos < stop
  typed : ∀ (i : NodeId) name pos stop, f.arena[i]? = some ⟨.typeReference name, pos, stop⟩ →
    pos < stop
  parts : ∀ i, ∀ c ∈ f.arena.children i, ∃ n : Node, f.arena[c]? = some n ∧ n.pos < n.stop
  ended : ∀ (i : NodeId) (n : Node), f.arena[i]? = some n → n.form.body? = some none →
    closesBraces (tokenFrom (Lexer.scan f.text).tokens n.stop).kind = true
  branched : ∀ i condition elseBranch,
    f.arena.form? i = some (.ifStatement condition none elseBranch) → elseBranch = none
  elses : ∀ before u after, (Lexer.scan f.text).tokens = before ++ u :: after →
    u.kind = .kwElse → ElseRead f.arena u after

variable {name : String} {text : List Char}

/-- Without errors the parser has met no fault. -/
theorem not_faulty_parseTokens (h : (parse name text).errors = []) :
    ¬(parseTokens (Lexer.scan text).tokens).2.Faulty := by
  have hT := sequence_scan text
  obtain ⟨b, hable⟩ := able_parseTokens allows_true hT.ends trivial
  have hascending := (trace_parseTokens (Lexer.scan text).tokens).ascending hT (seated_start _)
    (ascending_start _)
  have hperm : ((parse name text).errors).Perm ((Lexer.scan text).errors ++
      (parseTokens (Lexer.scan text).tokens).2.errors.toList) := Order.perm_sort _ _
  rw [h] at hperm
  have hnone := (List.append_eq_nil_iff.1 hperm.symm.eq_nil).2
  rintro (hlast | hexhausted)
  · obtain ⟨n, hn⟩ := Option.ne_none_iff_exists'.1 hlast
    obtain ⟨e, he, -⟩ := hascending.last n hn
    rw [hnone] at he
    cases he
  · rw [hable.spare] at hexhausted
    cases hexhausted

/-- A file that is parsed without errors has all its parts, but that a statement may be
missing at the end of the text or of a block. -/
theorem parse_complete (name : String) (text : List Char) (h : (parse name text).errors = []) :
    (parse name text).Complete := by
  have hT := sequence_scan text
  have htrace := trace_parseTokens (Lexer.scan text).tokens
  have hfault := not_faulty_parseTokens h
  have hroot : ∀ {i : NodeId} {n : Node}, (parse name text).arena[i]? = some n →
      (∀ statements, n.form ≠ .sourceFile statements) → n.pos < n.stop := by
    intro i n hi hform
    refine ((spanned_parse h hi).2 fun hsame => ?_).proper
    obtain ⟨-, statements, hstatements⟩ := root_parse name text
    obtain ⟨m, hm, hmform⟩ := Option.map_eq_some_iff.1 hstatements
    cases (hsame ▸ hi).symm.trans hm
    exact hform statements hmform
  have hwhole : ∀ {i : NodeId} {n : Node}, (parse name text).arena[i]? = some n →
      Whole (Lexer.scan text).tokens n := fun hi =>
    htrace.whole hT (Lexer.scan_spelled text) hfault (seated_start _)
      (fun _ h => absurd h (Array.not_mem_empty _)) _ (Array.mem_of_getElem? hi)
  constructor
  · intro i text pos stop hi
    exact ⟨(hwhole hi).named text rfl, hroot hi fun _ hform => by cases hform⟩
  · intro i name pos stop hi
    exact hroot hi fun _ hform => by cases hform
  · intro i c hc
    cases hi : (parse name text).arena[i]? with
    | none =>
      rw [Arena.children_of_le (Array.getElem?_eq_none_iff.1 hi)] at hc
      cases hc
    | some n =>
      rw [Arena.children_of_getElem? hi] at hc
      obtain ⟨child, hchild, -, hproper, -⟩ := (spanned_parse h hi).1.within c hc
      exact ⟨child, hchild, hproper⟩
  · exact fun i n hi => (hwhole hi).ended
  · intro i condition elseBranch hform
    obtain ⟨n, hn, hnform⟩ := Option.map_eq_some_iff.1 hform
    exact (hwhole hn).branched condition elseBranch hnform
  · intro before u after htokens hu
    obtain ⟨words, last, hscan, hlast, hrest⟩ := rest_parseTokens text
    refine htrace.elses hfault htokens hu ?_
    rw [hrest]
    have hne : u ≠ last := fun hsame => by
      rw [hsame, hlast] at hu
      cases hu
    exact suffix_of_ne hne (htokens.symm.trans hscan)

/-- One `else` is the name of a property, the other belongs to the `if`; the loop behind
it has no body. -/
theorem loop_without_body :
    (parse "/a.ts" "if (a) b.else; else while (c)".toList).errors = [] ∧
      (parse "/a.ts" "if (a) b.else; else while (c)".toList).Complete := by
  have hclean : (parse "/a.ts" "if (a) b.else; else while (c)".toList).errors = [] := by
    rw [String.toList_ofList]
    decide +kernel
  exact ⟨hclean, parse_complete _ _ hclean⟩

/-- An `if` at the end of the text has no branch, and there is no error. -/
theorem if_without_branch :
    (parse "/a.ts" "if (x)".toList).errors = [] ∧
      (parse "/a.ts" "if (x)".toList).statements = [1] ∧
      (parse "/a.ts" "if (x)".toList).arena.form? 1 = some (.ifStatement 0 none none) := by
  rw [String.toList_ofList]
  decide +kernel

end SourceFile

end ScriptAnalysis
