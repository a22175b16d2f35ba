import ScriptAnalysis.Proofs.Parsing.Alike
import ScriptAnalysis.Proofs.Token.Scan

/-!
# The spans of nodes

A node spans the text from the start of a token to the end of a token, and its
children stand in its span, one behind the other (`Arena.Spanned`). This is said
here of the nodes that a state of the parser holds, together with what the next
node needs: where the parser stands between the tokens (`Orderly`), and which
nodes wait to become the children of a node that starts at a given place
(`Stands`).

**Steps.** Passing a token (`Stands.advance`), a node that takes the waiting
ones for its children (`Stands.push`), a node for a token (`Stands.leaf`), a
stretch of parsing with a place of its own to start from (`Stands.join`), and an
attempt that is given up (`Stands.rewind`).
-/
namespace ScriptAnalysis

/-! ## Nodes side by side -/

namespace Arena

/-- The nodes `ids` take some of the text each, one behind the other, between
`lo` and `hi`. -/
structure Laid (a : Arena) (lo hi : Nat) (ids : List NodeId) : Prop where
  within : ∀ i ∈ ids, ∃ n, a[i]? = some n ∧ lo ≤ n.pos ∧ n.pos < n.stop ∧ n.stop ≤ hi
  ordered : ids.Pairwise fun i j => ∀ n m, a[i]? = some n → a[j]? = some m → n.stop ≤ m.pos

/-- The node starts where a token starts, stops where a token stops, and its
children lie in it. The last of `tokens` is the end of the text. -/
structure Spanned (tokens : List Token) (a : Arena) (n : Node) : Prop where
  start : ∃ t ∈ tokens, t.kind ≠ .endOfFile ∧ t.start = n.pos
  stop : ∃ t ∈ tokens, t.kind ≠ .endOfFile ∧ t.stop = n.stop
  proper : n.pos < n.stop
  children : a.Laid n.pos n.stop n.form.children

section

variable {a a' : Arena} {lo hi lo' hi' : Nat} {ids ids' : List NodeId}

theorem laid_nil (a : Arena) (lo hi : Nat) : a.Laid lo hi [] :=
  ⟨fun _ h => absurd h List.not_mem_nil, .nil⟩

theorem laid_one {i : NodeId} {n : Node} (hi : a[i]? = some n) (hproper : n.pos < n.stop) :
    a.Laid n.pos n.stop [i] := by
  refine ⟨fun j hj => ?_, List.pairwise_singleton _ _⟩
  cases List.mem_singleton.1 hj
  exact ⟨n, hi, Nat.le_refl _, hproper, Nat.le_refl _⟩

theorem Laid.sublist (h : a.Laid lo hi ids) (hs : ids'.Sublist ids) : a.Laid lo hi ids' :=
  ⟨fun i hi => h.within i (hs.subset hi), h.ordered.sublist hs⟩

theorem Laid.widen (h : a.Laid lo hi ids) (hlo : lo' ≤ lo) (hhi : hi ≤ hi') :
    a.Laid lo' hi' ids := by
  refine ⟨fun i hi => ?_, h.ordered⟩
  obtain ⟨n, hn, hpos, hproper, hstop⟩ := h.within i hi
  exact ⟨n, hn, hlo.trans hpos, hproper, hstop.trans hhi⟩

/-- What lies behind may follow what lies in front. -/
theorem Laid.append {mid mid' : Nat} (h : a.Laid lo mid ids) (h' : a.Laid mid' hi ids')
    (hlo : lo ≤ mid') (hmid : mid ≤ mid') (hhi : mid ≤ hi) : a.Laid lo hi (ids ++ ids') := by
  refine ⟨fun i hi => ?_, List.pairwise_append.2 ⟨h.ordered, h'.ordered, ?_⟩⟩
  · rcases List.mem_append.1 hi with hi | hi
    · exact (h.widen (Nat.le_refl _) hhi).within i hi
    · exact (h'.widen hlo (Nat.le_refl _)).within i hi
  · intro i hi j hj n m hn hm
    obtain ⟨n', hn', -, -, hstop⟩ := h.within i hi
    obtain ⟨m', hm', hpos, -, -⟩ := h'.within j hj
    cases hn.symm.trans hn'
    cases hm.symm.trans hm'
    exact hstop.trans (hmid.trans hpos)

theorem children_of_getElem? {i : NodeId} {n : Node} (h : a[i]? = some n) :
    a.children i = n.form.children :=
  children_of_form? (congrArg (·.map Node.form) h)

theorem getElem?_grow (h : a.toList <+: a'.toList) {i : NodeId} {n : Node}
    (hi : a[i]? = some n) : a'[i]? = some n := by
  obtain ⟨later, hlater⟩ := h
  rw [← Array.getElem?_toList] at hi ⊢
  rw [← hlater, List.getElem?_append_left (List.getElem?_eq_some_iff.1 hi).1]
  exact hi

theorem form?_grow (h : a.toList <+: a'.toList) {i : NodeId} {form : Form}
    (hi : a.form? i = some form) : a'.form? i = some form := by
  obtain ⟨n, hn, rfl⟩ := Option.map_eq_some_iff.1 hi
  unfold form?
  rw [getElem?_grow h hn]
  rfl

/-- Nodes stay where they are when others are added. -/
theorem Laid.grow (h : a.Laid lo hi ids) (hgrows : a.toList <+: a'.toList) :
    a'.Laid lo hi ids := by
  refine ⟨fun i hi => ?_, h.ordered.imp_of_mem fun {i j} hi hj hij n m hn hm => ?_⟩
  · obtain ⟨n, hn, hspan⟩ := h.within i hi
    exact ⟨n, getElem?_grow hgrows hn, hspan⟩
  · obtain ⟨n', hn', -⟩ := h.within i hi
    obtain ⟨m', hm', -⟩ := h.within j hj
    cases hn.symm.trans (getElem?_grow hgrows hn')
    cases hm.symm.trans (getElem?_grow hgrows hm')
    exact hij n m hn' hm'

theorem Spanned.grow {tokens : List Token} {n : Node} (h : Spanned tokens a n)
    (hgrows : a.toList <+: a'.toList) : Spanned tokens a' n :=
  { h with children := h.children.grow hgrows }

end

end Arena

namespace Parsing

open Lexer

/-! ## The parser between the tokens -/

/-- Tokens that follow each other and end with the end of the text. -/
structure Sequence (tokens : List Token) : Prop where
  ordered : tokens.Pairwise fun t u => t.stop ≤ u.start
  forward : ∀ t ∈ tokens, t.start ≤ t.stop
  proper : ∀ t ∈ tokens, t.kind ≠ .endOfFile → t.start < t.stop
  ends : ∃ t ∈ tokens, t.kind = .endOfFile

/-- The tokens of a text cut it from its start on. -/
theorem cut_scan (text : List Char) : Cut 0 text (scan text).tokens :=
  .scanFrom (Nat.lt_succ_self _)

theorem sequence_scan (text : List Char) : Sequence (scan text).tokens := by
  obtain ⟨⟨words, crossed, hlast, hwords⟩, hordered, -⟩ := (cut_scan text).accounted [] rfl
  rw [List.nil_append] at hlast
  refine ⟨hordered, fun t ht => ?_, fun t ht hkind => ?_, ?_⟩
  · rw [hlast] at ht
    rcases List.mem_append.1 ht with ht | ht
    · exact Nat.le_of_lt (hwords t ht).2
    · cases List.mem_singleton.1 ht
      exact Nat.le_refl _
  · rw [hlast] at ht
    rcases List.mem_append.1 ht with ht | ht
    · exact (hwords t ht).2
    · cases List.mem_singleton.1 ht
      exact absurd rfl hkind
  · exact ⟨_, hlast ▸ List.mem_append_right _ (List.mem_singleton_self _), rfl⟩

/-- The start of the token at hand. -/
def State.here (s : State) : Nat :=
  (s.tokenAt 0).start

/-- The state has passed the first of `tokens` and has the others left, no
error is held back, and all nodes are spanned by what was passed. -/
structure Orderly (tokens : List Token) (s : State) : Prop where
  passed : ∃ words, tokens = words ++ s.rest ∧ s.prevStop = stopAfter 0 words ∧
    ∀ t ∈ words, t.kind ≠ .endOfFile
  counted : s.remaining = s.rest.length
  quiet : s.errors.size = 0 → s.lastError = none
  nodes : ∀ n ∈ s.arena.toList, Arena.Spanned tokens s.arena n

/-- The nodes `given` wait for a node that starts at the start `start` of a
token. When `moved` is set, a token was passed since. -/
structure Stands (tokens : List Token) (start : Nat) (given : List NodeId) (moved : Bool)
    (s : State) : Prop where
  orderly : Orderly tokens s
  anchor : ∃ t ∈ tokens, t.start = start
  behind : start ≤ s.here
  laid : s.arena.Laid start s.prevStop given
  moved : moved = true → start < s.prevStop

/-- The same, with a token at hand that is not the end of the text. -/
structure Faces (tokens : List Token) (start : Nat) (given : List NodeId) (moved : Bool)
    (s : State) : Prop extends Stands tokens start given moved s where
  next : s.kindAt 0 ≠ .endOfFile

theorem stopAfter_concat (n : Nat) (words : List Token) (t : Token) :
    stopAfter n (words ++ [t]) = t.stop := by
  simp [stopAfter]

section

variable {tokens : List Token} {s t : State} {start start' : Nat} {given given' : List NodeId}
  {moved moved' : Bool}

/-! ### The token at hand -/

theorem Orderly.mem_tokenAt (hs : Orderly tokens s) (hT : Sequence tokens) :
    s.tokenAt 0 ∈ s.rest := by
  obtain ⟨words, htokens, -, hwords⟩ := hs.passed
  unfold State.tokenAt
  cases hrest : s.rest with
  | nil =>
    -- the end of the text is never passed
    obtain ⟨last, hlast, hkind⟩ := hT.ends
    rw [htokens, hrest, List.append_nil] at hlast
    exact absurd hkind (hwords last hlast)
  | cons u rest => exact List.mem_cons_self

theorem Orderly.mem_of_rest (hs : Orderly tokens s) {u : Token} (hu : u ∈ s.rest) :
    u ∈ tokens := by
  obtain ⟨words, htokens, -⟩ := hs.passed
  rw [htokens]
  exact List.mem_append_right _ hu

/-- What is left starts behind what was passed. -/
theorem Orderly.prevStop_le (hs : Orderly tokens s) (hT : Sequence tokens) {u : Token}
    (hu : u ∈ s.rest) : s.prevStop ≤ u.start := by
  obtain ⟨words, htokens, hstop, -⟩ := hs.passed
  have hordered := hT.ordered
  rw [htokens] at hordered
  rw [hstop]
  rcases List.eq_nil_or_concat words with rfl | ⟨words, t, rfl⟩
  · exact Nat.zero_le _
  · rw [List.concat_eq_append, stopAfter_concat]
    rw [List.concat_eq_append] at hordered
    exact (List.pairwise_append.1 hordered).2.2 t (by simp) u hu

theorem Orderly.prevStop_le_here (hs : Orderly tokens s) (hT : Sequence tokens) :
    s.prevStop ≤ s.here :=
  hs.prevStop_le hT (hs.mem_tokenAt hT)

theorem Orderly.here_le (hs : Orderly tokens s) (hT : Sequence tokens) {u : Token}
    (hu : u ∈ s.rest) : s.here ≤ u.start := by
  have hordered : s.rest.Pairwise fun t u => t.stop ≤ u.start := by
    obtain ⟨words, htokens, -⟩ := hs.passed
    have hordered := hT.ordered
    rw [htokens] at hordered
    exact (List.pairwise_append.1 hordered).2.1
  have hforward := hT.forward _ (hs.mem_of_rest (hs.mem_tokenAt hT))
  unfold State.here
  revert hforward
  unfold State.tokenAt
  cases hrest : s.rest with
  | nil =>
    rw [hrest] at hu
    exact absurd hu List.not_mem_nil
  | cons t rest =>
    intro hforward
    rw [hrest] at hu hordered
    rcases List.mem_cons.1 hu with rfl | hu
    · exact Nat.le_refl _
    · exact hforward.trans ((List.pairwise_cons.1 hordered).1 u hu)

/-- With fewer tokens left the parser stands further on. -/
theorem Orderly.later (hs : Orderly tokens s) (ht : Orderly tokens t) (hT : Sequence tokens)
    (hle : t.remaining ≤ s.remaining) : s.prevStop ≤ t.prevStop ∧ s.here ≤ t.here := by
  obtain ⟨words, htokens, hstop, -⟩ := hs.passed
  obtain ⟨words', htokens', hstop', -⟩ := ht.passed
  rw [hs.counted, ht.counted] at hle
  obtain ⟨between, hrest⟩ : t.rest <:+ s.rest :=
    List.suffix_of_suffix_length_le ⟨words', htokens'.symm⟩ ⟨words, htokens.symm⟩ hle
  have hwords : words' = words ++ between := by
    refine List.append_left_injective t.rest ?_
    show words' ++ t.rest = words ++ between ++ t.rest
    rw [← htokens', List.append_assoc, hrest, htokens]
  rcases List.eq_nil_or_concat between with rfl | ⟨between, u, rfl⟩
  · -- no token was passed
    have hsame : t.here = s.here := by
      unfold State.here State.tokenAt
      rw [← hrest]
      rfl
    rw [hstop, hstop', hwords, List.append_nil, hsame]
    exact ⟨Nat.le_refl _, Nat.le_refl _⟩
  · -- the last token passed stands between the two
    rw [List.concat_eq_append] at hwords hrest
    have hu : u ∈ s.rest := by
      rw [← hrest]
      simp
    have hlast : t.prevStop = u.stop := by
      rw [hstop', hwords, ← List.append_assoc, stopAfter_concat]
    have hforward := hT.forward u (hs.mem_of_rest hu)
    have hbefore := hs.prevStop_le hT hu
    have hhere := hs.here_le hT hu
    have hafter := ht.prevStop_le_here hT
    omega

theorem Stands.here_mem (h : Stands tokens start given moved s) (hT : Sequence tokens) :
    s.tokenAt 0 ∈ tokens :=
  h.orderly.mem_of_rest (h.orderly.mem_tokenAt hT)

/-! ### Steps -/

/-- Fewer nodes may wait. -/
theorem Stands.sublist (h : Stands tokens start given moved s) (hs : given'.Sublist given)
    (hm : moved' = true → moved = true) : Stands tokens start given' moved' s :=
  { h with laid := h.laid.sublist hs, moved := fun hmoved => h.moved (hm hmoved) }

/-- Where a node waits, a token was passed. -/
theorem Stands.passed (h : Stands tokens start given moved s) (hgiven : given ≠ []) :
    Stands tokens start given true s := by
  obtain ⟨i, hi⟩ := List.exists_mem_of_ne_nil given hgiven
  obtain ⟨n, -, hpos, hproper, hstop⟩ := h.laid.within i hi
  exact { h with moved := fun _ => by omega }

/-- What is not about tokens, nodes and errors may change. -/
theorem Stands.same (h : Stands tokens start given moved s)
    (hsame : t = { s with
      errors := t.errors, depth := t.depth, moduleSyntax := t.moduleSyntax,
      exhausted := t.exhausted })
    (herrors : t.errors.size = s.errors.size) : Stands tokens start given moved t := by
  obtain ⟨⟨hpassed, hcounted, hquiet, hnodes⟩, hanchor, hbehind, hlaid, hmoved⟩ := h
  rw [← herrors] at hquiet
  rw [hsame]
  exact ⟨⟨hpassed, hcounted, hquiet, hnodes⟩, hanchor, hbehind, hlaid, hmoved⟩

theorem Orderly.advance (h : Orderly tokens s) (hnext : s.kindAt 0 ≠ .endOfFile)
    (hT : Sequence tokens) :
    Orderly tokens s.advance ∧ s.advance.prevStop = (s.tokenAt 0).stop ∧
      s.advance.remaining + 1 = s.remaining := by
  obtain ⟨words, htokens, hstop, hwords⟩ := h.passed
  have hmem := h.mem_tokenAt hT
  revert hmem hnext
  unfold State.kindAt State.tokenAt State.advance
  have hcounted := h.counted
  cases hrest : s.rest with
  | nil => exact fun _ hmem => absurd hmem List.not_mem_nil
  | cons u rest =>
    intro hnext _
    rw [hrest] at htokens hcounted
    have hkind : ¬ u.kind = .endOfFile := hnext
    simp only [if_neg hkind]
    refine ⟨⟨⟨words ++ [u], ?_, ?_, ?_⟩, ?_, h.quiet, h.nodes⟩, rfl, ?_⟩
    · rw [htokens, List.append_assoc]
      rfl
    · exact (stopAfter_concat 0 words u).symm
    · intro w hw
      rcases List.mem_append.1 hw with hw | hw
      · exact hwords w hw
      · cases List.mem_singleton.1 hw
        exact hkind
    · show s.remaining - 1 = rest.length
      rw [hcounted]
      rfl
    · show s.remaining - 1 + 1 = s.remaining
      rw [hcounted]
      rfl

/-- The token at hand is passed. -/
theorem Faces.advance (h : Faces tokens start given moved s) (hT : Sequence tokens) :
    Stands tokens start given true s.advance := by
  obtain ⟨horderly, hstop, hremaining⟩ := h.orderly.advance h.next hT
  have hproper := hT.proper _ (h.here_mem hT) h.next
  obtain ⟨hprev, hhere⟩ := h.orderly.later horderly hT (by omega)
  refine ⟨horderly, h.anchor, h.behind.trans hhere, ?_, fun _ => ?_⟩
  · rw [advance_arena]
    exact h.laid.widen (Nat.le_refl _) hprev
  · rw [hstop]
    exact Nat.lt_of_le_of_lt h.behind hproper

/-- At the end of the text no token is passed. -/
theorem Stands.advance (h : Stands tokens start given moved s) (hT : Sequence tokens) :
    Stands tokens start given moved s.advance := by
  by_cases hnext : s.kindAt 0 = .endOfFile
  · have hsame : s.advance = s := by
      revert hnext
      unfold State.kindAt State.tokenAt State.advance
      cases s.rest with
      | nil => exact fun _ => rfl
      | cons u rest => exact fun hkind => if_pos hkind
    rwa [hsame]
  · exact (Faces.advance ⟨h, hnext⟩ hT).sublist (.refl _) fun _ => rfl

theorem Orderly.push (h : Orderly tokens s) {n : Node}
    (hn : Arena.Spanned tokens (s.arena.push n) n) :
    Orderly tokens { s with arena := s.arena.push n } := by
  refine ⟨h.passed, h.counted, h.quiet, fun m hm => ?_⟩
  have hm : m ∈ (s.arena.push n).toList := hm
  rw [Array.toList_push] at hm
  rcases List.mem_append.1 hm with hm | hm
  · exact (h.nodes m hm).grow (prefix_push s n)
  · cases List.mem_singleton.1 hm
    exact hn

/-- A node that takes the waiting ones for its children and stops where the
last token passed does. -/
theorem Stands.push (h : Stands tokens start given true s) (hT : Sequence tokens) {form : Form}
    (hform : given = form.children) :
    Stands tokens start [s.arena.size] true
      { s with arena := s.arena.push ⟨form, start, s.prevStop⟩ } := by
  obtain ⟨words, htokens, hstop, hwords⟩ := h.orderly.passed
  have hmoved := h.moved rfl
  have hspanned : Arena.Spanned tokens (s.arena.push ⟨form, start, s.prevStop⟩)
      ⟨form, start, s.prevStop⟩ := by
    refine ⟨?_, ?_, hmoved, ?_⟩
    · -- the token that the node starts with was passed
      obtain ⟨t, ht, hstart⟩ := h.anchor
      refine ⟨t, ht, hwords t ?_, hstart⟩
      rw [htokens] at ht
      refine (List.mem_append.1 ht).resolve_right fun hrest => ?_
      have := h.orderly.prevStop_le hT hrest
      omega
    · rcases List.eq_nil_or_concat words with rfl | ⟨words, u, rfl⟩
      · rw [hstop] at hmoved
        exact absurd hmoved (Nat.not_lt_zero _)
      · rw [List.concat_eq_append] at htokens hstop hwords
        refine ⟨u, ?_, hwords u (by simp), ?_⟩
        · rw [htokens]
          simp
        · rw [hstop, stopAfter_concat]
    · have hlaid := h.laid.grow (prefix_push s ⟨form, start, s.prevStop⟩)
      rwa [hform] at hlaid
  refine ⟨h.orderly.push hspanned, h.anchor, h.behind, ?_, fun _ => hmoved⟩
  exact Arena.laid_one (n := ⟨form, start, s.prevStop⟩) Array.getElem?_push_size hmoved

/-- A node may start with the token at hand. -/
theorem Orderly.stands (h : Orderly tokens s) (hT : Sequence tokens) :
    Stands tokens s.here [] false s where
  orderly := h
  anchor := ⟨_, h.mem_of_rest (h.mem_tokenAt hT), rfl⟩
  behind := Nat.le_refl _
  laid := Arena.laid_nil _ _ _
  moved := fun hmoved => absurd hmoved Bool.false_ne_true

/-- Nodes that were made from the token at hand on follow those that wait. -/
theorem Stands.join (h : Stands tokens start given moved s)
    (ht : Stands tokens s.here given' moved' t) (hT : Sequence tokens)
    (hgrows : s.arena.toList <+: t.arena.toList) (hle : t.remaining ≤ s.remaining) :
    Stands tokens start (given ++ given') (moved' || moved) t := by
  obtain ⟨hprev, hhere⟩ := h.orderly.later ht.orderly hT hle
  have hbetween := h.orderly.prevStop_le_here hT
  refine ⟨ht.orderly, h.anchor, h.behind.trans hhere, ?_, fun hmoved => ?_⟩
  · exact (h.laid.grow hgrows).append ht.laid h.behind hbetween hprev
  · rcases Bool.or_eq_true_iff.1 hmoved with hmoved | hmoved
    · exact Nat.lt_of_le_of_lt h.behind (ht.moved hmoved)
    · exact Nat.lt_of_lt_of_le (h.moved hmoved) hprev

/-- The token at hand becomes a node. -/
theorem Faces.leaf (h : Faces tokens start given moved s) (hT : Sequence tokens) {form : Form}
    (hform : form.children = []) :
    Stands tokens start (given ++ [s.advance.arena.size]) true { s.advance with
      arena := s.advance.arena.push ⟨form, (s.tokenAt 0).start, (s.tokenAt 0).stop⟩ } := by
  obtain ⟨horderly, hstop, hremaining⟩ := h.orderly.advance h.next hT
  have hpassed := Faces.advance ⟨h.orderly.stands hT, h.next⟩ hT
  have hnode := hpassed.push hT hform.symm
  rw [← hstop]
  refine h.toStands.join hnode hT ?_ ?_
  · rw [← advance_arena s]
    exact prefix_push s.advance _
  · show s.advance.remaining ≤ s.remaining
    omega

/-- After an attempt all is as it was. -/
theorem Stands.rewind (h : Stands tokens start given moved s) (hgrows : Grows s t) :
    Stands tokens start given moved (t.rewind s.mark) := by
  refine h.same ?_ (rewind_errors hgrows)
  show ({ t.rewind s.mark with arena := (t.rewind s.mark).arena } : State) = _
  rw [rewind_arena hgrows]
  rfl

end

theorem orderly_start (tokens : List Token) : Orderly tokens (.start tokens) where
  passed := ⟨[], rfl, rfl, fun _ ht => absurd ht List.not_mem_nil⟩
  counted := rfl
  quiet := fun _ => rfl
  nodes := fun _ hn => absurd hn List.not_mem_nil

end Parsing

end ScriptAnalysis
