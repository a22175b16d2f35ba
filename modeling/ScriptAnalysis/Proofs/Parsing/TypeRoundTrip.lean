import ScriptAnalysis.Proofs.Parsing.Turns
import ScriptAnalysis.Proofs.Parsing.TypeTrees

/-!
# Reading back a type

The words of a type are read by the rules for types, and the node that they add
is the type again. Three tokens are looked at to tell a function type from a type
in parentheses, and what stands behind the type must not be able to continue it.

**Trees.** A type is read at two places: as a whole type (`Typed`), and by the loop
over brackets, which is where the operands of arrays and unions come from
(`Looped`). `Readable` says both, and `readable` shows it for all canonical trees,
by recursion over the tree.

**Result.** `type_roundTrip`: the words of any tree are read back as the tree.
-/
namespace ScriptAnalysis.Parsing

/-! ## Types without parts -/

section

variable {self : Productions} {s : State} {l : List Token}

/-- A name without dots behind it. -/
theorem reads_typeReference {t : Token} (hs : At s (t :: l)) (ht : t.kind ≠ .endOfFile)
    (hl : nextKind l ≠ .dot) : Reads typeReference s l fun i a =>
      ∃ j, a.form? i = some (.typeReference j) ∧ a.form? j = some (.identifier t.word.text) := by
  refine .look rfl ((reads_wordAsName hs ht).bind fun first u hu hfirst => ?_)
  have hname : Reads (dottedName first) u l
      fun j a => a.form? j = some (.identifier t.word.text) := by
    refine (comesTo_iterate (P := fun j a => a.form? j = some (.identifier t.word.text))
      hu.toAt hfirst).done fun b v hv hb => ?_
    refine .look (accept_other ?_) (.pure hv.toAt ⟨b, rfl, hb⟩)
    rw [hv.toAt.kind]
    exact hl
  refine hname.bind fun j v hv hj => reads_finish hv.toAt _ fun i a hgrows hi => ?_
  exact ⟨j, hi, Arena.form?_grow hgrows hj⟩

/-! ### Which rule reads a type -/

theorem primaryType_keyword (self : Productions) (h : s.kindAt 0 ∈ TokenKind.typeWords) :
    primaryType self s = keywordNode s := by
  unfold primaryType
  rw [kind_bind]
  generalize s.kindAt 0 = k at h ⊢
  simp only [TokenKind.typeWords, List.mem_cons, List.not_mem_nil, or_false] at h
  rcases h with rfl | rfl | rfl | rfl | rfl | rfl | rfl | rfl | rfl <;> rfl

theorem primaryType_name (self : Productions) (h : (s.kindAt 0).isName = true)
    (hword : s.kindAt 0 ∉ TokenKind.typeWords) : primaryType self s = typeReference s := by
  unfold primaryType
  rw [kind_bind]
  generalize s.kindAt 0 = k at h hword
  split
  case h_15 => exact congrFun (if_pos h) s
  all_goals first | exact absurd h (by decide) | exact absurd (by decide) hword

theorem primaryType_openParen (self : Productions) (h : s.kindAt 0 = .openParen) :
    primaryType self s =
      if s.startsFunctionType then functionType self s else parenthesizedType self s := by
  unfold primaryType
  rw [kind_bind, h]
  show (if s.startsFunctionType = true then _ else _ : Parser NodeId) s = _
  split <;> rfl

theorem reads_literalType (value : TypeLiteral) {t : Token} (hs : At s (t :: l))
    (ht : t.word = value.word) : Reads (primaryType self) s l fun i a =>
      ∃ j, a.form? i = some (.literalType j) ∧ a.form? j = some value.form := by
  have hkind : s.kindAt 0 = value.word.kind := by
    rw [hs.kindAt, ← ht]
    rfl
  have hkind' : t.kind = value.word.kind := congrArg Word.kind ht
  have hvalue : t.value = value.word.value := congrArg Word.value ht
  have hne : t.kind ≠ .endOfFile := by
    rw [hkind']
    unfold TypeLiteral.word
    split <;> exact nofun
  have hrest : ∀ {x : Parser NodeId}, Reads x s l (fun j a => a.form? j = some value.form) →
      Reads (do
        let start ← here
        let literal ← x
        finish start (.literalType literal)) s l fun i a =>
          ∃ j, a.form? i = some (.literalType j) ∧ a.form? j = some value.form := fun hx =>
    .look rfl (hx.bind fun j u hu hj => reads_finish hu.toAt _ fun i a hgrows hi =>
      ⟨j, hi, Arena.form?_grow hgrows hj⟩)
  refine .look rfl ?_
  rw [hkind]
  have hkeyword := reads_keywordNode hs hne
  have hliteral := reads_literal hs hne
  rw [hkind'] at hkeyword hliteral
  rw [hvalue] at hliteral
  cases value with
  | truth b => cases b <;> exact hrest hkeyword
  | number text => exact hrest hliteral
  | string text => exact hrest hliteral

end

/-! ## Levels and what follows -/

/-- Inside a type the rules can go `levels` deep, the type itself included. -/
structure Inside (n : Nat) (s : State) (levels : Nat) : Prop where
  uses : levels ≤ n + 1
  depth : s.depth + levels ≤ maxDepth + 1

/-- From here on the rules can go `levels` deep. -/
structure Room (n : Nat) (s : State) (levels : Nat) : Prop where
  uses : levels ≤ n
  depth : s.depth + levels ≤ maxDepth

/-- What stands behind a type that is an operand. -/
structure Follows (l : List Token) : Prop where
  dot : nextKind l ≠ .dot
  arrow : nextKind l ≠ .arrow

/-- What stands behind a whole type. -/
structure Stops (l : List Token) : Prop extends Follows l where
  bar : nextKind l ≠ .bar
  openBracket : nextKind l ≠ .openBracket

theorem stops_of_nextKind {k : TokenKind} {l : List Token} (h : nextKind l = k)
    (hk : k ∉ [TokenKind.dot, .arrow, .bar, .openBracket]) : Stops l := by
  refine ⟨⟨?_, ?_⟩, ?_, ?_⟩ <;> (intro hl; rw [← h, hl] at hk; exact hk (by decide))

theorem Inside.mono {n k k' : Nat} {s : State} (h : Inside n s k) (hk : k' ≤ k) : Inside n s k' :=
  ⟨hk.trans h.uses, by have := h.depth; omega⟩

theorem Inside.room {n k : Nat} {s : State} (h : Inside n s (k + 1)) : Room n s k :=
  ⟨Nat.le_of_succ_le_succ h.uses, by have := h.depth; omega⟩

theorem Inside.passed {n k : Nat} {s t : State} {l : List Token} (h : Inside n s k)
    (ht : Passed s l t) : Inside n t k :=
  ⟨h.uses, by rw [ht.depth]; exact h.depth⟩

theorem Room.passed {n k : Nat} {s t : State} {l : List Token} (h : Room n s k)
    (ht : Passed s l t) : Room n t k :=
  ⟨h.uses, by rw [ht.depth]; exact h.depth⟩

theorem Room.mono {n k k' : Nat} {s : State} (h : Room n s k) (hk : k' ≤ k) : Room n s k' :=
  ⟨hk.trans h.uses, by have := h.depth; omega⟩

theorem Room.deeper {n k : Nat} {s : State} (h : Room (n + 1) s k) : Inside n s.deeper k :=
  ⟨h.uses, by
    have := h.depth
    show s.depth + 1 + k ≤ maxDepth + 1
    omega⟩

/-! ## The rules -/

/-- The loop over brackets is reached with the tree. -/
def Looped (t : TypeTree) (F : List Token → Prop) : Prop :=
  ∀ n s l m, Inside n s t.levels → At s m → Spells t.words m l → F l →
    ComesTo (arrayType (productions n)) (arrayTurn (s.tokenAt 0).start) s l fun i a => t.Shows a i

/-- The rule for types reads the tree. -/
def Typed (t : TypeTree) : Prop :=
  ∀ n s l m, Room n s t.levels → At s m → Spells t.words m l → Stops l →
    Reads (productions n).type s l fun i a => t.Shows a i

/-- The rules read the tree, as a whole type and as an operand. -/
structure Readable (t : TypeTree) : Prop where
  typed : Typed t
  looped : t.isOperand = true → Looped t Follows

/-- The rule for parameters reads the tree. -/
def ReadableParameter (p : ParameterTree) : Prop :=
  ∀ n s l m, Room n s p.levels → At s m → Spells p.words m l →
    nextKind l = .comma ∨ nextKind l = .closeParen →
    Reads (parameter (productions n)) s l fun i a => p.Shows a i

section

variable {n start : Nat} {s : State} {l m : List Token} {x : Parser NodeId}

/-- What is read in front of the loop over brackets. -/
theorem comesTo_arrayType {P : NodeId → Arena → Prop} {self : Productions}
    (h : Reads (primaryType self) s l P) :
    ComesTo (arrayType self) (arrayTurn (s.tokenAt 0).start) s l P := by
  have hloop : ComesTo (primaryType self >>= fun first =>
      iterate first (arrayTurn (s.tokenAt 0).start)) (arrayTurn (s.tokenAt 0).start) s l P :=
    .bind h fun first u hu hfirst => comesTo_iterate hu.toAt hfirst
  exact hloop

/-- Without brackets the loop ends. -/
theorem ComesTo.arrayTurn_done {P : NodeId → Arena → Prop}
    (h : ComesTo x (arrayTurn start) s l P) (hl : nextKind l ≠ .openBracket) : Reads x s l P := by
  refine h.done fun element u hu helement => ?_
  have hnext : (u.kindAt 0 == .openBracket) = false := by
    rw [hu.toAt.kind]
    exact beq_false_of_ne hl
  refine .look rfl (.look rfl (.look rfl ?_))
  rw [hnext]
  exact .pure hu.toAt ⟨element, rfl, helement⟩

theorem looped_array {element : TypeTree} (h : Looped element Follows) :
    Looped (.array element) Follows := by
  intro n s l m hinside hs hspells hfollows
  obtain ⟨m', helement, hbrackets⟩ := spells_append.1 hspells
  obtain ⟨t, _, rfl, ht, hline, t', l, rfl, ht', -, rfl⟩ := hbrackets
  have hkind : t.kind = .openBracket := congrArg Word.kind ht
  have hkind' : t'.kind = .closeBracket := congrArg Word.kind ht'
  have hfollows' : Follows (t :: t' :: l) := by
    refine ⟨?_, ?_⟩ <;> (rw [show nextKind (t :: t' :: l) = .openBracket from hkind]; decide)
  refine (h n s _ m hinside hs helement hfollows').again
    (by simp only [List.length_cons]; omega) fun i u hu hi => ?_
  have hcond : ((u.kindAt 0 == .openBracket) && (u.kindAt 1 == .closeBracket) &&
      !(u.tokenAt 0).afterBreak) = true := by
    have hbreak : (u.tokenAt 0).afterBreak = false := by
      unfold State.tokenAt
      rw [hu.toAt.rest]
      exact hline hkind
    rw [hbreak, hu.toAt.kindAt, hu.toAt.kindAt]
    simp [hkind, hkind']
  refine .look rfl (.look rfl (.look rfl ?_))
  rw [if_pos hcond]
  refine .advance hu.toAt (by rw [hkind]; decide) fun v hv => ?_
  refine .advance hv.toAt (by rw [hkind']; decide) fun w hw => ?_
  refine (reads_finish (P := fun i a => TypeTree.Shows a (.array element) i) hw.toAt _
    fun j a hgrows hj => ⟨i, hj, ?_⟩).bind fun j v hv hj => .pure hv.toAt ⟨j, rfl, hj⟩
  exact (hi.grow (hv.arena.trans hw.arena)).grow hgrows

/-- A type does not open with a bar. -/
theorem Spells.ne_bar {t : TypeTree} (h : Spells t.words m l) : nextKind m ≠ .bar := by
  obtain ⟨w, ws, hwords, hopens⟩ := t.words_opens
  rw [hwords] at h
  obtain ⟨u, m', rfl, hu, -⟩ := h
  rw [← hu] at hopens
  exact hopens.bar

/-- What the loop over brackets is reached with is a type, if nothing joins it. -/
theorem reads_unionType_one {self : Productions} {P : NodeId → Arena → Prop} (hs : At s m)
    (hbar : nextKind m ≠ .bar) (hfirst : Reads (arrayType self) s l P) (hl : nextKind l ≠ .bar) :
    Reads (unionType self) s l P := by
  have hbar' : s.kindAt 0 ≠ .bar := by
    rw [hs.kind]
    exact hbar
  refine .look rfl (.look (accept_other hbar') (hfirst.bind fun i u hu hi => .look rfl ?_))
  have hnext : (u.kindAt 0 == .bar) = false := by
    rw [hu.toAt.kind]
    exact beq_false_of_ne hl
  rw [hnext]
  exact .pure hu.toAt hi

/-- A union is read where types are read. -/
theorem typed_of_unionType {t : TypeTree} (h : ∀ n s l m, Inside n s t.levels → At s m →
    Spells t.words m l → Stops l →
    Reads (unionType (productions n)) s l fun i a => t.Shows a i) : Typed t := by
  intro n s l m hroom hs hspells hstops
  have hpos := t.levels_pos
  obtain ⟨k, rfl⟩ : ∃ k, n = k + 1 := ⟨n - 1, by have := hroom.uses; omega⟩
  have hdepth : s.depth < maxDepth := by
    have := hroom.depth
    omega
  exact Reads.nested hdepth
    (h k s.deeper l m hroom.deeper ⟨hs.rest, hs.counted⟩ hspells hstops)

theorem typed_of_looped {t : TypeTree} (h : Looped t Stops) : Typed t :=
  typed_of_unionType fun n s l m hinside hs hspells hstops =>
    reads_unionType_one hs hspells.ne_bar
      ((h n s l m hinside hs hspells hstops).arrayTurn_done hstops.openBracket) hstops.bar

theorem Looped.mono {t : TypeTree} {F F' : List Token → Prop} (h : Looped t F)
    (hF : ∀ l, F' l → F l) : Looped t F' :=
  fun n s l m hinside hs hspells hl => h n s l m hinside hs hspells (hF l hl)

/-- A tree that is read as an operand is read as a whole type. -/
theorem readable_of_looped {t : TypeTree} (h : Looped t Follows) : Readable t :=
  ⟨typed_of_looped (h.mono fun _ hl => hl.toFollows), fun _ => h⟩

/-! ### Unions -/

theorem showsMembers_append {a : Arena} {ts : List TypeTree} {is : List NodeId} {t : TypeTree}
    {i : NodeId} (h : TypeTree.ShowsMembers a ts is) (ht : t.Shows a i) :
    TypeTree.ShowsMembers a (ts ++ [t]) (is ++ [i]) := by
  induction ts generalizing is with
  | nil =>
    subst h
    exact ⟨i, [], rfl, ht, rfl⟩
  | cons u ts ih =>
    obtain ⟨j, js, rfl, hj, hjs⟩ := h
    exact ⟨j, js ++ [i], rfl, hj, ih hjs⟩

/-- Behind a bar a member is read, up to the next bar or the end of the union. -/
theorem reads_members {x : Parser (List NodeId)} {ts before : List TypeTree}
    (hts : ∀ t ∈ ts, Looped t Follows) (hinside : Inside n s (TypeTree.levelsOfMembers ts))
    (h : ComesTo x (unionTurn (productions n)) s m fun is a => TypeTree.ShowsMembers a before is)
    (hspells : Spells (TypeTree.wordsOfMembers ts) m l) (hstops : Stops l) :
    Reads x s l fun is a => TypeTree.ShowsMembers a (before ++ ts) is := by
  induction ts generalizing before m with
  | nil =>
    obtain rfl : m = l := hspells
    rw [List.append_nil]
    refine h.done fun is u hu his => .look (accept_other ?_) (.pure hu.toAt ⟨is, rfl, his⟩)
    rw [hu.toAt.kind]
    exact hstops.bar
  | cons t ts ih =>
    obtain ⟨bar, m', rfl, hbar, -, hrest⟩ := hspells
    obtain ⟨m'', hmember, hmore⟩ := spells_append.1 hrest
    have hkind : bar.kind = .bar := congrArg Word.kind hbar
    -- the next member has a bar in front of it
    have hnext : nextKind m'' = .bar ∨ m'' = l := by
      cases ts with
      | nil => exact .inr hmore
      | cons t' ts =>
        obtain ⟨bar', _, rfl, hbar', -⟩ := hmore
        exact .inl (congrArg Word.kind hbar')
    have hfollows : Follows m'' ∧ nextKind m'' ≠ .openBracket := by
      rcases hnext with hnext | rfl
      · refine ⟨⟨?_, ?_⟩, ?_⟩ <;> (rw [hnext]; decide)
      · exact ⟨hstops.toFollows, hstops.openBracket⟩
    rw [← List.singleton_append, ← List.append_assoc]
    refine ih (fun u hu => hts u (List.mem_cons_of_mem _ hu))
      (hinside.mono (Nat.le_max_right _ _)) (h.again ?_ fun is u hu his => ?_) hmore
    · have := hmember.length_le
      simp only [List.length_cons]
      omega
    · refine .accept hu.toAt hkind (by decide) fun v hv => ?_
      have hmost := ((hinside.mono (Nat.le_max_left _ _)).passed hu).passed hv
      have hloop := hts t List.mem_cons_self n v m'' m' hmost hv.toAt hmember hfollows.1
      have htype := hloop.arrayTurn_done hfollows.2
      refine htype.bind fun i w hw hi => .pure hw.toAt ⟨is ++ [i], rfl, ?_⟩
      exact showsMembers_append (his.grow (hv.arena.trans hw.arena)) hi

theorem readable_union {first second : TypeTree} {more : List TypeTree}
    (hfirst : Looped first Follows) (hmore : ∀ t ∈ second :: more, Looped t Follows) :
    Readable (.union first second more) := by
  refine ⟨typed_of_unionType fun n s l m hinside hs hspells hstops => ?_, nofun⟩
  have hwords : (TypeTree.union first second more).words =
      first.words ++ TypeTree.wordsOfMembers (second :: more) := by
    rw [TypeTree.words, TypeTree.wordsOfMembers, List.append_assoc]
  rw [hwords] at hspells
  obtain ⟨m', hfirst', hmore'⟩ := spells_append.1 hspells
  obtain ⟨bar, m'', hm', hbar, -⟩ := id hmore'
  have hkind : nextKind m' = .bar := by
    rw [hm']
    exact congrArg Word.kind hbar
  have hbar' : s.kindAt 0 ≠ .bar := by
    rw [hs.kind]
    exact hfirst'.ne_bar
  have hfollows : Follows m' := by
    refine ⟨?_, ?_⟩ <;> (rw [hkind]; decide)
  have hloop := hfirst n s m' m (hinside.mono (Nat.le_max_left _ _)) hs hfirst' hfollows
  have htype := hloop.arrayTurn_done (by rw [hkind]; decide)
  refine .look rfl (.look (accept_other hbar') (htype.bind fun i u hu hi => .look rfl ?_))
  have hnext : (u.kindAt 0 == .bar) = true := by
    rw [hu.toAt.kind]
    exact beq_iff_eq.2 hkind
  rw [hnext]
  have hfirst : TypeTree.ShowsMembers u.arena [first] [i] := ⟨i, [], rfl, hi, rfl⟩
  refine Reads.bind (reads_members hmore ?_ (comesTo_iterate hu.toAt hfirst) hmore' hstops)
    fun is v hv his => ?_
  · exact (hinside.mono (Nat.le_max_right _ _)).passed hu
  · obtain ⟨j, js, rfl, hj, k, ks, rfl, hk, hks⟩ := his
    refine reads_finish hv.toAt _ fun i a hgrows hi => ?_
    exact ⟨j, k, ks, hi, hj.grow hgrows, hk.grow hgrows, hks.grow hgrows⟩

end

/-! ### Types without parts -/

section

variable {n : Nat} {s : State} {l m : List Token} {t : TypeTree} {F : List Token → Prop}

theorem looped_of_primaryType (h : ∀ n s l m, Inside n s t.levels → At s m →
    Spells t.words m l → F l → Reads (primaryType (productions n)) s l fun i a => t.Shows a i) :
    Looped t F :=
  fun n s l m hinside hs hspells hl => comesTo_arrayType (h n s l m hinside hs hspells hl)

theorem looped_keyword (word : TypeWord) : Looped (.keyword word) Follows := by
  refine looped_of_primaryType fun n s l m _ hs hspells _ => ?_
  obtain ⟨t, _, rfl, ht, -, rfl⟩ := hspells
  have hkind : t.kind = word.1 := congrArg Word.kind ht
  have hword : s.kindAt 0 ∈ TokenKind.typeWords := by
    rw [hs.kindAt]
    exact hkind ▸ word.2
  have hne : t.kind ≠ .endOfFile := fun h => absurd (h ▸ hkind ▸ word.2) (by decide)
  have hread := (reads_keywordNode hs hne).congr (primaryType_keyword (productions n) hword)
  rw [hkind] at hread
  exact hread

theorem looped_literal (value : TypeLiteral) : Looped (.literal value) Follows := by
  refine looped_of_primaryType fun n s l m _ hs hspells _ => ?_
  obtain ⟨t, _, rfl, ht, -, rfl⟩ := hspells
  exact reads_literalType value hs ht

theorem looped_reference (name : TypeName) : Looped (.reference name) Follows := by
  refine looped_of_primaryType fun n s l m _ hs hspells hfollows => ?_
  obtain ⟨t, _, rfl, ht, -, rfl⟩ := hspells
  obtain ⟨w, hname, hword⟩ := name
  subst ht
  have hkind : s.kindAt 0 = t.kind := hs.kindAt 0
  have hne : t.kind ≠ .endOfFile := fun h => by
    rw [show t.word.kind = _ from h] at hname
    exact absurd hname (by decide)
  refine (reads_typeReference hs hne hfollows.dot).congr (primaryType_name _ ?_ ?_)
  · rw [hkind]
    exact hname
  · rw [hkind]
    exact hword

/-! ### Parentheses -/

/-- What looks like a type in parentheses is one, unless an arrow follows. -/
theorem startsFunctionType_inner {p c : Token} (hs : At s (p :: m))
    (h : Spells t.words m (c :: l)) (hc : c.kind = .closeParen) (hl : nextKind l ≠ .arrow) :
    s.startsFunctionType = false := by
  obtain ⟨w, ws, hwords, hopens⟩ := t.words_opens
  rw [hwords] at h
  obtain ⟨u, m', rfl, rfl, -, hrest⟩ := h
  have hfirst : s.kindAt 1 = u.kind := hs.kindAt 1
  have hne : ¬ (u.kind == .closeParen) = true := fun heq => hopens.closeParen (eq_of_beq heq)
  unfold State.startsFunctionType
  rw [hfirst, if_neg hne]
  split
  case isFalse => rfl
  case isTrue hname =>
    rcases hopens.next hname with rfl | ⟨w', ws', rfl, hw'⟩
    · obtain rfl : m' = c :: l := hrest
      have hsecond : s.kindAt 2 = .closeParen := (hs.kindAt 2).trans hc
      have hthird : s.kindAt 3 = nextKind l := by
        rw [hs.kindAt]
        rfl
      rw [hsecond, hthird]
      exact beq_false_of_ne hl
    · obtain ⟨v, m'', rfl, rfl, -, -⟩ := hrest
      have hsecond : s.kindAt 2 = v.kind := hs.kindAt 2
      rw [hsecond]
      rcases hw' with hw' | hw' <;> rw [show v.kind = _ from hw']

theorem looped_parenthesized {inner : TypeTree} (h : Typed inner) :
    Looped (.parenthesized inner) Follows := by
  refine looped_of_primaryType fun n s l m hinside hs hspells hfollows => ?_
  obtain ⟨p, m', rfl, hp, -, hrest⟩ := hspells
  obtain ⟨m'', hinner, c, l, rfl, hc, -, rfl⟩ := spells_append.1 hrest
  have hopen : p.kind = .openParen := congrArg Word.kind hp
  have hclose : c.kind = .closeParen := congrArg Word.kind hc
  have hnot := startsFunctionType_inner hs hinner hclose hfollows.arrow
  have hrun := primaryType_openParen (productions n) ((hs.kindAt 0).trans hopen)
  rw [hnot] at hrun
  refine Reads.congr (.look rfl (.advance hs (by rw [hopen]; decide) fun u hu => ?_)) hrun
  have hstops : Stops (c :: l) := stops_of_nextKind (k := .closeParen) hclose (by decide)
  refine (h n u _ _ (hinside.room.passed hu) hu.toAt hinner hstops).bind fun i v hv hi => ?_
  refine .expect hv.toAt hclose (by decide) fun w hw => ?_
  refine reads_finish hw.toAt _ fun j a hgrows hj => ?_
  exact ⟨i, hj, hi.grow (hw.arena.trans hgrows)⟩

/-! ### Parameters -/

/-- In front of a mark a word is no modifier. -/
theorem memberModifiers_none (h : s.kindAt 1 ∈ [TokenKind.question, .colon, .comma, .closeParen]) :
    memberModifiers s = (.none, s) := by
  have hnone : s.memberModifier? = none := by
    unfold State.memberModifier?
    generalize s.kindAt 1 = k at h
    simp only [List.mem_cons, List.not_mem_nil, or_false] at h
    rcases h with rfl | rfl | rfl | rfl <;> rfl
  unfold memberModifiers
  refine iterate_done ?_
  rw [get_bind, hnone]
  rfl

theorem reads_bindingName {name : BindingName} {t : Token} (hs : At s (t :: l))
    (ht : t.word = name.1) :
    Reads bindingName s l fun i a => a.form? i = some (.identifier name.1.text) := by
  have hname : t.kind.isName = true := by
    rw [show t.kind = name.1.kind from congrArg Word.kind ht]
    exact name.2
  have hne : t.kind ≠ .endOfFile := fun h => absurd (h ▸ hname) (by decide)
  have hrun : bindingName s = wordAsName s := by
    unfold bindingName
    rw [kind_bind, hs.kindAt]
    exact congrFun (if_pos hname) s
  rw [← ht]
  exact (reads_wordAsName hs hne).congr hrun

/-- The question mark of a parameter that may be left out, or what follows. -/
theorem Spells.nextKind_optional {optional : Bool} (h : Spells (Word.optionalMark optional) m l) :
    nextKind m = .question ∨ m = l := by
  cases optional with
  | false => exact .inr h
  | true =>
    obtain ⟨t, m', rfl, ht, -⟩ := h
    exact .inl (congrArg Word.kind ht)

theorem Reads.optional {β : Type} {optional : Bool} {f : Bool → Parser β} {m' : List Token}
    {R : β → Arena → Prop} (hs : At s m) (h : Spells (Word.optionalMark optional) m m')
    (hm' : nextKind m' ≠ .question) (hf : ∀ u, Passed s m' u → Reads (f optional) u l R) :
    Reads (Parsing.accept .question >>= f) s l R := by
  cases optional with
  | false =>
    obtain rfl : m = m' := h
    refine .look (accept_other ?_) (hf s hs.passed)
    rw [hs.kind]
    exact hm'
  | true =>
    obtain ⟨q, _, rfl, hq, -, rfl⟩ := h
    exact .accept hs (congrArg Word.kind hq) (by decide) hf

/-- A parameter, if its type is read as `A` says. -/
theorem reads_parameter {self : Productions} {name : BindingName} {optional : Bool}
    {A : Option NodeId → Arena → Prop} {m' : List Token} (hs : At s m)
    (hname : Spells (name.1 :: Word.optionalMark optional) m m')
    (hnext : nextKind m' ∈ [TokenKind.colon, .comma, .closeParen])
    (htype : ∀ u, Passed s m' u → Reads (ascription self) u l A)
    (hl : nextKind l = .comma ∨ nextKind l = .closeParen) :
    Reads (parameter self) s l fun i a => ∃ b j type, b.toList <+: a.toList ∧ A type b ∧
      a.form? i = some (.parameter
        { modifiers := .none, name := j, optional, ascription := type, initializer := none }) ∧
      a.form? j = some (.identifier name.1.text) := by
  obtain ⟨t, m'', rfl, ht, -, hmark⟩ := hname
  have hmarks : s.kindAt 1 ∈ [TokenKind.question, .colon, .comma, .closeParen] := by
    rw [show s.kindAt 1 = nextKind m'' from hs.kindAt 1]
    rcases hmark.nextKind_optional with h | rfl
    · rw [h]
      exact List.mem_cons_self
    · exact List.mem_cons_of_mem _ hnext
  have hquestion : nextKind m' ≠ .question := by
    intro h
    rw [h] at hnext
    exact absurd hnext (by decide)
  refine .look rfl (.look (memberModifiers_none hmarks) ?_)
  refine (reads_bindingName hs ht).bind fun j u hu hj => ?_
  refine .optional hu.toAt hmark hquestion fun v hv => ?_
  refine (htype v (hu.trans hv)).bind fun type w hw htype => ?_
  have hequals : w.kindAt 0 ≠ .equals := by
    rw [hw.toAt.kind]
    rcases hl with hl | hl <;> (rw [hl]; decide)
  refine .look (after_none hequals _) (reads_finish hw.toAt _ fun i a hgrows hi => ?_)
  exact ⟨w.arena, j, type, hgrows, htype, hi,
    Arena.form?_grow (hv.arena.trans (hw.arena.trans hgrows)) hj⟩

theorem readable_plain (name : BindingName) (optional : Bool) :
    ReadableParameter (.plain name optional) := by
  intro n s l m hroom hs hspells hl
  have hnext : nextKind l ∈ [TokenKind.colon, .comma, .closeParen] := by
    rcases hl with hl | hl <;> (rw [hl]; decide)
  refine (reads_parameter (A := fun type _ => type = none) hs hspells hnext (fun u hu => ?_) hl).imp
    fun i a ⟨b, j, type, _, htype, hi, hj⟩ => ⟨j, htype ▸ hi, hj⟩
  have hcolon : u.kindAt 0 ≠ .colon := by
    rw [hu.toAt.kind]
    rcases hl with hl | hl <;> (rw [hl]; decide)
  exact Reads.congr (.pure hu.toAt rfl) (after_none hcolon _)

theorem readable_typed {type : TypeTree} (h : Typed type) (name : BindingName) (optional : Bool) :
    ReadableParameter (.typed name optional type) := by
  intro n s l m hroom hs hspells hl
  obtain ⟨m', hname, c, m'', rfl, hc, -, htype⟩ := spells_append.1 hspells
  have hcolon : c.kind = .colon := congrArg Word.kind hc
  have hnext : nextKind (c :: m'') ∈ [TokenKind.colon, .comma, .closeParen] := by
    rw [show nextKind (c :: m'') = .colon from hcolon]
    decide
  have hstops : Stops l := by
    rcases hl with hl | hl <;> exact stops_of_nextKind hl (by decide)
  refine (reads_parameter (A := fun i a => ∃ k, i = some k ∧ type.Shows a k) hs hname hnext
    (fun u hu => ?_) hl).imp fun i a ⟨b, j, _, hgrows, ⟨k, hk, hshows⟩, hi, hj⟩ =>
      ⟨j, k, hk ▸ hi, hj, hshows.grow hgrows⟩
  refine .accept hu.toAt hcolon (by decide) fun v hv => ?_
  refine (h n v l m'' ((hroom.passed hu).passed hv) hv.toAt htype hstops).bind fun k w hw hk => ?_
  exact .pure hw.toAt ⟨k, rfl, hk⟩

/-! ### Lists of parameters -/

theorem showsParameters_append {a : Arena} {ps : List ParameterTree} {is : List NodeId}
    {p : ParameterTree} {i : NodeId} (h : TypeTree.ShowsParameters a ps is) (hp : p.Shows a i) :
    TypeTree.ShowsParameters a (ps ++ [p]) (is ++ [i]) := by
  induction ps generalizing is with
  | nil =>
    subst h
    exact ⟨i, [], rfl, hp, rfl⟩
  | cons q ps ih =>
    obtain ⟨j, js, rfl, hj, hjs⟩ := h
    exact ⟨j, js ++ [i], rfl, hj, ih hjs⟩

/-- A parameter opens with its name. -/
theorem Spells.isName {p : ParameterTree} (h : Spells p.words m l) :
    (nextKind m).isName = true := by
  rcases p with ⟨name, optional⟩ | ⟨name, optional, type⟩ <;>
  · obtain ⟨t, m', rfl, ht, -⟩ := h
    rw [show nextKind (t :: m') = name.1.kind from congrArg Word.kind ht]
    exact name.2

theorem closesParens_name {k : TokenKind} (h : k.isName = true) : closesParens k = false := by
  unfold closesParens
  rw [Bool.or_eq_false_iff]
  refine ⟨beq_false_of_ne ?_, beq_false_of_ne ?_⟩ <;>
    (rintro rfl; exact absurd h (by decide))

/-- A turn reads one more parameter. -/
theorem reads_commaTurn {p : ParameterTree} {before : List ParameterTree} {is : List NodeId}
    {m' : List Token} {R : Turn (List NodeId) → Arena → Prop} (hp : ReadableParameter p)
    (hroom : Room n s p.levels) (hs : At s m) (hspells : Spells p.words m m')
    (hnext : nextKind m' = .comma ∨ nextKind m' = .closeParen)
    (his : TypeTree.ShowsParameters s.arena before is)
    (hf : ∀ is v, Passed s m' v → TypeTree.ShowsParameters v.arena (before ++ [p]) is →
      Reads (commaBehind is) v l R) :
    Reads (commaTurn closesParens (parameter (productions n)) is) s l R := by
  have hname : (s.kindAt 0).isName = true := by
    rw [hs.kind]
    exact hspells.isName
  refine .look rfl ?_
  rw [closesParens_name hname]
  exact (hp n s m' m hroom hs hspells hnext).bind fun i v hv hi =>
    hf _ v hv (showsParameters_append (his.grow hv.arena) hi)

/-- A parameter is read, and those behind it, up to the parenthesis. -/
theorem reads_moreParameters {x : Parser (List NodeId)} {p : ParameterTree}
    {ps before : List ParameterTree} {m' : List Token} (hp : ReadableParameter p)
    (hps : ∀ p ∈ ps, ReadableParameter p)
    (hroom : Room n s (max p.levels (TypeTree.levelsOfParameters ps)))
    (h : ComesTo x (commaTurn closesParens (parameter (productions n))) s m
      fun is a => TypeTree.ShowsParameters a before is)
    (hspells : Spells p.words m m') (hmore : Spells (TypeTree.wordsOfMoreParameters ps) m' l)
    (hl : nextKind l = .closeParen) :
    Reads x s l fun is a => TypeTree.ShowsParameters a (before ++ p :: ps) is := by
  have hfirst := hroom.mono (Nat.le_max_left _ _)
  induction ps generalizing before m m' p with
  | nil =>
    obtain rfl : m' = l := hmore
    refine h.done fun is u hu his => ?_
    refine reads_commaTurn hp (hfirst.passed hu) hu.toAt hspells (.inr hl) his fun js v hv hjs => ?_
    refine .look (accept_other ?_) (.pure hv.toAt ⟨js, rfl, hjs⟩)
    rw [hv.toAt.kind, hl]
    decide
  | cons q qs ih =>
    obtain ⟨c, m₁, rfl, hc, -, hrest⟩ := hmore
    obtain ⟨m₂, hq, hqs⟩ := spells_append.1 hrest
    have hcomma : c.kind = .comma := congrArg Word.kind hc
    have hroom' := hroom.mono (Nat.le_max_right _ _)
    rw [← List.singleton_append, ← List.append_assoc]
    refine ih (hps q List.mem_cons_self) (fun r hr => hps r (List.mem_cons_of_mem _ hr)) hroom'
      (h.again ?_ fun is u hu his => ?_) hq hqs (hroom'.mono (Nat.le_max_left _ _))
    · have := hspells.length_le
      rw [List.length_cons] at this
      omega
    · refine reads_commaTurn hp (hfirst.passed hu) hu.toAt hspells (.inl hcomma) his
        fun js v hv hjs => ?_
      exact .accept hv.toAt hcomma (by decide) fun w hw =>
        .pure hw.toAt ⟨js, rfl, hjs.grow hw.arena⟩

/-- The parameters of a function type and the parentheses around them. -/
theorem reads_parameters {ps : List ParameterTree} {p c : Token}
    (hps : ∀ p ∈ ps, ReadableParameter p) (hroom : Room n s (TypeTree.levelsOfParameters ps))
    (hs : At s (p :: m)) (hp : p.kind = .openParen)
    (hspells : Spells (TypeTree.wordsOfParameters ps) m (c :: l)) (hc : c.kind = .closeParen) :
    Reads (parameters (productions n)) s l fun is a => TypeTree.ShowsParameters a ps is := by
  refine .expect hs hp (by decide) fun u hu => ?_
  have hitems : Reads (commaSeparated closesParens (parameter (productions n))) u (c :: l)
      fun is a => TypeTree.ShowsParameters a ps is := by
    have hloop : ComesTo (commaSeparated closesParens (parameter (productions n)))
        (commaTurn closesParens (parameter (productions n))) u m
        fun is a => TypeTree.ShowsParameters a [] is := comesTo_iterate hu.toAt rfl
    cases ps with
    | nil =>
      obtain rfl : m = c :: l := hspells
      refine hloop.done fun is v hv his => .look rfl ?_
      rw [hv.toAt.kindAt, show ((c :: l).getD 0 noToken).kind = .closeParen from hc]
      exact .pure hv.toAt ⟨is, rfl, his⟩
    | cons q qs =>
      obtain ⟨m', hq, hqs⟩ := spells_append.1 hspells
      exact reads_moreParameters (hps q List.mem_cons_self)
        (fun r hr => hps r (List.mem_cons_of_mem _ hr)) (hroom.passed hu) hloop hq hqs hc
  refine hitems.bind fun is v hv his => ?_
  exact .expect hv.toAt hc (by decide) fun w hw => .pure hw.toAt (his.grow hw.arena)

/-! ### Functions -/

/-- Behind the first parameter there is a mark, or the parenthesis with the arrow. -/
theorem startsFunctionType_function {ps : List ParameterTree} {p c a : Token}
    (hs : At s (p :: m)) (hspells : Spells (TypeTree.wordsOfParameters ps) m (c :: a :: l))
    (hc : c.kind = .closeParen) (ha : a.kind = .arrow) : s.startsFunctionType = true := by
  have hfirst : s.kindAt 1 = nextKind m := hs.kindAt 1
  unfold State.startsFunctionType
  rw [hfirst]
  cases ps with
  | nil =>
    obtain rfl : m = c :: a :: l := hspells
    exact if_pos (beq_iff_eq.2 hc)
  | cons q qs =>
    obtain ⟨m', hq, hqs⟩ := spells_append.1 hspells
    have hname := hq.isName
    -- what stands behind the whole parameter
    have hmore : nextKind m' = .comma ∨ m' = c :: a :: l := by
      cases qs with
      | nil => exact .inr hqs
      | cons r rs =>
        obtain ⟨t, m'', rfl, ht, -⟩ := hqs
        exact .inl (congrArg Word.kind ht)
    -- what stands behind its name
    obtain ⟨t, m'', rfl, hnext⟩ : ∃ t m'', m = t :: m'' ∧
        (nextKind m'' = .question ∨ nextKind m'' = .colon ∨ m'' = m') := by
      rcases q with ⟨name, optional⟩ | ⟨name, optional, type⟩
      · obtain ⟨t, m'', rfl, -, -, hmark⟩ := hq
        exact ⟨t, m'', rfl, hmark.nextKind_optional.imp_right .inr⟩
      · obtain ⟨m₁, ⟨t, m'', rfl, -, -, hmark⟩, u, m₂, rfl, hu, -⟩ := spells_append.1 hq
        refine ⟨t, m'', rfl, hmark.nextKind_optional.imp_right fun h => .inl ?_⟩
        rw [h]
        exact congrArg Word.kind hu
    have hparen : ¬ (nextKind (t :: m'') == .closeParen) = true := by
      intro h
      rw [eq_of_beq h] at hname
      exact absurd hname (by decide)
    have hsecond : s.kindAt 2 = nextKind m'' := hs.kindAt 2
    rw [if_neg hparen, if_pos hname, hsecond]
    rcases hnext with hnext | hnext | rfl
    · rw [hnext]
    · rw [hnext]
    · rcases hmore with hcomma | rfl
      · rw [hcomma]
      · have hthird : s.kindAt 3 = .arrow := (hs.kindAt 3).trans ha
        rw [show nextKind (c :: a :: l) = .closeParen from hc, hthird]
        rfl

theorem looped_function {ps : List ParameterTree} {result : TypeTree}
    (hps : ∀ p ∈ ps, ReadableParameter p) (hresult : Typed result) :
    Looped (.function ps result) Stops := by
  refine looped_of_primaryType fun n s l m hinside hs hspells hstops => ?_
  obtain ⟨p, m₁, rfl, hp, -, hrest⟩ := hspells
  obtain ⟨m₂, hparameters, c, m₃, rfl, hc, -, a, m₄, rfl, ha, -, htype⟩ := spells_append.1 hrest
  have hopen : p.kind = .openParen := congrArg Word.kind hp
  have hclose : c.kind = .closeParen := congrArg Word.kind hc
  have harrow : a.kind = .arrow := congrArg Word.kind ha
  have hstarts := startsFunctionType_function hs hparameters hclose harrow
  have hrun := primaryType_openParen (productions n) ((hs.kindAt 0).trans hopen)
  rw [hstarts] at hrun
  have hroom := hinside.room
  have hread := reads_parameters hps (hroom.mono (Nat.le_max_left _ _)) hs hopen hparameters hclose
  refine Reads.congr (.look rfl (hread.bind fun is u hu his => ?_)) hrun
  refine .expect hu.toAt harrow (by decide) fun v hv => ?_
  refine (hresult n v l m₄ (((hroom.mono (Nat.le_max_right _ _)).passed hu).passed hv) hv.toAt htype
    hstops).bind fun k w hw hk => reads_finish hw.toAt _ fun i b hgrows hi => ?_
  exact ⟨is, k, hi, his.grow (hv.arena.trans (hw.arena.trans hgrows)), hk.grow hgrows⟩

end

/-! ## All trees -/

mutual

/-- The rules read every canonical tree. -/
theorem readable : ∀ {t : TypeTree}, t.canonical = true → Readable t
  | .keyword word, _ => readable_of_looped (looped_keyword word)
  | .literal value, _ => readable_of_looped (looped_literal value)
  | .reference name, _ => readable_of_looped (looped_reference name)
  | .array element, h => by
    obtain ⟨hoperand, helement⟩ := Bool.and_eq_true_iff.1 h
    exact readable_of_looped (looped_array ((readable helement).looped hoperand))
  | .union first second more, h => by
    simp only [TypeTree.canonical, Bool.and_eq_true] at h
    obtain ⟨⟨⟨hoperand, hfirst⟩, hoperand', hsecond⟩, hmore⟩ := h
    exact readable_union ((readable hfirst).looped hoperand)
      (List.forall_mem_cons.2 ⟨(readable hsecond).looped hoperand', looped_members hmore⟩)
  | .parenthesized inner, h => by
    have hinner : inner.canonical = true := h
    exact readable_of_looped (looped_parenthesized (readable hinner).typed)
  | .function parameters result, h => by
    obtain ⟨hparameters, hresult⟩ := Bool.and_eq_true_iff.1 h
    exact ⟨typed_of_looped (looped_function (readable_parameters hparameters)
      (readable hresult).typed), nofun⟩

theorem looped_members : ∀ {ts : List TypeTree}, TypeTree.canonicalMembers ts = true →
    ∀ t ∈ ts, Looped t Follows
  | [], _ => nofun
  | t :: ts, h => by
    simp only [TypeTree.canonicalMembers, Bool.and_eq_true] at h
    exact List.forall_mem_cons.2 ⟨(readable h.1.2).looped h.1.1, looped_members h.2⟩

theorem readable_parameters : ∀ {ps : List ParameterTree},
    TypeTree.canonicalParameters ps = true → ∀ p ∈ ps, ReadableParameter p
  | [], _ => nofun
  | p :: ps, h => by
    simp only [TypeTree.canonicalParameters, Bool.and_eq_true] at h
    exact List.forall_mem_cons.2 ⟨readable_parameter h.1, readable_parameters h.2⟩

theorem readable_parameter : ∀ {p : ParameterTree}, p.canonical = true → ReadableParameter p
  | .plain name optional, _ => readable_plain name optional
  | .typed name optional _, h => readable_typed (readable h).typed name optional

end

/-- The rule for types, where it can still go as deep as the tree does, reads the
words of a tree with the parentheses that they need. It stops at the semicolon
behind them and reports nothing, and the node that it adds is the tree with these
parentheses, which is the tree itself if its words need none. -/
theorem type_roundTrip (t : TypeTree) {n : Nat} {s : State} {ts more : List Token}
    {semicolon : Token} (hrest : s.rest = ts ++ semicolon :: more)
    (hcounted : s.remaining = s.rest.length) (hwords : ts.map Token.word = t.explicit.words)
    (hline : ∀ u ∈ ts, u.kind = .openBracket → u.afterBreak = false)
    (hsemicolon : semicolon.kind = .semicolon)
    (huses : t.explicit.levels ≤ n) (hdepth : s.depth + t.explicit.levels ≤ maxDepth) :
    ∃ i s', (productions n).type s = (i, s') ∧ s'.rest = semicolon :: more ∧
      s'.errors = s.errors ∧ t.explicit.Shows s'.arena i ∧
      (t.canonical = true → t.Shows s'.arena i) := by
  have hspells := spells_of_map hwords hline (semicolon :: more)
  have hstops : Stops (semicolon :: more) :=
    stops_of_nextKind (k := .semicolon) hsemicolon (by decide)
  obtain ⟨hpassed, hshows⟩ := (readable t.canonical_explicit).typed n s _ _ ⟨huses, hdepth⟩
    ⟨hrest, hrest ▸ hcounted⟩ hspells hstops
  refine ⟨_, _, rfl, hpassed.rest, hpassed.errors, hshows, fun hcanonical => ?_⟩
  rw [TypeTree.explicit_of_canonical hcanonical] at hshows
  exact hshows

/-- The tokens of a function type; its result is an array of a union, which needs
parentheses. -/
theorem type_roundTrip_function :
    let tokens := (Lexer.scan "(a?: number, b) => (c | 1)[];".toList).tokens
    let t := TypeTree.function
      [.typed ⟨⟨.identifier, some "a"⟩, rfl⟩ true (.keyword ⟨.kwNumber, by decide⟩),
        .plain ⟨⟨.identifier, some "b"⟩, rfl⟩ false]
      (.array (.union (.reference ⟨⟨.identifier, some "c"⟩, rfl, by decide⟩)
        (.literal (.number "1")) []))
    (tokens.take 16).map Token.word = t.explicit.words ∧ t.explicit.levels = 3 ∧
    ∃ i s', (productions 3).type (.start tokens) = (i, s') ∧ s'.rest = tokens.drop 16 ∧
      s'.errors = #[] ∧ t.explicit.Shows s'.arena i := by
  intro tokens t
  obtain ⟨hwords, hline, hbehind, hkind⟩ :
      (tokens.take 16).map Token.word = t.explicit.words ∧
      (∀ u ∈ tokens.take 16, u.kind = .openBracket → u.afterBreak = false) ∧
      tokens.drop 16 = tokens[16]! :: [tokens[17]!] ∧ tokens[16]!.kind = .semicolon := by
    unfold tokens
    rw [String.toList_ofList]
    decide +kernel
  have hlevels : t.explicit.levels = 3 := by decide +kernel
  have hrest : (State.start tokens).rest = tokens.take 16 ++ tokens[16]! :: [tokens[17]!] := by
    rw [← hbehind, List.take_append_drop]
    rfl
  obtain ⟨i, s', hrun, hrest', herrors, hshows, -⟩ := type_roundTrip t (n := 3) hrest rfl hwords
    hline hkind (by rw [hlevels]) (by rw [hlevels]; decide)
  exact ⟨hwords, hlevels, i, s', hrun, hrest'.trans hbehind.symm, herrors, hshows⟩

end ScriptAnalysis.Parsing
