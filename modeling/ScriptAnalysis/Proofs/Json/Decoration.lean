import ScriptAnalysis.Json.Relaxed
import ScriptAnalysis.Proofs.Json.Reading

/-!
# Comments and trailing commas

A decorated text has comments between its tokens and at its ends, and a comma
behind the last item of some arrays and objects (`Decorates`).

**Two passes, one state each.** Taking the comments out and taking the commas
out both go through the text once, and both follow the quotes in the same way
(`quoted_passes`). So what a pass does to a part of a text does not depend on
what follows: `Strips s u` and, but for a series, `Drops u w`.

**Results.**
* `strips_spelled`: without its comments a decorated text is still a text of the
  value, with white space where the comments were.
* `drops_spelled`: without the commas it is the text that has not got them.
* `decorates_of_parse`: every text that is JSON may be decorated.
* `decorations_transparent`: a decorated text means the value of the text that
  was decorated.
-/
namespace ScriptAnalysis.Json.Relaxed

open Reader

/-! ## Decorated texts -/

/-- White space in which comments have been put. -/
inductive Commented : List Char → List Char → Prop
  | nil : Commented [] []
  | blank {c g d} (hc : isSpace c = true) (h : Commented g d) : Commented (c :: g) (c :: d)
  | line {body g d} (hbody : '\n' ∉ body) (h : Commented g d) :
      Commented g ('/' :: '/' :: (body ++ '\n' :: d))
  | block {body g d} (hbody : ¬ ['*', '/'] <:+: body) (h : Commented g d) :
      Commented g ('/' :: '*' :: (body ++ '*' :: '/' :: d))

/-- What stands in front of a closing bracket, where a comma may have been put. -/
inductive Ended (Gap : List Char → List Char → Prop) : List Char → List Char → Prop
  | asIs {g d} (h : Gap g d) : Ended Gap g d
  | comma {g d g' d'} (h : Gap g d) (h' : Gap g' d') : Ended Gap (g ++ g') (d ++ ',' :: d')

/-- The second text is the first one, a text of `v`, with comments put between
its tokens and at both ends, and with commas put behind last items. -/
inductive Decorates (v : Json) : List Char → List Char → Prop
  | mk {g d t s g' d'} (hg : Commented g d) (h : Spelled Commented (Ended Commented) v t s)
      (hg' : Commented g' d') : Decorates v (g ++ (t ++ g')) (d ++ (s ++ d'))

theorem Commented.blanks {g d : List Char} (h : Commented g d) : Blanks g := by
  induction h with
  | nil => exact fun _ hc => (nomatch hc)
  | blank hc _ ih => exact List.forall_mem_cons.2 ⟨hc, ih⟩
  | line _ _ ih => exact ih
  | block _ _ ih => exact ih

theorem Commented.refl {g : List Char} (h : Blanks g) : Commented g g := by
  induction g with
  | nil => exact .nil
  | cons c g ih =>
    obtain ⟨hc, hg⟩ := List.forall_mem_cons.1 h
    exact .blank hc (ih hg)

theorem Ended.blanks {Gap : List Char → List Char → Prop} (hgap : ∀ g d, Gap g d → Blanks g)
    {g d : List Char} (h : Ended Gap g d) : Blanks g := by
  cases h with
  | asIs h => exact hgap _ _ h
  | comma h h' => exact List.forall_mem_append.2 ⟨hgap _ _ h, hgap _ _ h'⟩

/-! ## Quotes -/

/-- Both passes leave what stands between quotes as it is, and know where it
ends. -/
theorem quoted_passes {pass : Within → List Char → List Char}
    (hquotes : ∀ c rest, pass .quotes (c :: rest) = c :: pass (afterQuoted c) rest)
    (hescape : ∀ c rest, pass .escape (c :: rest) = c :: pass .quotes rest)
    {cs t : List Char} (h : Quoted cs t) (x : List Char) :
    pass .quotes (t ++ '"' :: x) = t ++ '"' :: pass .plain x := by
  have hplain : ∀ ds : List Char, (∀ c ∈ ds, Text.isHexDigit c = true) → ∀ y,
      pass .quotes (ds ++ y) = ds ++ pass .quotes y := by
    intro ds hds y
    induction ds with
    | nil => rfl
    | cons c ds ih =>
      obtain ⟨hc, hds⟩ := List.forall_mem_cons.1 hds
      have hafter : afterQuoted c = .quotes := by
        unfold afterQuoted
        rw [if_neg, if_neg] <;> rintro rfl <;> exact absurd hc (by decide)
      rw [List.cons_append, hquotes, hafter, ih hds]
      rfl
  induction h with
  | nil => exact hquotes '"' x
  | @char c cs t hquote hback hcontrol h ih =>
    have hafter : afterQuoted c = .quotes := by
      unfold afterQuoted
      rw [if_neg hback, if_neg hquote]
    rw [List.cons_append, hquotes, hafter, ih]
    rfl
  | @escape c e cs t he h ih =>
    have hback : afterQuoted '\\' = .escape := rfl
    rw [List.cons_append, hquotes, hback, List.append_assoc]
    cases he with
    | short h => rw [List.singleton_append, hescape, ih]; rfl
    | unicode h =>
      rw [List.cons_append, hescape, hplain _ h.2.1, ih]
      simp
    | pair hn _ hm _ =>
      rw [List.cons_append, hescape, List.append_assoc, hplain _ hn.2.1, List.cons_append, hquotes,
        hback, List.cons_append, hescape, hplain _ hm.2.1, ih]
      simp

/-! ## Taking the comments out -/

section

attribute [local simp] stripFrom

theorem stripFrom_line {body : List Char} (h : '\n' ∉ body) (x : List Char) :
    stripFrom .lineComment (body ++ '\n' :: x) = '\n' :: stripFrom .plain x := by
  induction body with
  | nil => simp
  | cons c body ih =>
    rw [List.mem_cons, not_or] at h
    rw [List.cons_append, stripFrom, if_neg (Ne.symm h.1), ih h.2]

end

/-- Without the comments, `s` becomes `u`, whatever follows. -/
def Strips (s u : List Char) : Prop :=
  ∀ x, stripFrom .plain (s ++ x) = u ++ stripFrom .plain x

theorem Strips.append {s u s' u' : List Char} (h : Strips s u) (h' : Strips s' u') :
    Strips (s ++ s') (u ++ u') := fun x => by
  rw [List.append_assoc, h, h', List.append_assoc]

theorem strips_nil : Strips [] [] := fun _ => rfl

/-- A character that opens neither a string nor a comment stays. -/
theorem Strips.cons {c : Char} {s u : List Char} (hslash : c ≠ '/') (hquote : c ≠ '"')
    (h : Strips s u) : Strips (c :: s) (c :: u) := fun x => by
  have hstep : stripFrom .plain (c :: (s ++ x)) = c :: stripFrom .plain (s ++ x) := by
    rw [stripFrom]
    · rw [if_neg hquote]
    · rintro _ rfl
      exact absurd rfl hslash
    · rintro _ rfl
      exact absurd rfl hslash
  rw [List.cons_append, hstep, h]
  rfl

theorem strips_of_forall {s : List Char} (h : ∀ c ∈ s, c ≠ '/' ∧ c ≠ '"') : Strips s s := by
  induction s with
  | nil => exact strips_nil
  | cons c s ih =>
    obtain ⟨hc, hs⟩ := List.forall_mem_cons.1 h
    exact (ih hs).cons hc.1 hc.2

theorem strips_quoted {cs t : List Char} (h : Quoted cs t) :
    Strips ('"' :: (t ++ ['"'])) ('"' :: (t ++ ['"'])) := fun x => by
  have hopen : stripFrom .plain ('"' :: (t ++ '"' :: x)) =
      '"' :: stripFrom .quotes (t ++ '"' :: x) := by
    rw [stripFrom]
    · rfl
    · intro _ h
      cases h
    · intro _ h
      cases h
  have hpass := @quoted_passes stripFrom (fun _ _ => rfl) (fun _ _ => rfl) _ _ h x
  simp only [List.cons_append, List.append_assoc, List.nil_append]
  rw [hopen, hpass]

/-- Of a block comment the line feeds stay. -/
theorem stripFrom_block {body : List Char} (h : ¬ ['*', '/'] <:+: body) (x : List Char) :
    stripFrom .blockComment (body ++ '*' :: '/' :: x) =
      body.filter (· = '\n') ++ stripFrom .plain x := by
  induction body with
  | nil => rfl
  | cons c body ih =>
    have hrest : ¬ ['*', '/'] <:+: body := fun h' => h (h'.trans (List.suffix_cons c body).isInfix)
    have hstep : stripFrom .blockComment (c :: (body ++ '*' :: '/' :: x)) =
        if c = '\n' then c :: stripFrom .blockComment (body ++ '*' :: '/' :: x)
        else stripFrom .blockComment (body ++ '*' :: '/' :: x) := by
      rw [stripFrom]
      -- the comment does not end here: what follows `c` is in its body, or a star
      rintro y rfl hy
      cases body with
      | nil => cases hy
      | cons d body =>
        cases hy
        exact h ⟨[], body, rfl⟩
    rw [List.cons_append, hstep, ih hrest]
    by_cases hc : c = '\n' <;> simp [hc]

/-- Of what stands between tokens white space is left. -/
theorem strips_commented {g d : List Char} (h : Commented g d) : ∃ b, Blanks b ∧ Strips d b := by
  induction h with
  | nil => exact ⟨[], fun _ hc => (nomatch hc), strips_nil⟩
  | @blank c g d hc h ih =>
    obtain ⟨b, hb, hstrips⟩ := ih
    refine ⟨c :: b, List.forall_mem_cons.2 ⟨hc, hb⟩, hstrips.cons ?_ ?_⟩ <;>
    · rintro rfl
      exact absurd hc (by decide)
  | @line body g d hbody h ih =>
    obtain ⟨b, hb, hstrips⟩ := ih
    refine ⟨'\n' :: b, List.forall_mem_cons.2 ⟨rfl, hb⟩, fun x => ?_⟩
    have hline := stripFrom_line hbody (d ++ x)
    simp only [List.cons_append, List.append_assoc]
    rw [stripFrom, hline, hstrips]
  | @block body g d hbody h ih =>
    obtain ⟨b, hb, hstrips⟩ := ih
    have hfeeds : Blanks (body.filter (· = '\n')) := by
      intro c hc
      have := of_decide_eq_true (List.mem_filter.1 hc).2
      subst this
      rfl
    refine ⟨body.filter (· = '\n') ++ b, List.forall_mem_append.2 ⟨hfeeds, hb⟩, fun x => ?_⟩
    have hblock := stripFrom_block hbody (d ++ x)
    simp only [List.cons_append, List.append_assoc]
    rw [stripFrom, hblock, hstrips]

theorem strips_ended {g d : List Char} (h : Ended Commented g d) :
    ∃ w u, Ended Blank w u ∧ Strips d u := by
  cases h with
  | asIs h =>
    obtain ⟨b, hb, hstrips⟩ := strips_commented h
    exact ⟨b, b, .asIs ⟨rfl, hb⟩, hstrips⟩
  | comma h h' =>
    obtain ⟨b, hb, hstrips⟩ := strips_commented h
    obtain ⟨b', hb', hstrips'⟩ := strips_commented h'
    exact ⟨b ++ b', b ++ ',' :: b', .comma ⟨rfl, hb⟩ ⟨rfl, hb'⟩,
      hstrips.append (hstrips'.cons (by decide) (by decide))⟩

section

variable {α : Type} {Item Item' : α → List Char → List Char → Prop}

/-- A series without its comments, when the items are known without theirs. -/
theorem strips_series {as : List α} {t s : List Char}
    (h : Series Commented (Ended Commented) Item as t s)
    (hitem : ∀ a t' s', Item a t' s' → s'.length ≤ s.length →
      ∃ w u, Item' a w u ∧ Strips s' u) :
    ∃ w u, Series Blank (Ended Blank) Item' as w u ∧ Strips s u := by
  induction h with
  | last hg ha hend =>
    obtain ⟨b, hb, hstrips⟩ := strips_commented hg
    obtain ⟨w, u, ha', hstrips'⟩ := hitem _ _ _ ha (by simp; omega)
    obtain ⟨w', u', hend', hstrips''⟩ := strips_ended hend
    exact ⟨_, _, .last ⟨rfl, hb⟩ ha' hend', hstrips.append (hstrips'.append hstrips'')⟩
  | more hg ha hg' _ ih =>
    obtain ⟨b, hb, hstrips⟩ := strips_commented hg
    obtain ⟨w, u, ha', hstrips'⟩ := hitem _ _ _ ha (by simp; omega)
    obtain ⟨b', hb', hstrips''⟩ := strips_commented hg'
    obtain ⟨w', u', hmore, hrest⟩ := ih fun a t' s' ha hle => hitem a t' s' ha (by simp; omega)
    exact ⟨_, _, .more ⟨rfl, hb⟩ ha' ⟨rfl, hb'⟩ hmore, hstrips.append (hstrips'.append
      (hstrips''.append (hrest.cons (by decide) (by decide))))⟩

theorem strips_member {Value Value' : Json → List Char → List Char → Prop} {m : String × Json}
    {t s : List Char} (h : Member Commented Value m t s)
    (hvalue : ∀ v t' s', Value v t' s' → s'.length ≤ s.length →
      ∃ w u, Value' v w u ∧ Strips s' u) :
    ∃ w u, Member Blank Value' m w u ∧ Strips s u := by
  obtain ⟨hk, hg, hg', hv⟩ := h
  rename_i cs k g d g' d' v t s
  obtain ⟨b, hb, hstrips⟩ := strips_commented hg
  obtain ⟨b', hb', hstrips'⟩ := strips_commented hg'
  obtain ⟨w, u, hv', hstrips''⟩ := hvalue _ _ _ hv (by simp; omega)
  refine ⟨_, _, .mk hk ⟨rfl, hb⟩ ⟨rfl, hb'⟩ hv', ?_⟩
  have hall := (strips_quoted hk).append (hstrips.append
    ((hstrips'.append hstrips'').cons (c := ':') (by decide) (by decide)))
  simpa using hall

end

/-- A number has neither slashes nor quotes nor commas in it. -/
theorem ne_of_mem_numeral {n t : List Char} (h : Numeral n t) {c : Char} (hc : c ∈ t) :
    c ≠ '/' ∧ c ≠ '"' ∧ c ≠ ',' := by
  rcases h.mem hc with hdigit | hmem
  · refine ⟨?_, ?_, ?_⟩ <;>
    · rintro rfl
      exact absurd hdigit (by decide)
  · have hall : ∀ c ∈ ['-', '+', '.', 'e', 'E'], c ≠ '/' ∧ c ≠ '"' ∧ c ≠ ',' :=
      Text.forall_mem_of_all (by decide)
    exact hall c hmem

/-- A bracketed text, when what stands between the brackets is known. -/
theorem Strips.bracketed {o c : Char} {s u : List Char} (ho : o ∈ ['[', '\x7b'])
    (hc : c ∈ [']', '\x7d']) (h : Strips s u) : Strips (o :: (s ++ [c])) (o :: (u ++ [c])) := by
  have hclosers : ∀ c ∈ [']', '\x7d'], c ≠ '/' ∧ c ≠ '"' := Text.forall_mem_of_all (by decide)
  have hopeners : ∀ c ∈ ['[', '\x7b'], c ≠ '/' ∧ c ≠ '"' := Text.forall_mem_of_all (by decide)
  have hc' := hclosers c hc
  have ho' := hopeners o ho
  exact (h.append (strips_nil.cons hc'.1 hc'.2)).cons ho'.1 ho'.2

/-- Without its comments a decorated text is a text of the same value, in which
only commas are too many. The induction is on the length of the text. -/
theorem strips_spelled {n : Nat} {v : Json} {t s : List Char}
    (h : Spelled Commented (Ended Commented) v t s) (hn : s.length ≤ n) :
    ∃ w u, Spelled Blank (Ended Blank) v w u ∧ Strips s u := by
  induction n generalizing v t s with
  | zero =>
    obtain ⟨c, _, u, -, rfl, -⟩ := h.opens
    cases hn
  | succ n ih =>
    cases h with
    | nullWord => exact ⟨_, _, .nullWord, strips_of_forall (Text.forall_mem_of_all (by decide))⟩
    | trueWord => exact ⟨_, _, .trueWord, strips_of_forall (Text.forall_mem_of_all (by decide))⟩
    | falseWord => exact ⟨_, _, .falseWord, strips_of_forall (Text.forall_mem_of_all (by decide))⟩
    | number h =>
      have hplain := strips_of_forall fun c hc =>
        ⟨(ne_of_mem_numeral h hc).1, (ne_of_mem_numeral h hc).2.1⟩
      exact ⟨_, _, .number h, hplain⟩
    | string h => exact ⟨_, _, .string h, strips_quoted h⟩
    | emptyArray h =>
      obtain ⟨b, hb, hstrips⟩ := strips_commented h
      exact ⟨_, _, .emptyArray ⟨rfl, hb⟩, hstrips.bracketed (by decide) (by decide)⟩
    | array h =>
      simp only [List.length_cons, List.length_append] at hn
      obtain ⟨w, u, hseries, hstrips⟩ := strips_series h fun v t' s' hv hle => ih hv (by omega)
      exact ⟨_, _, .array hseries, hstrips.bracketed (by decide) (by decide)⟩
    | emptyObject h =>
      obtain ⟨b, hb, hstrips⟩ := strips_commented h
      exact ⟨_, _, .emptyObject ⟨rfl, hb⟩, hstrips.bracketed (by decide) (by decide)⟩
    | object h =>
      simp only [List.length_cons, List.length_append] at hn
      obtain ⟨w, u, hseries, hstrips⟩ := strips_series h fun m t' s' hm hle =>
        strips_member hm fun v t'' s'' hv hle' => ih hv (by omega)
      exact ⟨_, _, .object hseries, hstrips.bracketed (by decide) (by decide)⟩

/-! ## Taking the commas out -/

/-- Without the commas that are too many, `u` becomes `w`, whatever follows. -/
def Drops (u w : List Char) : Prop :=
  ∀ x, dropCommasFrom .plain (u ++ x) = w ++ dropCommasFrom .plain x

theorem Drops.append {u w u' w' : List Char} (h : Drops u w) (h' : Drops u' w') :
    Drops (u ++ u') (w ++ w') := fun x => by
  rw [List.append_assoc, h, h', List.append_assoc]

theorem drops_nil : Drops [] [] := fun _ => rfl

/-- A character that is neither a quote nor a comma stays. -/
theorem dropCommasFrom_cons {c : Char} (hquote : c ≠ '"') (hcomma : c ≠ ',') (x : List Char) :
    dropCommasFrom .plain (c :: x) = c :: dropCommasFrom .plain x := by
  simp [dropCommasFrom, hquote, hcomma]

theorem Drops.cons {c : Char} {u w : List Char} (hquote : c ≠ '"') (hcomma : c ≠ ',')
    (h : Drops u w) : Drops (c :: u) (c :: w) := fun x => by
  rw [List.cons_append, dropCommasFrom_cons hquote hcomma, h]
  rfl

theorem drops_of_forall {u : List Char} (h : ∀ c ∈ u, c ≠ '"' ∧ c ≠ ',') : Drops u u := by
  induction u with
  | nil => exact drops_nil
  | cons c u ih =>
    obtain ⟨hc, hu⟩ := List.forall_mem_cons.1 h
    exact (ih hu).cons hc.1 hc.2

theorem drops_blanks {g : List Char} (h : Blanks g) : Drops g g := by
  refine drops_of_forall fun c hc => ⟨?_, ?_⟩ <;>
  · rintro rfl
    exact absurd (h _ hc) (by decide)

theorem drops_quoted {cs t : List Char} (h : Quoted cs t) :
    Drops ('"' :: (t ++ ['"'])) ('"' :: (t ++ ['"'])) := fun x => by
  have hopen : dropCommasFrom .plain ('"' :: (t ++ '"' :: x)) =
      '"' :: dropCommasFrom .quotes (t ++ '"' :: x) := by
    simp [dropCommasFrom]
  have hpass := @quoted_passes dropCommasFrom (fun _ _ => rfl) (fun _ _ => rfl) _ _ h x
  simp only [List.cons_append, List.append_assoc, List.nil_append]
  rw [hopen, hpass]

/-- What the look ahead from a comma sees behind white space. -/
theorem closesNext_blanks {g : List Char} (hg : Blanks g) {c : Char} (hc : Text.isWhite c = false)
    (x : List Char) : closesNext (g ++ c :: x) = (c == '\x7d' || c == ']') := by
  unfold closesNext
  rw [List.dropWhile_append_of_pos fun c hc => isWhite_of_isSpace (hg c hc),
    List.dropWhile_cons_of_neg (by simp [hc])]

theorem isWhite_close {close : Char} (h : Closes close) : Text.isWhite close = false := by
  rcases h with rfl | rfl <;> decide

/-- In front of a closing bracket a comma that was put there goes. -/
theorem drops_ended {close : Char} (hclose : Closes close) {w u : List Char}
    (h : Ended Blank w u) (x : List Char) :
    dropCommasFrom .plain (u ++ close :: x) = w ++ dropCommasFrom .plain (close :: x) := by
  cases h with
  | asIs h =>
    obtain ⟨rfl, hg⟩ := h
    exact drops_blanks hg _
  | @comma g d g' d' h h' =>
    obtain ⟨rfl, hg⟩ := h
    obtain ⟨rfl, hg'⟩ := h'
    have hnext : closesNext (g' ++ close :: x) = true := by
      rw [closesNext_blanks hg' (isWhite_close hclose)]
      rcases hclose with rfl | rfl <;> rfl
    have hgone : dropCommasFrom .plain (',' :: (g' ++ close :: x)) =
        dropCommasFrom .plain (g' ++ close :: x) := by
      simp [dropCommasFrom, hnext]
    rw [List.append_assoc, List.cons_append, drops_blanks hg, hgone, drops_blanks hg',
      List.append_assoc]

section

variable {α : Type} {Item : α → List Char → List Char → Prop}

/-- A series loses the comma behind its last item only. -/
theorem drops_series {close : Char} (hclose : Closes close) {as : List α} {w u : List Char}
    (h : Series Blank (Ended Blank) Item as w u)
    (hopens : ∀ a w u, Item a w u → ∃ c w' u', w = c :: w' ∧ u = c :: u' ∧ Opens c)
    (hitem : ∀ a w' u', Item a w' u' → u'.length ≤ u.length → Drops u' w') (x : List Char) :
    dropCommasFrom .plain (u ++ close :: x) = w ++ dropCommasFrom .plain (close :: x) := by
  induction h with
  | last hg ha hend =>
    obtain ⟨rfl, hg⟩ := hg
    have hdrops := hitem _ _ _ ha (by simp; omega)
    simp only [List.append_assoc]
    rw [drops_blanks hg, hdrops, drops_ended hclose hend]
  | @more g d a w u g' d' as w' u' hg ha hg' hmore ih =>
    obtain ⟨rfl, hg⟩ := hg
    obtain ⟨rfl, hg'⟩ := hg'
    have hdrops := hitem _ _ _ ha (by simp; omega)
    -- the next item begins behind the comma
    have hkept : dropCommasFrom .plain (',' :: (u' ++ close :: x)) =
        ',' :: dropCommasFrom .plain (u' ++ close :: x) := by
      obtain ⟨b, b', c, y, z, -, rfl, ⟨rfl, hb⟩, hc⟩ := hmore.opens hopens
      have hnext : closesNext (b ++ c :: z ++ close :: x) = false := by
        rw [List.append_assoc, List.cons_append, closesNext_blanks hb hc.isWhite]
        simp [hc.ne]
      rw [dropCommasFrom, if_neg (by decide), hnext]
      · rfl
      all_goals
        intro h
        cases h
    simp only [List.append_assoc, List.cons_append]
    rw [drops_blanks hg, hdrops, drops_blanks hg', hkept,
      ih fun a w' u' ha hle => hitem a w' u' ha (by simp; omega)]

theorem drops_member {Value : Json → List Char → List Char → Prop} {m : String × Json}
    {w u : List Char} (h : Member Blank Value m w u)
    (hvalue : ∀ v w' u', Value v w' u' → u'.length ≤ u.length → Drops u' w') : Drops u w := by
  obtain ⟨hk, ⟨rfl, hg⟩, ⟨rfl, hg'⟩, hv⟩ := h
  have hdrops := hvalue _ _ _ hv (by simp; omega)
  have hall := (drops_quoted hk).append ((drops_blanks hg).append
    (((drops_blanks hg').append hdrops).cons (c := ':') (by decide) (by decide)))
  simpa using hall

end

/-- Without the commas that are too many the first text is left. The induction
is on the length of the text. -/
theorem drops_spelled {n : Nat} {v : Json} {w u : List Char}
    (h : Spelled Blank (Ended Blank) v w u) (hn : u.length ≤ n) : Drops u w := by
  induction n generalizing v w u with
  | zero =>
    obtain ⟨c, _, u, -, rfl, -⟩ := h.opens
    cases hn
  | succ n ih =>
    cases h with
    | nullWord | trueWord | falseWord => exact drops_of_forall (Text.forall_mem_of_all (by decide))
    | number h => exact drops_of_forall fun c hc => (ne_of_mem_numeral h hc).2
    | string h => exact drops_quoted h
    | emptyArray h =>
      obtain ⟨rfl, hg⟩ := h
      exact ((drops_blanks hg).append (drops_nil.cons (by decide) (by decide))).cons
        (by decide) (by decide)
    | emptyObject h =>
      obtain ⟨rfl, hg⟩ := h
      exact ((drops_blanks hg).append (drops_nil.cons (by decide) (by decide))).cons
        (by decide) (by decide)
    | @array vs w u h =>
      intro x
      simp only [List.length_cons, List.length_append] at hn
      have hseries := drops_series (.inl rfl) h (fun _ _ _ => Spelled.opens)
        (fun v w' u' hv hle => ih hv (by omega)) x
      simp only [List.cons_append, List.append_assoc, List.nil_append]
      rw [dropCommasFrom_cons (by decide) (by decide), hseries,
        dropCommasFrom_cons (by decide) (by decide)]
    | @object ms w u h =>
      intro x
      simp only [List.length_cons, List.length_append] at hn
      have hseries := drops_series (.inr rfl) h (fun _ _ _ => Member.opens)
        (fun m w' u' hm hle => drops_member hm fun v w'' u'' hv hle' => ih hv (by omega)) x
      simp only [List.cons_append, List.append_assoc, List.nil_append]
      rw [dropCommasFrom_cons (by decide) (by decide), hseries,
        dropCommasFrom_cons (by decide) (by decide)]

/-! ## Decorated texts mean what they meant -/

section

variable {v : Json} {plain decorated : List Char}

/-- The text that was decorated is read as its value. -/
theorem Decorates.parse_plain (h : Decorates v plain decorated) : parse plain = .ok v := by
  obtain ⟨hg, hv, hg'⟩ := h
  have hgap : ∀ g d, Commented g d → Blanks g := fun _ _ => Commented.blanks
  exact parse_of_spelled hgap (fun _ _ => Ended.blanks hgap) hg.blanks hv hg'.blanks

/-- Without comments and commas the decorated text is read as the same value:
it differs from the other in white space only. -/
theorem Decorates.parse_strict (h : Decorates v plain decorated) :
    parse (strict decorated) = .ok v := by
  obtain ⟨hg, hv, hg'⟩ := h
  rename_i g d t s g' d'
  obtain ⟨b, hb, hstrips⟩ := strips_commented hg
  obtain ⟨b', hb', hstrips'⟩ := strips_commented hg'
  obtain ⟨w, u, hu, hstripsv⟩ := strips_spelled hv (Nat.le_refl _)
  have hdrops : Drops u w := drops_spelled hu (Nat.le_refl _)
  have hstrict : strict (d ++ (s ++ d')) = b ++ (w ++ b') := by
    have hstrip := (hstrips.append (hstripsv.append hstrips')) []
    have hdrop := ((drops_blanks hb).append (hdrops.append (drops_blanks hb'))) []
    rw [List.append_nil] at hstrip hdrop
    unfold strict stripComments dropTrailingCommas
    rw [hstrip, stripFrom, List.append_nil, hdrop, dropCommasFrom, List.append_nil]
  have hgap : ∀ g d, Blank g d → Blanks g := fun _ _ h => h.2
  rw [hstrict]
  exact parse_of_spelled hgap (fun _ _ => Ended.blanks hgap) hb hu hb'

/-- What is JSON is a text that nothing has been put into. -/
theorem decorates_of_parse (h : parse plain = .ok v) : Decorates v plain plain := by
  have hspelled : ∃ g t g', plain = g ++ (t ++ g') ∧ Blanks g ∧
      Spelled Commented (Ended Commented) v t t ∧ Blanks g' :=
    spelled_of_parse (fun _ => .refl) (fun _ hg => .asIs (.refl hg)) h
  obtain ⟨g, t, g', rfl, hg, hv, hg'⟩ := hspelled
  exact .mk (.refl hg) hv (.refl hg')

end

/-- Every text that is JSON may be decorated. However it is decorated, with
comments between its tokens and at its ends and with commas behind last items,
and whatever is between quotes: without comments and without such commas the
text is read as the value that it had. -/
theorem decorations_transparent (v : Json) (plain : List Char) :
    (parse plain = .ok v ↔ Decorates v plain plain) ∧
    ∀ decorated, Decorates v plain decorated →
      parse plain = .ok v ∧ parse (strict decorated) = .ok v :=
  ⟨⟨decorates_of_parse, Decorates.parse_plain⟩, fun _ h => ⟨h.parse_plain, h.parse_strict⟩⟩

/-- What means something outside quotes stands between them. -/
def quotedMarks : Json :=
  .object [("//,]", .array [.string "\"/*", .number "1"])]

theorem decorates_quotedMarks : Decorates quotedMarks
    "\x7b\"//,]\": [\"\\\"/*\", 1]\x7d".toList
    "//\"\n\x7b/*,]*/\"//,]\": [\"\\\"/*\", 1,//]\n],\x7d".toList := by
  have hkey : Quoted "//,]".toList "//,]".toList :=
    .char (by decide) (by decide) (by decide) <| .char (by decide) (by decide) (by decide) <|
      .char (by decide) (by decide) (by decide) <| .char (by decide) (by decide) (by decide) .nil
  have hstring : Quoted "\"/*".toList "\\\"/*".toList :=
    .escape (.short (by decide)) <| .char (by decide) (by decide) (by decide) <|
      .char (by decide) (by decide) (by decide) .nil
  have hnumber : Numeral ['1'] ['1'] :=
    @Numeral.mk [] ['1'] [] [] [] (by decide) ⟨by decide, Text.forall_mem_of_all (by decide)⟩
      (by decide) .none .none
  have hnone : Commented [] [] := .nil
  have hspace : Commented [' '] [' '] := .blank rfl .nil
  have hfront : Commented [] "//\"\n".toList := @Commented.line ['"'] _ _ (by decide) .nil
  have hinner : Commented [] "/*,]*/".toList := @Commented.block [',', ']'] _ _ (by decide) .nil
  have hcomma : Ended Commented [] ",//]\n".toList :=
    .comma hnone (@Commented.line [']'] _ _ (by decide) .nil)
  have hfirst : Spelled Commented (Ended Commented) (.string "\"/*") "\"\\\"/*\"".toList
      "\"\\\"/*\"".toList := .string hstring
  have hsecond : Spelled Commented (Ended Commented) (.number "1") ['1'] ['1'] := .number hnumber
  have harray : Spelled Commented (Ended Commented) (.array [.string "\"/*", .number "1"])
      "[\"\\\"/*\", 1]".toList "[\"\\\"/*\", 1,//]\n]".toList :=
    .array (.more hnone hfirst hnone (.last hspace hsecond hcomma))
  have hmember : Member Commented (Spelled Commented (Ended Commented))
      ("//,]", .array [.string "\"/*", .number "1"]) "\"//,]\": [\"\\\"/*\", 1]".toList
      "\"//,]\": [\"\\\"/*\", 1,//]\n]".toList := .mk hkey hnone hspace harray
  have hend : Ended Commented [] [','] := .comma hnone hnone
  exact .mk hfront (.object (.last hinner hmember hend)) hnone

/-- Without comments and commas the value is read that the text had. -/
theorem decorations_transparent_quotedMarks :
    Decorates quotedMarks "\x7b\"//,]\": [\"\\\"/*\", 1]\x7d".toList
      "//\"\n\x7b/*,]*/\"//,]\": [\"\\\"/*\", 1,//]\n],\x7d".toList ∧
    parse "\x7b\"//,]\": [\"\\\"/*\", 1]\x7d".toList = .ok quotedMarks ∧
    parse (strict "//\"\n\x7b/*,]*/\"//,]\": [\"\\\"/*\", 1,//]\n],\x7d".toList) =
      .ok quotedMarks :=
  ⟨decorates_quotedMarks,
    (decorations_transparent quotedMarks _).2 _ decorates_quotedMarks⟩

end ScriptAnalysis.Json.Relaxed
