import ScriptAnalysis.Text

/-!
# Cutting a text at a mark

`splitOn` cuts a text at the occurrences of a mark, from left to right and
without overlap. Replacing the mark is joining the pieces with something else
(`replace_eq_intercalate`), and how often it occurs is told by their number, so
all laws are laws of `splitOn`.

**Where a cut is certain.** An occurrence may be missed because one that
overlaps it was found first. That cannot happen to a mark whose first character
stands nowhere else in it: then a text is cut at every occurrence
(`splitOn_append_mark`), and what stands in front of one is cut as if nothing
followed.

**Results.**
* `splitOn_of_present`, `splitOn_of_absent`: a text is cut in several pieces
  exactly if the mark occurs in it.
* `length_replace`: what replacing does to the length of a text.
* `replace_eq_self_iff`: when it does nothing.
* `splitOn_intercalate`: texts that were joined come apart again.
-/
namespace ScriptAnalysis.Text

variable {mark new cs u v : List Char} {c : Char}

/-! ## Several pieces or one -/

theorem splitOnFrom_ne_nil (mark : List Char) (k : Nat) (cs : List Char) :
    splitOnFrom mark k cs ≠ [] := by
  fun_induction splitOnFrom mark k cs with
  | case1 => exact List.cons_ne_nil _ _
  | case2 k c cs ih => exact ih
  | case3 c cs h ih => exact List.cons_ne_nil _ _
  | case4 c cs h hrest ih => exact List.cons_ne_nil _ _
  | case5 c cs h w ws hrest ih => exact List.cons_ne_nil _ _

theorem splitOn_ne_nil (mark cs : List Char) : splitOn mark cs ≠ [] :=
  splitOnFrom_ne_nil mark 0 cs

theorem splitOn_of_absent (h : ¬ mark <:+: cs) : splitOn mark cs = [cs] := by
  unfold splitOn
  induction cs with
  | nil => rfl
  | cons c cs ih =>
    have hfront : ¬ mark.isPrefixOf (c :: cs) = true := fun hp =>
      h (List.isPrefixOf_iff_prefix.1 hp).isInfix
    have hrest := ih fun hi => h (hi.trans (List.suffix_cons c cs).isInfix)
    simp only [splitOnFrom, hfront, hrest]
    rfl

theorem splitOn_of_present (hmark : mark ≠ []) (h : mark <:+: cs) :
    ∃ a b rest, splitOn mark cs = a :: b :: rest := by
  unfold splitOn
  induction cs with
  | nil => exact absurd (List.infix_nil.1 h) hmark
  | cons c cs ih =>
    by_cases hfront : mark.isPrefixOf (c :: cs) = true
    · obtain ⟨b, rest, hlater⟩ :=
        List.exists_cons_of_ne_nil (splitOnFrom_ne_nil mark (mark.length - 1) cs)
      exact ⟨[], b, rest, by simp only [splitOnFrom, hfront, hlater, if_true]⟩
    · rcases List.infix_cons_iff.1 h with hp | hi
      · exact absurd (List.isPrefixOf_iff_prefix.2 hp) hfront
      · obtain ⟨a, b, rest, hlater⟩ := ih hi
        exact ⟨c :: a, b, rest, by simp only [splitOnFrom, hfront, hlater]; rfl⟩

theorem occurrences_eq_zero_iff (hmark : mark ≠ []) : occurrences mark cs = 0 ↔ ¬ mark <:+: cs := by
  unfold occurrences
  constructor
  · intro h hi
    obtain ⟨a, b, rest, hsplit⟩ := splitOn_of_present hmark hi
    simp [hsplit] at h
  · intro h
    simp [splitOn_of_absent h]

/-! ## Replacing is joining -/

theorem replaceFrom_eq_intercalate (mark new : List Char) (k : Nat) (cs : List Char) :
    replaceFrom mark new k cs = new.intercalate (splitOnFrom mark k cs) := by
  fun_induction splitOnFrom mark k cs with
  | case1 k => cases k <;> rfl
  | case2 k c cs ih => exact ih
  | case3 c cs h ih =>
    obtain ⟨w, ws, hrest⟩ :=
      List.exists_cons_of_ne_nil (splitOnFrom_ne_nil mark (mark.length - 1) cs)
    rw [replaceFrom, if_pos h, ih, hrest, List.intercalate_cons_cons, List.nil_append]
  | case4 c cs h hrest ih => exact absurd hrest (splitOnFrom_ne_nil mark 0 cs)
  | case5 c cs h w ws hrest ih =>
    rw [replaceFrom, if_neg h, ih, hrest]
    cases ws with
    | nil => simp
    | cons w' ws => simp [List.intercalate_cons_cons]

theorem replace_eq_intercalate (mark new cs : List Char) :
    replace mark new cs = new.intercalate (splitOn mark cs) :=
  replaceFrom_eq_intercalate mark new 0 cs

theorem replace_of_absent (h : ¬ mark <:+: cs) : replace mark new cs = cs := by
  rw [replace_eq_intercalate, splitOn_of_absent h, List.intercalate_singleton]

/-- The characters of joined texts. -/
theorem length_intercalate (new : List Char) {ws : List (List Char)} (h : ws ≠ []) :
    (new.intercalate ws).length = ws.flatten.length + (ws.length - 1) * new.length := by
  induction ws with
  | nil => exact absurd rfl h
  | cons w ws ih =>
    cases ws with
    | nil => simp
    | cons w' ws =>
      have hrest := ih (List.cons_ne_nil _ _)
      rw [List.intercalate_cons_cons]
      simp only [List.flatten_cons, List.length_append, List.length_cons, Nat.add_sub_cancel,
        Nat.add_mul, Nat.one_mul] at hrest ⊢
      omega

theorem intercalate_append {ws ws' : List (List Char)} (h : ws ≠ []) (h' : ws' ≠ []) :
    new.intercalate (ws ++ ws') = new.intercalate ws ++ (new ++ new.intercalate ws') := by
  induction ws with
  | nil => exact absurd rfl h
  | cons w ws ih =>
    cases ws with
    | nil =>
      obtain ⟨w', rest, rfl⟩ := List.exists_cons_of_ne_nil h'
      simp [List.intercalate_cons_cons]
    | cons w' ws =>
      have hrest := ih (List.cons_ne_nil _ _)
      rw [List.cons_append, List.cons_append, List.intercalate_cons_cons,
        ← List.cons_append, hrest, List.intercalate_cons_cons]
      simp only [List.append_assoc]

/-! ## At an occurrence -/

theorem splitOnFrom_skip (w cs : List Char) :
    splitOnFrom mark w.length (w ++ cs) = splitOn mark cs := by
  induction w with
  | nil => rfl
  | cons c w ih => exact ih

theorem splitOn_mark_append (hmark : mark ≠ []) (cs : List Char) :
    splitOn mark (mark ++ cs) = [] :: splitOn mark cs := by
  obtain ⟨c, ds, rfl⟩ := List.exists_cons_of_ne_nil hmark
  have hfront : (c :: ds).isPrefixOf (c :: (ds ++ cs)) = true :=
    List.isPrefixOf_iff_prefix.2 ⟨cs, rfl⟩
  unfold splitOn
  rw [List.cons_append, splitOnFrom, if_pos hfront, List.length_cons, Nat.add_sub_cancel,
    splitOnFrom_skip]
  rfl

/-- Replacing a mark by itself does nothing. -/
theorem replace_self (hmark : mark ≠ []) (cs : List Char) : replace mark mark cs = cs := by
  suffices hfrom : ∀ k ≤ cs.length, replaceFrom mark mark k cs = cs.drop k from
    hfrom 0 (Nat.zero_le _)
  induction cs with
  | nil => intro k _; simp [replaceFrom]
  | cons c cs ih =>
    intro k hk
    cases k with
    | succ k => exact ih k (by simpa using hk)
    | zero =>
      rw [replaceFrom, List.drop_zero]
      split
      · rename_i hfront
        obtain ⟨rest, hrest⟩ := List.isPrefixOf_iff_prefix.1 hfront
        obtain ⟨d, ds, rfl⟩ := List.exists_cons_of_ne_nil hmark
        obtain ⟨rfl, rfl⟩ := List.cons.inj hrest
        have hlater : (d :: ds).length - 1 ≤ (ds ++ rest).length := by simp
        rw [ih _ hlater, List.length_cons, Nat.add_sub_cancel]
        show d :: ds ++ (ds ++ rest).drop ds.length = d :: ds ++ rest
        rw [List.drop_left]
      · rw [ih 0 (Nat.zero_le _), List.drop_zero]

/-- Replacing takes a mark away and puts something in for each occurrence. -/
theorem length_replace (hmark : mark ≠ []) (new cs : List Char) :
    (replace mark new cs).length + occurrences mark cs * mark.length =
      cs.length + occurrences mark cs * new.length := by
  have hparts := splitOn_ne_nil mark cs
  have hnew := length_intercalate new hparts
  have hself := length_intercalate mark hparts
  rw [← replace_eq_intercalate] at hnew hself
  rw [replace_self hmark] at hself
  unfold occurrences
  omega

/-- Replacing does nothing if there is nothing to replace, and else only if
the mark is put in again. -/
theorem replace_eq_self_iff (hmark : mark ≠ []) (new cs : List Char) :
    replace mark new cs = cs ↔ occurrences mark cs = 0 ∨ new = mark := by
  constructor
  · intro h
    by_cases hnone : mark <:+: cs
    · right
      obtain ⟨a, b, rest, hsplit⟩ := splitOn_of_present hmark hnone
      have hjoined := replace_self hmark cs
      have hlength := length_replace hmark new cs
      rw [h, occurrences, hsplit] at hlength
      have hsame : new.length = mark.length := by
        have hmul : (rest.length + 1) * mark.length = (rest.length + 1) * new.length := by
          simpa using Nat.add_left_cancel hlength
        exact (Nat.eq_of_mul_eq_mul_left (Nat.succ_pos _) hmul).symm
      -- both texts go on behind the first piece, one with the mark
      rw [replace_eq_intercalate, hsplit] at h hjoined
      rw [List.intercalate_cons_cons, List.append_assoc] at h hjoined
      have hboth := List.append_cancel_left (h.trans hjoined.symm)
      exact (List.append_inj hboth hsame).1
    · exact .inl ((occurrences_eq_zero_iff hmark).2 hnone)
  · rintro (h | rfl)
    · exact replace_of_absent ((occurrences_eq_zero_iff hmark).1 h)
    · exact replace_self hmark cs

/-! ## Where a cut is certain -/

theorem prefix_of_append_cons {a b : List Char} {c : Char} (hc : c ∉ mark)
    (h : mark <+: a ++ c :: b) : mark <+: a := by
  have hsplit : a ++ [c] <+: a ++ c :: b := ⟨b, by rw [List.append_assoc]; rfl⟩
  rcases List.prefix_or_prefix_of_prefix h hsplit with h | h
  · rcases List.prefix_concat_iff.1 h with rfl | h
    · exact absurd (List.mem_append_right _ (List.mem_singleton_self c)) hc
    · exact h
  · exact absurd (h.subset (List.mem_append_right _ (List.mem_singleton_self c))) hc

/-- A text is found on one side of a character that it does not hold. -/
theorem infix_append_cons {a b : List Char} {c : Char} (hc : c ∉ mark) :
    mark <:+: a ++ c :: b ↔ mark <:+: a ∨ mark <:+: b := by
  constructor
  · intro h
    induction a with
    | nil =>
      rcases List.infix_cons_iff.1 h with h | h
      · exact .inl (prefix_of_append_cons (a := []) hc h).isInfix
      · exact .inr h
    | cons d a ih =>
      rcases List.infix_cons_iff.1 h with h | h
      · exact .inl (prefix_of_append_cons (a := d :: a) hc h).isInfix
      · exact (ih h).imp (·.trans (List.suffix_cons d a).isInfix) id
  · rintro (h | h)
    · exact h.trans (List.prefix_append a _).isInfix
    · exact h.trans ((List.suffix_cons c b).trans (List.suffix_append a _)).isInfix

/-- A mark does not begin in a text without its first character. -/
theorem splitOn_append_of_not_mem (hc : c ∉ u) (ds cs : List Char) :
    ∃ w ws, splitOn (c :: ds) cs = w :: ws ∧ splitOn (c :: ds) (u ++ cs) = (u ++ w) :: ws := by
  induction u with
  | nil =>
    obtain ⟨w, ws, h⟩ := List.exists_cons_of_ne_nil (splitOn_ne_nil (c :: ds) cs)
    exact ⟨w, ws, h, h⟩
  | cons d u ih =>
    have hd : c ≠ d := List.ne_of_not_mem_cons hc
    have hu : c ∉ u := List.not_mem_of_not_mem_cons hc
    obtain ⟨w, ws, h, hrest⟩ := ih hu
    refine ⟨w, ws, h, ?_⟩
    unfold splitOn at hrest ⊢
    have hfront : (c :: ds).isPrefixOf (d :: (u ++ cs)) = false := by
      simp [List.isPrefixOf, hd]
    rw [List.cons_append, splitOnFrom, hfront, hrest]
    rfl

theorem occurrences_cons_of_not_prefix (h : ¬ mark <+: c :: cs) :
    occurrences mark (c :: cs) = occurrences mark cs := by
  rw [← List.isPrefixOf_iff_prefix] at h
  obtain ⟨w, ws, hrest⟩ := List.exists_cons_of_ne_nil (splitOnFrom_ne_nil mark 0 cs)
  unfold occurrences splitOn
  rw [splitOnFrom, if_neg h, hrest]
  rfl

theorem occurrences_append_of_not_mem {ds : List Char} (hc : c ∉ u) (cs : List Char) :
    occurrences (c :: ds) (u ++ cs) = occurrences (c :: ds) cs := by
  obtain ⟨w, ws, h, hrest⟩ := splitOn_append_of_not_mem hc ds cs
  simp [occurrences, h, hrest]

theorem occurrences_mark_append (hmark : mark ≠ []) (cs : List Char) :
    occurrences mark (mark ++ cs) = occurrences mark cs + 1 := by
  have hpos := List.length_pos_iff.2 (splitOn_ne_nil mark cs)
  rw [occurrences, occurrences, splitOn_mark_append hmark, List.length_cons]
  omega

/-- Whether a mark begins in front of one of its occurrences does not depend
on the occurrence. -/
theorem prefix_append_mark {ds : List Char} (hds : c ∉ ds) (hu : u ≠ []) :
    c :: ds <+: u ++ (c :: ds ++ v) ↔ c :: ds <+: u := by
  refine ⟨fun h => ?_, fun h => h.trans (List.prefix_append _ _)⟩
  obtain ⟨d, u, rfl⟩ := List.exists_cons_of_ne_nil hu
  rw [List.cons_append, List.cons_prefix_cons] at h
  rw [List.cons_prefix_cons]
  exact ⟨h.1, prefix_of_append_cons hds h.2⟩

/-- A text is cut at every occurrence of a mark whose first character stands
nowhere else in it. -/
theorem splitOn_append_mark {ds : List Char} (hds : c ∉ ds) (u v : List Char) :
    splitOn (c :: ds) (u ++ (c :: ds ++ v)) = splitOn (c :: ds) u ++ splitOn (c :: ds) v := by
  -- an occurrence in `u` ends there, so that no more of `u` is left to be passed
  suffices hfrom : ∀ k ≤ u.length, splitOnFrom (c :: ds) k (u ++ (c :: ds ++ v)) =
      splitOnFrom (c :: ds) k u ++ splitOn (c :: ds) v from hfrom 0 (Nat.zero_le _)
  induction u with
  | nil =>
    intro k hk
    obtain rfl : k = 0 := Nat.le_zero.1 hk
    exact splitOn_mark_append (List.cons_ne_nil c ds) v
  | cons d u ih =>
    intro k hk
    cases k with
    | succ k => exact ih k (by simpa using hk)
    | zero =>
      have hsame := prefix_append_mark (v := v) hds (List.cons_ne_nil d u)
      rw [← List.isPrefixOf_iff_prefix, ← List.isPrefixOf_iff_prefix] at hsame
      rw [List.cons_append] at hsame
      rw [List.cons_append, splitOnFrom, splitOnFrom]
      by_cases hfront : (c :: ds).isPrefixOf (d :: u) = true
      · have hwithin := (List.isPrefixOf_iff_prefix.1 hfront).length_le
        rw [if_pos (hsame.2 hfront), if_pos hfront, ih _ (by simpa using hwithin)]
        rfl
      · rw [if_neg (mt hsame.1 hfront), if_neg hfront, ih 0 (Nat.zero_le _)]
        obtain ⟨w, ws, hrest⟩ := List.exists_cons_of_ne_nil (splitOnFrom_ne_nil (c :: ds) 0 u)
        rw [hrest]
        rfl

theorem replace_append_mark {ds : List Char} (hds : c ∉ ds) (new u v : List Char) :
    replace (c :: ds) new (u ++ (c :: ds ++ v)) =
      replace (c :: ds) new u ++ (new ++ replace (c :: ds) new v) := by
  rw [replace_eq_intercalate, splitOn_append_mark hds,
    intercalate_append (splitOn_ne_nil _ _) (splitOn_ne_nil _ _), ← replace_eq_intercalate,
    ← replace_eq_intercalate]

theorem occurrences_append_mark {ds : List Char} (hds : c ∉ ds) (u v : List Char) :
    occurrences (c :: ds) (u ++ (c :: ds ++ v)) =
      occurrences (c :: ds) u + (occurrences (c :: ds) v + 1) := by
  have hu := List.length_pos_iff.2 (splitOn_ne_nil (c :: ds) u)
  have hv := List.length_pos_iff.2 (splitOn_ne_nil (c :: ds) v)
  rw [occurrences, occurrences, occurrences, splitOn_append_mark hds, List.length_append]
  omega

/-- Texts that were joined with a mark come apart again if its first
character is in none of them. -/
theorem splitOn_intercalate {ds : List Char} {ws : List (List Char)} (hws : ws ≠ [])
    (h : ∀ w ∈ ws, c ∉ w) : splitOn (c :: ds) ((c :: ds).intercalate ws) = ws := by
  induction ws with
  | nil => exact absurd rfl hws
  | cons w ws ih =>
    obtain ⟨hw, hrest⟩ := List.forall_mem_cons.1 h
    cases ws with
    | nil =>
      rw [List.intercalate_singleton]
      exact splitOn_of_absent fun hi => hw (hi.subset List.mem_cons_self)
    | cons w' ws =>
      obtain ⟨front, later, hfirst, hall⟩ := splitOn_append_of_not_mem hw ds
        (c :: ds ++ (c :: ds).intercalate (w' :: ws))
      rw [splitOn_mark_append (List.cons_ne_nil c ds), ih (List.cons_ne_nil _ _) hrest] at hfirst
      obtain ⟨rfl, rfl⟩ := List.cons.inj hfirst
      rw [List.intercalate_cons_cons, List.append_assoc, hall, List.append_nil]

end ScriptAnalysis.Text
