import Mathlib.Data.List.Nodup
import ScriptAnalysis.Proofs.Text.Lines

/-!
# Positions of the boundaries of a text

Where a line break ends is said here by looking at two characters of the text
(`breakEnds`), not by a walk over it: a line feed ends one, alone or behind a
carriage return, and so does a carriage return that no line feed follows. The
place between the two characters of a pair is a boundary like any other, and
still on the line that the pair ends.

**Scope.** Offsets and columns are natural numbers here and do not wrap.

**Results.**
* `mem_fronts_iff`: lines start where breaks end.
* `place_before`: a later character has a later position.
* `position_boundary`: the position of a boundary counts the breaks that end up to
  it and the units behind the last of them, the positions ascend with the
  offsets, and no two boundaries share one.
-/
namespace ScriptAnalysis.LineMap

open Text

/-- A line break ends right in front of the character with the index `j`. -/
def breakEnds (text : List Char) : Nat → Bool
  | 0 => false
  | i + 1 => text[i]? == some '\n' || (text[i]? == some '\r' && text[i + 1]? != some '\n')

/-- An offset at which a character of the text starts or the text ends. -/
def IsBoundary (text : List Char) (offset : Nat) : Prop :=
  ∃ before after, before ++ after = text ∧ size before = offset

/-- On an earlier line, or further in front on the same line. -/
def Precedes (p q : Position) : Prop :=
  p.line < q.line ∨ p.line = q.line ∧ p.character < q.character

example : (List.range 7).filter (breakEnds "a\r\nb\rc".toList) = [3, 5] := by decide

/-! ## Where lines start -/

@[simp] theorem breakEnds_zero (text : List Char) : breakEnds text 0 = false := rfl

theorem breakEnds_cons (c : Char) (cs : List Char) (i : Nat) :
    breakEnds (c :: cs) (i + 2) = breakEnds cs (i + 1) := by
  simp only [breakEnds, List.getElem?_cons_succ]

theorem breakEnds_cons_one (c : Char) (cs : List Char) :
    breakEnds (c :: cs) 1 = true ↔ c = '\n' ∨ c = '\r' ∧ cs.head? ≠ some '\n' := by
  simp [breakEnds, List.head?_eq_getElem?]

/-- A break that ends in a text ends behind its first character or in the rest. -/
theorem breakEnds_iff (c : Char) (cs : List Char) (d : Nat) :
    breakEnds (c :: cs) d = true ↔
      (d = 1 ∧ breakEnds (c :: cs) 1 = true) ∨ ∃ e, d = e + 1 ∧ breakEnds cs e = true := by
  match d with
  | 0 => simp
  | 1 => simp
  | d + 2 => simp [breakEnds_cons]

/-- Lines start where line breaks end. -/
theorem mem_fronts_iff {i : Nat} {cs : List Char} {j : Nat} :
    j ∈ fronts i cs ↔ ∃ d, j = i + d ∧ breakEnds cs d = true := by
  have hcons (i : Nat) (c : Char) (cs : List Char)
      (ih : j ∈ fronts (i + 1) cs ↔ ∃ d, j = i + 1 + d ∧ breakEnds cs d = true) :
      (∃ d, j = i + d ∧ breakEnds (c :: cs) d = true) ↔
        (j = i + 1 ∧ breakEnds (c :: cs) 1 = true) ∨ j ∈ fronts (i + 1) cs := by
    rw [ih]
    constructor
    · rintro ⟨d, rfl, hd⟩
      rcases (breakEnds_iff c cs d).1 hd with ⟨rfl, hone⟩ | ⟨e, rfl, he⟩
      · exact .inl ⟨rfl, hone⟩
      · exact .inr ⟨e, by omega, he⟩
    · rintro (⟨rfl, hone⟩ | ⟨e, rfl, he⟩)
      · exact ⟨1, rfl, hone⟩
      · exact ⟨e + 1, by omega, (breakEnds_iff c cs _).2 (.inr ⟨e, rfl, he⟩)⟩
  fun_induction fronts i cs with
  | case1 i =>
    have hnone (d : Nat) : breakEnds [] d = false := by cases d <;> rfl
    simp [hnone]
  | case2 i cs ih =>
    rw [hcons i '\n' cs ih, List.mem_cons, breakEnds_cons_one]
    simp
  | case3 i cs hnext ih =>
    rw [hcons i '\r' cs ih, breakEnds_cons_one]
    simp [hnext]
  | case4 i cs hnext ih =>
    rw [hcons i '\r' cs ih, List.mem_cons, breakEnds_cons_one]
    simp [hnext]
  | case5 i c cs hfeed hreturn ih =>
    rw [hcons i c cs ih, breakEnds_cons_one]
    simp [show c ≠ '\n' from hfeed, show c ≠ '\r' from hreturn]

theorem mem_fronts_zero_iff {text : List Char} {j : Nat} :
    j ∈ fronts 0 text ↔ breakEnds text j = true := by
  simp [mem_fronts_iff]

/-- As many lines start up to a place as breaks end up to it. -/
theorem countP_fronts (text : List Char) (k : Nat) :
    (fronts 0 text).countP (· ≤ k) = (List.range (k + 1)).countP (breakEnds text) := by
  rw [List.countP_eq_length_filter, List.countP_eq_length_filter]
  apply List.Perm.length_eq
  rw [List.perm_ext_iff_of_nodup]
  · intro j
    simp only [List.mem_filter, List.mem_range, mem_fronts_zero_iff, decide_eq_true_eq]
    constructor
    · rintro ⟨hends, hle⟩
      exact ⟨by omega, hends⟩
    · rintro ⟨hlt, hends⟩
      exact ⟨hends, by omega⟩
  · exact ((fronts_ascending 0 text).imp fun {a b} hab => Nat.ne_of_lt hab).filter _
  · exact List.nodup_range.filter _

/-! ## The order of positions -/

theorem length_le_units16 (cs : List Char) : cs.length ≤ units16 cs := by
  induction cs with
  | nil => exact Nat.le_refl 0
  | cons c cs ih =>
    have hunit : 1 ≤ unit16 c := by
      unfold unit16
      split <;> omega
    simp only [List.length_cons, units16]
    omega

/-- A later character has a later position. -/
theorem place_before {text : List Char} {j k : Nat} (hjk : j < k) (hk : k ≤ text.length) :
    Precedes (place text j) (place text k) := by
  have hle : (place text j).line ≤ (place text k).line := by
    simp only [place_eq]
    refine List.countP_mono_left fun n _ hn => ?_
    simp only [decide_eq_true_eq] at hn ⊢
    omega
  rcases Nat.lt_or_eq_of_le hle with hlt | hline
  · exact .inl hlt
  · refine .inr ⟨hline, ?_⟩
    -- both characters stand on the line that starts at the front of the later one
    have hfront := (line_place_eq_iff (Nat.le_of_lt hjk)).1 hline
    have hsame : front text j = front text k := by
      apply Nat.le_antisymm
      · exact le_front (front_mem text j) (Nat.le_trans (front_le text j) (Nat.le_of_lt hjk))
      · exact le_front (front_mem text k) hfront
    have hsplit : (text.take k).drop (front text k) =
        (text.take j).drop (front text k) ++ (text.take k).drop j := by
      conv => lhs; rw [take_eq_append text (Nat.le_of_lt hjk)]
      rw [List.drop_append_of_le_length]
      rw [List.length_take]
      omega
    have hlong : 0 < ((text.take k).drop j).length := by
      simp only [List.length_drop, List.length_take]
      omega
    have hunits := length_le_units16 ((text.take k).drop j)
    simp only [place_eq, hsame, hsplit, units16_append]
    omega

theorem IsBoundary.exists_index {text : List Char} {offset : Nat} (h : IsBoundary text offset) :
    ∃ k ≤ text.length, offset = size (text.take k) := by
  obtain ⟨before, after, rfl, rfl⟩ := h
  exact ⟨before.length, by simp, by rw [List.take_left' rfl]⟩

theorem position_before {text : List Char} {o o' : Nat} (h : IsBoundary text o)
    (h' : IsBoundary text o') (hlt : o < o') :
    Precedes ((ofText text).position text o) ((ofText text).position text o') := by
  obtain ⟨j, hj, rfl⟩ := h.exists_index
  obtain ⟨k, hk, rfl⟩ := h'.exists_index
  refine place_before ?_ hk
  apply Nat.lt_of_not_le
  intro hkj
  have := (size_take_le_iff (k := j) hk).2 hkj
  omega

theorem not_precedes_self (p : Position) : ¬ Precedes p p := by
  unfold Precedes
  omega

/-- The line of a boundary is the number of line breaks that end at it or in front
of it, and its column counts the units of what stands between the last of them and
the boundary. So the positions of the boundaries ascend, and no two are equal. -/
theorem position_boundary (text : List Char) :
    (∀ before after, before ++ after = text → ∃ front line, front ++ line = before ∧
      (front = [] ∨ breakEnds text front.length = true) ∧
      (∀ j, front.length < j → j ≤ before.length → breakEnds text j = false) ∧
      (ofText text).position text (size before) =
        ⟨(List.range (before.length + 1)).countP (breakEnds text), units16 line⟩) ∧
    (∀ o o', IsBoundary text o → IsBoundary text o' → o < o' →
      Precedes ((ofText text).position text o) ((ofText text).position text o')) ∧
    ∀ o o', IsBoundary text o → IsBoundary text o' →
      (ofText text).position text o = (ofText text).position text o' → o = o' := by
  refine ⟨?_, fun o o' h h' => position_before h h', fun o o' h h' hsame => ?_⟩
  · rintro before after rfl
    have hbefore : (before ++ after).take before.length = before := List.take_left' rfl
    have hplace := place_eq (before ++ after) before.length
    rw [place, hbefore, countP_fronts] at hplace
    have hle := front_le (before ++ after) before.length
    refine ⟨before.take (front (before ++ after) before.length),
      before.drop (front (before ++ after) before.length), List.take_append_drop _ _, ?_, ?_, hplace⟩
    · rw [List.length_take, Nat.min_eq_left hle]
      rcases List.mem_cons.1 (front_mem (before ++ after) before.length) with hzero | hmem
      · rw [hzero]
        exact .inl rfl
      · exact .inr (mem_fronts_zero_iff.1 hmem)
    · rw [List.length_take, Nat.min_eq_left hle]
      intro j hlt hj
      refine Bool.eq_false_iff.2 fun hends => ?_
      have := le_front (List.mem_cons_of_mem 0 (mem_fronts_zero_iff.2 hends)) hj
      omega
  · rcases Nat.lt_trichotomy o o' with hlt | heq | hlt
    · exact absurd (hsame ▸ position_before h h' hlt) (not_precedes_self _)
    · exact heq
    · exact absurd (hsame ▸ position_before h' h hlt) (not_precedes_self _)

end ScriptAnalysis.LineMap
