import Mathlib.Data.List.Forall2
import Mathlib.Data.List.GetD
import ScriptAnalysis.Text.LineMap

/-!
# The lines of a text by characters

A `LineMap` counts bytes. Here the same is said with the characters of a text
counted instead: `fronts` are the indices at which lines start, behind the first
one, and `place` is the position of the character with a given index.

**Results.**
* `place_eq`: the line of a character is the number of fronts up to it, and its
  column counts the units from the last of them on.
* `line_place_eq_iff`: an earlier character stands on the same line if and only
  if the line starts at it or before.
* `fronts_congr`: only line feeds and carriage returns matter for where lines
  start.
-/
namespace ScriptAnalysis.LineMap

open Text

/-- The indices right after the line breaks of a text whose first character has
the index `i`. -/
def fronts : Nat → List Char → List Nat
  | _, [] => []
  | i, '\n' :: cs => (i + 1) :: fronts (i + 1) cs
  | i, '\r' :: cs =>
    if cs.head? = some '\n' then fronts (i + 1) cs else (i + 1) :: fronts (i + 1) cs
  | i, _ :: cs => fronts (i + 1) cs

/-- The position of the character with the index `k`. -/
def place (text : List Char) (k : Nat) : Position :=
  (ofText text).position text (size (text.take k))

/-- The index of the first character on the line of the character with the
index `k`. -/
def front (text : List Char) (k : Nat) : Nat :=
  (0 :: fronts 0 text).getD ((fronts 0 text).countP (· ≤ k)) 0

example : fronts 0 "a\r\nb\rc".toList = [3, 5] := by decide

/-! ## Offsets of characters -/

theorem take_eq_append (text : List Char) {j k : Nat} (hjk : j ≤ k) :
    text.take k = text.take j ++ (text.take k).drop j := by
  have hmin : text.take j = (text.take k).take j := by
    rw [List.take_take, Nat.min_eq_left hjk]
  rw [hmin, List.take_append_drop]

theorem size_take_lt {text : List Char} {j k : Nat} (hjk : j < k) (hj : j < text.length) :
    size (text.take j) < size (text.take k) := by
  have hlong : 0 < ((text.take k).drop j).length := by
    simp only [List.length_drop, List.length_take]
    omega
  have hsize := length_le_size ((text.take k).drop j)
  rw [take_eq_append text (Nat.le_of_lt hjk), size_append]
  omega

/-- The order of characters is that of their offsets. -/
theorem size_take_le_iff {text : List Char} {j k : Nat} (hj : j ≤ text.length) :
    size (text.take j) ≤ size (text.take k) ↔ j ≤ k := by
  constructor
  · intro hle
    apply Nat.le_of_not_lt
    intro hlt
    have := size_take_lt hlt (show k < text.length by omega)
    omega
  · intro hjk
    rw [take_eq_append text hjk, size_append]
    omega

/-! ## Fronts -/

/-- A front stands behind a character of the text. -/
theorem mem_fronts {i : Nat} {cs : List Char} {j : Nat} (h : j ∈ fronts i cs) :
    i < j ∧ j ≤ i + cs.length := by
  fun_induction fronts i cs with
  | case1 => simp at h
  | case2 i cs ih =>
    rcases List.mem_cons.1 h with rfl | h
    · simp
    · have := ih h
      simp only [List.length_cons]
      omega
  | case3 i cs hnext ih =>
    have := ih h
    simp only [List.length_cons]
    omega
  | case4 i cs hnext ih =>
    rcases List.mem_cons.1 h with rfl | h
    · simp
    · have := ih h
      simp only [List.length_cons]
      omega
  | case5 i c cs _ _ ih =>
    have := ih h
    simp only [List.length_cons]
    omega

theorem size_take_succ (before cs : List Char) (c : Char) :
    size ((before ++ c :: cs).take (before.length + 1)) = size before + c.utf8Size := by
  have hsplit : before ++ c :: cs = (before ++ [c]) ++ cs := by simp
  rw [hsplit, List.take_left' (by simp)]
  simp

/-- The breaks of a text are the offsets of its fronts. -/
theorem breaks_eq (before cs : List Char) :
    breaks (size before) cs =
      (fronts before.length cs).map fun j => size ((before ++ cs).take j) := by
  generalize hn : size before = n
  fun_induction breaks n cs generalizing before with
  | case1 => simp [fronts]
  | case2 n cs ih =>
    have hrest := ih (before ++ ['\n']) (by simp [hn]; decide)
    have hhere := size_take_succ before cs '\n'
    simp only [List.append_assoc, List.singleton_append, List.length_append,
      List.length_singleton] at hrest
    simp only [fronts, List.map_cons, hhere, hrest, hn]
    rfl
  | case3 n cs hnext ih =>
    have hrest := ih (before ++ ['\r']) (by simp [hn]; decide)
    simp only [List.append_assoc, List.singleton_append, List.length_append,
      List.length_singleton] at hrest
    simp only [fronts, if_pos hnext, hrest]
  | case4 n cs hnext ih =>
    have hrest := ih (before ++ ['\r']) (by simp [hn]; decide)
    have hhere := size_take_succ before cs '\r'
    simp only [List.append_assoc, List.singleton_append, List.length_append,
      List.length_singleton] at hrest
    simp only [fronts, if_neg hnext, List.map_cons, hhere, hrest, hn]
    rfl
  | case5 n c cs hfeed hreturn ih =>
    have hrest := ih (before ++ [c]) (by simp [hn])
    simp only [List.append_assoc, List.singleton_append, List.length_append,
      List.length_singleton] at hrest
    simp only [fronts, hrest]

theorem fronts_ascending (i : Nat) (cs : List Char) : (fronts i cs).Pairwise (· < ·) := by
  fun_induction fronts i cs with
  | case1 => exact .nil
  | case2 i cs ih => exact List.pairwise_cons.2 ⟨fun j hj => (mem_fronts hj).1, ih⟩
  | case3 i cs hnext ih => exact ih
  | case4 i cs hnext ih => exact List.pairwise_cons.2 ⟨fun j hj => (mem_fronts hj).1, ih⟩
  | case5 i c cs _ _ ih => exact ih

/-- Of ascending numbers that start with one up to `k`, the one at the index
that counts those up to `k` behind the first is the last of them. -/
theorem getD_countP {a k : Nat} {ns : List Nat} (hascending : (a :: ns).Pairwise (· < ·))
    (ha : a ≤ k) :
    (a :: ns).getD (ns.countP (· ≤ k)) 0 ≤ k ∧
      ∀ n ∈ a :: ns, n ≤ k → n ≤ (a :: ns).getD (ns.countP (· ≤ k)) 0 := by
  induction ns generalizing a with
  | nil => simp [ha]
  | cons b ns ih =>
    obtain ⟨hfirst, hrest⟩ := List.pairwise_cons.1 hascending
    by_cases hb : b ≤ k
    · obtain ⟨hle, hlast⟩ := ih hrest hb
      simp only [List.countP_cons, hb, decide_true, if_true, List.getD_cons_succ]
      refine ⟨hle, fun n hn hnk => ?_⟩
      rcases List.mem_cons.1 hn with rfl | hn
      · have := hfirst b List.mem_cons_self
        have := hlast b List.mem_cons_self hb
        omega
      · exact hlast n hn hnk
    · have hnone : (b :: ns).countP (· ≤ k) = 0 := by
        rw [List.countP_eq_zero]
        intro n hn
        rcases List.mem_cons.1 hn with rfl | hn
        · simpa using hb
        · have := (List.pairwise_cons.1 hrest).1 n hn
          simp only [decide_eq_true_eq]
          omega
      rw [hnone]
      refine ⟨ha, fun n hn hnk => ?_⟩
      rcases List.mem_cons.1 hn with rfl | hn
      · exact Nat.le_refl _
      · rcases List.mem_cons.1 hn with rfl | hn
        · exact absurd hnk hb
        · have := (List.pairwise_cons.1 hrest).1 n hn
          omega

theorem fronts_of_zero (text : List Char) : (0 :: fronts 0 text).Pairwise (· < ·) :=
  List.pairwise_cons.2 ⟨fun _ hj => (mem_fronts hj).1, fronts_ascending 0 text⟩

theorem front_le (text : List Char) (k : Nat) : front text k ≤ k :=
  (getD_countP (fronts_of_zero text) (Nat.zero_le k)).1

theorem le_front {text : List Char} {j k : Nat} (hj : j ∈ 0 :: fronts 0 text) (hjk : j ≤ k) :
    j ≤ front text k :=
  (getD_countP (fronts_of_zero text) (Nat.zero_le k)).2 j hj hjk

theorem front_mem (text : List Char) (k : Nat) : front text k ∈ 0 :: fronts 0 text := by
  have hlt : (fronts 0 text).countP (· ≤ k) < (0 :: fronts 0 text).length := by
    have := List.countP_le_length (p := (· ≤ k)) (l := fronts 0 text)
    simp only [List.length_cons]
    omega
  unfold front
  rw [List.getD_eq_getElem _ _ hlt]
  exact List.getElem_mem hlt

/-! ## Positions -/

theorem starts_ofText (text : List Char) :
    (ofText text).starts = (0 :: fronts 0 text).map fun j => size (text.take j) := by
  have hbreaks := breaks_eq [] text
  simp only [List.nil_append, size_nil, List.length_nil] at hbreaks
  simp [ofText, hbreaks]

/-- The line of a character is the number of fronts up to it, and its column
counts the units from the last of these fronts on. -/
theorem place_eq (text : List Char) (k : Nat) :
    place text k =
      ⟨(fronts 0 text).countP (· ≤ k), units16 ((text.take k).drop (front text k))⟩ := by
  have hline : (ofText text).lineOf (size (text.take k)) = (fronts 0 text).countP (· ≤ k) := by
    unfold lineOf
    rw [starts_ofText, List.map_cons, List.countP_cons, List.countP_map]
    have hcount : (fronts 0 text).countP ((· ≤ size (text.take k)) ∘ fun j => size (text.take j))
        = (fronts 0 text).countP (· ≤ k) := by
      apply List.countP_congr
      intro j hj
      have := (mem_fronts hj).2
      simp only [Function.comp, decide_eq_true_eq]
      exact size_take_le_iff (by omega)
    rw [hcount]
    simp
  have hstart : (ofText text).starts.getD ((fronts 0 text).countP (· ≤ k)) 0 =
      size (text.take (front text k)) := by
    rw [starts_ofText]
    exact List.getD_map (0 :: fronts 0 text) 0 fun j => size (text.take j)
  have hsplit := take_eq_append text (front_le text k)
  have hslice : slice text (size (text.take (front text k))) (size (text.take k)) =
      (text.take k).drop (front text k) := by
    have hcut := slice?_size (text.take (front text k)) ((text.take k).drop (front text k))
      (text.drop k)
    rw [← List.append_assoc, ← hsplit, List.take_append_drop, ← size_append, ← hsplit] at hcut
    unfold slice
    rw [hcut]
    rfl
  have hstop : size (text.take k) ≤ size text := by
    conv => rhs; rw [← List.take_append_drop k text, size_append]
    omega
  have hbefore : size (text.take (front text k)) ≤ size (text.take k) := by
    rw [hsplit, size_append]
    omega
  unfold place position
  simp only [hline, hstart, Nat.min_eq_left hstop, Nat.min_eq_left hbefore, hslice]

/-- An earlier character stands on the same line if and only if it does not
stand in front of that line. -/
theorem line_place_eq_iff {text : List Char} {j k : Nat} (hjk : j ≤ k) :
    (place text j).line = (place text k).line ↔ front text k ≤ j := by
  simp only [place_eq]
  constructor
  · intro hcount
    apply Nat.le_of_not_lt
    intro hlt
    -- the front of the line is counted for `k` and not for `j`
    have hfront : front text k ∈ fronts 0 text := by
      rcases List.mem_cons.1 (front_mem text k) with hzero | hmem
      · omega
      · exact hmem
    have hsub : ((fronts 0 text).filter (· ≤ j)).Sublist ((fronts 0 text).filter (· ≤ k)) := by
      apply List.monotone_filter_right
      intro n hn
      simp only [decide_eq_true_eq] at hn ⊢
      omega
    rw [List.countP_eq_length_filter, List.countP_eq_length_filter] at hcount
    have hmem : front text k ∈ (fronts 0 text).filter (· ≤ k) := by
      simp [hfront, front_le]
    rw [← hsub.eq_of_length hcount] at hmem
    have hle : front text k ≤ j := by simpa using (List.mem_filter.1 hmem).2
    omega
  · intro hle
    apply List.countP_congr
    intro n hn
    simp only [decide_eq_true_eq]
    constructor
    · intro hnj
      omega
    · intro hnk
      have := le_front (List.mem_cons_of_mem 0 hn) hnk
      omega

/-! ## Texts with the same breaks -/

/-- Characters that end a line in the same way. -/
def BreakAlike (c d : Char) : Prop :=
  (c = '\n' ↔ d = '\n') ∧ (c = '\r' ↔ d = '\r')

theorem fronts_congr {cs ds : List Char} (h : List.Forall₂ BreakAlike cs ds) (i : Nat) :
    fronts i ds = fronts i cs := by
  induction h generalizing i with
  | nil => rfl
  | @cons c d cs ds hcd h ih =>
    have hhead : ds.head? = some '\n' ↔ cs.head? = some '\n' := by
      cases h with
      | nil => simp
      | cons hnext _ => simp [hnext.1]
    obtain ⟨hfeed, hreturn⟩ := hcd
    by_cases hc : c = '\n'
    · have hd := hfeed.1 hc
      subst hc hd
      simp [fronts, ih]
    · by_cases hr : c = '\r'
      · have hd := hreturn.1 hr
        subst hr hd
        simp [fronts, ih, hhead]
      · have hd : d ≠ '\n' := fun h => hc (hfeed.2 h)
        have hd' : d ≠ '\r' := fun h => hr (hreturn.2 h)
        simp [fronts, ih]

end ScriptAnalysis.LineMap
