import Mathlib.Data.List.Basic
import Mathlib.Data.List.TakeWhile
import ScriptAnalysis.Text.Span

/-!
# What is blanked out

Spans may be listed in any order, may overlap or touch, and may end where they start
or in front of that. They are blanked out in one pass over the text: the spans are
sorted, those that touch are joined, and only the first one that has not ended yet is
looked at. Here the pass is compared with what is wanted of each character alone.

**Specification.** A span covers the offsets from its start to its end, the end not
included (`Covers`); a span that ends where it starts or in front of it covers none.

**Invariant.** The joined spans cover what the others did (`covers_mergeFrom`), and
each ends before the next one starts (`Apart`). So behind a span that has not ended
no other covers the offset at hand.

**Results.**
* `covers_merge`, `apart_merge`: what joining sorted spans comes to.
* `getElem?_blank`: each character of a blanked text.
-/
namespace ScriptAnalysis.Span

open Text

variable {s last : Span} {spans rest : List Span} {o offset : Nat}

/-- The offset lies in the span. -/
def Covers (s : Span) (o : Nat) : Prop :=
  s.start ≤ o ∧ o < s.stop

instance (s : Span) (o : Nat) : Decidable (s.Covers o) :=
  inferInstanceAs (Decidable (_ ∧ _))

/-- In the order of their starts. -/
def Ascending (spans : List Span) : Prop :=
  spans.Pairwise fun s t => s.start ≤ t.start

/-- Each span ends before those behind it start. -/
def Apart (spans : List Span) : Prop :=
  spans.Pairwise fun s t => s.stop < t.start

/-! ## Sorting -/

theorem before_total (s t : Span) : before s t = true ∨ before t s = true := by
  simp only [before, Bool.or_eq_true, Bool.and_eq_true, decide_eq_true_eq, beq_iff_eq]
  omega

theorem before_trans (s t u : Span) (h : before s t = true) (h' : before t u = true) :
    before s u = true := by
  simp only [before, Bool.or_eq_true, Bool.and_eq_true, decide_eq_true_eq, beq_iff_eq] at *
  omega

theorem ascending_sort (spans : List Span) : Ascending (Order.sort before spans) := by
  refine (Order.pairwise_sort before_total before_trans spans).imp fun {s t} h => ?_
  simp only [before, Bool.or_eq_true, Bool.and_eq_true, decide_eq_true_eq, beq_iff_eq] at h
  omega

/-! ## Joining -/

/-- With a span that touches it, a span covers what both do. -/
theorem covers_join (hstart : last.start ≤ s.start) (htouch : s.start ≤ last.stop) :
    Covers ⟨last.start, max last.stop s.stop⟩ o ↔ last.Covers o ∨ s.Covers o := by
  simp only [Covers]
  omega

/-- A joined span starts with the span that it grew from. -/
theorem Ascending.join (h : Ascending (last :: s :: rest)) (stop : Nat) :
    Ascending (⟨last.start, stop⟩ :: rest) := by
  obtain ⟨hlast, hrest⟩ := List.pairwise_cons.1 h
  exact List.pairwise_cons.2 ⟨fun t ht => hlast t (List.mem_cons_of_mem s ht), hrest.of_cons⟩

theorem covers_mergeFrom (h : Ascending (last :: rest)) :
    (∃ t ∈ mergeFrom last rest, t.Covers o) ↔ ∃ t ∈ last :: rest, t.Covers o := by
  induction rest generalizing last with
  | nil => rfl
  | cons s rest ih =>
    have hstart : last.start ≤ s.start := List.rel_of_pairwise_cons h List.mem_cons_self
    unfold mergeFrom
    split
    · rename_i htouch
      rw [ih (h.join _)]
      simp only [List.exists_mem_cons_iff, covers_join hstart htouch, or_assoc]
    · simp only [List.exists_mem_cons_iff, ih h.of_cons]

theorem covers_merge (h : Ascending spans) :
    (∃ t ∈ merge spans, t.Covers o) ↔ ∃ t ∈ spans, t.Covers o := by
  cases spans with
  | nil => rfl
  | cons s rest => exact covers_mergeFrom h

/-- Joining moves no start to the front. -/
theorem start_le_of_mem_mergeFrom (h : Ascending (last :: rest)) {t : Span}
    (ht : t ∈ mergeFrom last rest) : last.start ≤ t.start := by
  induction rest generalizing last with
  | nil =>
    cases List.mem_singleton.1 ht
    exact Nat.le_refl _
  | cons s rest ih =>
    have hstart : last.start ≤ s.start := List.rel_of_pairwise_cons h List.mem_cons_self
    unfold mergeFrom at ht
    split at ht
    · have hle := ih (h.join (max last.stop s.stop)) ht
      exact hle
    · rcases List.mem_cons.1 ht with rfl | ht
      · exact Nat.le_refl _
      · exact Nat.le_trans hstart (ih h.of_cons ht)

theorem apart_mergeFrom (h : Ascending (last :: rest)) : Apart (mergeFrom last rest) := by
  induction rest generalizing last with
  | nil => exact List.pairwise_singleton _ _
  | cons s rest ih =>
    unfold mergeFrom
    split
    · exact ih (h.join _)
    · rename_i hgap
      refine List.pairwise_cons.2 ⟨fun t ht => ?_, ih h.of_cons⟩
      have := start_le_of_mem_mergeFrom h.of_cons ht
      omega

theorem apart_merge (h : Ascending spans) : Apart (merge spans) := by
  cases spans with
  | nil => exact .nil
  | cons s rest => exact apart_mergeFrom h

/-! ## One pass -/

/-- The spans that have not ended at an offset; those in front of the first of them are
dropped. -/
def ahead (offset : Nat) (spans : List Span) : List Span :=
  spans.dropWhile fun s => s.stop ≤ offset

theorem apart_ahead (h : Apart spans) (offset : Nat) : Apart (ahead offset spans) :=
  h.sublist (List.dropWhile_sublist _)

/-- What is dropped covers nothing from the offset on. -/
theorem covers_ahead (hle : offset ≤ o) :
    (∃ s ∈ ahead offset spans, s.Covers o) ↔ ∃ s ∈ spans, s.Covers o := by
  constructor
  · rintro ⟨s, hs, hcovers⟩
    exact ⟨s, (List.dropWhile_sublist _).mem hs, hcovers⟩
  · rintro ⟨s, hs, hcovers⟩
    rw [← List.takeWhile_append_dropWhile (p := fun s => decide (s.stop ≤ offset)) (l := spans),
      List.mem_append] at hs
    refine ⟨s, hs.resolve_left fun hended => ?_, hcovers⟩
    have hstop := List.mem_takeWhile_imp hended
    simp only [decide_eq_true_eq] at hstop
    exact Nat.not_lt.2 (hstop.trans hle) hcovers.2

/-- The first span that has not ended decides whether an offset is covered. -/
theorem head_ahead (h : Apart spans) (offset : Nat) :
    (ahead offset spans).head?.any (fun s => s.start ≤ offset) = true ↔
      ∃ s ∈ spans, s.Covers offset := by
  rw [← covers_ahead (Nat.le_refl offset)]
  have hapart := apart_ahead h offset
  have hopen : ∀ s ∈ (ahead offset spans).head?, offset < s.stop := by
    intro s hs
    have := List.head?_dropWhile_not (fun s : Span => decide (s.stop ≤ offset)) spans
    unfold ahead at hs
    rw [Option.mem_def.1 hs] at this
    simpa using this
  cases hleft : ahead offset spans with
  | nil => simp
  | cons s rest =>
    rw [hleft] at hapart hopen
    have hstop : offset < s.stop := hopen s rfl
    simp only [List.head?_cons, Option.any_some, decide_eq_true_eq]
    constructor
    · exact fun hstart => ⟨s, List.mem_cons_self, hstart, hstop⟩
    · rintro ⟨t, ht, hcovers⟩
      rcases List.mem_cons.1 ht with rfl | ht
      · exact hcovers.1
      · have hgap := List.rel_of_pairwise_cons hapart ht
        exact absurd hcovers.1 (by omega)

theorem getElem?_blankFrom (h : Apart spans) (offset : Nat) (text : List Char) (i : Nat) :
    (blankFrom offset spans text)[i]? = text[i]?.map fun c =>
      if (∃ s ∈ spans, s.Covers (offset + size (text.take i))) ∧ c ≠ '\n' ∧ c ≠ '\r' then ' '
      else c := by
  induction text generalizing offset spans i with
  | nil => rfl
  | cons c cs ih =>
    cases i with
    | zero =>
      have hhead := head_ahead h offset
      unfold ahead at hhead
      simp only [blankFrom, List.getElem?_cons_zero, Option.map_some, List.take_zero, size_nil,
        Nat.add_zero, Bool.and_eq_true, bne_iff_ne, hhead, and_assoc]
      congr
    | succ i =>
      have hoffset : offset + c.utf8Size + size (cs.take i) =
          offset + size ((c :: cs).take (i + 1)) := by
        rw [List.take_succ_cons, size_cons, Nat.add_assoc]
      have hahead : ∀ o, offset ≤ o →
          ((∃ s ∈ ahead offset spans, s.Covers o) ↔ ∃ s ∈ spans, s.Covers o) :=
        fun _ => covers_ahead
      have hrest := ih (apart_ahead h offset) (offset + c.utf8Size) i
      rw [hoffset] at hrest
      simp only [hahead _ (Nat.le_add_right offset _)] at hrest
      exact hrest

/-- For every text and all spans, whatever their order and however they overlap: a
character is shown as a blank if and only if some span covers the offset at which it
starts and it is neither a line feed nor a carriage return. All others are as before,
and none is lost or added. -/
theorem getElem?_blank (spans : List Span) (text : List Char) (i : Nat) :
    (blank spans text)[i]? = text[i]?.map fun c =>
      if (∃ s ∈ spans, s.Covers (size (text.take i))) ∧ c ≠ '\n' ∧ c ≠ '\r' then ' ' else c := by
  have hsorted := ascending_sort spans
  unfold blank
  rw [getElem?_blankFrom (apart_merge hsorted)]
  simp only [Nat.zero_add, covers_merge hsorted, (Order.perm_sort before spans).mem_iff]

end ScriptAnalysis.Span
