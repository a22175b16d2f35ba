import ScriptAnalysis.Erasure
import ScriptAnalysis.Proofs.Text.Lines

/-!
# Where the characters of an erased file stand

Erasing puts one blank in the place of one character. So characters keep their
index, and since line breaks stay, their line. A character outside the basic
plane takes two units of a column and its blank takes one, and then what follows
on the line moves to the left.

**Results.**
* `covered_eraseTypes`: an erased text is its source with blanks over some
  characters, none of them a line break.
* `units16_covered`: the blanks are as wide as the text below them if and only
  if no wide character is covered.
* `place_eraseTypes`: for each character of a file, what is left of it, its line,
  and when its column is the same.
-/
namespace ScriptAnalysis

open Text LineMap

/-! ## Blanks over a text -/

/-- The second character is the first, or a blank over one that ends no line. -/
def Covered (c d : Char) : Prop :=
  d = c ∨ d = ' ' ∧ c ≠ '\n' ∧ c ≠ '\r'

theorem Span.covered_blankFrom (offset : Nat) (spans : List Span) (text : List Char) :
    List.Forall₂ Covered text (Span.blankFrom offset spans text) := by
  induction text generalizing offset spans with
  | nil => exact .nil
  | cons c cs ih =>
    refine .cons ?_ (ih _ _)
    split
    · rename_i hcovered
      simp only [Bool.and_eq_true, bne_iff_ne, ne_eq] at hcovered
      exact .inr ⟨rfl, hcovered.1.2, hcovered.2⟩
    · exact .inl rfl

theorem Covered.breakAlike {c d : Char} (h : Covered c d) : BreakAlike c d := by
  rcases h with rfl | ⟨rfl, hfeed, hreturn⟩
  · exact ⟨Iff.rfl, Iff.rfl⟩
  · simp [BreakAlike, hfeed, hreturn]

theorem unit16_cases (c : Char) : unit16 c = 1 ∨ unit16 c = 2 := by
  unfold unit16
  split
  · exact .inl rfl
  · exact .inr rfl

/-- A blank is narrower than a wide character and as wide as any other. -/
theorem Covered.unit16 {c d : Char} (h : Covered c d) :
    Text.unit16 d ≤ Text.unit16 c ∧
      (Text.unit16 d = Text.unit16 c ↔ (Text.unit16 c = 2 → d = c)) := by
  have hblank : Text.unit16 ' ' = 1 := by decide
  rcases h with rfl | ⟨rfl, -, -⟩
  · simp
  · rcases unit16_cases c with hone | htwo
    · simp [hblank, hone]
    · rw [hblank, htwo]
      refine ⟨by omega, ⟨fun h => absurd h (by omega), fun h => ?_⟩⟩
      -- a wide character is no blank
      have hsame := h rfl
      rw [← hsame, hblank] at htwo
      omega

/-- Blanks over a text are as wide as it if and only if they cover no wide
character. -/
theorem units16_covered {cs ds : List Char} (h : List.Forall₂ Covered cs ds) :
    units16 ds ≤ units16 cs ∧
      (units16 ds = units16 cs ↔
        ∀ (i : Nat) (c : Char), cs[i]? = some c → unit16 c = 2 → ds[i]? = some c) := by
  induction h with
  | nil => simp
  | @cons c d cs ds hcd h ih =>
    obtain ⟨hle, hiff⟩ := ih
    obtain ⟨hunit, hsame⟩ := hcd.unit16
    simp only [units16]
    refine ⟨by omega, ⟨fun heq i b hb hwide => ?_, fun hkept => ?_⟩⟩
    · cases i with
      | zero =>
        simp only [List.getElem?_cons_zero, Option.some.injEq] at hb ⊢
        subst hb
        exact hsame.1 (by omega) hwide
      | succ i => exact hiff.1 (by omega) i b hb hwide
    · have hfirst : unit16 d = unit16 c := hsame.2 fun hwide => by
        simpa using hkept 0 c rfl hwide
      have hrest : units16 ds = units16 cs :=
        hiff.2 fun i b hb hwide => hkept (i + 1) b hb hwide
      omega

/-! ## Erased files -/

namespace Erasure

theorem covered_eraseTypes (f : SourceFile) : List.Forall₂ Covered f.text (eraseTypes f) :=
  Span.covered_blankFrom _ _ _

/-- Each character of an erased file is the one of the source or a blank, and
stands on the same line. It stands in the same column if and only if no
character outside the basic plane was blanked out in front of it on its line. -/
theorem place_eraseTypes (f : SourceFile) (k : Nat) :
    ((eraseTypes f)[k]? = f.text[k]? ∨ (eraseTypes f)[k]? = some ' ') ∧
      (place (eraseTypes f) k).line = (place f.text k).line ∧
      ((place (eraseTypes f) k).character = (place f.text k).character ↔
        ∀ j < k, (place f.text j).line = (place f.text k).line →
          ∀ c, f.text[j]? = some c → unit16 c = 2 → (eraseTypes f)[j]? = some c) := by
  have hcovered := covered_eraseTypes f
  have hfronts : fronts 0 (eraseTypes f) = fronts 0 f.text :=
    fronts_congr (hcovered.imp fun _ _ h => h.breakAlike) 0
  have hfront : front (eraseTypes f) k = front f.text k := by
    unfold front
    rw [hfronts]
  refine ⟨?_, ?_, ?_⟩
  · have hlength := hcovered.length_eq
    by_cases hk : k < f.text.length
    · have hk' : k < (eraseTypes f).length := by omega
      have hone := hcovered.get (i := k) hk hk'
      simp only [List.get_eq_getElem] at hone
      rw [List.getElem?_eq_getElem hk, List.getElem?_eq_getElem hk']
      rcases hone with hsame | ⟨hblank, -, -⟩
      · exact .inl (congrArg some hsame)
      · exact .inr (congrArg some hblank)
    · rw [List.getElem?_eq_none (by omega), List.getElem?_eq_none (by omega)]
      exact .inl rfl
  · rw [place_eq, place_eq, hfronts]
  · have hline := (units16_covered
      (List.forall₂_drop (front f.text k) (List.forall₂_take k hcovered))).2
    have hcolumn : (place (eraseTypes f) k).character = (place f.text k).character ↔
        units16 (((eraseTypes f).take k).drop (front f.text k)) =
          units16 ((f.text.take k).drop (front f.text k)) := by
      rw [place_eq f.text k, place_eq (eraseTypes f) k, hfront]
    have hat : ∀ (text : List Char) (i : Nat), front f.text k + i < k →
        ((text.take k).drop (front f.text k))[i]? = text[front f.text k + i]? := by
      intro text i hi
      rw [List.getElem?_drop, List.getElem?_take, if_pos hi]
    rw [hcolumn, hline]
    constructor
    · intro hkept j hj hsame c hc hwide
      have hle := (line_place_eq_iff (Nat.le_of_lt hj)).1 hsame
      obtain ⟨i, rfl⟩ := Nat.exists_eq_add_of_le hle
      rw [← hat _ i hj] at hc ⊢
      exact hkept i c hc hwide
    · intro hkept i c hc hwide
      have hi : front f.text k + i < k := by
        have := (List.getElem?_eq_some_iff.1 hc).1
        simp only [List.length_drop, List.length_take] at this
        omega
      rw [hat _ i hi] at hc ⊢
      have hsame := (line_place_eq_iff (Nat.le_of_lt hi)).2 (Nat.le_add_right _ i)
      exact hkept _ hi hsame c hc hwide

/-- The blank for a character that takes two units takes one, and what follows
stands one column to the left. -/
theorem column_of_wide_type :
    (SourceFile.parse "/a.ts" "let x: '😀' = y;".toList).errors = [] ∧
      place (SourceFile.parse "/a.ts" "let x: '😀' = y;".toList).text 11 = ⟨0, 12⟩ ∧
      place (eraseTypes (SourceFile.parse "/a.ts" "let x: '😀' = y;".toList)) 11 = ⟨0, 11⟩ := by
  rw [String.toList_ofList]
  refine ⟨?_, ?_, ?_⟩
  all_goals decide +kernel

end Erasure

end ScriptAnalysis
