/-!
# Measures and cuts of source text

A source text is a list of characters. Offsets count bytes of its UTF-8
form, columns count UTF-16 units; both are measures on the list, so no
second string type is needed.

* `size`, `units16`: the two measures.
* `slice?`: the text between two byte offsets, absent when an offset is not
  a character boundary.
* `splitWhere`, `splitOn`, `replace`, `trim`: cuts and replacements.

Offsets and lists meet in `slice?_size`: a part of a text is the slice
between the sizes of what stands before its start and before its end.
-/
namespace ScriptAnalysis.Text

/-! ## Measures -/

/-- Length of a text in bytes of UTF-8. -/
def size : List Char → Nat
  | [] => 0
  | c :: cs => c.utf8Size + size cs

/-- UTF-16 units of one character: two outside the basic plane. -/
def unit16 (c : Char) : Nat :=
  if c.toNat < 0x10000 then 1 else 2

/-- Length of a text in UTF-16 units. -/
def units16 : List Char → Nat
  | [] => 0
  | c :: cs => unit16 c + units16 cs

@[simp] theorem size_nil : size [] = 0 := rfl

@[simp] theorem size_cons (c : Char) (cs : List Char) : size (c :: cs) = c.utf8Size + size cs := rfl

@[simp] theorem size_append (a b : List Char) : size (a ++ b) = size a + size b := by
  induction a with
  | nil => simp
  | cons c cs ih => simp [ih, Nat.add_assoc]

/-- A character takes at least one byte. -/
theorem length_le_size (cs : List Char) : cs.length ≤ size cs := by
  induction cs with
  | nil => simp
  | cons c cs ih =>
    have := c.utf8Size_pos
    simp only [List.length_cons, size_cons]
    omega

@[simp] theorem units16_append (a b : List Char) : units16 (a ++ b) = units16 a + units16 b := by
  induction a with
  | nil => simp [units16]
  | cons c cs ih => simp [units16, ih, Nat.add_assoc]

/-! ## Slices by byte offset -/

/-- The text from byte offset `n` on, when `n` is a character boundary. -/
def dropBytes? : Nat → List Char → Option (List Char)
  | 0, cs => some cs
  | _ + 1, [] => none
  | n + 1, c :: cs => if c.utf8Size ≤ n + 1 then dropBytes? (n + 1 - c.utf8Size) cs else none

/-- The first `n` bytes of the text, when `n` is a character boundary. -/
def takeBytes? : Nat → List Char → Option (List Char)
  | 0, _ => some []
  | _ + 1, [] => none
  | n + 1, c :: cs =>
    if c.utf8Size ≤ n + 1 then (takeBytes? (n + 1 - c.utf8Size) cs).map (c :: ·) else none

/-- The text between two byte offsets, when both are character boundaries
in order. -/
def slice? (cs : List Char) (start stop : Nat) : Option (List Char) :=
  if start ≤ stop then (dropBytes? start cs).bind (takeBytes? (stop - start)) else none

/-- The text between two byte offsets; empty when the cut is not possible. -/
def slice (cs : List Char) (start stop : Nat) : List Char :=
  (slice? cs start stop).getD []

theorem dropBytes?_cons (n : Nat) (c : Char) (cs : List Char) :
    dropBytes? (c.utf8Size + n) (c :: cs) = dropBytes? n cs := by
  obtain ⟨k, hk⟩ := Nat.exists_eq_succ_of_ne_zero (Nat.ne_of_gt c.utf8Size_pos)
  rw [show c.utf8Size + n = (k + n) + 1 by omega, dropBytes?, if_pos (by omega)]
  congr 1
  omega

theorem takeBytes?_cons (n : Nat) (c : Char) (cs : List Char) :
    takeBytes? (c.utf8Size + n) (c :: cs) = (takeBytes? n cs).map (c :: ·) := by
  obtain ⟨k, hk⟩ := Nat.exists_eq_succ_of_ne_zero (Nat.ne_of_gt c.utf8Size_pos)
  rw [show c.utf8Size + n = (k + n) + 1 by omega, takeBytes?, if_pos (by omega)]
  congr 2
  omega

/-- The end of a character is a boundary, and the text goes on there. -/
theorem dropBytes?_size (a b : List Char) : dropBytes? (size a) (a ++ b) = some b := by
  induction a with
  | nil => simp [dropBytes?]
  | cons c cs ih => simp [dropBytes?_cons, ih]

theorem takeBytes?_size (a b : List Char) : takeBytes? (size a) (a ++ b) = some a := by
  induction a with
  | nil => simp [takeBytes?]
  | cons c cs ih => simp [takeBytes?_cons, ih]

/-- A part of a text is what stands between its offsets. -/
theorem slice?_size (a b c : List Char) :
    slice? (a ++ (b ++ c)) (size a) (size a + size b) = some b := by
  simp [slice?, dropBytes?_size, takeBytes?_size]

/-! ## Splitting and replacing -/

/-- The pieces between the characters that satisfy `p`; always at least one
piece. -/
def splitWhere (p : Char → Bool) : List Char → List (List Char)
  | [] => [[]]
  | c :: cs =>
    if p c then [] :: splitWhere p cs
    else match splitWhere p cs with
      | [] => [[c]]
      | w :: ws => (c :: w) :: ws

/-- Replaces the occurrences of `pat` from left to right, without overlap.
The first argument counts characters of an occurrence still to be passed. -/
def replaceFrom (pat new : List Char) : Nat → List Char → List Char
  | _, [] => []
  | k + 1, _ :: cs => replaceFrom pat new k cs
  | 0, c :: cs =>
    if pat.isPrefixOf (c :: cs) then new ++ replaceFrom pat new (pat.length - 1) cs
    else c :: replaceFrom pat new 0 cs

/-- Every occurrence of the non-empty text `pat` replaced by `new`. -/
def replace (pat new cs : List Char) : List Char :=
  replaceFrom pat new 0 cs

/-- The pieces between the occurrences of `sep`, found from left to right
without overlap. The first argument counts characters still to be passed. -/
def splitOnFrom (sep : List Char) : Nat → List Char → List (List Char)
  | _, [] => [[]]
  | k + 1, _ :: cs => splitOnFrom sep k cs
  | 0, c :: cs =>
    if sep.isPrefixOf (c :: cs) then [] :: splitOnFrom sep (sep.length - 1) cs
    else match splitOnFrom sep 0 cs with
      | [] => [[c]]
      | w :: ws => (c :: w) :: ws

/-- The pieces between the occurrences of the non-empty text `sep`. -/
def splitOn (sep cs : List Char) : List (List Char) :=
  splitOnFrom sep 0 cs

/-- How often `pat` occurs, without overlap. -/
def occurrences (pat cs : List Char) : Nat :=
  (splitOn pat cs).length - 1

/-! ## Trimming and affixes -/

/-- The text without its longest suffix of characters that satisfy `p`. -/
def trimEnd (p : Char → Bool) (cs : List Char) : List Char :=
  (cs.reverse.dropWhile p).reverse

/-- The text without the leading and trailing characters that satisfy `p`. -/
def trim (p : Char → Bool) (cs : List Char) : List Char :=
  trimEnd p (cs.dropWhile p)

/-- What precedes the ending `suffix`, when the text ends so. -/
def stripSuffix? (suffix cs : List Char) : Option (List Char) :=
  (suffix.reverse.isPrefixOf? cs.reverse).map List.reverse

theorem isPrefixOf?_eq_some {front cs t : List Char} :
    front.isPrefixOf? cs = some t ↔ cs = front ++ t := by
  induction front generalizing cs with
  | nil =>
    have h : ([] : List Char).isPrefixOf? cs = some cs := by cases cs <;> rfl
    rw [h, Option.some.injEq, List.nil_append]
  | cons a as ih =>
    cases cs with
    | nil => constructor <;> intro h <;> cases h
    | cons c cs =>
      have h : (a :: as).isPrefixOf? (c :: cs) =
          if a == c then as.isPrefixOf? cs else none := rfl
      rw [h]
      by_cases hc : a = c
      · subst hc
        simp [ih]
      · simp [hc, Ne.symm hc]

theorem stripSuffix?_eq_some {suffix cs t : List Char} :
    stripSuffix? suffix cs = some t ↔ cs = t ++ suffix := by
  simp only [stripSuffix?, Option.map_eq_some_iff, isPrefixOf?_eq_some]
  constructor
  · rintro ⟨r, hr, rfl⟩
    simpa using congrArg List.reverse hr
  · rintro rfl
    exact ⟨t.reverse, by simp, by simp⟩

/-- What follows the last character that satisfies `p`; the whole text when
there is none. -/
def afterLast (p : Char → Bool) (cs : List Char) : List Char :=
  (cs.reverse.takeWhile (fun c => !p c)).reverse

/-- What precedes the last character that satisfies `p`, when there is one. -/
def beforeLast? (p : Char → Bool) (cs : List Char) : Option (List Char) :=
  match cs.reverse.dropWhile (fun c => !p c) with
  | [] => none
  | _ :: rest => some rest.reverse

/-- Upper-case Latin letters become lower case, all else stays. -/
def lowerAscii (cs : List Char) : List Char :=
  cs.map Char.toLower

end ScriptAnalysis.Text
