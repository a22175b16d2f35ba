import ScriptAnalysis.Json.Reader

/-!
# The grammar of JSON texts

`Spelled Gap End v t s`: the texts `t` and `s` both spell the value `v`, in
the same way but for what stands between the tokens. `Gap` relates what the
two texts have there, `End` what they have in front of the bracket that closes
a non-empty array or object.

With `Blank` for both, which relates white space to itself, the two texts are
the same and this is the grammar of RFC 8259. Other relations let the second
text have more between its tokens than the first.

The parts are read from the left: `Numeral` and `Exponent` relate a number as
it is kept to the number as it is written, `Escape` and `Quoted` the characters
of a string to those between its quotes.
-/
namespace ScriptAnalysis.Json

open Reader

/-! ## Between tokens -/

def Blanks (g : List Char) : Prop :=
  ∀ c ∈ g, isSpace c = true

/-- The same white space in both texts. -/
def Blank (g d : List Char) : Prop :=
  g = d ∧ Blanks g

/-! ## Numbers -/

def Digits (ds : List Char) : Prop :=
  ds ≠ [] ∧ ∀ c ∈ ds, c.isDigit = true

inductive Fraction : List Char → Prop
  | none : Fraction []
  | some {ds} (h : Digits ds) : Fraction ('.' :: ds)

/-- An exponent, which is kept with a small `e`. -/
inductive Exponent : List Char → List Char → Prop
  | none : Exponent [] []
  | some {e sign ds} (he : e = 'e' ∨ e = 'E') (hsign : sign ∈ [[], ['+'], ['-']])
      (h : Digits ds) : Exponent ('e' :: (sign ++ ds)) (e :: (sign ++ ds))

/-- A number, as it is kept and as it is written. No zero stands in front of
another digit. -/
inductive Numeral : List Char → List Char → Prop
  | mk {sign whole f e e'} (hsign : sign ∈ [[], ['-']]) (hwhole : Digits whole)
      (hzero : whole.head? = some '0' → whole.length = 1) (hf : Fraction f) (he : Exponent e e') :
      Numeral (sign ++ (whole ++ (f ++ e))) (sign ++ (whole ++ (f ++ e')))

/-! ## Strings -/

/-- The characters that have an escape of one letter. -/
def shortEscapes : List (Char × Char) :=
  [('"', '"'), ('\\', '\\'), ('\x2f', '/'), ('\x08', 'b'), ('\x0c', 'f'), ('\n', 'n'),
   ('\r', 'r'), ('\t', 't')]

/-- Four hexadecimal digits and their number. -/
def Hex (n : Nat) (ds : List Char) : Prop :=
  ds.length = 4 ∧ (∀ c ∈ ds, Text.isHexDigit c = true) ∧ n = Text.hexNumber ds

/-- A character and what stands for it behind a backslash. -/
inductive Escape : Char → List Char → Prop
  | short {c letter} (h : (c, letter) ∈ shortEscapes) : Escape c [letter]
  | unicode {n ds} (h : Hex n ds) (hlow : isLowSurrogate n = false)
      (hhigh : isHighSurrogate n = false) : Escape (Char.ofNat n) ('u' :: ds)
  | pair {n m ds es} (hn : Hex n ds) (hhigh : isHighSurrogate n = true) (hm : Hex m es)
      (hlow : isLowSurrogate m = true) :
      Escape (Char.ofNat (0x10000 + (n - 0xD800) * 0x400 + (m - 0xDC00)))
        ('u' :: (ds ++ '\\' :: 'u' :: es))

/-- The characters of a string and what stands between the quotes for them. -/
inductive Quoted : List Char → List Char → Prop
  | nil : Quoted [] []
  | char {c cs t} (hquote : c ≠ '"') (hback : c ≠ '\\') (hcontrol : 0x20 ≤ c.toNat)
      (h : Quoted cs t) : Quoted (c :: cs) (c :: t)
  | escape {c e cs t} (he : Escape c e) (h : Quoted cs t) : Quoted (c :: cs) ('\\' :: (e ++ t))

/-! ## Values -/

variable {α : Type}

/-- One or more items with commas between them. -/
inductive Series (Gap End : List Char → List Char → Prop)
    (Item : α → List Char → List Char → Prop) : List α → List Char → List Char → Prop
  | last {g d a t s g' d'} (hg : Gap g d) (ha : Item a t s) (hend : End g' d') :
      Series Gap End Item [a] (g ++ (t ++ g')) (d ++ (s ++ d'))
  | more {g d a t s g' d' as u w} (hg : Gap g d) (ha : Item a t s) (hg' : Gap g' d')
      (h : Series Gap End Item as u w) :
      Series Gap End Item (a :: as) (g ++ (t ++ (g' ++ ',' :: u))) (d ++ (s ++ (d' ++ ',' :: w)))

/-- A key and its value with a colon between them. -/
inductive Member (Gap : List Char → List Char → Prop)
    (Value : Json → List Char → List Char → Prop) :
    String × Json → List Char → List Char → Prop
  | mk {cs k g d g' d' v t s} (hk : Quoted cs k) (hg : Gap g d) (hg' : Gap g' d')
      (hv : Value v t s) :
      Member Gap Value (String.ofList cs, v)
        ('"' :: (k ++ '"' :: (g ++ ':' :: (g' ++ t)))) ('"' :: (k ++ '"' :: (d ++ ':' :: (d' ++ s))))

/-- Two texts of one value. -/
inductive Spelled (Gap End : List Char → List Char → Prop) :
    Json → List Char → List Char → Prop
  | nullWord : Spelled Gap End .null "null".toList "null".toList
  | trueWord : Spelled Gap End (.bool true) "true".toList "true".toList
  | falseWord : Spelled Gap End (.bool false) "false".toList "false".toList
  | number {n t} (h : Numeral n t) : Spelled Gap End (.number (String.ofList n)) t t
  | string {cs t} (h : Quoted cs t) :
      Spelled Gap End (.string (String.ofList cs)) ('"' :: (t ++ ['"'])) ('"' :: (t ++ ['"']))
  | emptyArray {g d} (h : Gap g d) : Spelled Gap End (.array []) ('[' :: (g ++ [']'])) ('[' :: (d ++ [']']))
  | array {vs t s} (h : Series Gap End (Spelled Gap End) vs t s) :
      Spelled Gap End (.array vs) ('[' :: (t ++ [']'])) ('[' :: (s ++ [']']))
  | emptyObject {g d} (h : Gap g d) :
      Spelled Gap End (.object []) ('\x7b' :: (g ++ ['\x7d'])) ('\x7b' :: (d ++ ['\x7d']))
  | object {ms t s} (h : Series Gap End (Member Gap (Spelled Gap End)) ms t s) :
      Spelled Gap End (.object ms) ('\x7b' :: (t ++ ['\x7d'])) ('\x7b' :: (s ++ ['\x7d']))

/-! ## First characters -/

/-- The characters that a value begins with, if it is no number without a
sign. -/
def openers : List Char :=
  ['"', '-', 't', 'f', 'n', '[', '\x7b']

/-- The characters that a value begins with. -/
def Opens (c : Char) : Prop :=
  c.isDigit = true ∨ c ∈ openers

theorem toNat_of_isDigit {c : Char} (h : c.isDigit = true) : 48 ≤ c.toNat ∧ c.toNat ≤ 57 := by
  simp only [Char.isDigit, Bool.and_eq_true, decide_eq_true_eq, ge_iff_le,
    UInt32.le_iff_toNat_le] at h
  exact h

/-- A value begins neither with white space nor with what closes or parts
items. -/
theorem Opens.isWhite {c : Char} (h : Opens c) : Text.isWhite c = false := by
  rcases h with h | h
  · obtain ⟨hlow, hhigh⟩ := toNat_of_isDigit h
    unfold Text.isWhite
    rw [if_pos (by omega)]
    simp only [Bool.or_eq_false_iff, beq_eq_false_iff_ne, Bool.and_eq_false_iff, decide_eq_false_iff_not]
    omega
  · have hall : ∀ c ∈ openers, Text.isWhite c = false := Text.forall_mem_of_all (by decide)
    exact hall c h

theorem Opens.ne {c : Char} (h : Opens c) : c ≠ ',' ∧ c ≠ ']' ∧ c ≠ '\x7d' ∧ c ≠ '/' := by
  rcases h with h | h
  · refine ⟨?_, ?_, ?_, ?_⟩ <;>
    · rintro rfl
      exact absurd h (by decide)
  · have hall : ∀ c ∈ openers, c ≠ ',' ∧ c ≠ ']' ∧ c ≠ '\x7d' ∧ c ≠ '/' :=
      Text.forall_mem_of_all (by decide)
    exact hall c h

theorem isWhite_of_isSpace {c : Char} (h : isSpace c = true) : Text.isWhite c = true := by
  simp only [isSpace, Bool.or_eq_true, beq_iff_eq] at h
  rcases h with ((rfl | rfl) | rfl) | rfl <;> decide

theorem Opens.isSpace {c : Char} (h : Opens c) : isSpace c = false := by
  cases hspace : Reader.isSpace c with
  | false => rfl
  | true => exact absurd (isWhite_of_isSpace hspace) (by simp [h.isWhite])

/-- What ends the items of an array or of an object. -/
def Closes (close : Char) : Prop :=
  close = ']' ∨ close = '\x7d'

theorem Closes.ne_comma {close : Char} (h : Closes close) : close ≠ ',' := by
  rcases h with rfl | rfl <;> decide

theorem Opens.ne_close {c close : Char} (hc : Opens c) (h : Closes close) : c ≠ close := by
  rcases h with rfl | rfl
  · exact hc.ne.2.1
  · exact hc.ne.2.2.1

section

variable {Gap End : List Char → List Char → Prop}

theorem Numeral.opens {n t : List Char} (h : Numeral n t) : ∃ c u, t = c :: u ∧ (c = '-' ∨ c.isDigit) := by
  obtain ⟨hsign, hwhole, -, -, -⟩ := h
  simp only [List.mem_cons, List.not_mem_nil, or_false] at hsign
  rcases hsign with rfl | rfl
  · obtain ⟨d, ds, rfl⟩ := List.exists_cons_of_ne_nil hwhole.1
    exact ⟨d, _, rfl, .inr (hwhole.2 d List.mem_cons_self)⟩
  · exact ⟨'-', _, rfl, .inl rfl⟩

/-- What a number is made of. -/
theorem Numeral.mem {n t : List Char} (h : Numeral n t) {c : Char} (hc : c ∈ t) :
    c.isDigit = true ∨ c ∈ ['-', '+', '.', 'e', 'E'] := by
  obtain ⟨hsign, hwhole, -, hf, he⟩ := h
  simp only [List.mem_append] at hc
  rcases hc with hc | hc | hc | hc
  · simp only [List.mem_cons, List.not_mem_nil, or_false] at hsign
    rcases hsign with rfl | rfl
    · cases hc
    · exact .inr (Text.forall_mem_of_all (by decide) c hc)
  · exact .inl (hwhole.2 c hc)
  · cases hf with
    | none => cases hc
    | some hds =>
      rcases List.mem_cons.1 hc with rfl | hc
      · exact .inr (by decide)
      · exact .inl (hds.2 c hc)
  · cases he with
    | none => cases hc
    | some hletter hsign hds =>
      rcases List.mem_cons.1 hc with rfl | hc
      · rcases hletter with rfl | rfl <;> exact .inr (by decide)
      · rcases List.mem_append.1 hc with hc | hc
        · simp only [List.mem_cons, List.not_mem_nil, or_false] at hsign
          rcases hsign with rfl | rfl | rfl
          · cases hc
          · exact .inr (Text.forall_mem_of_all (by decide) c hc)
          · exact .inr (Text.forall_mem_of_all (by decide) c hc)
        · exact .inl (hds.2 c hc)

/-- Both texts of a value begin with the same character. -/
theorem Spelled.opens {v : Json} {t s : List Char} (h : Spelled Gap End v t s) :
    ∃ c u w, t = c :: u ∧ s = c :: w ∧ Opens c := by
  cases h with
  | number h =>
    obtain ⟨c, u, rfl, hc⟩ := h.opens
    refine ⟨c, u, u, rfl, rfl, ?_⟩
    rcases hc with rfl | hc
    · exact .inr (by decide)
    · exact .inl hc
  | nullWord | trueWord | falseWord => exact ⟨_, _, _, rfl, rfl, .inr (by decide)⟩
  | string | emptyArray | array | emptyObject | object =>
    exact ⟨_, _, _, rfl, rfl, .inr (by decide)⟩

theorem Member.opens {Value : Json → List Char → List Char → Prop} {m : String × Json}
    {t s : List Char} (h : Member Gap Value m t s) :
    ∃ c u w, t = c :: u ∧ s = c :: w ∧ Opens c := by
  cases h
  exact ⟨'"', _, _, rfl, rfl, .inr (by decide)⟩

/-- A series begins with its first item, behind what may stand between tokens. -/
theorem Series.opens {Item : α → List Char → List Char → Prop} {as : List α} {t s : List Char}
    (h : Series Gap End Item as t s)
    (hopens : ∀ a t s, Item a t s → ∃ c u w, t = c :: u ∧ s = c :: w ∧ Opens c) :
    ∃ g d c u w, t = g ++ c :: u ∧ s = d ++ c :: w ∧ Gap g d ∧ Opens c := by
  cases h with
  | last hg ha _ =>
    obtain ⟨c, u, w, rfl, rfl, hc⟩ := hopens _ _ _ ha
    exact ⟨_, _, c, _, _, rfl, rfl, hg, hc⟩
  | more hg ha _ _ =>
    obtain ⟨c, u, w, rfl, rfl, hc⟩ := hopens _ _ _ ha
    exact ⟨_, _, c, _, _, rfl, rfl, hg, hc⟩

end

end ScriptAnalysis.Json
