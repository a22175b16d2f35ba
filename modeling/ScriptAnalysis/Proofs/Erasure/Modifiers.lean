import ScriptAnalysis.Erasure

/-!
# Names that are erased with the modifiers

The access modifiers of a member are found by their spelling: from the start
of the member on, words are passed while they spell `public`, `private`,
`protected`, `readonly` or `static`. The grammar looks at what follows such a
word as well, since a member may be called by it. The two do not agree on a
member that is: its name is blanked out as if it were one more modifier.

**Results.**
* `accessSpans_run`: what is blanked of a run of modifiers.
* `name_mem_accessSpans`: a word behind any run of modifiers is blanked
  exactly when it is an access word, modifier or not.
* `property_name_erased`: so a property is left without a name when it is
  called by an access word, and only then for this reason.
* `erased_not_clean`: what is left is then no program any more.
-/
namespace ScriptAnalysis.Erasure

/-! ## Words -/

/-- The text does not start with a character of the sort. -/
def StartsOther (p : Char → Bool) (text : List Char) : Prop :=
  text.head?.any p = false

theorem StartsOther.takeWhile {p : Char → Bool} {text : List Char} (h : StartsOther p text) :
    text.takeWhile p = [] ∧ text.dropWhile p = text := by
  cases text with
  | nil => exact ⟨rfl, rfl⟩
  | cons c cs =>
    have hc : p c = false := h
    rw [List.takeWhile_cons, List.dropWhile_cons, hc]
    exact ⟨rfl, rfl⟩

/-- Characters of a sort with others behind them. -/
theorem split_word {p : Char → Bool} {word rest : List Char} (hword : ∀ c ∈ word, p c = true)
    (hrest : StartsOther p rest) :
    (word ++ rest).takeWhile p = word ∧ (word ++ rest).dropWhile p = rest := by
  rw [List.takeWhile_append_of_pos hword, List.dropWhile_append_of_pos hword, hrest.takeWhile.1,
    hrest.takeWhile.2, List.append_nil]
  exact ⟨rfl, rfl⟩

/-- The characters of a word lie between the dollar sign and the end of
ASCII. -/
theorem toNat_of_isWordChar {c : Char} (h : isWordChar c = true) :
    36 ≤ c.toNat ∧ c.toNat < 0x80 := by
  unfold isWordChar Char.isAlphanum at h
  delta Char.isAlpha Char.isUpper Char.isLower Char.isDigit at h
  simp only [Bool.or_eq_true, Bool.and_eq_true, decide_eq_true_eq, beq_iff_eq, ge_iff_le,
    UInt32.le_iff_toNat_le] at h
  rcases h with (((⟨hlow, hhigh⟩ | ⟨hlow, hhigh⟩) | ⟨hlow, hhigh⟩) | rfl) | rfl
  · have hlow : 65 ≤ c.toNat := hlow
    have hhigh : c.toNat ≤ 90 := hhigh
    omega
  · have hlow : 97 ≤ c.toNat := hlow
    have hhigh : c.toNat ≤ 122 := hhigh
    omega
  · have hlow : 48 ≤ c.toNat := hlow
    have hhigh : c.toNat ≤ 57 := hhigh
    omega
  · decide
  · decide

theorem isWordChar_of_isWhite {c : Char} (h : Text.isWhite c = true) : isWordChar c = false := by
  rw [Bool.eq_false_iff]
  intro hword
  obtain ⟨hlow, hhigh⟩ := toNat_of_isWordChar hword
  unfold Text.isWhite at h
  rw [if_pos hhigh] at h
  simp only [Bool.or_eq_true, Bool.and_eq_true, beq_iff_eq, decide_eq_true_eq] at h
  omega

/-! ## Runs of modifiers -/

/-- A modifier and the blank space behind it. -/
structure ModifierText where
  word : List Char
  gap : List Char
  isModifier : word ∈ "static".toList :: accessWords
  gap_ne_nil : gap ≠ []
  isWhite : ∀ c ∈ gap, Text.isWhite c = true

namespace ModifierText

def text (m : ModifierText) : List Char :=
  m.word ++ m.gap

/-- What is blanked of the modifier when it stands at an offset. -/
def spans (m : ModifierText) (offset : Nat) : List Span :=
  if accessWords.contains m.word then [⟨offset, offset + Text.size m.word⟩] else []

theorem length_text_pos (m : ModifierText) : 0 < m.text.length := by
  rw [text, List.length_append]
  exact Nat.add_pos_right _ (List.length_pos_iff.2 m.gap_ne_nil)

end ModifierText

/-- The text of a run of modifiers. -/
def runText : List ModifierText → List Char
  | [] => []
  | m :: run => m.text ++ runText run

theorem length_le_runText (run : List ModifierText) : run.length ≤ (runText run).length := by
  induction run with
  | nil => exact Nat.le_refl _
  | cons m run ih =>
    have hpos := m.length_text_pos
    rw [runText, List.length_cons, List.length_append]
    omega

/-- What is blanked of a run of modifiers. -/
def runSpans : Nat → List ModifierText → List Span
  | _, [] => []
  | offset, m :: run => m.spans offset ++ runSpans (offset + Text.size m.text) run

theorem modifier_letters {word : List Char} (h : word ∈ "static".toList :: accessWords) :
    (∀ c ∈ word, isWordChar c = true) ∧ StartsOther Text.isWhite word ∧ word ≠ [] := by
  have hall : ∀ word ∈ "static".toList :: accessWords,
      word.all isWordChar = true ∧ word.head?.any Text.isWhite = false ∧ word ≠ [] := by decide
  obtain ⟨hletters, hhead, hne⟩ := hall word h
  exact ⟨List.all_eq_true.1 hletters, hhead, hne⟩

theorem ModifierText.startsOther_gap (m : ModifierText) (rest : List Char) :
    StartsOther isWordChar (m.gap ++ rest) := by
  cases hgap : m.gap with
  | nil => exact absurd hgap m.gap_ne_nil
  | cons c cs => exact isWordChar_of_isWhite (m.isWhite c (by rw [hgap]; exact List.mem_cons_self))

theorem startsOther_run (run : List ModifierText) {rest : List Char}
    (hrest : StartsOther Text.isWhite rest) : StartsOther Text.isWhite (runText run ++ rest) := by
  cases run with
  | nil => exact hrest
  | cons m run =>
    obtain ⟨-, hhead, hne⟩ := modifier_letters m.isModifier
    unfold runText ModifierText.text
    cases hword : m.word with
    | nil => exact absurd hword hne
    | cons c cs =>
      rw [hword] at hhead
      exact hhead

/-- What is blanked where a text starts with a modifier word. -/
theorem accessSpans_word {word : List Char} (hmem : word ∈ "static".toList :: accessWords)
    (fuel offset : Nat) {rest : List Char} (hrest : StartsOther isWordChar rest) :
    accessSpans (fuel + 1) offset (word ++ rest) =
      (if accessWords.contains word then [⟨offset, offset + Text.size word⟩] else []) ++
        (if (rest.takeWhile Text.isWhite).isEmpty then []
          else accessSpans fuel
            (offset + Text.size word + Text.size (rest.takeWhile Text.isWhite))
            (rest.dropWhile Text.isWhite)) := by
  obtain ⟨hletters, -, -⟩ := modifier_letters hmem
  obtain ⟨htake, hdrop⟩ := split_word hletters hrest
  have hword : (accessWords.contains word || decide (word = "static".toList)) = true := by
    rcases List.mem_cons.1 hmem with h | h <;> simp [h]
  rw [accessSpans]
  simp only [htake, hdrop, hword, if_true]

/-- One modifier is passed, and what is behind the blank space follows. -/
theorem accessSpans_modifier (m : ModifierText) (fuel offset : Nat) {rest : List Char}
    (hrest : StartsOther Text.isWhite rest) :
    accessSpans (fuel + 1) offset (m.text ++ rest) =
      m.spans offset ++ accessSpans fuel (offset + Text.size m.text) rest := by
  obtain ⟨hgap, hbehind⟩ := split_word m.isWhite hrest
  have hne : ¬ m.gap.isEmpty = true := by simp [m.gap_ne_nil]
  unfold ModifierText.text ModifierText.spans
  rw [List.append_assoc, accessSpans_word m.isModifier _ _ (m.startsOther_gap rest), hgap, hbehind,
    if_neg hne, Text.size_append, Nat.add_assoc]

/-- The modifiers of a run are passed one after the other. -/
theorem accessSpans_run (run : List ModifierText) (fuel offset : Nat) {rest : List Char}
    (hrest : StartsOther Text.isWhite rest) :
    accessSpans (run.length + fuel) offset (runText run ++ rest) =
      runSpans offset run ++ accessSpans fuel (offset + Text.size (runText run)) rest := by
  induction run generalizing offset with
  | nil => simp [runText, runSpans]
  | cons m run ih =>
    rw [runText, List.append_assoc, List.length_cons, Nat.add_right_comm,
      accessSpans_modifier m _ _ (startsOther_run run hrest), ih, Text.size_append,
      ← Nat.add_assoc, runSpans, List.append_assoc]

/-! ## Names -/

/-- Nothing in front of the offset is blanked. -/
theorem le_start_of_mem {fuel offset : Nat} {text : List Char} {s : Span}
    (h : s ∈ accessSpans fuel offset text) : offset ≤ s.start := by
  induction fuel generalizing offset text with
  | zero => cases h
  | succ fuel ih =>
    rw [accessSpans] at h
    dsimp only at h
    split at h
    · rcases List.mem_append.1 h with h | h
      · split at h
        · rewrite [List.mem_singleton.1 h]
          exact Nat.le_refl _
        · cases h
      · split at h
        · cases h
        · have := ih h
          omega
    · cases h

theorem start_lt_of_mem_run {offset : Nat} {run : List ModifierText} {s : Span}
    (h : s ∈ runSpans offset run) : s.start < offset + Text.size (runText run) := by
  induction run generalizing offset with
  | nil => cases h
  | cons m run ih =>
    rw [runText, Text.size_append]
    rcases List.mem_append.1 h with h | h
    · have hpos : 0 < Text.size m.text :=
        Nat.lt_of_lt_of_le m.length_text_pos (Text.length_le_size _)
      unfold ModifierText.spans at h
      split at h
      · rw [List.mem_singleton.1 h]
        dsimp only
        omega
      · cases h
    · have := ih h
      omega

/-- The first word of a text is blanked exactly when it is an access word. -/
theorem first_mem_accessSpans (fuel offset : Nat) {word rest : List Char} (hne : word ≠ [])
    (hword : ∀ c ∈ word, isWordChar c = true) (hrest : StartsOther isWordChar rest) :
    ⟨offset, offset + Text.size word⟩ ∈ accessSpans (fuel + 1) offset (word ++ rest) ↔
      word ∈ accessWords := by
  by_cases hmem : word ∈ "static".toList :: accessWords
  · rw [accessSpans_word hmem _ _ hrest, List.mem_append]
    constructor
    · rintro (h | h)
      · split at h
        · exact List.contains_iff_mem.1 ‹_›
        · cases h
      · split at h
        · cases h
        · have hpos : 0 < Text.size word :=
            Nat.lt_of_lt_of_le (List.length_pos_iff.2 hne) (Text.length_le_size word)
          have hstart := le_start_of_mem h
          dsimp only at hstart
          omega
    · intro h
      rw [if_pos (List.contains_iff_mem.2 h)]
      exact .inl (List.mem_singleton_self _)
  · obtain ⟨htake, -⟩ := split_word hword hrest
    have hother : ¬ (accessWords.contains word || decide (word = "static".toList)) = true := by
      rw [Bool.or_eq_true, List.contains_iff_mem, decide_eq_true_eq]
      rintro (h | h)
      · exact hmem (List.mem_cons_of_mem _ h)
      · exact hmem (h ▸ List.mem_cons_self)
    rw [accessSpans]
    simp only [htake, if_neg hother]
    exact ⟨fun h => absurd h List.not_mem_nil, fun h => absurd (List.mem_cons_of_mem _ h) hmem⟩

/-- A word behind a run of modifiers is blanked exactly when it is an access
word, whether it is one more modifier or the name that they belong to. -/
theorem name_mem_accessSpans (run : List ModifierText) (fuel offset : Nat) {word rest : List Char}
    (hne : word ≠ []) (hword : ∀ c ∈ word, isWordChar c = true)
    (hrest : StartsOther isWordChar rest) :
    ⟨offset + Text.size (runText run), offset + Text.size (runText run) + Text.size word⟩ ∈
        accessSpans (run.length + (fuel + 1)) offset (runText run ++ (word ++ rest)) ↔
      word ∈ accessWords := by
  have hhead : StartsOther Text.isWhite (word ++ rest) := by
    cases word with
    | nil => exact absurd rfl hne
    | cons c cs =>
      show Text.isWhite c = false
      rw [Bool.eq_false_iff]
      intro hwhite
      have hletter := hword c List.mem_cons_self
      rw [isWordChar_of_isWhite hwhite] at hletter
      cases hletter
  rw [accessSpans_run run _ _ hhead, List.mem_append, first_mem_accessSpans _ _ hne hword hrest]
  refine ⟨?_, .inr⟩
  rintro (h | h)
  · exact absurd (start_lt_of_mem_run h) (Nat.lt_irrefl _)
  · exact h

/-- Of a property of a class that is called `word`, behind any modifiers, the
name is taken for one of them exactly when it is an access word, and goes
with them then.

This is about one reason only for which a text may come out as another program.
Nothing is said of what the erased text is parsed to, nor of the others: that
`e as T` is blanked within a larger expression and so regrouped, that a line
between two others goes and they become one statement, and that a colon is
left where a comment stands behind it. -/
theorem property_name_erased {f : SourceFile} {node : NodeId} {n : Node} {p : PropertyParts}
    (walk : Walk) (run : List ModifierText) {word rest : List Char}
    (hnode : f.arena[node]? = some n) (hform : n.form = .propertyDeclaration p)
    (hambient : p.modifiers.ambient = false)
    (htext : textAfter f n.pos = runText run ++ (word ++ rest)) (hne : word ≠ [])
    (hword : ∀ c ∈ word, isWordChar c = true) (hrest : StartsOther isWordChar rest) :
    let name : Span :=
      ⟨n.pos + Text.size (runText run), n.pos + Text.size (runText run) + Text.size word⟩
    (name ∈ modifierSpans f node ↔ word ∈ accessWords) ∧
      (word ∈ accessWords → name ∈ memberSpans f walk node) := by
  intro name
  have hform? : f.arena.form? node = some (.propertyDeclaration p) := by
    unfold Arena.form?
    rw [hnode, Option.map_some, hform]
  have hmodifiers : (f.arena.modifiers node).ambient = false := by
    unfold Arena.modifiers
    rw [hform?]
    exact hambient
  have hfuel : ∃ fuel, (textAfter f n.pos).length = run.length + (fuel + 1) := by
    have hrun := length_le_runText run
    have hpos := List.length_pos_iff.2 hne
    refine ⟨(textAfter f n.pos).length - run.length - 1, ?_⟩
    rw [htext, List.length_append, List.length_append]
    omega
  obtain ⟨fuel, hfuel⟩ := hfuel
  have hspan : name ∈ modifierSpans f node ↔ word ∈ accessWords := by
    unfold modifierSpans
    rw [hnode]
    dsimp only
    rw [hfuel, htext]
    exact name_mem_accessSpans run fuel n.pos hne hword hrest
  refine ⟨hspan, fun hmem => ?_⟩
  unfold memberSpans
  rw [hmodifiers, hform?]
  exact List.mem_append_left _
    (List.mem_append_left _ (List.mem_append_left _ (hspan.2 hmem)))

/-- A property that is called `readonly`. -/
def readonlyProperty : SourceFile :=
  SourceFile.parse "/p/main.ts" "class A \x7b readonly = 1 \x7d".toList

theorem property_name_erased_readonly : (⟨10, 18⟩ : Span) ∈
    memberSpans readonlyProperty (walkWithin readonlyProperty 1) 3 := by
  have hnode : readonlyProperty.arena[3]? = some
      ⟨.propertyDeclaration ⟨.none, 1, false, none, some 2⟩, 10, 22⟩ := by
    rw [readonlyProperty, String.toList_ofList]
    decide +kernel
  have htext : textAfter readonlyProperty 10 =
      runText [] ++ ("readonly".toList ++ " = 1 \x7d".toList) := by
    rw [readonlyProperty]
    repeat rw [String.toList_ofList]
    decide +kernel
  have hword : "readonly".toList ∈ accessWords := by decide
  obtain ⟨hletters, -, hne⟩ := modifier_letters (List.mem_cons_of_mem _ hword)
  exact (property_name_erased _ [] hnode rfl rfl htext hne hletters rfl).2 hword

/-- A clean text whose erasure is not. -/
theorem erased_not_clean : readonlyProperty.errors = [] ∧
    eraseTypes readonlyProperty = "class A \x7b          = 1 \x7d".toList ∧
    (SourceFile.parse "/p/main.ts" (eraseTypes readonlyProperty)).errors ≠ [] := by
  rw [readonlyProperty]
  repeat rw [String.toList_ofList]
  decide +kernel

end ScriptAnalysis.Erasure
