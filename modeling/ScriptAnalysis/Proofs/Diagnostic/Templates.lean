import ScriptAnalysis.Diagnostic.Problem
import ScriptAnalysis.Numeral
import ScriptAnalysis.Proofs.Text.Cuts

/-!
# Filling all places of a template at once

A template has places, numbers in braces, and each argument belongs into the
place with its number. `fillTemplate` puts in one argument after the other and
looks for the next place in all of the text it has then, so it may find one
that an argument has brought along.

**Specification.** `pieces` reads a template from left to right as characters
and places. `together` shows the pieces, each place by its argument; what the
arguments hold is not looked at.

**Results.**
* `replace_fill_iff`: when one more argument is put in as it should be.
* `together_iff`: from that, when the first arguments are filled in together,
  for each number of them; and which templates are filled together whatever the
  arguments are.
* `Problem.text_together`: messages are right as long as no argument but the
  last holds an opening brace.
* `brought_place_filled`: a message that is not.
-/
namespace ScriptAnalysis

namespace Template

/-! ## Places -/

/-- The place of the argument with a number. -/
def place (n : Nat) : List Char :=
  '\x7b' :: ((toString n).toList ++ ['\x7d'])

/-- The number of the place that a text starts with. -/
def placeAt? (cs : List Char) : Option Nat :=
  let n := Numeral.digitsValue (cs.tail.takeWhile Char.isDigit)
  if (place n).isPrefixOf cs then some n else none

/-- A character of a template or a place in it. -/
inductive Piece where
  | char (c : Char)
  | place (n : Nat)
  deriving DecidableEq, Repr

/-- The pieces of a template from left to right. The first argument counts
characters of a place still to be passed. -/
def piecesFrom : Nat → List Char → List Piece
  | _, [] => []
  | k + 1, _ :: cs => piecesFrom k cs
  | 0, c :: cs =>
    match placeAt? (c :: cs) with
    | some n => .place n :: piecesFrom ((place n).length - 1) cs
    | none => .char c :: piecesFrom 0 cs

/-- The pieces of a template. -/
def pieces (template : List Char) : List Piece :=
  piecesFrom 0 template

/-- What is shown for a piece: for a place its argument, if there is one. -/
def Piece.fill (arguments : List String) : Piece → List Char
  | char c => [c]
  | place n => ((arguments[n]?).map String.toList).getD (Template.place n)

/-- The template with each place of it replaced by its argument. -/
def together (template : String) (arguments : List String) : String :=
  String.ofList ((pieces template.toList).flatMap (Piece.fill arguments))

variable {template : String} {arguments : List String} {cs u : List Char} {i k n : Nat}

theorem toList_toString (n : Nat) : (toString n).toList = Nat.toDigits 10 n :=
  Nat.toList_repr

/-- A place opens once. -/
theorem brace_not_mem (n : Nat) : '\x7b' ∉ (toString n).toList ++ ['\x7d'] := by
  intro h
  rcases List.mem_append.1 h with h | h
  · rw [toList_toString] at h
    have hdigit := Nat.isDigit_of_mem_toDigits (by decide) (by decide) h
    exact absurd hdigit (by decide)
  · exact absurd h (by decide)

theorem place_ne_nil (n : Nat) : place n ≠ [] :=
  List.cons_ne_nil _ _

/-- The number of a place is read off it. -/
theorem placeAt?_eq_some : placeAt? cs = some n ↔ place n <+: cs := by
  constructor
  · intro h
    unfold placeAt? at h
    dsimp only at h
    split at h
    · rename_i hfront
      cases h
      exact List.isPrefixOf_iff_prefix.1 hfront
    · cases h
  · rintro ⟨rest, rfl⟩
    have hdigits : ∀ c ∈ Nat.toDigits 10 n, c.isDigit = true := fun c hc =>
      Nat.isDigit_of_mem_toDigits (by decide) (by decide) hc
    have hread : (place n ++ rest).tail.takeWhile Char.isDigit = Nat.toDigits 10 n := by
      rw [place, toList_toString, List.cons_append, List.tail_cons, List.append_assoc,
        List.takeWhile_append_of_pos hdigits]
      simp
    have hvalue : Numeral.digitsValue (Nat.toDigits 10 n) = n :=
      Nat.ofDigitChars_toDigits (by decide) (by decide)
    unfold placeAt?
    rw [hread, hvalue]
    exact if_pos (List.isPrefixOf_iff_prefix.2 ⟨rest, rfl⟩)

theorem eq_of_starts_place (h : place k <+: cs) (h' : place n <+: cs) : k = n :=
  Option.some.inj ((placeAt?_eq_some.2 h).symm.trans (placeAt?_eq_some.2 h'))

/-- Another place is passed over. -/
theorem occurrences_place_append (h : n ≠ k) (cs : List Char) :
    Text.occurrences (place k) (place n ++ cs) = Text.occurrences (place k) cs := by
  have hother : ¬ place k <+: place n ++ cs := fun hk =>
    h (eq_of_starts_place (List.prefix_append _ cs) hk)
  calc Text.occurrences (place k) (place n ++ cs)
    _ = Text.occurrences (place k) (((toString n).toList ++ ['\x7d']) ++ cs) :=
        Text.occurrences_cons_of_not_prefix hother
    _ = Text.occurrences (place k) cs := Text.occurrences_append_of_not_mem (brace_not_mem n) cs

/-! ## Pieces -/

theorem piecesFrom_skip (w cs : List Char) : piecesFrom w.length (w ++ cs) = pieces cs := by
  induction w with
  | nil => rfl
  | cons c w ih => exact ih

theorem pieces_place (n : Nat) (cs : List Char) :
    pieces (place n ++ cs) = .place n :: pieces cs := by
  have hread : placeAt? (place n ++ cs) = some n := placeAt?_eq_some.2 (List.prefix_append _ cs)
  unfold place at hread
  unfold pieces
  rw [place, List.cons_append, piecesFrom]
  rw [List.cons_append] at hread
  rw [hread]
  exact congrArg (Piece.place n :: ·) (piecesFrom_skip _ cs)

theorem pieces_char {c : Char} (h : placeAt? (c :: cs) = none) :
    pieces (c :: cs) = .char c :: pieces cs := by
  unfold pieces
  rw [piecesFrom, h]

/-- A template ends, or goes on with a place or with another character. -/
@[elab_as_elim]
theorem pieces_induction {motive : List Char → Prop} (nil : motive [])
    (place : ∀ n cs, motive cs → motive (place n ++ cs))
    (char : ∀ c cs, placeAt? (c :: cs) = none → motive cs → motive (c :: cs)) :
    ∀ cs, motive cs := by
  intro cs
  induction hlength : cs.length using Nat.strongRecOn generalizing cs with
  | ind m ih =>
    cases cs with
    | nil => exact nil
    | cons c cs =>
      cases hread : placeAt? (c :: cs) with
      | none => exact char c cs hread (ih cs.length (by simp at hlength; omega) cs rfl)
      | some n =>
        obtain ⟨rest, hrest⟩ := placeAt?_eq_some.1 hread
        rw [← hrest] at hlength ⊢
        have hshorter : rest.length < m := by
          simp [Template.place] at hlength
          omega
        exact place n rest (ih rest.length hshorter rest rfl)

/-- The places that are found in a template are its pieces. -/
theorem occurrences_place (k : Nat) (cs : List Char) :
    Text.occurrences (place k) cs = (pieces cs).count (.place k) := by
  induction cs using pieces_induction with
  | nil => rfl
  | place n cs ih =>
    rw [pieces_place]
    by_cases h : n = k
    · subst h
      rw [Text.occurrences_mark_append (place_ne_nil n), List.count_cons_self, ih]
    · have hne : (Piece.place n == Piece.place k) = false := by simpa using h
      rw [occurrences_place_append h, ih, List.count_cons, hne]
      rfl
  | char c cs hread ih =>
    have hnot : ¬ place k <+: c :: cs := fun h => by
      rw [placeAt?_eq_some.2 h] at hread
      cases hread
    rw [Text.occurrences_cons_of_not_prefix hnot, ih, pieces_char hread]
    rfl

/-! ## One more argument -/

theorem fill_of_le (h : arguments.length ≤ n) :
    (Piece.place n).fill arguments = place n := by
  simp [Piece.fill, List.getElem?_eq_none h]

theorem fill_take_self (k : Nat) : (Piece.place k).fill (arguments.take k) = place k :=
  fill_of_le (List.length_take_le k arguments)

theorem fill_take_succ (hk : k < arguments.length) :
    (Piece.place k).fill (arguments.take (k + 1)) = arguments[k].toList := by
  simp [Piece.fill, hk]

/-- One more argument changes what is shown for its place only. -/
theorem fill_take_other {p : Piece} (h : p ≠ .place k) :
    p.fill (arguments.take (k + 1)) = p.fill (arguments.take k) := by
  cases p with
  | char c => rfl
  | place n =>
    have hne : n ≠ k := fun heq => h (congrArg Piece.place heq)
    have hiff : n < k + 1 ↔ n < k := by omega
    simp [Piece.fill, List.getElem?_take, hiff]

/-- What is shown as a place is found as one. -/
theorem countP_le_occurrences (k : Nat) (f : Piece → List Char) (ps : List Piece) (u : List Char) :
    ps.countP (f · = place k) ≤ Text.occurrences (place k) (u ++ ps.flatMap f) := by
  induction ps generalizing u with
  | nil => exact Nat.zero_le _
  | cons p ps ih =>
    rw [List.countP_cons, List.flatMap_cons]
    by_cases h : f p = place k
    · have hrest := ih []
      rw [List.nil_append] at hrest
      have hfound := Text.occurrences_append_mark (brace_not_mem k) u (ps.flatMap f)
      change Text.occurrences (place k) (u ++ (place k ++ _)) = _ at hfound
      rw [h, hfound]
      simp only [decide_true, if_true]
      change _ ≤ _ + (Text.occurrences (place k) _ + 1)
      omega
    · have hrest := ih (u ++ f p)
      rw [List.append_assoc] at hrest
      simpa [h] using hrest

theorem count_le_occurrences (arguments : List String) (k : Nat) (ps : List Piece) (u : List Char) :
    ps.count (.place k) ≤
      Text.occurrences (place k) (u ++ ps.flatMap (Piece.fill (arguments.take k))) := by
  have hshown : ps.count (.place k) ≤
      ps.countP (Piece.fill (arguments.take k) · = place k) := by
    rw [List.count]
    refine List.countP_mono_left fun p _ hp => ?_
    rw [beq_iff_eq] at hp
    rw [hp, decide_eq_true_iff]
    exact fill_take_self k
  exact Nat.le_trans hshown (countP_le_occurrences k _ ps u)

theorem length_fill_succ (hk : k < arguments.length) (ps : List Piece) :
    (ps.flatMap (Piece.fill (arguments.take (k + 1)))).length +
        ps.count (.place k) * (place k).length =
      (ps.flatMap (Piece.fill (arguments.take k))).length +
        ps.count (.place k) * arguments[k].toList.length := by
  induction ps with
  | nil => simp
  | cons p ps ih =>
    simp only [List.flatMap_cons, List.length_append]
    by_cases h : p = .place k
    · subst h
      rw [fill_take_self, fill_take_succ hk, List.count_cons_self, Nat.add_mul, Nat.add_mul,
        Nat.one_mul, Nat.one_mul]
      omega
    · rw [fill_take_other h, List.count_cons_of_ne h]
      omega

/-- A text is taken apart where the place itself is shown. -/
theorem replace_own_place (new u : List Char) (ps : List Piece) :
    Text.replace (place k) new
        (u ++ (Piece.place k :: ps).flatMap (Piece.fill (arguments.take k))) =
      Text.replace (place k) new u ++
        (new ++ Text.replace (place k) new (ps.flatMap (Piece.fill (arguments.take k)))) := by
  rw [List.flatMap_cons, fill_take_self]
  exact Text.replace_append_mark (brace_not_mem k) new u _

theorem occurrences_own_place (u : List Char) (ps : List Piece) :
    Text.occurrences (place k)
        (u ++ (Piece.place k :: ps).flatMap (Piece.fill (arguments.take k))) =
      Text.occurrences (place k) u +
        (Text.occurrences (place k) (ps.flatMap (Piece.fill (arguments.take k))) + 1) := by
  rw [List.flatMap_cons, fill_take_self]
  exact Text.occurrences_append_mark (brace_not_mem k) u _

/-- If the place is found only where the template has it, or nothing changes,
the next argument is put in as it should be. -/
theorem replace_fill (hk : k < arguments.length) (ps : List Piece) (u : List Char)
    (h : Text.occurrences (place k) (u ++ ps.flatMap (Piece.fill (arguments.take k))) =
      ps.count (.place k) ∨ arguments[k].toList = place k) :
    Text.replace (place k) arguments[k].toList
        (u ++ ps.flatMap (Piece.fill (arguments.take k))) =
      u ++ ps.flatMap (Piece.fill (arguments.take (k + 1))) := by
  -- `u` is what has been passed since the last place `k`
  induction ps generalizing u with
  | nil =>
    have hnone : Text.occurrences (place k) u = 0 ∨ arguments[k].toList = place k := by
      simpa using h
    simpa using (Text.replace_eq_self_iff (place_ne_nil k) _ u).2 hnone
  | cons p ps ih =>
    by_cases hp : p = .place k
    · subst hp
      have hmost := count_le_occurrences arguments k ps []
      rw [List.nil_append] at hmost
      rw [occurrences_own_place, List.count_cons_self] at h
      have hu : Text.replace (place k) arguments[k].toList u = u :=
        (Text.replace_eq_self_iff (place_ne_nil k) _ u).2 (h.imp_left fun _ => by omega)
      have hps := ih [] (h.imp_left fun _ => by rw [List.nil_append]; omega)
      rw [List.nil_append, List.nil_append] at hps
      rw [replace_own_place, List.flatMap_cons, fill_take_succ hk, hu, hps]
    · rw [List.flatMap_cons, List.count_cons_of_ne hp, ← List.append_assoc] at h
      rw [List.flatMap_cons, List.flatMap_cons, fill_take_other hp, ← List.append_assoc,
        ← List.append_assoc]
      exact ih _ h

/-- The length of the text counts the places that were found, unless the
argument is as long as they are. -/
theorem occurrences_of_length_ne (hk : k < arguments.length) (ps : List Piece) (u : List Char)
    (hne : arguments[k].toList.length ≠ (place k).length)
    (h : Text.replace (place k) arguments[k].toList
        (u ++ ps.flatMap (Piece.fill (arguments.take k))) =
      u ++ ps.flatMap (Piece.fill (arguments.take (k + 1)))) :
    Text.occurrences (place k) (u ++ ps.flatMap (Piece.fill (arguments.take k))) =
      ps.count (.place k) := by
  have hreplaced := Text.length_replace (place_ne_nil k) arguments[k].toList
    (u ++ ps.flatMap (Piece.fill (arguments.take k)))
  have hfilled := length_fill_succ hk ps
  obtain ⟨more, hmore⟩ := Nat.le.dest (count_le_occurrences arguments k ps u)
  rw [h, ← hmore, Nat.add_mul, Nat.add_mul, List.length_append, List.length_append] at hreplaced
  have hmul : more * arguments[k].toList.length = more * (place k).length := by omega
  rcases Nat.eq_zero_or_pos more with hzero | hpos
  · omega
  · exact absurd (Nat.eq_of_mul_eq_mul_left hpos hmul) hne

/-- An argument as long as its place moves nothing, so that what is between the
places is compared with itself. -/
theorem of_replace_fill_same (hk : k < arguments.length) (ps : List Piece) (u : List Char)
    (hsame : arguments[k].toList.length = (place k).length)
    (h : Text.replace (place k) arguments[k].toList
        (u ++ ps.flatMap (Piece.fill (arguments.take k))) =
      u ++ ps.flatMap (Piece.fill (arguments.take (k + 1)))) :
    Text.occurrences (place k) (u ++ ps.flatMap (Piece.fill (arguments.take k))) =
      ps.count (.place k) ∨ arguments[k].toList = place k := by
  induction ps generalizing u with
  | nil =>
    have hself : Text.replace (place k) arguments[k].toList u = u := by simpa using h
    simpa using (Text.replace_eq_self_iff (place_ne_nil k) _ u).1 hself
  | cons p ps ih =>
    by_cases hp : p = .place k
    · subst hp
      have hlength := Text.length_replace (place_ne_nil k) arguments[k].toList u
      rw [hsame] at hlength
      rw [replace_own_place, List.flatMap_cons, fill_take_succ hk] at h
      obtain ⟨hu, hrest⟩ := List.append_inj h (by omega)
      rw [occurrences_own_place, List.count_cons_self]
      rcases (Text.replace_eq_self_iff (place_ne_nil k) _ u).1 hu with hnone | hself
      · have hps := ih [] (List.append_cancel_left hrest)
        rw [List.nil_append] at hps
        exact hps.imp_left fun _ => by omega
      · exact .inr hself
    · rw [List.flatMap_cons, List.flatMap_cons, fill_take_other hp, ← List.append_assoc,
        ← List.append_assoc] at h
      rw [List.flatMap_cons, List.count_cons_of_ne hp, ← List.append_assoc]
      exact ih _ h

/-- With the first arguments filled in together, the next one is put in as it
should be if and only if its place is found only where the template has it, or
nothing changes. -/
theorem replace_fill_iff (hk : k < arguments.length) (ps : List Piece) (u : List Char) :
    Text.replace (place k) arguments[k].toList
          (u ++ ps.flatMap (Piece.fill (arguments.take k))) =
        u ++ ps.flatMap (Piece.fill (arguments.take (k + 1))) ↔
      Text.occurrences (place k) (u ++ ps.flatMap (Piece.fill (arguments.take k))) =
        ps.count (.place k) ∨ arguments[k].toList = place k := by
  constructor
  · intro h
    by_cases hsame : arguments[k].toList.length = (place k).length
    · exact of_replace_fill_same hk ps u hsame h
    · exact .inl (occurrences_of_length_ne hk ps u hsame h)
  · exact replace_fill hk ps u

/-! ## All arguments -/

theorem fillFrom_append (n : Nat) (as bs : List String) (cs : List Char) :
    fillFrom n (as ++ bs) cs = fillFrom (n + as.length) bs (fillFrom n as cs) := by
  induction as generalizing n cs with
  | nil => rfl
  | cons a as ih =>
    have hnumber : n + 1 + as.length = n + (as.length + 1) := by omega
    rw [List.cons_append, fillFrom, fillFrom, ih, List.length_cons, hnumber]

theorem fillTemplate_take_succ (template : String) (hk : k < arguments.length) :
    (fillTemplate template (arguments.take (k + 1))).toList =
      Text.replace (place k) arguments[k].toList
        (fillTemplate template (arguments.take k)).toList := by
  have hlength : (arguments.take k).length = k := List.length_take_of_le (Nat.le_of_lt hk)
  rw [fillTemplate, fillTemplate, String.toList_ofList, String.toList_ofList,
    List.take_succ_eq_append_getElem hk, fillFrom_append, hlength, Nat.zero_add]
  rfl

theorem toList_together (template : String) (arguments : List String) :
    (together template arguments).toList =
      (pieces template.toList).flatMap (Piece.fill arguments) :=
  String.toList_ofList

/-- Without arguments the places stay. -/
theorem flatMap_fill_nil (cs : List Char) : (pieces cs).flatMap (Piece.fill []) = cs := by
  induction cs using pieces_induction with
  | nil => rfl
  | place n cs ih =>
    rw [pieces_place, List.flatMap_cons, ih, fill_of_le (Nat.zero_le n)]
  | char c cs hread ih =>
    rw [pieces_char hread, List.flatMap_cons, ih]
    rfl

theorem together_nil (template : String) : together template [] = template := by
  rw [together, flatMap_fill_nil, String.ofList_toList]

/-- A template with its first arguments filled in together takes the next one
if and only if no more of its places are found than the template has, or it is
the place itself. -/
theorem fill_succ_iff (hk : k < arguments.length)
    (h : fillTemplate template (arguments.take k) = together template (arguments.take k)) :
    fillTemplate template (arguments.take (k + 1)) = together template (arguments.take (k + 1)) ↔
      Text.occurrences (place k) (together template (arguments.take k)).toList =
          Text.occurrences (place k) template.toList ∨
        arguments[k].toList = place k := by
  have hstep := replace_fill_iff hk (pieces template.toList) []
  simp only [List.nil_append] at hstep
  rw [← String.toList_inj, fillTemplate_take_succ template hk, h, toList_together,
    toList_together, hstep, occurrences_place k template.toList]

theorem fill_prefixes_iff (template : String) (arguments : List String) :
    (∀ k ≤ arguments.length,
        fillTemplate template (arguments.take k) = together template (arguments.take k)) ↔
      ∀ (k : Nat) (hk : k < arguments.length),
        Text.occurrences (place k) (together template (arguments.take k)).toList =
            Text.occurrences (place k) template.toList ∨
          arguments[k].toList = place k := by
  constructor
  · intro h k hk
    exact (fill_succ_iff hk (h k (by omega))).1 (h (k + 1) (by omega))
  · intro h k
    induction k with
    | zero =>
      intro _
      rw [List.take_zero, together_nil]
      exact String.ofList_toList
    | succ k ih =>
      intro hk
      exact (fill_succ_iff (by omega) (ih (by omega))).2 (h k (by omega))

/-! ## All templates -/

theorem infix_of_mem_pieces (h : Piece.place n ∈ pieces cs) : place n <:+: cs := by
  have hcount := List.count_pos_iff.2 h
  rw [← occurrences_place] at hcount
  apply Decidable.byContradiction
  intro hnot
  have := (Text.occurrences_eq_zero_iff (place_ne_nil n)).2 hnot
  omega

theorem mem_pieces_of_present (h : place n <:+: cs) : Piece.place n ∈ pieces cs := by
  apply List.count_pos_iff.1
  rw [← occurrences_place]
  apply Nat.pos_of_ne_zero
  intro hzero
  exact (Text.occurrences_eq_zero_iff (place_ne_nil n)).1 hzero h

/-- Arguments without places in a template do not change it. -/
theorem together_of_unplaced (h : ∀ i < arguments.length, ¬ place i <:+: template.toList) :
    together template arguments = template := by
  have hsame : ∀ p ∈ pieces template.toList, p.fill arguments = p.fill [] := by
    intro p hp
    cases p with
    | char c => rfl
    | place n =>
      have hbeyond : arguments.length ≤ n :=
        Nat.le_of_not_lt fun hlt => h n hlt (infix_of_mem_pieces hp)
      rw [fill_of_le hbeyond, fill_of_le (Nat.zero_le n)]
  have hflat : (pieces template.toList).flatMap (Piece.fill arguments) =
      (pieces template.toList).flatMap (Piece.fill []) := by
    rw [List.flatMap_def, List.flatMap_def, List.map_congr_left hsame]
  rw [together, hflat, flatMap_fill_nil, String.ofList_toList]

/-- If argument `i` is the next place, both places are found as that one. -/
theorem count_add_count_le (hi : i < arguments.length)
    (h : arguments[i].toList = place (i + 1)) (ps : List Piece) :
    ps.count (.place i) + ps.count (.place (i + 1)) ≤
      Text.occurrences (place (i + 1)) (ps.flatMap (Piece.fill (arguments.take (i + 1)))) := by
  have hshown : ps.count (.place i) + ps.count (.place (i + 1)) ≤
      ps.countP (Piece.fill (arguments.take (i + 1)) · = place (i + 1)) := by
    induction ps with
    | nil => exact Nat.le_refl 0
    | cons p ps ih =>
      rw [List.countP_cons, List.count_cons, List.count_cons]
      by_cases hown : p = .place i
      · subst hown
        rw [fill_take_succ hi, h]
        simp
        omega
      · by_cases hnext : p = .place (i + 1)
        · subst hnext
          rw [fill_take_self]
          simp
          omega
        · simp [hown, hnext]
          omega
  have hfound := countP_le_occurrences (i + 1) (Piece.fill (arguments.take (i + 1))) ps []
  rw [List.nil_append] at hfound
  exact Nat.le_trans hshown hfound

theorem fill_all_iff (template : String) (n : Nat) :
    (∀ arguments : List String, arguments.length ≤ n →
        fillTemplate template arguments = together template arguments) ↔
      ∀ i, i + 1 < n → ¬ place i <:+: template.toList := by
  constructor
  · intro h i hi hin
    -- argument `i` brings the next place along, which argument `i + 1` then takes
    let bringing := List.replicate i "" ++ [String.ofList (place (i + 1)), ""]
    have hlength : bringing.length = i + 2 := by simp [bringing]
    have hbrought : bringing[i].toList = place (i + 1) := by simp [bringing]
    have hprefixes := (fill_prefixes_iff template bringing).1 fun k hk =>
      h (bringing.take k) (by rw [List.length_take]; omega)
    have hfound := count_add_count_le (by omega) hbrought (pieces template.toList)
    have hcount := List.count_pos_iff.2 (mem_pieces_of_present hin)
    rcases hprefixes (i + 1) (by omega) with hnext | hempty
    · rw [toList_together, occurrences_place (i + 1) template.toList] at hnext
      omega
    · exact absurd hempty (by simp [bringing, place])
  · intro h arguments hlength
    have hprefixes := (fill_prefixes_iff template arguments).2 ?_ arguments.length (Nat.le_refl _)
    · rwa [List.take_length] at hprefixes
    · intro k hk
      left
      rw [together_of_unplaced]
      intro i hi
      rw [List.length_take] at hi
      exact h i (by omega)

/-! ## Messages -/

/-- Every opening brace opens a place. -/
def bracesOpen : List Char → Bool
  | [] => true
  | c :: cs => (c != '\x7b' || (placeAt? (c :: cs)).isSome) && bracesOpen cs

theorem bracesOpen_of_append (h : bracesOpen (u ++ cs) = true) : bracesOpen cs = true := by
  induction u with
  | nil => exact h
  | cons c u ih =>
    rw [List.cons_append, bracesOpen, Bool.and_eq_true] at h
    exact ih h.2

theorem brace_not_mem_pieces (h : bracesOpen cs = true) : Piece.char '\x7b' ∉ pieces cs := by
  induction cs using pieces_induction with
  | nil => exact List.not_mem_nil
  | place n cs ih =>
    rw [pieces_place]
    simpa using ih (bracesOpen_of_append h)
  | char c cs hread ih =>
    rw [bracesOpen, hread, Bool.and_eq_true] at h
    rw [pieces_char hread]
    have hc : c ≠ '\x7b' := by simpa using h.1
    simpa [ih h.2] using hc.symm

/-- Text without an opening brace is passed over. -/
theorem occurrences_skip (h : '\x7b' ∉ u) (k : Nat) (cs : List Char) :
    Text.occurrences (place k) (u ++ cs) = Text.occurrences (place k) cs :=
  Text.occurrences_append_of_not_mem h cs

/-- Where neither the template, its places apart, nor an argument holds an
opening brace, what is filled in holds the places of the template only. -/
theorem occurrences_fill (hk : arguments.length ≤ k)
    (harguments : ∀ a ∈ arguments, '\x7b' ∉ a.toList) (ps : List Piece)
    (hps : Piece.char '\x7b' ∉ ps) :
    Text.occurrences (place k) (ps.flatMap (Piece.fill arguments)) = ps.count (.place k) := by
  induction ps with
  | nil => rfl
  | cons p ps ih =>
    have hrest := ih (List.not_mem_of_not_mem_cons hps)
    rw [List.flatMap_cons]
    cases p with
    | char c =>
      have hc : '\x7b' ∉ [c] := by
        intro hmem
        rw [List.mem_singleton] at hmem
        exact hps (hmem ▸ List.mem_cons_self)
      rw [Piece.fill, occurrences_skip hc, hrest,
        List.count_cons_of_ne (by simp)]
    | place n =>
      by_cases hn : n < arguments.length
      · have hne : Piece.place n ≠ Piece.place k := by
          intro heq
          cases heq
          omega
        have hfree := harguments arguments[n] (List.getElem_mem hn)
        rw [Piece.fill, List.getElem?_eq_getElem hn, Option.map_some, Option.getD_some,
          occurrences_skip hfree, hrest, List.count_cons_of_ne hne]
      · rw [fill_of_le (by omega)]
        by_cases hne : n = k
        · subst hne
          rw [Text.occurrences_mark_append (place_ne_nil n), hrest, List.count_cons_self]
        · rw [occurrences_place_append hne, hrest, List.count_cons_of_ne (by simpa using hne)]

end Template

open Template

/-- The templates with several places hold braces in these only. -/
theorem Problem.brace_not_mem_template (p : Problem) (h : 1 < p.arguments.length) :
    Piece.char '\x7b' ∉ pieces p.template.toList := by
  cases p
  case noExportedMember | notAssignable | noProperty | argumentNotAssignable |
      propertyMissing | expectedArguments =>
    apply brace_not_mem_pieces
    rw [template, String.toList_ofList]
    decide +kernel
  all_goals exact absurd h (by simp [arguments])

theorem Problem.text_eq_together (p : Problem)
    (h : ∀ a ∈ p.arguments.dropLast, '\x7b' ∉ a.toList) :
    p.text = together p.template p.arguments := by
  by_cases hsingle : p.arguments.length ≤ 1
  · -- there is no argument left that could look at the one that is put in
    apply (fill_all_iff p.template 1).2 _ p.arguments hsingle
    intro i hi
    omega
  · have hprefixes := (fill_prefixes_iff p.template p.arguments).2 ?_ _ (Nat.le_refl _)
    · rwa [List.take_length] at hprefixes
    · intro k hk
      left
      rw [toList_together, occurrences_place k p.template.toList]
      apply occurrences_fill (List.length_take_le k _) _ _
        (p.brace_not_mem_template (by omega))
      intro a ha
      apply h a
      rw [List.dropLast_eq_take]
      exact (List.take_sublist_take_left (by omega)).subset ha

/-! ## The results -/

namespace Template

/-- Filling one argument after the other shows every place by its argument, for
the first `k` arguments and every `k`, if and only if argument `k` finds its
place only where the template has it, or is that place itself. A template is
filled so by all lists of at most `n` arguments if and only if it has no place
that an argument behind it could look at again. In particular a message with
one argument is, and any message whose arguments but the last hold no opening
brace. -/
theorem together_iff (template : String) (arguments : List String) :
    ((∀ k ≤ arguments.length,
          fillTemplate template (arguments.take k) = together template (arguments.take k)) ↔
        ∀ (k : Nat) (hk : k < arguments.length),
          Text.occurrences (place k) (together template (arguments.take k)).toList =
              Text.occurrences (place k) template.toList ∨
            arguments[k].toList = place k) ∧
    (∀ n : Nat,
      (∀ arguments : List String, arguments.length ≤ n →
          fillTemplate template arguments = together template arguments) ↔
        ∀ i, i + 1 < n → ¬ place i <:+: template.toList) ∧
    ∀ p : Problem, (∀ a ∈ p.arguments.dropLast, '\x7b' ∉ a.toList) →
      p.text = together p.template p.arguments :=
  ⟨fill_prefixes_iff template arguments, fill_all_iff template, Problem.text_eq_together⟩

/-- The type of a string literal is shown with what the string holds, so that
its text may be a place of the message: here the second argument takes it. -/
theorem brought_place_filled :
    ¬ ∀ (template : String) (arguments : List String),
      fillTemplate template arguments = together template arguments := by
  intro h
  have hmessage := h "Type '\x7b0\x7d' is not assignable to type '\x7b1\x7d'."
    ["\"\x7b1\x7d\"", "Number"]
  have hfilled : fillTemplate "Type '\x7b0\x7d' is not assignable to type '\x7b1\x7d'."
      ["\"\x7b1\x7d\"", "Number"] = "Type '\"Number\"' is not assignable to type 'Number'." := by
    decide +kernel
  have htogether : together "Type '\x7b0\x7d' is not assignable to type '\x7b1\x7d'."
      ["\"\x7b1\x7d\"", "Number"] = "Type '\"\x7b1\x7d\"' is not assignable to type 'Number'." := by
    decide +kernel
  rw [hfilled, htogether] at hmessage
  exact absurd hmessage (by decide +kernel)

end Template

end ScriptAnalysis
