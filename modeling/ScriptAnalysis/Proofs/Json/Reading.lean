import Mathlib.Data.List.DropRight
import Mathlib.Data.List.TakeWhile
import ScriptAnalysis.Proofs.Json.Grammar

/-!
# The texts that are read

The readers accept the texts of the grammar and no others.

**Successes.** For each reader an equivalence `_eq_ok` says when it succeeds,
with which result and with which rest; `bind_eq_ok` takes a reader apart.
Where the grammar does not decide how far a part goes, as for digits, the rest
does not go on with it (`Stops`).

**Fuel.** The bounds on the nesting, on the items of a series and on the
characters of a string are lengths of texts, which exceed what they bound.

**Results.**
* `number_of_numeral`, `numeral_of_number`: numbers.
* `string_eq_ok`: strings with their escapes.
* `separated_of_series`, `series_of_separated`: series, for any items.
* `valueWithin_of_spelled`, `spelled_of_valueWithin`: values.
* `parse_of_spelled`, `spelled_of_parse`: whole texts.
-/
namespace ScriptAnalysis.Json

open Reader

namespace Reader

section

variable {α β : Type} {cs rest : List Char}

theorem bind_eq_ok {x : Reader α} {f : α → Reader β} {b : β} :
    (x >>= f) cs = .ok (b, rest) ↔ ∃ a mid, x cs = .ok (a, mid) ∧ f a mid = .ok (b, rest) := by
  show Except.bind (x cs) (fun p => f p.1 p.2) = _ ↔ _
  cases x cs with
  | error e => simp [Except.bind]
  | ok p =>
    obtain ⟨a, mid⟩ := p
    constructor
    · exact fun h => ⟨a, mid, rfl, h⟩
    · rintro ⟨_, _, h, hf⟩
      cases h
      exact hf

theorem pure_eq_ok {a b : α} : (pure a : Reader α) cs = .ok (b, rest) ↔ a = b ∧ cs = rest := by
  show Except.ok (a, cs) = _ ↔ _
  simp

theorem fail_eq_ok {a : α} : (fail : Reader α) cs = .ok (a, rest) ↔ False :=
  ⟨fun h => (nomatch h), False.elim⟩

theorem get_eq_ok {a : List Char} :
    (get : Reader (List Char)) cs = .ok (a, rest) ↔ cs = a ∧ cs = rest :=
  pure_eq_ok (a := cs) (b := a)

theorem ite_eq_ok {p : Prop} [Decidable p] {x y : Reader α} {a : α} :
    (if p then x else y) cs = .ok (a, rest) ↔
      p ∧ x cs = .ok (a, rest) ∨ ¬ p ∧ y cs = .ok (a, rest) := by
  split <;> simp [*]

theorem spaces_eq_ok {u : Unit} : spaces cs = .ok (u, rest) ↔ cs.dropWhile isSpace = rest := by
  show Except.ok ((), cs.dropWhile isSpace) = _ ↔ _
  simp

theorem peek?_eq_ok {a : Option Char} : peek? cs = .ok (a, rest) ↔ cs.head? = a ∧ cs = rest :=
  pure_eq_ok (a := cs.head?) (b := a)

theorem peekToken?_eq_ok {a : Option Char} :
    peekToken? cs = .ok (a, rest) ↔ (cs.dropWhile isSpace).head? = a ∧ cs.dropWhile isSpace = rest :=
  pure_eq_ok (a := (cs.dropWhile isSpace).head?) (b := a)

theorem next_eq_ok {c : Char} : next cs = .ok (c, rest) ↔ cs = c :: rest := by
  cases cs with
  | nil => exact ⟨fun h => (nomatch h), fun h => (nomatch h)⟩
  | cons d ds =>
    show Except.ok (d, ds) = _ ↔ _
    simp

theorem char_eq_ok {c : Char} {u : Unit} : char c cs = .ok (u, rest) ↔ cs = c :: rest := by
  unfold char
  simp only [bind_eq_ok, next_eq_ok]
  constructor
  · rintro ⟨d, mid, rfl, h⟩
    by_cases hd : d = c
    · simp [hd, pure_eq_ok] at h
      simp [hd, h]
    · simp [hd, fail_eq_ok] at h
  · rintro rfl
    exact ⟨c, rest, rfl, by simp [pure_eq_ok]⟩

theorem word_eq_ok {w : List Char} {u : Unit} : word w cs = .ok (u, rest) ↔ cs = w ++ rest := by
  induction w generalizing cs with
  | nil => simp [word, pure_eq_ok]
  | cons c w ih =>
    unfold word
    simp only [bind_eq_ok, char_eq_ok, ih]
    constructor
    · rintro ⟨_, _, rfl, rfl⟩
      rfl
    · rintro rfl
      exact ⟨(), _, rfl, rfl⟩

/-! ## Numbers -/

/-- The text does not go on with a character of the sort. -/
def Stops (p : Char → Bool) (rest : List Char) : Prop :=
  ∀ c, rest.head? = some c → p c = false

theorem digits_eq_ok {ds : List Char} :
    digits cs = .ok (ds, rest) ↔
      cs.takeWhile Char.isDigit = ds ∧ cs.dropWhile Char.isDigit = rest := by
  show Except.ok (cs.takeWhile Char.isDigit, cs.dropWhile Char.isDigit) = _ ↔ _
  simp

theorem stops_dropWhile (p : Char → Bool) (cs : List Char) : Stops p (cs.dropWhile p) := by
  intro c hc
  have := List.head?_dropWhile_not p cs
  simpa [hc] using this

theorem span_append {p : Char → Bool} {ds rest : List Char} (hds : ∀ c ∈ ds, p c = true)
    (hrest : Stops p rest) :
    (ds ++ rest).takeWhile p = ds ∧ (ds ++ rest).dropWhile p = rest := by
  rw [List.takeWhile_append_of_pos hds, List.dropWhile_append_of_pos hds]
  cases rest with
  | nil => simp
  | cons c cs => simp [hrest c rfl]

theorem someDigits_eq_ok {ds : List Char} :
    someDigits cs = .ok (ds, rest) ↔ cs = ds ++ rest ∧ Digits ds ∧ Stops Char.isDigit rest := by
  unfold someDigits
  simp only [bind_eq_ok, digits_eq_ok, ite_eq_ok, fail_eq_ok, pure_eq_ok, and_false, false_or,
    List.isEmpty_iff]
  constructor
  · rintro ⟨_, _, ⟨rfl, rfl⟩, hne, rfl, rfl⟩
    exact ⟨List.takeWhile_append_dropWhile.symm, ⟨hne, fun c hc => List.mem_takeWhile_imp hc⟩,
      stops_dropWhile _ _⟩
  · rintro ⟨rfl, ⟨hne, hds⟩, hrest⟩
    exact ⟨ds, rest, span_append hds hrest, hne, rfl, rfl⟩

theorem integerDigits_eq_ok {ds : List Char} :
    integerDigits cs = .ok (ds, rest) ↔ cs = ds ++ rest ∧ Digits ds ∧
      (ds.head? = some '0' → ds.length = 1) ∧ Stops Char.isDigit rest := by
  unfold integerDigits
  simp only [bind_eq_ok, someDigits_eq_ok, ite_eq_ok, fail_eq_ok, pure_eq_ok, and_false, false_or]
  constructor
  · rintro ⟨ds', _, ⟨rfl, hds, hrest⟩, hzero, rfl, rfl⟩
    refine ⟨rfl, hds, fun h => ?_, hrest⟩
    have := List.length_pos_iff.2 hds.1
    have : ¬ 1 < ds'.length := fun h' => hzero ⟨h, h'⟩
    omega
  · rintro ⟨rfl, hds, hzero, hrest⟩
    refine ⟨ds, rest, ⟨rfl, hds, hrest⟩, ?_, rfl, rfl⟩
    rintro ⟨h, h'⟩
    have := hzero h
    omega

theorem signPart_eq_ok {sign : List Char} :
    signPart cs = .ok (sign, rest) ↔
      cs = sign ++ rest ∧ (sign = ['-'] ∨ sign = [] ∧ rest.head? ≠ some '-') := by
  unfold signPart
  simp only [bind_eq_ok, peek?_eq_ok, ite_eq_ok, next_eq_ok, pure_eq_ok]
  constructor
  · rintro ⟨_, _, ⟨rfl, rfl⟩, ⟨h, _, _, rfl, rfl, rfl⟩ | ⟨h, rfl, rfl⟩⟩
    · cases h
      exact ⟨rfl, .inl rfl⟩
    · exact ⟨rfl, .inr ⟨rfl, h⟩⟩
  · rintro ⟨rfl, rfl | ⟨rfl, h⟩⟩
    · exact ⟨_, _, ⟨rfl, rfl⟩, .inl ⟨rfl, _, _, rfl, rfl, rfl⟩⟩
    · exact ⟨_, _, ⟨rfl, rfl⟩, .inr ⟨h, rfl, rfl⟩⟩

theorem fractionPart_eq_ok {f : List Char} :
    fractionPart cs = .ok (f, rest) ↔ cs = f ++ rest ∧
      (f = [] ∧ rest.head? ≠ some '.' ∨
        ∃ ds, f = '.' :: ds ∧ Digits ds ∧ Stops Char.isDigit rest) := by
  unfold fractionPart
  simp only [bind_eq_ok, peek?_eq_ok, ite_eq_ok, next_eq_ok, someDigits_eq_ok, pure_eq_ok]
  constructor
  · rintro ⟨_, _, ⟨rfl, rfl⟩, ⟨h, _, _, rfl, ds, _, ⟨rfl, hds, hrest⟩, rfl, rfl⟩ | ⟨h, rfl, rfl⟩⟩
    · cases h
      exact ⟨rfl, .inr ⟨ds, rfl, hds, hrest⟩⟩
    · exact ⟨rfl, .inl ⟨rfl, h⟩⟩
  · rintro ⟨rfl, ⟨rfl, h⟩ | ⟨ds, rfl, hds, hrest⟩⟩
    · exact ⟨_, _, ⟨rfl, rfl⟩, .inr ⟨h, rfl, rfl⟩⟩
    · exact ⟨_, _, ⟨rfl, rfl⟩, .inl ⟨rfl, _, _, rfl, ds, rest, ⟨rfl, hds, hrest⟩, rfl, rfl⟩⟩

/-- What stands before the digits of an exponent. -/
def exponentSign : Reader (List Char) := do
  match ← peek? with
  | some '+' => do
    let _ ← next
    pure ['+']
  | some '-' => do
    let _ ← next
    pure ['-']
  | _ => pure []

theorem exponentSign_eq_ok {sign : List Char} :
    exponentSign cs = .ok (sign, rest) ↔ cs = sign ++ rest ∧
      (sign = ['+'] ∨ sign = ['-'] ∨ sign = [] ∧ rest.head? ≠ some '+' ∧ rest.head? ≠ some '-') := by
  unfold exponentSign
  simp only [bind_eq_ok, peek?_eq_ok]
  constructor
  · rintro ⟨_, _, ⟨rfl, rfl⟩, h⟩
    generalize hhead : cs.head? = head at h
    split at h
    · simp only [bind_eq_ok, next_eq_ok, pure_eq_ok] at h
      obtain ⟨_, _, rfl, rfl, rfl⟩ := h
      cases hhead
      exact ⟨rfl, .inl rfl⟩
    · simp only [bind_eq_ok, next_eq_ok, pure_eq_ok] at h
      obtain ⟨_, _, rfl, rfl, rfl⟩ := h
      cases hhead
      exact ⟨rfl, .inr (.inl rfl)⟩
    · rename_i hplus hminus
      obtain ⟨rfl, rfl⟩ := pure_eq_ok.1 h
      exact ⟨rfl, .inr (.inr ⟨rfl, fun h => hplus (hhead.symm.trans h),
        fun h => hminus (hhead.symm.trans h)⟩)⟩
  · rintro ⟨rfl, rfl | rfl | ⟨rfl, hplus, hminus⟩⟩
    · exact ⟨_, _, ⟨rfl, rfl⟩, bind_eq_ok.2 ⟨_, _, next_eq_ok.2 rfl, rfl⟩⟩
    · exact ⟨_, _, ⟨rfl, rfl⟩, bind_eq_ok.2 ⟨_, _, next_eq_ok.2 rfl, rfl⟩⟩
    · refine ⟨_, _, ⟨rfl, rfl⟩, ?_⟩
      rw [List.nil_append]
      generalize rest.head? = head at *
      split
      · contradiction
      · contradiction
      · rfl

/-- What goes on behind the letter of an exponent. -/
def exponentRest : Reader (List Char) := do
  let _ ← next
  let sign ← exponentSign
  return 'e' :: sign ++ (← someDigits)

theorem exponentPart_eq : exponentPart = (do
    match ← peek? with
    | some 'e' | some 'E' => exponentRest
    | _ => return []) := by
  unfold exponentPart exponentRest exponentSign
  simp only [bind_assoc]
  refine bind_congr fun a => ?_
  split
  · refine bind_congr fun _ => bind_congr fun b => ?_
    split <;> simp
  · refine bind_congr fun _ => bind_congr fun b => ?_
    split <;> simp
  · simp_all

theorem exponentRest_eq_ok {e : List Char} :
    exponentRest cs = .ok (e, rest) ↔ ∃ letter sign ds, cs = letter :: (sign ++ (ds ++ rest)) ∧
      e = 'e' :: (sign ++ ds) ∧ sign ∈ [[], ['+'], ['-']] ∧ Digits ds ∧
      Stops Char.isDigit rest := by
  unfold exponentRest
  simp only [bind_eq_ok, next_eq_ok, exponentSign_eq_ok, someDigits_eq_ok, pure_eq_ok]
  constructor
  · rintro ⟨letter, _, rfl, sign, _, ⟨rfl, hsign⟩, ds, _, ⟨rfl, hds, hrest⟩, rfl, rfl⟩
    refine ⟨letter, sign, ds, rfl, rfl, ?_, hds, hrest⟩
    rcases hsign with rfl | rfl | ⟨rfl, -⟩ <;> simp
  · rintro ⟨letter, sign, ds, rfl, rfl, hsign, hds, hrest⟩
    refine ⟨letter, _, rfl, sign, _, ⟨rfl, ?_⟩, ds, rest, ⟨rfl, hds, hrest⟩, rfl, rfl⟩
    obtain ⟨d, ds, rfl⟩ := List.exists_cons_of_ne_nil hds.1
    have hd : d.isDigit = true := hds.2 d List.mem_cons_self
    simp only [List.mem_cons, List.not_mem_nil, or_false] at hsign
    rcases hsign with rfl | rfl | rfl
    · refine .inr (.inr ⟨rfl, ?_, ?_⟩) <;>
      · rintro h
        cases h
        exact absurd hd (by decide)
    · exact .inl rfl
    · exact .inr (.inl rfl)

theorem exponent_of_exponentPart {e : List Char} (h : exponentPart cs = .ok (e, rest)) :
    ∃ e', cs = e' ++ rest ∧ Exponent e e' := by
  rw [exponentPart_eq, bind_eq_ok] at h
  obtain ⟨head, _, hpeek, h⟩ := h
  obtain ⟨hhead, rfl⟩ := peek?_eq_ok.1 hpeek
  split at h
  · obtain ⟨letter, sign, ds, rfl, rfl, hsign, hds, -⟩ := exponentRest_eq_ok.1 h
    cases hhead
    exact ⟨'e' :: (sign ++ ds), by simp, .some (.inl rfl) hsign hds⟩
  · obtain ⟨letter, sign, ds, rfl, rfl, hsign, hds, -⟩ := exponentRest_eq_ok.1 h
    cases hhead
    exact ⟨'E' :: (sign ++ ds), by simp, .some (.inr rfl) hsign hds⟩
  · obtain ⟨rfl, rfl⟩ := pure_eq_ok.1 h
    exact ⟨[], rfl, .none⟩

/-- The text does not go on with a character that could belong to a number. -/
def EndsNumber (rest : List Char) : Prop :=
  Stops (fun c => c.isDigit || c == '.' || c == 'e' || c == 'E') rest

theorem EndsNumber.stops (h : EndsNumber rest) : Stops Char.isDigit rest := by
  intro c hc
  have := h c hc
  simp only [Bool.or_eq_false_iff] at this
  exact this.1.1.1

theorem EndsNumber.head_ne (h : EndsNumber rest) {c : Char} (hc : c ∈ ['.', 'e', 'E']) :
    rest.head? ≠ some c := by
  intro hhead
  have := h c hhead
  simp only [Bool.or_eq_false_iff, beq_eq_false_iff_ne] at this
  simp only [List.mem_cons, List.not_mem_nil, or_false] at hc
  rcases hc with rfl | rfl | rfl <;> simp at this

theorem exponentPart_of_exponent {e e' : List Char} (h : Exponent e e') (hrest : EndsNumber rest) :
    exponentPart (e' ++ rest) = .ok (e, rest) := by
  rw [exponentPart_eq, bind_eq_ok]
  refine ⟨_, _, peek?_eq_ok.2 ⟨rfl, rfl⟩, ?_⟩
  cases h with
  | none =>
    have he := hrest.head_ne (c := 'e') (by decide)
    have hE := hrest.head_ne (c := 'E') (by decide)
    rw [List.nil_append]
    generalize rest.head? = head at he hE
    split
    · contradiction
    · contradiction
    · rfl
  | @some letter sign ds hletter hsign hds =>
    have hread : exponentRest (letter :: (sign ++ ds) ++ rest) = .ok ('e' :: (sign ++ ds), rest) :=
      exponentRest_eq_ok.2 ⟨letter, sign, ds, by simp, rfl, hsign, hds, hrest.stops⟩
    rcases hletter with rfl | rfl
    · exact hread
    · exact hread

/-- What is read as a number is one. -/
theorem numeral_of_number {n : String} (h : number cs = .ok (n, rest)) :
    ∃ spelling t, n = String.ofList spelling ∧ cs = t ++ rest ∧ Numeral spelling t := by
  unfold number at h
  simp only [bind_eq_ok, signPart_eq_ok, integerDigits_eq_ok, fractionPart_eq_ok, pure_eq_ok] at h
  obtain ⟨sign, _, ⟨rfl, hsign⟩, whole, _, ⟨rfl, hwhole, hzero, -⟩, f, _, ⟨rfl, hf⟩, e, _, he, rfl,
    rfl⟩ := h
  obtain ⟨e', rfl, hexponent⟩ := exponent_of_exponentPart he
  refine ⟨sign ++ (whole ++ (f ++ e)), sign ++ (whole ++ (f ++ e')), by simp, by simp, ?_⟩
  refine .mk ?_ hwhole hzero ?_ hexponent
  · rcases hsign with rfl | ⟨rfl, -⟩ <;> simp
  · rcases hf with ⟨rfl, -⟩ | ⟨ds, rfl, hds, -⟩
    · exact .none
    · exact .some hds

/-- A number is read up to where it cannot go on. -/
theorem number_of_numeral {n t : List Char} (h : Numeral n t) (hrest : EndsNumber rest) :
    number (t ++ rest) = .ok (String.ofList n, rest) := by
  cases h with
  | @mk sign whole f e e' hsign hwhole hzero hf he =>
    have hexp : Stops Char.isDigit (e' ++ rest) ∧ (e' ++ rest).head? ≠ some '.' := by
      cases he with
      | none => exact ⟨hrest.stops, hrest.head_ne (by decide)⟩
      | some hletter =>
        rcases hletter with rfl | rfl <;>
        · refine ⟨fun c hc => ?_, by simp⟩
          cases hc
          decide
    have hfrac : Stops Char.isDigit (f ++ (e' ++ rest)) := by
      cases hf with
      | none => exact hexp.1
      | some =>
        intro c hc
        cases hc
        decide
    unfold number
    simp only [bind_eq_ok, signPart_eq_ok, integerDigits_eq_ok, fractionPart_eq_ok, pure_eq_ok]
    refine ⟨sign, whole ++ (f ++ (e' ++ rest)), ⟨by simp, ?_⟩, whole, f ++ (e' ++ rest),
      ⟨rfl, hwhole, hzero, hfrac⟩, f, e' ++ rest, ⟨rfl, ?_⟩, e, rest,
      exponentPart_of_exponent he hrest, by simp, rfl⟩
    · simp only [List.mem_cons, List.not_mem_nil, or_false] at hsign
      rcases hsign with rfl | rfl
      · obtain ⟨d, ds, rfl⟩ := List.exists_cons_of_ne_nil hwhole.1
        have hd : d.isDigit = true := hwhole.2 d List.mem_cons_self
        refine .inr ⟨rfl, fun h => ?_⟩
        cases h
        exact absurd hd (by decide)
      · exact .inl rfl
    · cases hf with
      | none => exact .inl ⟨rfl, hexp.2⟩
      | some hds => exact .inr ⟨_, rfl, hds, hexp.1⟩

/-! ## Strings -/

theorem hexEscape_eq_ok {n : Nat} :
    hexEscape cs = .ok (n, rest) ↔ ∃ ds, cs = ds ++ rest ∧ Hex n ds := by
  unfold hexEscape Hex
  simp only [bind_eq_ok, next_eq_ok, ite_eq_ok, pure_eq_ok, fail_eq_ok, and_false, or_false,
    List.all_eq_true]
  constructor
  · rintro ⟨a, _, rfl, b, _, rfl, c, _, rfl, d, _, rfl, hhex, rfl, rfl⟩
    exact ⟨[a, b, c, d], rfl, rfl, hhex, rfl⟩
  · rintro ⟨ds, rfl, hlength, hhex, rfl⟩
    obtain ⟨a, b, c, d, rfl⟩ : ∃ a b c d, ds = [a, b, c, d] := by
      match ds, hlength with
      | [a, b, c, d], _ => exact ⟨a, b, c, d, rfl⟩
    exact ⟨a, _, rfl, b, _, rfl, c, _, rfl, d, _, rfl, hhex, rfl, rfl⟩

theorem unicodeEscape_eq_ok {c : Char} :
    unicodeEscape cs = .ok (c, rest) ↔ ∃ t, cs = t ++ rest ∧ Escape c ('u' :: t) := by
  unfold unicodeEscape
  simp only [bind_eq_ok, hexEscape_eq_ok, ite_eq_ok, pure_eq_ok, fail_eq_ok, char_eq_ok, and_false,
    false_or, or_false]
  constructor
  · rintro ⟨n, _, ⟨ds, rfl, hn⟩, hlow,
      ⟨hhigh, _, _, rfl, _, _, rfl, m, _, ⟨es, rfl, hm⟩, hm', rfl, rfl⟩ | ⟨hhigh, rfl, rfl⟩⟩
    · exact ⟨ds ++ '\\' :: 'u' :: es, by simp, .pair hn hhigh hm hm'⟩
    · exact ⟨ds, rfl, .unicode hn (by simpa using hlow) (by simpa using hhigh)⟩
  · rintro ⟨t, rfl, he⟩
    cases he with
    | short h => simp [shortEscapes] at h
    | @unicode n ds h hlow hhigh =>
      exact ⟨n, rest, ⟨t, rfl, h⟩, by simp [hlow], .inr ⟨by simp [hhigh], rfl, rfl⟩⟩
    | @pair n m ds es hn hhigh hm hlow =>
      have hn' : ¬ isLowSurrogate n = true := by
        unfold isHighSurrogate at hhigh
        unfold isLowSurrogate
        simp only [Bool.and_eq_true, decide_eq_true_eq] at hhigh ⊢
        omega
      exact ⟨n, '\\' :: 'u' :: (es ++ rest), ⟨ds, by simp, hn⟩, hn',
        .inl ⟨hhigh, (), _, rfl, (), _, rfl, m, rest, ⟨es, rfl, hm⟩, hlow, rfl, rfl⟩⟩

theorem escape_eq_ok {c : Char} :
    Reader.escape false cs = .ok (c, rest) ↔ ∃ t, cs = t ++ rest ∧ Escape c t := by
  unfold Reader.escape
  simp only [bind_eq_ok, next_eq_ok, Bool.false_eq_true, if_false]
  constructor
  · rintro ⟨letter, mid, rfl, h⟩
    split at h
    case h_9 =>
      obtain ⟨t, rfl, he⟩ := unicodeEscape_eq_ok.1 h
      exact ⟨'u' :: t, rfl, he⟩
    case h_10 => exact (fail_eq_ok.1 h).elim
    all_goals
      obtain ⟨rfl, rfl⟩ := pure_eq_ok.1 h
      exact ⟨[_], rfl, .short (by decide)⟩
  · rintro ⟨t, rfl, he⟩
    cases he with
    | short h =>
      simp only [shortEscapes, List.mem_cons, Prod.mk.injEq, List.not_mem_nil, or_false] at h
      rcases h with ⟨rfl, rfl⟩ | ⟨rfl, rfl⟩ | ⟨rfl, rfl⟩ | ⟨rfl, rfl⟩ | ⟨rfl, rfl⟩ | ⟨rfl, rfl⟩ |
        ⟨rfl, rfl⟩ | ⟨rfl, rfl⟩ <;> exact ⟨_, rest, rfl, rfl⟩
    | unicode hn hlow hhigh =>
      exact ⟨'u', _, rfl, unicodeEscape_eq_ok.2 ⟨_, rfl, .unicode hn hlow hhigh⟩⟩
    | pair hn hhigh hm hlow =>
      exact ⟨'u', _, rfl, unicodeEscape_eq_ok.2 ⟨_, rfl, .pair hn hhigh hm hlow⟩⟩

/-- A body is read when the bound exceeds its length. -/
theorem stringBody_eq_ok {fuel : Nat} {s : List Char} :
    stringBody false fuel cs = .ok (s, rest) ↔
      ∃ t, cs = t ++ '"' :: rest ∧ Quoted s t ∧ s.length < fuel := by
  induction fuel generalizing cs s rest with
  | zero =>
    refine ⟨fun h => (fail_eq_ok.1 h).elim, ?_⟩
    rintro ⟨_, _, _, h⟩
    cases h
  | succ fuel ih =>
    unfold stringBody
    simp only [bind_eq_ok, next_eq_ok, ite_eq_ok, pure_eq_ok, fail_eq_ok, escape_eq_ok, ih,
      and_false, false_or]
    constructor
    · rintro ⟨c, _, rfl, ⟨rfl, rfl, rfl⟩ | ⟨hquote, ⟨rfl, e, _, ⟨u, rfl, he⟩, s, _,
        ⟨t, rfl, ht, hlt⟩, rfl, rfl⟩ | ⟨hback, hcontrol, s, _, ⟨t, rfl, ht, hlt⟩, rfl, rfl⟩⟩⟩
      · exact ⟨[], rfl, .nil, by simp⟩
      · exact ⟨'\\' :: (u ++ t), by simp, .escape he ht, by simpa using hlt⟩
      · exact ⟨c :: t, rfl, .char hquote hback (by omega) ht, by simpa using hlt⟩
    · rintro ⟨t, rfl, ht, hlt⟩
      cases ht with
      | nil => exact ⟨'"', rest, rfl, .inl ⟨rfl, rfl, rfl⟩⟩
      | char hquote hback hcontrol ht =>
        exact ⟨_, _, rfl, .inr ⟨hquote, .inr ⟨hback, by omega, _, rest,
          ⟨_, rfl, ht, by simpa using hlt⟩, rfl, rfl⟩⟩⟩
      | @escape _ e _ t he ht =>
        exact ⟨_, _, rfl, .inr ⟨by decide, .inl ⟨rfl, _, t ++ '"' :: rest, ⟨e, by simp, he⟩, _,
          rest, ⟨t, rfl, ht, by simpa using hlt⟩, rfl, rfl⟩⟩⟩

end

end Reader

theorem Quoted.length_le {s t : List Char} (h : Quoted s t) : s.length ≤ t.length := by
  induction h with
  | nil => exact Nat.le_refl _
  | char _ _ _ _ ih => simpa using ih
  | escape _ _ ih =>
    simp only [List.length_cons, List.length_append]
    omega

namespace Reader

section

variable {cs rest : List Char}

theorem string_eq_ok {v : String} :
    Reader.string false cs = .ok (v, rest) ↔
      ∃ s t, v = String.ofList s ∧ cs = '"' :: (t ++ '"' :: rest) ∧ Quoted s t := by
  unfold Reader.string
  simp only [bind_eq_ok, char_eq_ok, get_eq_ok, stringBody_eq_ok, pure_eq_ok]
  constructor
  · rintro ⟨_, _, rfl, _, _, ⟨rfl, rfl⟩, s, _, ⟨t, rfl, ht, -⟩, rfl, rfl⟩
    exact ⟨s, t, rfl, rfl, ht⟩
  · rintro ⟨s, t, rfl, rfl, ht⟩
    refine ⟨(), _, rfl, _, _, ⟨rfl, rfl⟩, s, rest, ⟨t, rfl, ht, ?_⟩, rfl, rfl⟩
    have := ht.length_le
    simp only [List.length_append, List.length_cons]
    omega

end

/-! ## Items with commas between them -/

section

variable {α : Type} {Gap End : List Char → List Char → Prop} {cs rest : List Char}

theorem dropWhile_blanks {g cs : List Char} (hg : Blanks g) :
    (g ++ cs).dropWhile isSpace = cs.dropWhile isSpace :=
  List.dropWhile_append_of_pos hg

theorem blanks_takeWhile (cs : List Char) : Blanks (cs.takeWhile isSpace) :=
  fun _ hc => List.mem_takeWhile_imp hc

/-- A text with its white space in front set apart. -/
theorem split_blanks (cs : List Char) :
    ∃ g, Blanks g ∧ cs = g ++ cs.dropWhile isSpace :=
  ⟨cs.takeWhile isSpace, blanks_takeWhile cs, List.takeWhile_append_dropWhile.symm⟩

/-- Adds to the items what `r` reads. -/
def pushing (r : Reader α) (as : Array α) : Reader (Array α) := do
  return as.push (← r)

theorem pushing_eq_ok {r : Reader α} {as as' : Array α} :
    pushing r as cs = .ok (as', rest) ↔ ∃ a, r cs = .ok (a, rest) ∧ as.push a = as' := by
  unfold pushing
  simp only [bind_eq_ok, pure_eq_ok]
  constructor
  · rintro ⟨a, _, h, rfl, rfl⟩
    exact ⟨a, h, rfl⟩
  · rintro ⟨a, h, rfl⟩
    exact ⟨a, rest, h, rfl, rfl⟩

theorem peekToken?_dropWhile {β : Type} (f : Option Char → Reader β) (cs : List Char) :
    (peekToken? >>= f) (cs.dropWhile isSpace) = (peekToken? >>= f) cs := by
  show f ((cs.dropWhile isSpace).dropWhile isSpace).head?
    ((cs.dropWhile isSpace).dropWhile isSpace) = _
  rw [List.dropWhile_idempotent]
  rfl

/-- White space in front of the items is passed. -/
theorem separated_dropWhile {β : Type} (close : Char) (item : β → Reader β) (fuel : Nat)
    (first : Bool) (b : β) (cs : List Char) :
    separated close item fuel first b (cs.dropWhile isSpace) =
      separated close item fuel first b cs := by
  cases fuel with
  | zero => rfl
  | succ fuel =>
    unfold separated
    exact peekToken?_dropWhile _ cs

/-- White space in front of a value is passed. -/
theorem valueWithin_dropWhile (lenient : Bool) (n : Nat) (cs : List Char) :
    valueWithin lenient n (cs.dropWhile isSpace) = valueWithin lenient n cs := by
  cases n with
  | zero => rfl
  | succ n =>
    unfold valueWithin
    exact peekToken?_dropWhile _ cs

/-- What may follow a value. -/
def Follows (rest : List Char) : Prop :=
  ∀ c, rest.head? = some c → isSpace c = true ∨ c ∈ [',', ']', '\x7d']

theorem Follows.endsNumber (h : Follows rest) : EndsNumber rest := by
  intro c hc
  have hall : ∀ c ∈ [' ', '\n', '\t', '\r', ',', ']', '\x7d'],
      (c.isDigit || c == '.' || c == 'e' || c == 'E') = false :=
    Text.forall_mem_of_all (by decide)
  refine hall c ?_
  rcases h c hc with hspace | h
  · simp only [isSpace, Bool.or_eq_true, beq_iff_eq] at hspace
    rcases hspace with ((rfl | rfl) | rfl) | rfl <;> decide
  · exact List.mem_append_right [' ', '\n', '\t', '\r'] h

theorem follows_blanks {g : List Char} (hg : Blanks g) (h : Follows rest) : Follows (g ++ rest) := by
  cases g with
  | nil => exact h
  | cons c g =>
    intro d hd
    cases hd
    exact .inl (hg c List.mem_cons_self)

/-- How a series goes on behind an item: to its end, or behind a comma to the
next item. -/
def goOn {β : Type} (close : Char) (item : β → Reader β) (fuel : Nat) (b : β) : Reader β := do
  match ← peekToken? with
  | some ',' => do
    let _ ← next
    spaces
    if (← peek?) = some close then fail
    separated close item fuel false b
  | some d =>
    if d = close then do
      let _ ← next
      return b
    else fail
  | none => fail

theorem goOn_eq_ok {β : Type} {close : Char} (hcomma : close ≠ ',') {item : β → Reader β}
    {fuel : Nat} {b b' : β} :
    goOn close item fuel b cs = .ok (b', rest) ↔
      cs.dropWhile isSpace = close :: rest ∧ b = b' ∨
      ∃ more, cs.dropWhile isSpace = ',' :: more ∧
        (more.dropWhile isSpace).head? ≠ some close ∧
        separated close item fuel false b more = .ok (b', rest) := by
  unfold goOn
  simp only [bind_eq_ok, peekToken?_eq_ok]
  constructor
  · rintro ⟨head, mid, ⟨hhead, rfl⟩, h⟩
    split at h
    · simp only [bind_eq_ok, next_eq_ok, spaces_eq_ok, peek?_eq_ok, ite_eq_ok, fail_eq_ok] at h
      obtain ⟨c, more, hcs, _, _, rfl, _, _, ⟨rfl, rfl⟩, ⟨-, _, _, hno, -⟩ | ⟨hne, h⟩⟩ := h
      · exact hno.elim
      · rw [hcs] at hhead
        cases hhead
        exact .inr ⟨more, hcs, hne, separated_dropWhile close item fuel false b more ▸ h⟩
    · rename_i d _
      simp only [bind_eq_ok, next_eq_ok, ite_eq_ok, fail_eq_ok, pure_eq_ok, and_false,
        or_false] at h
      obtain ⟨rfl, c, _, hcs, rfl, rfl⟩ := h
      rw [hcs] at hhead
      cases hhead
      exact .inl ⟨hcs, rfl⟩
    · exact (fail_eq_ok.1 h).elim
  · rintro (⟨hcs, rfl⟩ | ⟨more, hcs, hne, h⟩)
    · refine ⟨_, _, ⟨rfl, rfl⟩, ?_⟩
      rw [hcs, List.head?_cons]
      generalize hhead : some close = head
      split
      · exact absurd (Option.some.inj hhead) hcomma
      · simp only [bind_eq_ok, next_eq_ok, ite_eq_ok, fail_eq_ok, pure_eq_ok, and_false, or_false]
        exact ⟨(Option.some.inj hhead).symm, close, rest, rfl, by simp⟩
      · cases hhead
    · refine ⟨_, _, ⟨rfl, rfl⟩, ?_⟩
      rw [hcs, List.head?_cons]
      simp only [bind_eq_ok, next_eq_ok, spaces_eq_ok, peek?_eq_ok, ite_eq_ok, fail_eq_ok]
      refine ⟨',', more, rfl, (), _, rfl, _, _, ⟨rfl, rfl⟩, .inr ⟨hne, ?_⟩⟩
      rw [separated_dropWhile]
      exact h

/-- One turn: the series ends before a first item, or it has one more item. -/
theorem separated_succ_eq_ok {β : Type} {close : Char} {item : β → Reader β} {fuel : Nat}
    {first : Bool} {b b' : β} :
    separated close item (fuel + 1) first b cs = .ok (b', rest) ↔
      first = true ∧ cs.dropWhile isSpace = close :: rest ∧ b = b' ∨
      ∃ c u b₁ mid, cs.dropWhile isSpace = c :: u ∧ c ≠ close ∧ item b (c :: u) = .ok (b₁, mid) ∧
        goOn close item fuel b₁ mid = .ok (b', rest) := by
  rw [separated]
  simp only [bind_eq_ok, peekToken?_eq_ok]
  constructor
  · rintro ⟨head, _, ⟨hhead, rfl⟩, h⟩
    split at h
    · exact (fail_eq_ok.1 h).elim
    · rename_i c
      obtain ⟨u, hu⟩ := List.head?_eq_some_iff.1 hhead
      rw [hu] at h
      simp only [ite_eq_ok, bind_eq_ok, next_eq_ok, pure_eq_ok, fail_eq_ok, and_false,
        or_false] at h
      rcases h with ⟨rfl, hfirst, d, _, hd, rfl, rfl⟩ | ⟨hc, b₁, mid, hitem, hgo⟩
      · cases hd
        exact .inl ⟨hfirst, hu, rfl⟩
      · exact .inr ⟨c, u, b₁, mid, hu, hc, hitem, bind_eq_ok.2 hgo⟩
  · rintro (⟨hfirst, hcs, rfl⟩ | ⟨c, u, b₁, mid, hu, hc, hitem, hgo⟩)
    · refine ⟨_, _, ⟨rfl, rfl⟩, ?_⟩
      rw [hcs, List.head?_cons]
      simp only [ite_eq_ok, bind_eq_ok, next_eq_ok, pure_eq_ok]
      exact .inl ⟨by simp, .inl ⟨hfirst, close, rest, rfl, by simp⟩⟩
    · refine ⟨_, _, ⟨rfl, rfl⟩, ?_⟩
      rw [hu, List.head?_cons]
      simp only [ite_eq_ok, bind_eq_ok]
      exact .inr ⟨hc, b₁, mid, hitem, bind_eq_ok.1 hgo⟩

theorem follows_close {close : Char} (h : Closes close) (rest : List Char) :
    Follows (close :: rest) := by
  intro c hc
  cases hc
  rcases h with rfl | rfl <;> exact .inr (by decide)

theorem dropWhile_close {close : Char} (h : Closes close) (rest : List Char) :
    (close :: rest).dropWhile isSpace = close :: rest := by
  rcases h with rfl | rfl <;> rfl

variable {Item : α → List Char → List Char → Prop} {r : Reader α} {close : Char}

/-- A series is read item by item, the last one up to what closes it. -/
theorem separated_of_series {as : List α} {t s : List Char}
    (hgap : ∀ g d, Gap g d → Blanks g) (hend : ∀ g d, End g d → Blanks g)
    (hopens : ∀ a u w, Item a u w → ∃ c u' w', u = c :: u' ∧ w = c :: w' ∧ Opens c)
    (h : Series Gap End Item as t s) (hclose : Closes close)
    (hitem : ∀ a u w mid, Item a u w → u.length ≤ t.length → Follows mid →
      r (u ++ mid) = .ok (a, mid))
    {fuel : Nat} (hfuel : t.length ≤ fuel) (first : Bool) (acc : Array α) :
    separated close (pushing r) fuel first acc (t ++ close :: rest) =
      .ok (acc ++ as.toArray, rest) := by
  induction h generalizing fuel first acc with
  | @last g d a u w g' d' hg ha hg' =>
    obtain ⟨c, u, _, rfl, -, hc⟩ := hopens _ _ _ ha
    obtain ⟨fuel, rfl⟩ : ∃ n, fuel = n + 1 := ⟨fuel - 1, by simp at hfuel; omega⟩
    have hread := hitem _ _ _ (g' ++ close :: rest) ha (by simp; omega)
      (follows_blanks (hend _ _ hg') (follows_close hclose rest))
    refine separated_succ_eq_ok.2 (.inr ⟨c, u ++ (g' ++ close :: rest), acc.push a, _, ?_,
      hc.ne_close hclose, pushing_eq_ok.2 ⟨a, hread, rfl⟩, ?_⟩)
    · simp [List.append_assoc, dropWhile_blanks (hgap _ _ hg), hc.isSpace]
    · refine (goOn_eq_ok hclose.ne_comma).2 (.inl ⟨?_, by simp⟩)
      rw [dropWhile_blanks (hend _ _ hg'), dropWhile_close hclose]
  | @more g d a u w g' d' as t s hg ha hg' hmore ih =>
    obtain ⟨c, u, _, rfl, -, hc⟩ := hopens _ _ _ ha
    obtain ⟨fuel, rfl⟩ : ∃ n, fuel = n + 1 := ⟨fuel - 1, by simp at hfuel; omega⟩
    have hread := hitem _ _ _ (g' ++ ',' :: (t ++ close :: rest)) ha (by simp; omega)
      (follows_blanks (hgap _ _ hg') fun d hd => by cases hd; exact .inr (by decide))
    refine separated_succ_eq_ok.2 (.inr ⟨c, u ++ (g' ++ ',' :: (t ++ close :: rest)), acc.push a, _,
      ?_, hc.ne_close hclose, pushing_eq_ok.2 ⟨a, hread, rfl⟩, ?_⟩)
    · simp [List.append_assoc, dropWhile_blanks (hgap _ _ hg), hc.isSpace]
    · refine (goOn_eq_ok hclose.ne_comma).2 (.inr ⟨t ++ close :: rest, ?_, ?_, ?_⟩)
      · rw [dropWhile_blanks (hgap _ _ hg')]
        rfl
      · obtain ⟨x, y, e, u, w, rfl, -, hx, he⟩ := hmore.opens hopens
        rw [List.append_assoc, dropWhile_blanks (hgap _ _ hx), List.cons_append,
          List.dropWhile_cons_of_neg (by simp [he.isSpace])]
        exact fun h => he.ne_close hclose (Option.some.inj h)
      · rw [ih (fun a u w mid ha hle => hitem a u w mid ha (by simp; omega)) (by simp at hfuel; omega)
          false (acc.push a)]
        simp

/-- What is read as a series is one. -/
theorem series_of_separated (hclose : Closes close)
    (hgap : ∀ g, Blanks g → Gap g g) (hend : ∀ g, Blanks g → End g g)
    (hitem : ∀ cs a mid, r cs = .ok (a, mid) → ∃ g u, cs = g ++ (u ++ mid) ∧ Blanks g ∧ Item a u u)
    {fuel : Nat} {first : Bool} {acc acc' : Array α}
    (h : separated close (pushing r) fuel first acc cs = .ok (acc', rest)) :
    (first = true ∧ acc = acc' ∧ ∃ g, Blanks g ∧ cs = g ++ close :: rest) ∨
      ∃ as t, cs = t ++ close :: rest ∧ Series Gap End Item as t t ∧
        acc' = acc ++ as.toArray := by
  induction fuel generalizing first acc cs with
  | zero => exact (fail_eq_ok.1 h).elim
  | succ fuel ih =>
    obtain ⟨g₀, hg₀, hcs⟩ := split_blanks cs
    rcases separated_succ_eq_ok.1 h with ⟨hfirst, hdrop, rfl⟩ |
      ⟨c, u, _, mid, hdrop, hne, hpush, hgo⟩
    · exact .inl ⟨hfirst, rfl, g₀, hg₀, by rw [← hdrop]; exact hcs⟩
    · obtain ⟨a, hread, rfl⟩ := pushing_eq_ok.1 hpush
      obtain ⟨g, t, hcu, hg, ha⟩ := hitem _ _ _ hread
      obtain ⟨g', hg', hmid⟩ := split_blanks mid
      have hfront : Blanks (g₀ ++ g) := fun c hc => (List.mem_append.1 hc).elim (hg₀ c) (hg c)
      rw [hdrop, hcu] at hcs
      rcases (goOn_eq_ok hclose.ne_comma).1 hgo with ⟨hdrop', rfl⟩ | ⟨more, hdrop', hhead, hmore⟩
      · rw [hdrop'] at hmid
        exact .inr ⟨[a], _, by rw [hcs, hmid]; simp, .last (hgap _ hfront) ha (hend _ hg'), by simp⟩
      · rw [hdrop'] at hmid
        rcases ih hmore with ⟨hfalse, -⟩ | ⟨as, t', hrest, hseries, rfl⟩
        · cases hfalse
        · exact .inr ⟨a :: as, _, by rw [hcs, hmid, hrest]; simp,
            .more (hgap _ hfront) ha (hgap _ hg') hseries, by simp⟩

end

/-! ## Values -/

section

variable {Gap End : List Char → List Char → Prop} {cs rest : List Char}

/-- A member of an object. -/
def memberWithin (n : Nat) : Reader (String × Json) := do
  let key ← Reader.string false
  spaces
  char ':'
  return (key, ← valueWithin false n)

theorem memberWithin_eq_ok {n : Nat} {m : String × Json} :
    memberWithin n cs = .ok (m, rest) ↔ ∃ mid more, Reader.string false cs = .ok (m.1, mid) ∧
      mid.dropWhile isSpace = ':' :: more ∧ valueWithin false n more = .ok (m.2, rest) := by
  unfold memberWithin
  simp only [bind_eq_ok, spaces_eq_ok, char_eq_ok, pure_eq_ok]
  constructor
  · rintro ⟨key, mid, hkey, _, _, rfl, _, more, hmore, v, _, hv, rfl, rfl⟩
    exact ⟨mid, more, hkey, hmore, hv⟩
  · rintro ⟨mid, more, hkey, hmore, hv⟩
    exact ⟨m.1, mid, hkey, (), _, rfl, (), more, hmore, m.2, rest, hv, rfl, rfl⟩

/-- How a value is read that begins with a given character. -/
def dispatch (n : Nat) : Char → Reader Json
  | '"' => return .string (← Reader.string false)
  | 't' => do
    word "true".toList
    return .bool true
  | 'f' => do
    word "false".toList
    return .bool false
  | 'n' => do
    word "null".toList
    return .null
  | '[' => do
    let _ ← next
    let elements ← separated ']' (pushing (valueWithin false n)) ((← get).length + 1) true #[]
    return .array elements.toList
  | '\x7b' => do
    let _ ← next
    let members ← separated '\x7d' (pushing (memberWithin n)) ((← get).length + 1) true #[]
    return .object members.toList
  | _ => return .number (← number)

theorem valueWithin_succ (n : Nat) : valueWithin false (n + 1) = (do
    match ← peekToken? with
    | none => fail
    | some c => dispatch n c) := by
  have hmember : pushing (memberWithin n) = fun ms => (do
      let key ← Reader.string false
      spaces
      char ':'
      return ms.push (key, ← valueWithin false n)) := by
    funext ms
    simp [pushing, memberWithin]
  unfold valueWithin
  refine bind_congr fun head => ?_
  cases head with
  | none => rfl
  | some c =>
    show _ = dispatch n c
    unfold dispatch
    rw [hmember]
    split <;> rename_i heq <;> cases heq
    case h_8 => split <;> first | rfl | contradiction
    all_goals rfl

theorem valueWithin_eq_ok {n : Nat} {v : Json} :
    valueWithin false (n + 1) cs = .ok (v, rest) ↔
      ∃ c u, cs.dropWhile isSpace = c :: u ∧ dispatch n c (c :: u) = .ok (v, rest) := by
  rw [valueWithin_succ, bind_eq_ok]
  simp only [peekToken?_eq_ok]
  constructor
  · rintro ⟨head, _, ⟨hhead, rfl⟩, h⟩
    cases head with
    | none => exact (fail_eq_ok.1 h).elim
    | some c =>
      obtain ⟨u, hu⟩ := List.head?_eq_some_iff.1 hhead
      exact ⟨c, u, hu, hu ▸ h⟩
  · rintro ⟨c, u, hu, h⟩
    exact ⟨some c, c :: u, ⟨by rw [hu]; rfl, hu⟩, h⟩

theorem dispatch_of_number (n : Nat) {c : Char} (h : c = '-' ∨ c.isDigit = true) :
    dispatch n c = (do return .number (← number)) := by
  unfold dispatch
  split
  case h_7 => rfl
  all_goals exact absurd h (by decide)

/-- Items between brackets, behind which `rest` is left. -/
theorem bracketed_eq_ok {α : Type} {close c : Char} {r : Reader α} {f : List α → Json} {v : Json} :
    (do
      let _ ← next
      let items ← separated close (pushing r) ((← get).length + 1) true #[]
      return f items.toList : Reader Json) (c :: cs) = .ok (v, rest) ↔
      ∃ items, separated close (pushing r) (cs.length + 1) true #[] cs = .ok (items, rest) ∧
        v = f items.toList := by
  simp only [bind_eq_ok, next_eq_ok, get_eq_ok, pure_eq_ok]
  constructor
  · rintro ⟨_, _, hcs, _, _, ⟨rfl, rfl⟩, items, _, hitems, rfl, rfl⟩
    cases hcs
    exact ⟨items, hitems, rfl⟩
  · rintro ⟨items, hitems, rfl⟩
    exact ⟨c, cs, rfl, cs, cs, ⟨rfl, rfl⟩, items, rest, hitems, rfl, rfl⟩

/-- A pair of brackets with white space between them. -/
theorem separated_of_blanks {α : Type} {close : Char} {r : Reader α} {g : List Char}
    (hg : Blanks g) (hclose : Closes close) (n : Nat) :
    separated close (pushing r) (n + 1) true #[] (g ++ close :: rest) = .ok (#[], rest) :=
  separated_succ_eq_ok.2 (.inl ⟨rfl, by rw [dropWhile_blanks hg, dropWhile_close hclose], rfl⟩)

theorem memberWithin_of_member (hgap : ∀ g d, Gap g d → Blanks g)
    {Value : Json → List Char → List Char → Prop} {n : Nat} {m : String × Json} {t s : List Char}
    (h : Member Gap Value m t s)
    (hvalue : ∀ v u w, Value v u w → u.length ≤ t.length →
      valueWithin false n (u ++ rest) = .ok (v, rest)) :
    memberWithin n (t ++ rest) = .ok (m, rest) := by
  obtain ⟨hk, hg, hg', hv⟩ := h
  rename_i cs k g d g' d' v u w
  refine memberWithin_eq_ok.2 ⟨g ++ ':' :: (g' ++ (u ++ rest)), g' ++ (u ++ rest),
    string_eq_ok.2 ⟨cs, k, rfl, by simp, hk⟩, ?_, ?_⟩
  · rw [dropWhile_blanks (hgap _ _ hg)]
    rfl
  · rw [← valueWithin_dropWhile, dropWhile_blanks (hgap _ _ hg'), valueWithin_dropWhile]
    exact hvalue v u w hv (by simp; omega)

/-- Every text of a value is read as that value, if values may be nested deep
enough. The induction is on the depth. -/
theorem valueWithin_of_spelled (hgap : ∀ g d, Gap g d → Blanks g) (hend : ∀ g d, End g d → Blanks g)
    {n : Nat} {v : Json} {t s : List Char} (h : Spelled Gap End v t s) (hn : t.length ≤ n)
    (hrest : Follows rest) : valueWithin false n (t ++ rest) = .ok (v, rest) := by
  induction n generalizing v t s rest with
  | zero =>
    obtain ⟨c, u, _, rfl, -, -⟩ := h.opens
    cases hn
  | succ n ih =>
    suffices hread : ∀ c u, t = c :: u → dispatch n c (t ++ rest) = .ok (v, rest) by
      obtain ⟨c, u, _, rfl, -, hc⟩ := h.opens
      exact valueWithin_eq_ok.2 ⟨c, u ++ rest, by simp [hc.isSpace], hread c u rfl⟩
    rintro c u hcu
    cases h with
    | nullWord =>
      cases hcu
      exact bind_eq_ok.2 ⟨(), rest, word_eq_ok.2 rfl, rfl⟩
    | trueWord =>
      cases hcu
      exact bind_eq_ok.2 ⟨(), rest, word_eq_ok.2 rfl, rfl⟩
    | falseWord =>
      cases hcu
      exact bind_eq_ok.2 ⟨(), rest, word_eq_ok.2 rfl, rfl⟩
    | number h =>
      obtain ⟨d, _, heq, hd⟩ := h.opens
      cases heq.symm.trans hcu
      rw [dispatch_of_number n hd]
      exact bind_eq_ok.2 ⟨_, rest, number_of_numeral h hrest.endsNumber, rfl⟩
    | string h =>
      cases hcu
      exact bind_eq_ok.2 ⟨_, rest, string_eq_ok.2 ⟨_, _, rfl, by simp, h⟩, rfl⟩
    | emptyArray h =>
      cases hcu
      rw [List.cons_append, List.append_assoc]
      exact bracketed_eq_ok.2 ⟨#[], separated_of_blanks (hgap _ _ h) (.inl rfl) _, rfl⟩
    | @array vs t s h =>
      cases hcu
      rw [List.cons_append, List.append_assoc]
      refine bracketed_eq_ok.2 ⟨_, separated_of_series hgap hend (fun _ _ _ => Spelled.opens) h
        (.inl rfl) (fun a u w mid ha hle hmid => ih ha ?_ hmid) ?_ _ _, by simp⟩
      · simp only [List.length_cons, List.length_append] at hn
        omega
      · simp only [List.length_append]
        omega
    | emptyObject h =>
      cases hcu
      rw [List.cons_append, List.append_assoc]
      exact bracketed_eq_ok.2 ⟨#[], separated_of_blanks (hgap _ _ h) (.inr rfl) _, rfl⟩
    | @object ms t s h =>
      cases hcu
      rw [List.cons_append, List.append_assoc]
      refine bracketed_eq_ok.2 ⟨_, separated_of_series hgap hend (fun _ _ _ => Member.opens) h
        (.inr rfl) (fun m u w mid hm hle hmid => memberWithin_of_member hgap hm
          fun v x y hv hx => ih hv ?_ hmid) ?_ _ _, by simp⟩
      · simp only [List.length_cons, List.length_append] at hn
        omega
      · simp only [List.length_append]
        omega

theorem member_of_memberWithin (hgap : ∀ g, Blanks g → Gap g g)
    {Value : Json → List Char → List Char → Prop} {n : Nat} {m : String × Json}
    (hvalue : ∀ cs v, valueWithin false n cs = .ok (v, rest) →
      ∃ g t, cs = g ++ (t ++ rest) ∧ Blanks g ∧ Value v t t)
    (h : memberWithin n cs = .ok (m, rest)) :
    ∃ g t, cs = g ++ (t ++ rest) ∧ Blanks g ∧ Member Gap Value m t t := by
  obtain ⟨key, v⟩ := m
  obtain ⟨mid, more, hkey, hcolon, hread⟩ := memberWithin_eq_ok.1 h
  obtain ⟨s, k, rfl, rfl, hk⟩ := string_eq_ok.1 hkey
  obtain ⟨g, hg, hmid⟩ := split_blanks mid
  obtain ⟨g', t, rfl, hg', hv⟩ := hvalue _ _ hread
  refine ⟨[], '"' :: (k ++ '"' :: (g ++ ':' :: (g' ++ t))), ?_, fun _ hc => (nomatch hc),
    .mk hk (hgap g hg) (hgap g' hg') hv⟩
  rw [hmid, hcolon]
  simp

/-- What is read as a value is a text of that value, white space in front of
it apart. The induction is on the depth. -/
theorem spelled_of_valueWithin (hgap : ∀ g, Blanks g → Gap g g) (hend : ∀ g, Blanks g → End g g)
    {n : Nat} {v : Json} (h : valueWithin false n cs = .ok (v, rest)) :
    ∃ g t, cs = g ++ (t ++ rest) ∧ Blanks g ∧ Spelled Gap End v t t := by
  induction n generalizing cs v rest with
  | zero => exact (fail_eq_ok.1 h).elim
  | succ n ih =>
    obtain ⟨c, u, hdrop, h⟩ := valueWithin_eq_ok.1 h
    obtain ⟨g, hg, hcs⟩ := split_blanks cs
    rw [hdrop] at hcs
    suffices htext : ∃ t, c :: u = t ++ rest ∧ Spelled Gap End v t t by
      obtain ⟨t, ht, hv⟩ := htext
      exact ⟨g, t, by rw [hcs, ht], hg, hv⟩
    unfold dispatch at h
    split at h
    · obtain ⟨s, _, hs, hpure⟩ := bind_eq_ok.1 h
      obtain ⟨rfl, rfl⟩ := pure_eq_ok.1 hpure
      obtain ⟨s, t, rfl, htext, ht⟩ := string_eq_ok.1 hs
      exact ⟨'"' :: (t ++ ['"']), by rw [htext]; simp, .string ht⟩
    · obtain ⟨_, _, hword, hpure⟩ := bind_eq_ok.1 h
      obtain ⟨rfl, rfl⟩ := pure_eq_ok.1 hpure
      exact ⟨_, word_eq_ok.1 hword, .trueWord⟩
    · obtain ⟨_, _, hword, hpure⟩ := bind_eq_ok.1 h
      obtain ⟨rfl, rfl⟩ := pure_eq_ok.1 hpure
      exact ⟨_, word_eq_ok.1 hword, .falseWord⟩
    · obtain ⟨_, _, hword, hpure⟩ := bind_eq_ok.1 h
      obtain ⟨rfl, rfl⟩ := pure_eq_ok.1 hpure
      exact ⟨_, word_eq_ok.1 hword, .nullWord⟩
    · obtain ⟨items, hitems, rfl⟩ := bracketed_eq_ok.1 h
      rcases series_of_separated (.inl rfl) hgap hend (fun cs a mid h => ih h) hitems with
        ⟨-, rfl, d, hd, rfl⟩ | ⟨vs, t, rfl, hseries, rfl⟩
      · exact ⟨'[' :: (d ++ [']']), by simp, .emptyArray (hgap d hd)⟩
      · exact ⟨'[' :: (t ++ [']']), by simp, by simpa using .array hseries⟩
    · obtain ⟨items, hitems, rfl⟩ := bracketed_eq_ok.1 h
      rcases series_of_separated (.inr rfl) hgap hend
          (fun cs a mid => member_of_memberWithin hgap fun cs v h => ih h) hitems with
        ⟨-, rfl, d, hd, rfl⟩ | ⟨ms, t, rfl, hseries, rfl⟩
      · exact ⟨'\x7b' :: (d ++ ['\x7d']), by simp, .emptyObject (hgap d hd)⟩
      · exact ⟨'\x7b' :: (t ++ ['\x7d']), by simp, by simpa using .object hseries⟩
    · obtain ⟨s, _, hs, hpure⟩ := bind_eq_ok.1 h
      obtain ⟨rfl, rfl⟩ := pure_eq_ok.1 hpure
      obtain ⟨n, t, rfl, htext, ht⟩ := numeral_of_number hs
      exact ⟨t, htext, .number ht⟩

end

end Reader

/-! ## Whole texts -/

theorem run_eq_ok {α : Type} {r : Reader α} {cs : List Char} {a : α} :
    Reader.run r cs = .ok a ↔ ∃ g, r cs = .ok (a, g) ∧ Blanks g := by
  unfold Reader.run Blanks
  show Except.bind (r cs) (fun p => if (p.2.dropWhile isSpace).isEmpty then Except.ok p.1
    else Except.error .malformed) = _ ↔ _
  cases r cs with
  | error e => simp [Except.bind]
  | ok p =>
    obtain ⟨b, g⟩ := p
    simp only [Except.bind, List.isEmpty_iff, List.dropWhile_eq_nil_iff]
    constructor
    · intro h
      split at h
      · cases h
        exact ⟨g, rfl, ‹_›⟩
      · cases h
    · rintro ⟨_, h, hg⟩
      cases h
      rw [if_pos hg]

variable {Gap End : List Char → List Char → Prop}

/-- A text of a value with white space around it is read as that value. -/
theorem parse_of_spelled (hgap : ∀ g d, Gap g d → Blanks g) (hend : ∀ g d, End g d → Blanks g)
    {v : Json} {g t s g' : List Char} (hg : Blanks g) (h : Spelled Gap End v t s)
    (hg' : Blanks g') : parse (g ++ (t ++ g')) = .ok v := by
  have hfollows : Follows g' := fun c hc => .inl (hg' c (List.mem_of_head? hc))
  have hread : value (g ++ (t ++ g')) = .ok (v, g') := by
    refine bind_eq_ok.2 ⟨_, _, get_eq_ok.2 ⟨rfl, rfl⟩, ?_⟩
    rw [← valueWithin_dropWhile, dropWhile_blanks hg, valueWithin_dropWhile]
    exact valueWithin_of_spelled hgap hend h (by simp; omega) hfollows
  exact run_eq_ok.2 ⟨g', hread, hg'⟩

/-- What is read as a value is a text of that value with white space around
it. -/
theorem spelled_of_parse (hgap : ∀ g, Blanks g → Gap g g) (hend : ∀ g, Blanks g → End g g)
    {cs : List Char} {v : Json} (h : parse cs = .ok v) :
    ∃ g t g', cs = g ++ (t ++ g') ∧ Blanks g ∧ Spelled Gap End v t t ∧ Blanks g' := by
  obtain ⟨g', hread, hg'⟩ := run_eq_ok.1 h
  unfold value at hread
  obtain ⟨_, _, hget, hread⟩ := bind_eq_ok.1 hread
  obtain ⟨rfl, rfl⟩ := get_eq_ok.1 hget
  obtain ⟨g, t, rfl, hg, hv⟩ := spelled_of_valueWithin hgap hend hread
  exact ⟨g, t, g', rfl, hg, hv, hg'⟩

end ScriptAnalysis.Json
