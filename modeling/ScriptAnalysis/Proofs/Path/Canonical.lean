import ScriptAnalysis.Path

/-!
# Normalized paths are left alone

A location is `Proper` when its names could be written down and read back:
no name is empty, a dot or holds a separator, and `..` stands only in front,
never below the root. Reading a path gives a proper location
(`locate_proper`), and writing a proper location and reading it again gives
it back (`locate_render`), so normalizing twice is normalizing once
(`normalize_normalize`).
-/
namespace ScriptAnalysis.Path

/-- The name of the directory above. -/
def up : List Char := ['.', '.']

/-- A name that stands for itself. -/
def IsName (n : List Char) : Prop :=
  n ≠ [] ∧ n ≠ ['.'] ∧ ∀ c ∈ n, isSeparator c = false

/-- Names, the last one first, of which only the first few lead up. -/
def Stack (rooted : Bool) (names : List (List Char)) : Prop :=
  (∀ n ∈ names, IsName n) ∧
    ∃ down k, names = down ++ List.replicate k up ∧ up ∉ down ∧ (rooted = true → k = 0)

/-- A location that can be written down and read back. -/
def Location.Proper (l : Location) : Prop := Stack l.rooted l.names.reverse

/-! ## Reading -/

theorem splitWhere_isName (p : Char → Bool) (cs : List Char) :
    ∀ n ∈ Text.splitWhere p cs, ∀ c ∈ n, p c = false := by
  induction cs with
  | nil => simp [Text.splitWhere]
  | cons c cs ih =>
    unfold Text.splitWhere
    split
    · intro n hn
      rcases List.mem_cons.1 hn with rfl | hn
      · simp
      · exact ih n hn
    · rename_i hc
      cases hs : Text.splitWhere p cs with
      | nil => intro n hn; simp at hn; subst hn; simpa using hc
      | cons w ws =>
        rw [hs] at ih
        intro n hn
        rcases List.mem_cons.1 hn with rfl | hn
        · intro d hd
          rcases List.mem_cons.1 hd with rfl | hd
          · simpa using hc
          · exact ih w List.mem_cons_self d hd
        · exact ih n (List.mem_cons_of_mem _ hn)

theorem isName_up : IsName up := by
  refine ⟨by decide, by decide, fun c hc => ?_⟩
  have hdot : c = '.' := by simpa [up] using hc
  subst hdot
  rfl

/-- One more `..`, where there is nothing to remove. -/
theorem Stack.push_up {k : Nat} (h : Stack false (List.replicate k up)) :
    Stack false (up :: List.replicate k up) := by
  refine ⟨fun n hn => ?_, [], k + 1, rfl, List.not_mem_nil, fun h => by cases h⟩
  rcases List.mem_cons.1 hn with rfl | hn
  · exact isName_up
  · exact h.1 n hn

/-- The step to the directory above. -/
theorem Stack.step_up {rooted : Bool} {names : List (List Char)} (h : Stack rooted names) :
    Stack rooted (step rooted names up) := by
  obtain ⟨hn, down, k, rfl, hdown, hk⟩ := h
  cases down with
  | cons last down =>
    have hlast : last ≠ ['.', '.'] := fun h => hdown (h ▸ List.mem_cons_self)
    show Stack rooted (if last = ['.', '.'] then _ else down ++ List.replicate k up)
    rw [if_neg hlast]
    exact ⟨fun n hmem => hn n (List.mem_cons_of_mem _ hmem), down, k, rfl,
      fun h => hdown (List.mem_cons_of_mem _ h), hk⟩
  | nil =>
    cases rooted with
    | true =>
      rw [hk rfl]
      exact ⟨fun n hmem => absurd hmem List.not_mem_nil, [], 0, rfl, List.not_mem_nil, fun _ => rfl⟩
    | false =>
      have hstack : Stack false (List.replicate k up) := ⟨hn, [], k, rfl, hdown, hk⟩
      cases k with
      | zero => exact hstack.push_up
      | succ k => exact hstack.push_up

theorem stack_step {rooted : Bool} {names : List (List Char)} (h : Stack rooted names)
    {segment : List Char} (hs : ∀ c ∈ segment, isSeparator c = false) :
    Stack rooted (step rooted names segment) := by
  by_cases hup : segment = up
  · rw [hup]
    exact h.step_up
  · unfold step
    split
    · exact h
    · rename_i hplain
      rw [not_or] at hplain
      rw [if_neg (show ¬ segment = ['.', '.'] from hup)]
      obtain ⟨hn, down, k, rfl, hdown, hk⟩ := h
      refine ⟨?_, segment :: down, k, rfl, ?_, hk⟩
      · intro n hmem
        rcases List.mem_cons.1 hmem with rfl | hmem
        · exact ⟨hplain.1, hplain.2, hs⟩
        · exact hn n hmem
      · intro hmem
        rcases List.mem_cons.1 hmem with h | h
        · exact hup h.symm
        · exact hdown h

theorem stack_foldl {rooted : Bool} (segments : List (List Char)) {names : List (List Char)}
    (h : Stack rooted names) (hs : ∀ s ∈ segments, ∀ c ∈ s, isSeparator c = false) :
    Stack rooted (segments.foldl (step rooted) names) := by
  induction segments generalizing names with
  | nil => exact h
  | cons s rest ih =>
    exact ih (stack_step h (hs s List.mem_cons_self)) fun t ht => hs t (List.mem_cons_of_mem _ ht)

/-- Every path is read as a proper location. -/
theorem locate_proper (path : List Char) : (locate path).Proper := by
  unfold Location.Proper locate
  rw [List.reverse_reverse]
  exact stack_foldl _ ⟨by simp, [], 0, by simp, by simp, by simp⟩ (splitWhere_isName _ _)

/-! ## Reading what was written -/

theorem splitWhere_of_none (p : Char → Bool) (n : List Char) (h : ∀ c ∈ n, p c = false) :
    Text.splitWhere p n = [n] := by
  induction n with
  | nil => rfl
  | cons c cs ih =>
    have hc := h c List.mem_cons_self
    have hcs := ih fun d hd => h d (List.mem_cons_of_mem _ hd)
    simp [Text.splitWhere, hc, hcs]

theorem splitWhere_append_cons (p : Char → Bool) (n : List Char) (h : ∀ c ∈ n, p c = false)
    {s : Char} (hs : p s = true) (rest : List Char) :
    Text.splitWhere p (n ++ s :: rest) = n :: Text.splitWhere p rest := by
  induction n with
  | nil => simp [Text.splitWhere, hs]
  | cons c cs ih =>
    have hc := h c List.mem_cons_self
    have hcs := ih fun d hd => h d (List.mem_cons_of_mem _ hd)
    simp [Text.splitWhere, hc, hcs]

/-- Names with slashes between them are cut into these names. -/
theorem splitWhere_intercalate (names : List (List Char)) (h : ∀ n ∈ names, IsName n)
    (hne : names ≠ []) :
    Text.splitWhere isSeparator (List.intercalate ['/'] names) = names := by
  induction names with
  | nil => exact absurd rfl hne
  | cons n rest ih =>
    have hn := (h n List.mem_cons_self).2.2
    cases rest with
    | nil => simpa using splitWhere_of_none _ n hn
    | cons m rest =>
      have hrest := ih (fun x hx => h x (List.mem_cons_of_mem _ hx)) (by simp)
      rw [List.intercalate_cons_cons, List.append_assoc, List.singleton_append,
        splitWhere_append_cons _ n hn (by decide), hrest]

/-- Following proper names reaches them. -/
theorem foldl_step_names {rooted : Bool} {names : List (List Char)}
    (h : Stack rooted names) : names.reverse.foldl (step rooted) [] = names := by
  obtain ⟨hn, down, k, rfl, hdown, hk⟩ := h
  have hups : (List.replicate k up).foldl (step rooted) [] = List.replicate k up := by
    cases rooted with
    | true => rw [hk rfl]; rfl
    | false =>
      clear hn hk
      induction k with
      | zero => rfl
      | succ k ih =>
        rw [List.replicate_succ', List.foldl_append, ih]
        cases k with
        | zero => rfl
        | succ k =>
          rw [← List.replicate_succ', List.replicate_succ]
          simp [step, up, List.replicate_succ]
  rw [List.reverse_append, List.reverse_replicate, List.foldl_append, hups]
  clear hups hk
  induction down with
  | nil => rfl
  | cons n down ih =>
    have hn' := hn n (by simp)
    have hup : n ≠ ['.', '.'] := fun h => hdown (h ▸ List.mem_cons_self)
    rw [List.reverse_cons, List.foldl_append,
      ih (fun x hx => hn x (by simp only [List.cons_append, List.mem_cons]; exact Or.inr hx))
        (fun h => hdown (List.mem_cons_of_mem _ h))]
    simp only [List.foldl_cons, List.foldl_nil, step, List.cons_append]
    rw [if_neg (not_or.2 ⟨hn'.1, hn'.2.1⟩), if_neg hup]

theorem head_intercalate {names : List (List Char)} (h : ∀ n ∈ names, IsName n) :
    (List.intercalate ['/'] names).head?.any isSeparator = false := by
  cases names with
  | nil => rfl
  | cons n rest =>
    obtain ⟨hne, -, hsep⟩ := h n List.mem_cons_self
    cases n with
    | nil => exact absurd rfl hne
    | cons c cs =>
      have hc := hsep c List.mem_cons_self
      cases rest <;> simp [List.intercalate_cons_cons, hc]

theorem intercalate_ne_nil {names : List (List Char)} (h : ∀ n ∈ names, IsName n)
    (hne : names ≠ []) : List.intercalate ['/'] names ≠ [] := by
  intro h0
  have := splitWhere_intercalate names h hne
  rw [h0] at this
  have hmem : [] ∈ names := by rw [← this]; simp [Text.splitWhere]
  exact (h _ hmem).1 rfl

/-- A proper location is read back from how it is written. -/
theorem locate_render {l : Location} (h : l.Proper) : locate l.render = l := by
  obtain ⟨rooted, names⟩ := l
  have hn : ∀ n ∈ names, IsName n := fun n hmem => h.1 n (List.mem_reverse.2 hmem)
  have hfold := foldl_step_names h
  rw [List.reverse_reverse] at hfold
  unfold Location.render
  dsimp only at hfold ⊢
  cases rooted with
  | true =>
    have hsep : isSeparator '/' = true := rfl
    simp only [if_true, locate, List.head?_cons, Option.any_some, hsep, Text.splitWhere,
      List.foldl_cons, step, true_or]
    cases names with
    | nil => rfl
    | cons n rest => rw [splitWhere_intercalate _ hn (by simp), hfold, List.reverse_reverse]
  | false =>
    simp only [Bool.false_eq_true, if_false]
    cases names with
    | nil => rfl
    | cons n rest =>
      rw [if_neg (intercalate_ne_nil hn (by simp))]
      simp only [locate, head_intercalate hn]
      rw [splitWhere_intercalate _ hn (by simp), hfold, List.reverse_reverse]

/-- A normalized path is its own normal form. -/
theorem normalize_normalize (path : String) : normalize (normalize path) = normalize path := by
  unfold normalize
  rw [String.toList_ofList, locate_render (locate_proper _)]

end ScriptAnalysis.Path
