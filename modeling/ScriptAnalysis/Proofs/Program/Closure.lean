import Mathlib.Data.List.Nodup
import ScriptAnalysis.Proofs.Program.Remembered

/-!
# Which paths a walk goes to

What a walk finds at a path is settled before it starts (`look`), and so is
where it can go from there (`targets`). So the files that it has found are
what there is to see at the paths it has been to, in this order
(`Surveyed`).

**The bound.** A walk stops after a number of steps. Each step takes a path
that is new, so a walk through a finite stock of paths comes to its end when
the bound exceeds the number of these.

**Results.**
* `gather_surveyed`: the files of a walk, by the paths it has been to.
* `gather_takes`: a walk gets as far in its queue as its bound reaches.
* `gather_closed`: a walk whose bound exceeds its stock has been to its
  queue and to all targets of where it has been.
* `gather_within`: and nowhere that there is something to see but where
  targets lead.
-/
namespace ScriptAnalysis.Program

variable {a : Answers} {parsed : Table String ParsedFile} {g : Gathered}

/-- What a walk adds to its files at a path. -/
def sight (a : Answers) (parsed : Table String ParsedFile) (path : String) :
    Option (FileVersion × SourceFile) :=
  (look a parsed path).map fun e => (⟨path, e.1⟩, e.2)

/-- The paths that the imports of the file at a path mean. -/
def targets (a : Answers) (parsed : Table String ParsedFile) (path : String) : List String :=
  (look a parsed path).elim [] fun e => e.2.imports.filterMap (Path.resolveModule path · a.isThere)

/-- The walk has been to its paths once each, and its files are what there
was to see there. -/
structure Surveyed (a : Answers) (parsed : Table String ParsedFile) (g : Gathered) : Prop where
  looks : ∀ q, look a g.parsed q = look a parsed q
  files : g.files = g.seen.reverse.filterMap (sight a parsed)
  once : g.seen.Nodup

theorem surveyed_start (a : Answers) (parsed : Table String ParsedFile) :
    Surveyed a parsed ⟨[], [], parsed⟩ :=
  ⟨fun _ => rfl, rfl, List.nodup_nil⟩

/-- A visit of a new path. -/
theorem Surveyed.visit {path : String} (h : Surveyed a parsed g) (hp : path ∉ g.seen) :
    Surveyed a parsed (visit a.host g path ()).1.2 ∧
      (visit a.host g path ()).1.2.seen = path :: g.seen ∧
      (visit a.host g path ()).1.1 =
        (targets a parsed path).filter (!(path :: g.seen).contains ·) := by
  obtain ⟨himports, hseen, hfiles, hlook⟩ := (visit_cases a.host g path ()).look
  rw [h.looks] at himports hfiles
  refine ⟨⟨fun q => (hlook q).trans (h.looks q), ?_, ?_⟩, hseen, ?_⟩
  · rw [hfiles, hseen, h.files, List.reverse_cons, List.filterMap_append]
    show _ ++ (sight a parsed path).toList = _ ++ [path].filterMap (sight a parsed)
    cases hs : sight a parsed path <;> simp [hs]
  · rw [hseen]
    exact List.nodup_cons.2 ⟨hp, h.once⟩
  · rw [himports]
    unfold targets importsOf
    cases look a parsed path <;> rfl

/-- One step of a walk: it is over, or it goes on behind its next path. -/
theorem gather_step (a : Answers) (n : Nat) (queue : List String) (g : Gathered) :
    (∀ q ∈ queue, q ∈ g.seen) ∧ (gather a.host (n + 1) queue g ()).1 = g ∨
      ∃ front path rest, queue = front ++ path :: rest ∧ (∀ q ∈ front, q ∈ g.seen) ∧
        path ∉ g.seen ∧ (gather a.host (n + 1) queue g ()).1 =
          (gather a.host n (rest ++ (visit a.host g path ()).1.1)
            (visit a.host g path ()).1.2 ()).1 := by
  have hfront : ∀ q ∈ queue.takeWhile (g.seen.contains ·), q ∈ g.seen := fun q hq => by
    simpa using List.all_eq_true.1 List.all_takeWhile q hq
  have hqueue := List.takeWhile_append_dropWhile (p := (g.seen.contains ·)) (l := queue)
  rw [gather]
  cases hq : queue.dropWhile (g.seen.contains ·) with
  | nil =>
    rw [hq, List.append_nil] at hqueue
    exact .inl ⟨hqueue ▸ hfront, rfl⟩
  | cons path rest =>
    rw [hq] at hqueue
    exact .inr ⟨_, path, rest, hqueue.symm, hfront, not_seen_of_dropWhile hq, rfl⟩

theorem gather_surveyed (n : Nat) (queue : List String) (h : Surveyed a parsed g) :
    Surveyed a parsed (gather a.host n queue g ()).1 := by
  induction n generalizing queue g with
  | zero => exact h
  | succ n ih =>
    rcases gather_step a n queue g with ⟨-, heq⟩ | ⟨_, path, rest, -, -, hp, heq⟩ <;> rw [heq]
    · exact h
    · exact ih _ (h.visit hp).1

/-- A walk does not forget where it has been. -/
theorem gather_seen (n : Nat) (queue : List String) (h : Surveyed a parsed g) :
    g.seen ⊆ (gather a.host n queue g ()).1.seen := by
  induction n generalizing queue g with
  | zero => exact List.Subset.refl _
  | succ n ih =>
    rcases gather_step a n queue g with ⟨-, heq⟩ | ⟨_, path, rest, -, -, hp, heq⟩ <;> rw [heq]
    · exact List.Subset.refl _
    · obtain ⟨hnext, hseen, -⟩ := h.visit hp
      have hmore := ih (rest ++ (visit a.host g path ()).1.1) hnext
      rw [hseen] at hmore
      exact List.Subset.trans (List.subset_cons_self _ _) hmore

/-- Each step takes a path of the queue or more. -/
theorem gather_takes (n : Nat) (queue : List String) (h : Surveyed a parsed g) :
    ∀ q ∈ queue.take n, q ∈ (gather a.host n queue g ()).1.seen := by
  induction n generalizing queue g with
  | zero => exact fun q hq => by cases hq
  | succ n ih =>
    intro q hq
    rcases gather_step a n queue g with ⟨hall, heq⟩ | ⟨front, path, rest, rfl, hfront, hp, heq⟩ <;>
      rw [heq]
    · exact hall q (List.mem_of_mem_take hq)
    · obtain ⟨hnext, hseen, -⟩ := h.visit hp
      have hkept := gather_seen n (rest ++ (visit a.host g path ()).1.1) hnext
      rw [hseen] at hkept
      have hmem : q ∈ front ∨ q = path ∨ q ∈ rest.take n := by
        rw [List.take_append, List.mem_append] at hq
        refine hq.imp List.mem_of_mem_take fun hq => List.mem_cons.1 ?_
        rw [← List.take_succ_cons]
        exact (List.take_sublist_take_left (Nat.sub_le _ _)).subset hq
      rcases hmem with hq | rfl | hq
      · exact hkept (List.mem_cons_of_mem _ (hfront q hq))
      · exact hkept List.mem_cons_self
      · refine ih _ hnext q ?_
        rw [List.take_append]
        exact List.mem_append_left _ hq

/-! ## The end of a walk -/

/-- A path of the stock that is new is one less to come. -/
theorem length_unseen_lt {stock seen : List String} {path : String} (hs : path ∈ stock)
    (hp : path ∉ seen) :
    (stock.filter (· ∉ path :: seen)).length < (stock.filter (· ∉ seen)).length := by
  have hless : stock.filter (· ∉ path :: seen) = (stock.filter (· ∉ seen)).filter (· ≠ path) := by
    rw [List.filter_filter]
    exact List.filter_congr fun q _ => by simp [not_or]
  rw [hless]
  exact List.length_filter_lt_length_iff_exists.2
    ⟨path, List.mem_filter.2 ⟨hs, by simpa⟩, by simp⟩

/-- A walk that has a stock of paths to go to, and more steps than these,
has been to its queue and to all targets of where it has been. -/
theorem gather_closed (n : Nat) {queue stock : List String} (h : Surveyed a parsed g)
    (hqueue : ∀ q ∈ queue, q ∈ stock) (htargets : ∀ q, ∀ t ∈ targets a parsed q, t ∈ stock)
    (hbound : (stock.filter (· ∉ g.seen)).length < n)
    (hopen : ∀ q ∈ g.seen, ∀ t ∈ targets a parsed q, t ∈ g.seen ∨ t ∈ queue) :
    (∀ q ∈ queue, q ∈ (gather a.host n queue g ()).1.seen) ∧
      ∀ q ∈ (gather a.host n queue g ()).1.seen, ∀ t ∈ targets a parsed q,
        t ∈ (gather a.host n queue g ()).1.seen := by
  induction n generalizing queue g with
  | zero => exact absurd hbound (Nat.not_lt_zero _)
  | succ n ih =>
    rcases gather_step a n queue g with ⟨hall, heq⟩ | ⟨front, path, rest, rfl, hfront, hp, heq⟩ <;>
      rw [heq]
    · exact ⟨hall, fun q hq t ht => (hopen q hq t ht).elim id (hall t)⟩
    · obtain ⟨hnext, hseen, himports⟩ := h.visit hp
      have hkept := gather_seen n (rest ++ (visit a.host g path ()).1.1) hnext
      rw [hseen] at hkept
      have hpath : path ∈ stock := hqueue path (List.mem_append_right _ List.mem_cons_self)
      have hqueue' : ∀ q ∈ rest ++ (visit a.host g path ()).1.1, q ∈ stock := fun q hq => by
        rcases List.mem_append.1 hq with hq | hq
        · exact hqueue q (List.mem_append_right _ (List.mem_cons_of_mem _ hq))
        · rw [himports] at hq
          exact htargets path q (List.mem_filter.1 hq).1
      have hbound' : (stock.filter (· ∉ (visit a.host g path ()).1.2.seen)).length < n := by
        rw [hseen]
        exact Nat.lt_of_lt_of_le (length_unseen_lt hpath hp) (Nat.le_of_lt_succ hbound)
      have hnew : ∀ t ∈ targets a parsed path, t ∈ path :: g.seen ∨
          t ∈ (visit a.host g path ()).1.1 := fun t ht => by
        rw [himports, List.mem_filter]
        by_cases hts : t ∈ path :: g.seen
        · exact .inl hts
        · exact .inr ⟨ht, by simpa using hts⟩
      -- what was in the queue was taken now or is still there
      have hstill : ∀ t ∈ front ++ path :: rest, t ∈ path :: g.seen ∨
          t ∈ rest ++ (visit a.host g path ()).1.1 := fun t ht => by
        rcases List.mem_append.1 ht with ht | ht
        · exact .inl (List.mem_cons_of_mem _ (hfront t ht))
        · rcases List.mem_cons.1 ht with rfl | ht
          · exact .inl List.mem_cons_self
          · exact .inr (List.mem_append_left _ ht)
      obtain ⟨htaken, hclosed⟩ := ih hnext hqueue' hbound' fun q hq t ht => by
        rw [hseen] at hq ⊢
        rcases List.mem_cons.1 hq with rfl | hq
        · exact (hnew t ht).imp id (List.mem_append_right _)
        · exact (hopen q hq t ht).elim (fun hts => .inl (List.mem_cons_of_mem _ hts)) (hstill t)
      exact ⟨fun q hq => (hstill q hq).elim (hkept ·) (htaken q), hclosed⟩

/-- Where there is something to see, a walk only goes along targets: a set
that has what there is to see in the queue and is closed under targets has
all of it. -/
theorem gather_within {S : String → Prop} (n : Nat) {queue : List String}
    (h : Surveyed a parsed g) (hclosed : ∀ q, S q → ∀ t ∈ targets a parsed q, S t)
    (hqueue : ∀ q ∈ queue, (look a parsed q).isSome → S q)
    (hseen : ∀ q ∈ g.seen, (look a parsed q).isSome → S q) :
    ∀ q ∈ (gather a.host n queue g ()).1.seen, (look a parsed q).isSome → S q := by
  induction n generalizing queue g with
  | zero => exact hseen
  | succ n ih =>
    rcases gather_step a n queue g with ⟨-, heq⟩ | ⟨front, path, rest, rfl, -, hp, heq⟩ <;> rw [heq]
    · exact hseen
    · obtain ⟨hnext, hvisited, himports⟩ := h.visit hp
      have hpath := hqueue path (List.mem_append_right _ List.mem_cons_self)
      refine ih hnext (fun q hq hlook => ?_) fun q hq hlook => ?_
      · rcases List.mem_append.1 hq with hq | hq
        · exact hqueue q (List.mem_append_right _ (List.mem_cons_of_mem _ hq)) hlook
        · rw [himports] at hq
          have ht := (List.mem_filter.1 hq).1
          -- a path where there is nothing to see has no targets
          have hsome : (look a parsed path).isSome := by
            cases hl : look a parsed path with
            | some e => rfl
            | none =>
              rw [targets, hl] at ht
              cases ht
          exact hclosed path (hpath hsome) q ht
      · rw [hvisited] at hq
        rcases List.mem_cons.1 hq with rfl | hq
        · exact hpath hlook
        · exact hseen q hq hlook

/-! ## The files of a round -/

theorem found_surveyed (a : Answers) (parsed : Table String ParsedFile) :
    Surveyed a parsed (found a parsed) :=
  gather_surveyed _ _ (surveyed_start a parsed)

/-- The paths of the files of a walk are those where there was something to
see. -/
theorem Surveyed.paths (h : Surveyed a parsed g) :
    g.files.map (fun e => e.1.path) = g.seen.reverse.filter fun q => (look a parsed q).isSome := by
  rw [h.files, List.map_filterMap, ← List.filterMap_eq_filter]
  refine congrFun (congrArg List.filterMap (funext fun q => ?_)) _
  unfold sight
  cases hl : look a parsed q <;> simp [Option.guard, hl]

theorem Surveyed.mem_paths (h : Surveyed a parsed g) {path : String} :
    path ∈ g.files.map (fun e => e.1.path) ↔ path ∈ g.seen ∧ (look a parsed path).isSome := by
  rw [h.paths]
  simp

theorem Surveyed.nodup_paths (h : Surveyed a parsed g) :
    (g.files.map fun e => e.1.path).Nodup := by
  rw [h.paths]
  exact (List.nodup_reverse.2 h.once).filter _

/-- The files of a round are what there was to see at their paths. -/
theorem look_found {e : FileVersion × SourceFile} (he : e ∈ (found a parsed).files) :
    look a parsed e.1.path = some (e.1.version, e.2) :=
  (gather_look a _ _ parsed).2 e he

/-- A root where there is something to see is a file of the program. -/
theorem root_found {path : String} (hroot : path ∈ a.roots.map Path.normalize)
    (hlook : (look a parsed path).isSome) :
    path ∈ (found a parsed).files.map fun e => e.1.path := by
  refine (found_surveyed a parsed).mem_paths.2 ⟨?_, hlook⟩
  refine gather_takes _ _ (surveyed_start a parsed) path ?_
  rw [List.take_of_length_le (Nat.le_trans (Nat.le_add_right _ a.fileBound) (Nat.le_succ _))]
  exact hroot

end ScriptAnalysis.Program
