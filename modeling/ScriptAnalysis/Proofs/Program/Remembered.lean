import ScriptAnalysis.Proofs.Program.Incremental

/-!
# What a program remembers of its last round

`look a parsed path` is what a walk finds at a path with the parses that it
remembers. Two walks find the same files if they look alike at the paths
where the first one finds something: what is remembered of other paths does
not matter.

**Results.**
* `gather_alike`: walks that look alike find the same files.
* `found_again`: a round that remembers the files of the round before finds
  them again, though one of them has a new version and is parsed again.
* `settle_found_anew`: a round that finds a file in a version that the
  program does not have checks the program anew, from what it has found.
-/
namespace ScriptAnalysis

/-! ## Looking at a path -/

namespace Program

/-- What a walk finds at a path: its version, and the parse that is
remembered for this version or else the parse of the text. -/
def look (a : Answers) (parsed : Table String ParsedFile) (path : String) :
    Option (String × SourceFile) :=
  (a.version path).bind fun version =>
    match (parsed.get? path).filter (·.version == version) with
    | some file => some (version, file.source)
    | none => (a.source? path).map (version, ·)

theorem look_of_none {a : Answers} {path : String} (h : a.version path = none)
    (parsed : Table String ParsedFile) : look a parsed path = none := by
  unfold look
  rw [h]
  rfl

theorem look_remembered {a : Answers} {parsed : Table String ParsedFile} {path version : String}
    {file : ParsedFile} (h : a.version path = some version)
    (hfile : (parsed.get? path).filter (·.version == version) = some file) :
    look a parsed path = some (version, file.source) := by
  unfold look
  rw [h, Option.bind_some, hfile]

theorem look_new {a : Answers} {parsed : Table String ParsedFile} {path version : String}
    (h : a.version path = some version)
    (hfile : (parsed.get? path).filter (·.version == version) = none) :
    look a parsed path = (a.source? path).map (version, ·) := by
  unfold look
  rw [h, Option.bind_some, hfile]

theorem version_of_look {a : Answers} {parsed : Table String ParsedFile} {path version : String}
    {source : SourceFile} (h : look a parsed path = some (version, source)) :
    a.version path = some version := by
  unfold look at h
  obtain ⟨v, hv, h⟩ := Option.bind_eq_some_iff.1 h
  rw [hv]
  split at h
  · cases h
    rfl
  · obtain ⟨_, _, heq⟩ := Option.map_eq_some_iff.1 h
    cases heq
    rfl

theorem look_congr (a : Answers) {parsed parsed' : Table String ParsedFile} {path : String}
    (h : parsed.get? path = parsed'.get? path) : look a parsed path = look a parsed' path := by
  unfold look
  rw [h]

/-- Where a walk finds nothing, one that remembers nothing finds nothing. -/
theorem look_forgotten {a : Answers} {parsed parsed' : Table String ParsedFile} {path : String}
    (h : look a parsed path = none) (hget : parsed'.get? path = none) :
    look a parsed' path = none := by
  cases hversion : a.version path with
  | none => exact look_of_none hversion parsed'
  | some version =>
    rw [look_new hversion (by rw [hget]; rfl)]
    cases hfile : (parsed.get? path).filter (·.version == version) with
    | some file =>
      rw [look_remembered hversion hfile] at h
      cases h
    | none => rwa [look_new hversion hfile] at h

/-- A visit finds what there is to see, and the next look at any path finds
the same as before. -/
theorem Visited.look {a : Answers} {g : Gathered} {path : String}
    {r : (List String × Gathered) × Unit} (hr : Visited a.host g path () r) :
    r.1.1 = (look a g.parsed path).elim [] (importsOf a.isThere (path :: g.seen) path ·.2) ∧
    r.1.2.seen = path :: g.seen ∧
    r.1.2.files = g.files ++ ((look a g.parsed path).map fun e => (⟨path, e.1⟩, e.2)).toList ∧
    ∀ q, Program.look a r.1.2.parsed q = Program.look a g.parsed q := by
  cases hr with
  | absent hversion =>
    rw [look_of_none hversion]
    exact ⟨rfl, rfl, (List.append_nil _).symm, fun _ => rfl⟩
  | remembered hversion hfile =>
    rw [look_remembered hversion hfile]
    exact ⟨rfl, rfl, rfl, fun _ => rfl⟩
  | unreadable hversion hfile htext =>
    have hsource : a.source? path = none := by
      unfold Answers.source?
      rw [show a.snapshot path = none from htext]
      rfl
    rw [look_new hversion hfile, hsource]
    exact ⟨rfl, rfl, (List.append_nil _).symm, fun _ => rfl⟩
  | @parsed version text hversion hfile htext =>
    have hsource : a.source? path = some (.parse path text) := by
      unfold Answers.source?
      rw [show a.snapshot path = some text from htext]
      rfl
    have hlook : Program.look a g.parsed path = some (version, .parse path text) := by
      rw [look_new hversion hfile, hsource]
      rfl
    rw [hlook]
    refine ⟨rfl, rfl, rfl, fun q => ?_⟩
    by_cases hq : path = q
    · subst hq
      rw [hlook]
      have hfile : ((g.parsed.insert path ⟨version, .parse path text⟩).get? path).filter
          (·.version == version) = some ⟨version, .parse path text⟩ := by
        rw [Table.get?_insert, if_pos rfl]
        simp
      exact look_remembered hversion hfile
    · refine look_congr a ?_
      rw [Table.get?_insert, if_neg hq]

/-- The same files with the same parses, whatever their versions are. -/
def SameSources (files files' : List (FileVersion × SourceFile)) : Prop :=
  files.map (fun e => (e.1.path, e.2)) = files'.map fun e => (e.1.path, e.2)

theorem SameSources.sources {files files' : List (FileVersion × SourceFile)}
    (h : SameSources files files') : files.map Prod.snd = files'.map Prod.snd := by
  have := congrArg (List.map Prod.snd) h
  rwa [List.map_map, List.map_map] at this

theorem SameSources.paths {files files' : List (FileVersion × SourceFile)}
    (h : SameSources files files') :
    files.map (fun e => e.1.path) = files'.map fun e => e.1.path := by
  have := congrArg (List.map Prod.fst) h
  rwa [List.map_map, List.map_map] at this

theorem mem_gather_files {a : Answers} (n : Nat) (queue : List String) (g : Gathered)
    {e : FileVersion × SourceFile} (he : e ∈ g.files) :
    e ∈ (gather a.host n queue g ()).1.files := by
  refine gather_invariant (I := fun g _ => e ∈ g.files) (fun g path s r _ hr he => ?_) n queue g ()
    he
  rw [hr.look.2.2.1]
  exact List.mem_append_left _ he

/-- Walks that look alike where the first one finds something find the same
files. -/
theorem gather_alike {a b : Answers} (hthere : a.isThere = b.isThere) (n : Nat)
    (queue : List String) {g g' : Gathered} (hseen : g.seen = g'.seen)
    (hfiles : SameSources g.files g'.files)
    (hnone : ∀ q, look a g.parsed q = none → look b g'.parsed q = none)
    (hsome : ∀ e ∈ (gather a.host n queue g ()).1.files,
      (look b g'.parsed e.1.path).map Prod.snd = (look a g.parsed e.1.path).map Prod.snd) :
    SameSources (gather a.host n queue g ()).1.files (gather b.host n queue g' ()).1.files := by
  induction n generalizing queue g g' with
  | zero => exact hfiles
  | succ n ih =>
    unfold gather at hsome ⊢
    rw [← hseen]
    cases hq : queue.dropWhile (g.seen.contains ·) with
    | nil => exact hfiles
    | cons path rest =>
      rw [hq] at hsome
      dsimp only at hsome ⊢
      rw [bind_unit] at hsome
      rw [bind_unit, bind_unit]
      obtain ⟨himports, hseen1, hfiles1, hlook1⟩ := (visit_cases a.host g path ()).look
      obtain ⟨himports', hseen2, hfiles2, hlook2⟩ := (visit_cases b.host g' path ()).look
      -- a path where the first walk finds something stays among its files
      have hfound : (look b g'.parsed path).map Prod.snd = (look a g.parsed path).map Prod.snd := by
        cases hp : look a g.parsed path with
        | none => rw [hnone path hp]
        | some e =>
          have hmem := hsome (⟨path, e.1⟩, e.2) (mem_gather_files _ _ _ (by
            rw [hfiles1, hp]
            exact List.mem_append_right _ (List.mem_singleton_self _)))
          rw [hp] at hmem
          exact hmem
      have hboth : (visit b.host g' path ()).1.1 = (visit a.host g path ()).1.1 ∧
          SameSources (visit a.host g path ()).1.2.files (visit b.host g' path ()).1.2.files := by
        rw [himports, himports', hfiles1, hfiles2, ← hthere, ← hseen]
        unfold SameSources at hfiles ⊢
        rw [List.map_append, List.map_append, hfiles]
        cases ha : look a g.parsed path with
        | none =>
          rw [hnone path ha]
          exact ⟨rfl, rfl⟩
        | some e =>
          rw [ha] at hfound
          obtain ⟨e', hb, hsource⟩ := Option.map_eq_some_iff.1 hfound
          rw [hb]
          simp [hsource]
      rw [hboth.1]
      refine ih _ (by rw [hseen1, hseen2, hseen]) hboth.2 (fun q hq => ?_) fun e he => ?_
      · rw [hlook2]
        rw [hlook1] at hq
        exact hnone q hq
      · rw [hlook1, hlook2]
        exact hsome e he

/-- After a walk every path looks as it did before, and the files are what
there was to see at their paths. -/
theorem gather_look (a : Answers) (n : Nat) (queue : List String)
    (parsed : Table String ParsedFile) :
    (∀ q, look a (gather a.host n queue ⟨[], [], parsed⟩ ()).1.parsed q = look a parsed q) ∧
    ∀ e ∈ (gather a.host n queue ⟨[], [], parsed⟩ ()).1.files,
      look a parsed e.1.path = some (e.1.version, e.2) := by
  refine gather_invariant (h := a.host) (I := fun g _ =>
    (∀ q, look a g.parsed q = look a parsed q) ∧
      ∀ e ∈ g.files, look a parsed e.1.path = some (e.1.version, e.2))
    (fun g path s r _ hr hi => ?_) n queue ⟨[], [], parsed⟩ ()
    ⟨fun _ => rfl, fun e he => by cases he⟩
  obtain ⟨hold, hfiles⟩ := hi
  obtain ⟨-, -, hnext, hlook⟩ := hr.look
  refine ⟨fun q => (hlook q).trans (hold q), fun e he => ?_⟩
  rw [hnext, List.mem_append] at he
  rcases he with he | he
  · exact hfiles e he
  · rw [Option.mem_toList, Option.map_eq_some_iff] at he
    obtain ⟨e', hfound, rfl⟩ := he
    rw [← hold]
    exact hfound

theorem look_unremembered {a : Answers} {parsed : Table String ParsedFile} {path version : String}
    (h : a.version path = some version)
    (hnew : ∀ f, parsed.get? path = some f → f.version ≠ version) :
    look a parsed path = (a.source? path).map (version, ·) := by
  refine look_new h ?_
  cases hget : parsed.get? path with
  | none => rfl
  | some f => simpa using hnew f hget

/-- A round that remembers the files of an earlier one finds the same files,
when the answers differ in nothing but a version of `path` and neither
round remembers the version that it is given. -/
theorem found_again {a b : Answers} {path version version' : String} (h : a.SameBut path b)
    (hversion : a.version path = some version) (hversion' : b.version path = some version')
    (parsed parsed' : Table String ParsedFile)
    (hkept : ∀ q, parsed'.get? q =
      if ((found a parsed).files.map Prod.fst).any (·.path == q)
      then (found a parsed).parsed.get? q else none)
    (hnew : ∀ f, parsed.get? path = some f → f.version ≠ version)
    (hnew' : ∀ f, parsed'.get? path = some f → f.version ≠ version') :
    SameSources (found a parsed).files (found b parsed').files := by
  have hsource : ∀ q, b.source? q = a.source? q := fun q => by
    unfold Answers.source?
    rw [h.snapshot]
  have hpath : look a parsed path = (a.source? path).map (version, ·) :=
    look_unremembered hversion hnew
  have hpath' : look b parsed' path = (a.source? path).map (version', ·) := by
    rw [look_unremembered hversion' hnew', hsource]
  -- off `path` the second walk knows the first one's parses, or nothing
  have hboth : ∀ q, q ≠ path → ∀ parsed, look b parsed q = look a parsed q := fun q hq parsed => by
    unfold look
    rw [hsource, h.version q hq]
  have hagain : ∀ q, q ≠ path → ((found a parsed).files.map Prod.fst).any (·.path == q) = true →
      look b parsed' q = look a parsed q := fun q hq hany => by
    have hget : parsed'.get? q = (found a parsed).parsed.get? q := by rw [hkept, hany, if_pos rfl]
    rw [hboth q hq, look_congr a hget]
    exact (gather_look a _ _ parsed).1 q
  unfold found
  rw [h.roots, h.fileBound]
  refine gather_alike h.isThere.symm _ _ rfl rfl (fun q hq => ?_) fun e he => ?_
  · by_cases hqp : q = path
    · subst hqp
      rw [hpath, Option.map_eq_none_iff] at hq
      rw [hpath', hq]
      rfl
    · cases hany : ((found a parsed).files.map Prod.fst).any (·.path == q) with
      | true => rw [hagain q hqp hany, hq]
      | false =>
        rw [hboth q hqp]
        exact look_forgotten hq (by rw [hkept, hany]; rfl)
  · by_cases hep : e.1.path = path
    · rw [hep, hpath, hpath', Option.map_map, Option.map_map]
      rfl
    · rw [hagain e.1.path hep]
      exact List.any_eq_true.2 ⟨e.1, List.mem_map_of_mem he, beq_self_eq_true _⟩

/-! ## Checking anew -/

/-- A walk that finds a file in a new version makes a program be checked
anew. -/
theorem settle_anew {p : Program} {g : Gathered} {e : FileVersion × SourceFile}
    (he : e ∈ g.files) (hnew : e.1 ∉ p.files) :
    (p.settle g).1 = true ∧ (p.settle g).2.checker =
      some (Checker.ofFiles (g.files.map Prod.snd) p.options.checking) := by
  have hne : g.files.map Prod.fst ≠ p.files := fun heq =>
    hnew (heq ▸ List.mem_map_of_mem he)
  unfold settle
  dsimp only
  rw [if_neg]
  · exact ⟨rfl, rfl⟩
  · simp [hne]

/-- A round that finds a path in a version that the program does not have
checks the program anew. -/
theorem settle_found_anew {a : Answers} {p : Program} {path w : String}
    (hw : a.version path = some w) (hnew : ∀ f ∈ p.files, f.path = path → f.version ≠ w)
    (hpath : path ∈ (found a p.parsed).files.map fun e => e.1.path) :
    (p.settle (found a p.parsed)).1 = true ∧ (p.settle (found a p.parsed)).2.checker =
      some (Checker.ofFiles ((found a p.parsed).files.map Prod.snd) p.options.checking) := by
  obtain ⟨e, he, rfl⟩ := List.mem_map.1 hpath
  have hversion := version_of_look ((gather_look a _ _ p.parsed).2 e he)
  rw [hw, Option.some.injEq] at hversion
  exact settle_anew he fun hmem => hnew e.1 hmem rfl hversion.symm

theorem checker_settle (p : Program) (g : Gathered) : (p.settle g).2.checker.isSome := by
  unfold settle
  dsimp only
  split
  · rename_i hsame
    exact (Bool.and_eq_true_iff.1 hsame).1
  · rfl

theorem options_settle (p : Program) (g : Gathered) : (p.settle g).2.options = p.options := by
  unfold settle
  dsimp only
  split <;> rfl

theorem Asked.options {p q : Program} (h : Asked p q) : q.options = p.options := by
  cases h with
  | diagnostics path =>
    unfold Program.diagnostics
    split
    · split <;> rfl
    · rfl
  | typeAt path node =>
    unfold Program.typeAt
    split <;> rfl
  | signatureOf path node =>
    unfold Program.signatureOf
    split <;> rfl

end Program

end ScriptAnalysis
