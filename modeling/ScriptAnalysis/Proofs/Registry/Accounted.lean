import ScriptAnalysis.Proofs.Program.Remembered
import ScriptAnalysis.Proofs.Registry.Steady

/-!
# Versions that are accounted for

A version that a registry gives is on record from then on, and what is on
record only grows. So every version that a program has of a file is at most
the one on record, and a version above that is new to the program.

**Invariant.** `Program.Accounted r p`: the versions that `p` has of its
files and parses were given by `r` (`Registry.Recorded`), and the checker of
`p` has the files of `p`. While a walk goes on, `Walked` says the same of
what it has found.

**Results.**
* `Visited.walked`, `Walked.settle`, `Accounted.synchronize`: the invariant
  through a round of synchronization.
* `Registry.version_ensureTracked`: a request gives its file a version that
  no program has that is accounted for.
-/
namespace ScriptAnalysis

/-! ## Versions on record -/

namespace Registry

/-- The version was given to the path: it is not greater than the one on
record. -/
def Recorded (r : Registry) (path version : String) : Prop :=
  ∃ n e, version = toString n ∧ r.versions.get? path = some e ∧ n ≤ e.version

/-- Files that are kept have versions. -/
def Dated (r : Registry) : Prop :=
  ∀ path, r.libraries.contains path = true → ∃ e, r.versions.get? path = some e

theorem Recorded.grows {r r' : Registry} {path version : String} (h : r.Recorded path version)
    (hg : Grows r r') : r'.Recorded path version := by
  obtain ⟨n, e, hv, he, hle⟩ := h
  obtain ⟨e', he', hle'⟩ := hg path e he
  exact ⟨n, e', hv, he', Nat.le_trans hle hle'⟩

theorem Dated.grows {r r' : Registry} (h : r.Dated) (hg : Grows r r')
    (hl : r'.libraries = r.libraries) : r'.Dated := by
  intro path hc
  rw [hl] at hc
  obtain ⟨e, he⟩ := h path hc
  obtain ⟨e', he', -⟩ := hg path e he
  exact ⟨e', he'⟩

section

variable {fs : FileSystem} {r : Registry} {path : String}

theorem Dated.version (h : r.Dated) (fs : FileSystem) (path : String) :
    (scriptVersion fs path r).2.Dated :=
  h.grows (scriptVersion_grows fs path) (scriptVersion_frame fs path r).2.2

/-- A version that is given is on record from then on. -/
theorem recorded_answer (h : r.Dated) {version : String}
    (hv : (scriptVersion fs path r).1 = some version) :
    (scriptVersion fs path r).2.Recorded path version := by
  cases hk : r.libraries.contains path with
  | true =>
    obtain ⟨e, he⟩ := h path hk
    rw [scriptVersion_eq, hk, if_pos rfl, he] at hv ⊢
    cases hv
    exact ⟨e.version, e, rfl, he, Nat.le_refl _⟩
  | false =>
    cases hm : fs.modified path with
    | error fault =>
      have hspec := scriptVersion_spec hk fs
      rw [hm] at hspec
      rw [hspec] at hv
      cases hv
    | ok time =>
      obtain ⟨e, he, -, hanswer⟩ := scriptVersion_current hk hm
      rw [hanswer, Option.some.injEq] at hv
      exact ⟨e.version, e, hv.symm, he, Nat.le_refl _⟩

theorem snapshot_grows (fs : FileSystem) (path : String) : Grows r (snapshot fs path r).2 := by
  intro q e he
  exact ⟨e, by rw [snapshot_versions]; exact he, Nat.le_refl _⟩

theorem Dated.snapshot {version : String} (h : r.Dated) (hv : r.Recorded path version)
    (fs : FileSystem) : (Registry.snapshot fs path r).2.Dated := by
  intro q hq
  rw [snapshot_versions]
  by_cases hpq : path = q
  · subst hpq
    obtain ⟨-, e, -, he, -⟩ := hv
    exact ⟨e, he⟩
  · refine h q ?_
    rcases snapshot_spec r path fs with ⟨_, _, hs⟩ | ⟨_, hs⟩ | ⟨_, _, hs⟩ <;> rw [hs] at hq
    · exact hq
    · exact hq
    · split at hq
      · rw [Table.contains, Table.get?_insert, if_neg hpq] at hq
        exact hq
      · exact hq

theorem mem_tracked_ensureTracked (hn : Path.normalize path = path) (time : Nat) :
    path ∈ (r.ensureTracked path time).2.tracked := by
  unfold Registry.ensureTracked
  rw [hn]
  dsimp only
  split
  · rename_i hc
    exact List.contains_iff_mem.1 hc
  · exact List.mem_append_right _ (List.mem_singleton_self _)

/-- A round of synchronization takes up no file. -/
theorem tracked_synchronize (fs : FileSystem) (p : Program) (r : Registry) :
    (p.synchronize (host fs) r).2.tracked = r.tracked := by
  refine Program.synchronize_preserves (I := fun s : Registry => s.tracked = r.tracked)
    (fun s path hs => ?_) (fun s path hs => ?_) p rfl
  · exact (scriptVersion_frame fs path s).2.1.trans hs
  · refine Eq.trans ?_ hs
    show (snapshot fs path s).2.tracked = s.tracked
    rcases snapshot_spec s path fs with ⟨_, _, h⟩ | ⟨_, h⟩ | ⟨_, _, h⟩ <;> rw [h]
    split <;> rfl

/-- A file that is asked for has a version, and none that it had before. -/
theorem version_ensureTracked (hn : Path.normalize path = path) {time : Nat}
    (hm : fs.modified path = .ok time) :
    ∃ w, ((host fs).answers (r.ensureTracked path time).2).version path = some w ∧
      ∀ v, r.Recorded path v → v ≠ w := by
  have hget : (r.ensureTracked path time).2.versions.get? path =
      some (r.nextVersion path time) := by
    rw [ensureTracked_versions hn, Table.get?_insert, if_pos rfl]
  have hanswer : ∃ m, (scriptVersion fs path (r.ensureTracked path time).2).1 =
      some (toString m) ∧ (r.nextVersion path time).version ≤ m := by
    cases hk : (r.ensureTracked path time).2.libraries.contains path with
    | true =>
      rw [scriptVersion_eq, if_pos hk, hget]
      exact ⟨_, rfl, Nat.le_refl _⟩
    | false =>
      have hspec := scriptVersion_spec hk fs
      rw [hm] at hspec
      obtain ⟨e, hren, hspec⟩ := hspec
      rw [hget] at hren
      exact ⟨e.version, by rw [hspec], hren.version_le⟩
  obtain ⟨m, hm, hle⟩ := hanswer
  refine ⟨toString m, hm, ?_⟩
  rintro v ⟨n, e, rfl, he, hne⟩ heq
  have hnm := toString_inj heq
  have hnext : (r.nextVersion path time).version = e.version + 1 := nextVersion_version he
  omega

end

end Registry

/-! ## Programs that are accounted for -/

namespace Program

open Registry

/-- What a walk with a registry has found: parses under their own paths, in
versions that were given. -/
structure Walked (g : Gathered) (r : Registry) : Prop where
  dated : r.Dated
  parsed : ∀ path f, g.parsed.get? path = some f → r.Recorded path f.version ∧ f.source.name = path
  files : ∀ e ∈ g.files, r.Recorded e.1.path e.1.version ∧ e.2.name = e.1.path

section

variable {fs : FileSystem} {g : Gathered} {r : Registry} {path v : String}

theorem Walked.grows {r' : Registry} (h : Walked g r) (hd : r'.Dated) (hg : Grows r r') :
    Walked g r' where
  dated := hd
  parsed q f hf := (h.parsed q f hf).imp (·.grows hg) id
  files e he := (h.files e he).imp (·.grows hg) id

theorem Walked.version (h : Walked g r) (fs : FileSystem) (path : String) :
    Walked g (scriptVersion fs path r).2 :=
  h.grows (h.dated.version fs path) (scriptVersion_grows fs path)

theorem Walked.snapshot (h : Walked g r) (hv : r.Recorded path v) (fs : FileSystem) :
    Walked g (Registry.snapshot fs path r).2 :=
  h.grows (h.dated.snapshot hv fs) (snapshot_grows fs path)

/-- A file that is found in a version that was given. -/
theorem Walked.found {source : SourceFile} (h : Walked g r) (hv : r.Recorded path v)
    (hname : source.name = path) (seen : List String) :
    Walked ⟨seen, g.files ++ [(⟨path, v⟩, source)], g.parsed⟩ r where
  dated := h.dated
  parsed := h.parsed
  files e he := by
    rcases List.mem_append.1 he with he | he
    · exact h.files e he
    · rw [List.mem_singleton] at he
      subst he
      exact ⟨hv, hname⟩

theorem Walked.remember {source : SourceFile} (h : Walked g r) (hv : r.Recorded path v)
    (hname : source.name = path) :
    Walked { g with parsed := g.parsed.insert path ⟨v, source⟩ } r where
  dated := h.dated
  parsed q f hf := by
    rw [Table.get?_insert] at hf
    by_cases hq : path = q
    · subst hq
      rw [if_pos rfl] at hf
      cases hf
      exact ⟨hv, hname⟩
    · rw [if_neg hq] at hf
      exact h.parsed q f hf
  files := h.files

/-- A visit leaves what was found accounted for. -/
theorem Visited.walked {res : (List String × Gathered) × Registry}
    (hr : Visited (Registry.host fs) g path r res) (h : Walked g r) : Walked res.1.2 res.2 := by
  have hnext := h.version fs path
  cases hr with
  | absent hversion => exact ⟨hnext.dated, hnext.parsed, hnext.files⟩
  | remembered hversion hfile =>
    obtain ⟨hget, -⟩ := Option.filter_eq_some_iff.1 hfile
    exact hnext.found (recorded_answer h.dated hversion) (h.parsed _ _ hget).2 _
  | unreadable hversion hfile htext =>
    have hread := hnext.snapshot (recorded_answer h.dated hversion) fs
    exact ⟨hread.dated, hread.parsed, hread.files⟩
  | parsed hversion hfile htext =>
    have hv := recorded_answer h.dated hversion
    have hv' := hv.grows (snapshot_grows fs path)
    exact ((hnext.snapshot hv fs).remember hv' (SourceFile.name_parse ..)).found hv'
      (SourceFile.name_parse ..) _

end

/-- A program whose files and parses have versions that the registry gave,
and whose checker has the files of the program. -/
structure Accounted (r : Registry) (p : Program) : Prop where
  dated : r.Dated
  parsed : ∀ path f, p.parsed.get? path = some f → r.Recorded path f.version ∧ f.source.name = path
  files : ∀ f ∈ p.files, r.Recorded f.path f.version
  names : ∀ k, p.checker = some k →
    k.files.toList.map SourceFile.name = p.files.map FileVersion.path

section

variable {fs : FileSystem} {r : Registry} {p : Program}

theorem Accounted.grows {r' : Registry} (h : Accounted r p) (hg : Grows r r')
    (hl : r'.libraries = r.libraries) : Accounted r' p where
  dated := h.dated.grows hg hl
  parsed path f hf := (h.parsed path f hf).imp (·.grows hg) id
  files f hf := (h.files f hf).grows hg
  names := h.names

theorem Accounted.asked {q : Program} (hq : Asked p q) (h : Accounted r p) : Accounted r q := by
  obtain ⟨hfiles, hparsed, hk⟩ := hq.same
  refine ⟨h.dated, by rw [hparsed]; exact h.parsed, by rw [hfiles]; exact h.files, fun l hl => ?_⟩
  rw [hl, Option.map_some] at hk
  obtain ⟨k, hpk, hkl⟩ := Option.map_eq_some_iff.1 hk.symm
  rw [← hkl, hfiles]
  exact h.names k hpk

theorem Walked.settle {g : Gathered} (hg : Walked g r) (hnames : ∀ k, p.checker = some k →
      k.files.toList.map SourceFile.name = p.files.map FileVersion.path) :
    Accounted r (p.settle g).2 where
  dated := hg.dated
  parsed path f hf := by
    rw [parsed_settle] at hf
    split at hf
    · exact hg.parsed path f hf
    · cases hf
  files f hf := by
    rw [files_settle] at hf
    obtain ⟨e, he, rfl⟩ := List.mem_map.1 hf
    exact (hg.files e he).1
  names k hk := by
    unfold Program.settle at hk ⊢
    dsimp only at hk ⊢
    split
    · rename_i hsame
      rw [if_pos hsame] at hk
      exact hnames k hk
    · rename_i hnew
      rw [if_neg hnew] at hk
      cases hk
      simp only [Checker.ofFiles, List.toList_toArray, List.map_map]
      exact List.map_congr_left fun e he => (hg.files e he).2

end

/-- A round of synchronization against a registry decides by the answers of
the registry at its start, and does not change them. -/
theorem synchronize_registry (fs : FileSystem) (p : Program) (r : Registry) :
    (p.synchronize (Registry.host fs) r).1 =
        p.settle (found ((Registry.host fs).answers r) p.parsed) ∧
      (Registry.host fs).answers (p.synchronize (Registry.host fs) r).2 =
        (Registry.host fs).answers r := by
  obtain ⟨hfound, hsame⟩ := synchronize_steady (host_steady fs) p r
  refine ⟨hfound.trans ?_, hsame⟩
  rw [synchronize_eq]
  rfl

theorem Accounted.synchronize {r : Registry} {p : Program} (h : Accounted r p)
    (fs : FileSystem) : Accounted (p.synchronize (Registry.host fs) r).2
      (p.synchronize (Registry.host fs) r).1.2 := by
  have hwalk := gather_invariant (h := Registry.host fs) (fun g path s res _ hr hg => hr.walked hg)
    ((r.roots.map Path.normalize).length + (Registry.host fs).fileBound r + 1)
    (r.roots.map Path.normalize) ⟨[], [], p.parsed⟩ r
    ⟨h.dated, h.parsed, fun e he => by cases he⟩
  rw [synchronize_eq]
  exact hwalk.settle h.names

/-- Only the files of a program have a source. -/
theorem Accounted.sourceFile?_none {r : Registry} {p : Program} {path : String}
    (h : Accounted r p) (hn : Path.normalize path = path)
    (hpath : path ∉ p.files.map FileVersion.path) : p.sourceFile? path = none := by
  unfold sourceFile? find?
  cases hk : p.checker with
  | none => rfl
  | some k =>
    have hnone : k.fileId? path = none := by
      unfold Checker.fileId? Binding.lastIndex?
      rw [h.names k hk, List.findIdx?_eq_none_iff.2]
      intro name hname
      rw [List.mem_reverse] at hname
      exact beq_false_of_ne fun heq => hpath (heq ▸ hname)
    simp [hn, hnone]

theorem lastIndex?_of_mem {names : List String} {name : String} (h : name ∈ names) :
    ∃ i, Binding.lastIndex? names name = some i ∧ names[i]? = some name := by
  unfold Binding.lastIndex?
  cases hfind : names.reverse.findIdx? (· == name) with
  | none =>
    have hnone := List.findIdx?_eq_none_iff.1 hfind name (List.mem_reverse.2 h)
    simp at hnone
  | some i =>
    obtain ⟨hi, hname, -⟩ := List.findIdx?_eq_some_iff_getElem.1 hfind
    rw [List.getElem_reverse, beq_iff_eq] at hname
    exact ⟨_, rfl, List.getElem?_eq_some_iff.2 ⟨_, hname⟩⟩

/-- Every file of a checked program has a source. -/
theorem Accounted.sourceFile?_some {r : Registry} {p : Program} {path : String}
    (h : Accounted r p) (hn : Path.normalize path = path) (hchecked : p.checker.isSome)
    (hpath : path ∈ p.files.map FileVersion.path) :
    ∃ source, p.sourceFile? path = some source ∧ source.name = path := by
  obtain ⟨k, hk⟩ := Option.isSome_iff_exists.1 hchecked
  rw [← h.names k hk] at hpath
  obtain ⟨i, hi, hname⟩ := lastIndex?_of_mem hpath
  rw [List.getElem?_map, Option.map_eq_some_iff] at hname
  obtain ⟨source, hsource, hname⟩ := hname
  refine ⟨source, ?_, hname⟩
  unfold sourceFile? find? Checker.fileId?
  rw [hk, hn]
  show (Binding.lastIndex? _ path).bind _ >>= _ = _
  rw [hi]
  simpa using hsource

end Program

end ScriptAnalysis
