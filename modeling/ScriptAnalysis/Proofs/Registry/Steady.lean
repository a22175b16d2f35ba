import ScriptAnalysis.Proofs.Program.Walk
import ScriptAnalysis.Proofs.Registry.Versions

/-!
# What a registry answers

A registry changes when it is asked: a version is put on record, the text of
a library is kept. Here: its answers stay what they were, so a program is
brought up to date by a registry as by the answers that it starts with.

**Results.**
* `host_steady`: a registry answers a walk as it did before the walk.
* `SameBut.answers`: registries that differ in what is on record for a path
  answer alike, up to the version of that path. Requests for the path lead
  from one such registry to another (`SameBut.ensureTracked`,
  `SameBut.markAnalyzed`).
-/
namespace ScriptAnalysis

namespace FileSystem

/-- What can be read is a file with a time. -/
theorem isFile_of_read {fs : FileSystem} {path : String} {text : List Char}
    (h : fs.read path = .ok text) :
    fs.isFile path = true ∧ ∃ time, fs.modified path = .ok time := by
  unfold read at h
  unfold isFile modified
  cases hl : fs.lookup path with
  | error e => rw [hl] at h; cases h
  | ok e =>
    rw [hl] at h
    cases e with
    | directory time => cases h
    | file text time => exact ⟨rfl, time, rfl⟩

end FileSystem

namespace Registry

variable {fs : FileSystem} {r r' : Registry}

/-- The version of a file depends on what is on record for it, and on
whether it is kept. -/
theorem scriptVersion_congr {q : String}
    (hl : r'.libraries.contains q = r.libraries.contains q)
    (hv : r'.versions.get? q = r.versions.get? q) :
    (scriptVersion fs q r').1 = (scriptVersion fs q r).1 := by
  rw [scriptVersion_eq, scriptVersion_eq, hl]
  split
  · rw [hv]
  · rw [refresh_eq, refresh_eq, hv]
    cases fs.modified q <;> rfl

theorem snapshot_congr {q : String} (hl : r'.libraries.get? q = r.libraries.get? q) :
    (snapshot fs q r').1 = (snapshot fs q r).1 := by
  rw [snapshot_eq, snapshot_eq, hl]
  cases r.libraries.get? q with
  | some text => rfl
  | none => cases fs.read q <;> rfl

/-- A file whose version is not older than the file answers with it. -/
theorem scriptVersion_recorded {path : String} {time : Nat} {e : ScriptVersion}
    (ht : fs.modified path = .ok time) (he : r.versions.get? path = some e)
    (hle : time ≤ e.modified) : (scriptVersion fs path r).1 = some (toString e.version) := by
  rw [scriptVersion_eq]
  split
  · rw [he]; rfl
  · rw [refresh_eq, ht, he]
    simp [Nat.not_lt.2 hle]

/-- An answer puts a version on record that is not older than the file. -/
theorem scriptVersion_current {path : String} {time : Nat}
    (hk : r.libraries.contains path = false) (ht : fs.modified path = .ok time) :
    ∃ e, (scriptVersion fs path r).2.versions.get? path = some e ∧ time ≤ e.modified ∧
      (scriptVersion fs path r).1 = some (toString e.version) := by
  have hspec := scriptVersion_spec hk fs
  rw [ht] at hspec
  obtain ⟨e, hren, hspec⟩ := hspec
  rw [hspec]
  exact ⟨e, by rw [Table.get?_insert, if_pos rfl], hren.time_le, rfl⟩

theorem scriptVersion_frame (fs : FileSystem) (path : String) (r : Registry) :
    (scriptVersion fs path r).2.declarations = r.declarations ∧
    (scriptVersion fs path r).2.tracked = r.tracked ∧
    (scriptVersion fs path r).2.libraries = r.libraries := by
  rw [scriptVersion_eq]
  split
  · exact ⟨rfl, rfl, rfl⟩
  · rw [refresh_eq]
    cases fs.modified path <;> exact ⟨rfl, rfl, rfl⟩

/-- Registries with the same files that give the same versions answer every
question alike. -/
theorem answers_congr (hd : r'.declarations = r.declarations) (ht : r'.tracked = r.tracked)
    (hl : r'.libraries = r.libraries)
    (hv : ∀ q, (scriptVersion fs q r').1 = (scriptVersion fs q r).1) :
    (host fs).answers r' = (host fs).answers r := by
  have hversion : (fun q => (scriptVersion fs q r').1) = fun q => (scriptVersion fs q r).1 :=
    funext hv
  have hsnapshot : (fun q => (snapshot fs q r').1) = fun q => (snapshot fs q r).1 :=
    funext fun q => snapshot_congr (by rw [hl])
  unfold Host.answers host roots isThere
  dsimp only
  rw [hd, ht, hl, hversion, hsnapshot]

theorem answers_version (fs : FileSystem) (path : String) (r : Registry) :
    (host fs).answers (scriptVersion fs path r).2 = (host fs).answers r := by
  obtain ⟨hd, ht, hl⟩ := scriptVersion_frame fs path r
  refine answers_congr hd ht hl fun q => ?_
  by_cases hq : path = q
  · subst hq
    cases hk : r.libraries.contains path with
    | true =>
      obtain ⟨v, hv⟩ := scriptVersion_kept hk fs
      rw [show (scriptVersion fs path r).2 = r by rw [hv]]
    | false =>
      cases hm : fs.modified path with
      | error fault =>
        have hspec := scriptVersion_spec hk fs
        rw [hm] at hspec
        rw [show (scriptVersion fs path r).2 = r by rw [hspec]]
      | ok time =>
        obtain ⟨e, he, hle, hanswer⟩ := scriptVersion_current hk hm
        rw [scriptVersion_recorded hm he hle, hanswer]
  · exact scriptVersion_congr (by rw [hl]) (scriptVersion_other hq)

/-- A text of a library that is kept is the text of a file that is there, so
nothing but the next answer's source changes. -/
theorem answers_keep {path : String} {text : List Char} {time : Nat} {e : ScriptVersion}
    (hget : r.libraries.get? path = none) (hread : fs.read path = .ok text)
    (hm : fs.modified path = .ok time) (he : r.versions.get? path = some e)
    (hle : time ≤ e.modified) :
    (host fs).answers { r with libraries := r.libraries.insert path text } =
      (host fs).answers r := by
  have hfile := (FileSystem.isFile_of_read hread).1
  have hcontains : ∀ q, (r.libraries.insert path text).contains q =
      if path = q then true else r.libraries.contains q := fun q => by
    unfold Table.contains
    rw [Table.get?_insert]
    split <;> rfl
  have hversion : (fun q => (scriptVersion fs q
      { r with libraries := r.libraries.insert path text }).1) =
        fun q => (scriptVersion fs q r).1 := by
    funext q
    by_cases hq : path = q
    · subst hq
      refine Eq.trans ?_ (scriptVersion_recorded hm he hle).symm
      exact scriptVersion_recorded hm he hle
    · exact scriptVersion_congr (by rw [hcontains, if_neg hq]) rfl
  have hsnapshot : (fun q => (snapshot fs q
      { r with libraries := r.libraries.insert path text }).1) = fun q => (snapshot fs q r).1 := by
    funext q
    by_cases hq : path = q
    · subst hq
      rw [snapshot_eq, snapshot_eq, Table.get?_insert, if_pos rfl, hget, hread]
    · exact snapshot_congr (by rw [Table.get?_insert, if_neg hq])
  have hthere : isThere fs { r with libraries := r.libraries.insert path text } =
      isThere fs r := by
    funext q
    unfold isThere
    rw [hcontains]
    by_cases hq : path = q
    · subst hq
      rw [if_pos rfl, hfile, Bool.or_true, Bool.or_true]
    · rw [if_neg hq]
  have hbound : (r.libraries.insert path text).keys.filter (!fs.isFile ·) =
      r.libraries.keys.filter (!fs.isFile ·) := by
    rw [Table.keys_insert]
    split
    · rfl
    · rw [List.filter_append]
      simp [hfile]
  unfold Host.answers host roots
  dsimp only
  rw [hversion, hsnapshot, hthere, hbound]

/-- A registry answers a walk as it did before the walk. -/
theorem host_steady (fs : FileSystem) : (host fs).Steady := by
  intro r path
  have hversion := answers_version fs path r
  refine ⟨hversion, Eq.trans ?_ hversion⟩
  show (host fs).answers (snapshot fs path (scriptVersion fs path r).2).2 = _
  rw [snapshot_eq]
  cases hget : (scriptVersion fs path r).2.libraries.get? path with
  | some text => rfl
  | none =>
    dsimp only
    cases hread : fs.read path with
    | error e => rfl
    | ok text =>
      dsimp only
      split
      · obtain ⟨-, time, hm⟩ := FileSystem.isFile_of_read hread
        have hk : r.libraries.contains path = false := by
          rw [(scriptVersion_frame fs path r).2.2] at hget
          unfold Table.contains
          rw [hget]
          rfl
        obtain ⟨e, he, hle, -⟩ := scriptVersion_current hk hm
        exact answers_keep hget hread hm he hle
      · rfl

/-! ## Registries that differ in one file -/

/-- The registries differ in nothing but what is on record for a path. -/
structure SameBut (path : String) (r r' : Registry) : Prop where
  declarations : r'.declarations = r.declarations
  tracked : r'.tracked = r.tracked
  libraries : r'.libraries = r.libraries
  versions : ∀ q, q ≠ path → r'.versions.get? q = r.versions.get? q

section

variable {path : String} {r r' r'' : Registry}

theorem SameBut.refl (path : String) (r : Registry) : SameBut path r r :=
  ⟨rfl, rfl, rfl, fun _ _ => rfl⟩

theorem SameBut.trans (h : SameBut path r r') (h' : SameBut path r' r'') : SameBut path r r'' :=
  ⟨h'.declarations.trans h.declarations, h'.tracked.trans h.tracked,
    h'.libraries.trans h.libraries, fun q hq => (h'.versions q hq).trans (h.versions q hq)⟩

theorem SameBut.insert (r : Registry) (path : String) (v : ScriptVersion) :
    SameBut path r { r with versions := r.versions.insert path v } :=
  ⟨rfl, rfl, rfl, fun q hq => by rw [Table.get?_insert, if_neg (Ne.symm hq)]⟩

theorem SameBut.markAnalyzed (hn : Path.normalize path = path) (r : Registry) (time : Nat) :
    SameBut path r (r.markAnalyzed path time) := by
  unfold Registry.markAnalyzed
  rw [hn]
  dsimp only
  split
  · exact .insert r path _
  · exact .refl path r

/-- A file that is asked for again stays where it is among the files. -/
theorem SameBut.ensureTracked (hn : Path.normalize path = path) (ht : path ∈ r.tracked)
    (time : Nat) : SameBut path r (r.ensureTracked path time).2 := by
  unfold Registry.ensureTracked
  rw [hn]
  dsimp only
  rw [if_pos (List.contains_iff_mem.2 ht)]
  exact .insert r path _

theorem SameBut.answers (h : SameBut path r r') (fs : FileSystem) :
    ((host fs).answers r).SameBut path ((host fs).answers r') := by
  refine ⟨?_, ?_, ?_, ?_, fun q hq => ?_⟩
  · show r'.declarations ++ r'.tracked = r.declarations ++ r.tracked
    rw [h.declarations, h.tracked]
  · funext q
    show (snapshot fs q r').1 = (snapshot fs q r).1
    exact snapshot_congr (by rw [h.libraries])
  · funext q
    show (r'.libraries.contains q || _) = (r.libraries.contains q || _)
    rw [h.libraries]
  · show (r'.libraries.keys.filter (!fs.isFile ·)).length + _ = _
    rw [h.libraries]
    rfl
  · exact scriptVersion_congr (by rw [h.libraries]) (h.versions q hq)

end

end Registry

end ScriptAnalysis
