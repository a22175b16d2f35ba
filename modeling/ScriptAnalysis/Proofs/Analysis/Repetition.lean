import ScriptAnalysis.Proofs.Analysis.Frontends
import ScriptAnalysis.Proofs.Registry.Accounted

/-!
# A request that is repeated

A request raises the version of its file, so the second of two equal
requests parses the file again and has the program checked anew, from a
registry that knows more files and keeps more texts than the first one
found. Here: none of that can be seen in the response.

**A request** takes its file up and brings the program up to date
(`Analyzer.refreshed`), and then reports the file. Versions stay accounted
for (`Analyzer.accounted_analyze`); the next request finds the memory of the
first one, and a registry that differs in the version of the file only
(`Analyzer.analyze_leaves`).

**Results.**
* `Session.run_accounted`: the invariant holds after every run.
* `Analyzer.refreshed_again`: the second request finds the same files with
  the same parses in the same order, and makes the same checker of them.
* `Session.response_again`: the response is the same, answer or error, while
  the version has grown and the program has been checked anew.
-/
namespace ScriptAnalysis

/-! ## Requests -/

namespace Analyzer

open Program Registry

/-- Takes a file up and brings the program up to date; says whether it had
to be checked anew. -/
def refreshed (fs : FileSystem) (path : String) (time : Nat) (a : Analyzer Program) :
    Bool × Analyzer Program :=
  let synced := a.frontend.synchronize (Registry.host fs) (a.registry.ensureTracked path time).2
  (synced.1.1, { a with registry := synced.2, frontend := synced.1.2 })

/-- Whether a request has the program checked anew. -/
def checksAnew (fs : FileSystem) (file : String) (a : Analyzer Program) : Bool :=
  match Registry.modified fs (a.resolvePath file) with
  | .error _ => false
  | .ok time => (a.refreshed fs (a.resolvePath file) time).1

/-- A file that is there is taken up and then reported. -/
theorem analyze_ok {fs : FileSystem} {file : String} {a : Analyzer Program} {time : Nat}
    (hm : Registry.modified fs (a.resolvePath file) = .ok time) :
    analyze Program.frontend fs file a = report Program.frontend (a.resolvePath file) time
      (a.refreshed fs (a.resolvePath file) time).2 := by
  rw [analyze_eq, hm]
  rfl

/-- Behind the round of synchronization the frontend is only asked, and the
settings stay. -/
theorem report_keeps {I : Program → Prop} (h : ∀ p q, Asked p q → I p → I q) (path : String)
    (time : Nat) {a : Analyzer Program} (hi : I a.frontend) :
    I (report Program.frontend path time a).2.frontend ∧
      (report Program.frontend path time a).2.rootType = a.rootType ∧
      (report Program.frontend path time a).2.projectDir = a.projectDir := by
  obtain ⟨-, hsame, hroot, hdir⟩ := report_together (frontend_respects_asked h) path time a a
    ⟨⟨rfl, hi⟩, ⟨rfl, rfl⟩, rfl, rfl⟩
  exact ⟨hsame.2, hroot.1, hdir.1⟩

theorem accounted_report {a : Analyzer Program} {path : String}
    (hn : Path.normalize path = path) (time : Nat) (h : Accounted a.registry a.frontend) :
    Accounted (report Program.frontend path time a).2.registry
      (report Program.frontend path time a).2.frontend := by
  have hasked := (report_keeps (fun p q hq hp => Accounted.asked hq hp) path time h).1
  rcases report_registry Program.frontend path time a with hr | hr
  · rw [hr]
    exact hasked
  · rw [hr]
    exact hasked.grows (markAnalyzed_grows path time) (SameBut.markAnalyzed hn _ time).libraries

theorem accounted_refreshed {a : Analyzer Program} {path : String}
    (hn : Path.normalize path = path) (fs : FileSystem) (time : Nat)
    (h : Accounted a.registry a.frontend) :
    Accounted (a.refreshed fs path time).2.registry (a.refreshed fs path time).2.frontend :=
  (h.grows (ensureTracked_grows hn time) rfl).synchronize fs

/-- A request leaves all versions accounted for. -/
theorem accounted_analyze {a : Analyzer Program} (h : Accounted a.registry a.frontend)
    (fs : FileSystem) (file : String) :
    Accounted (analyze Program.frontend fs file a).2.registry
      (analyze Program.frontend fs file a).2.frontend := by
  have hn := a.normalize_resolvePath file
  cases hm : Registry.modified fs (a.resolvePath file) with
  | error e =>
    rw [analyze_eq, hm]
    exact h
  | ok time =>
    rw [analyze_ok hm]
    exact accounted_report hn time (accounted_refreshed hn fs time h)

theorem report_noSource {φ : Type} {F : Frontend φ} {path : String} {a : Analyzer φ}
    (h : F.source? a.frontend path = none) (time : Nat) :
    (report F path time a).1 = .error (.noSource path) := by
  unfold report
  rw [step_get, h]
  rfl

section

variable {fs : FileSystem} {file path : String} {a b : Analyzer Program} {time : Nat}

theorem refreshed_eq (fs : FileSystem) (path : String) (time : Nat) (a : Analyzer Program) :
    (a.refreshed fs path time).1 = (a.frontend.settle (found ((host fs).answers
      (a.registry.ensureTracked path time).2) a.frontend.parsed)).1 ∧
    (a.refreshed fs path time).2.frontend = (a.frontend.settle (found ((host fs).answers
      (a.registry.ensureTracked path time).2) a.frontend.parsed)).2 ∧
    (host fs).answers (a.refreshed fs path time).2.registry =
      (host fs).answers (a.registry.ensureTracked path time).2 := by
  obtain ⟨hsettle, hsteady⟩ := synchronize_registry fs a.frontend
    (a.registry.ensureTracked path time).2
  exact ⟨congrArg Prod.fst hsettle, congrArg Prod.snd hsettle, hsteady⟩

/-- An analyzer that has learned nothing but what its last request for the
path has taught it is asked for the path again: the path has no source
before and after, or the program is checked anew and looks the same. -/
theorem refreshed_again (hn : Path.normalize path = path) (hm : fs.modified path = .ok time)
    (ha : Accounted a.registry a.frontend) (hb : Accounted b.registry b.frontend)
    (hparsed : b.frontend.parsed = (a.refreshed fs path time).2.frontend.parsed)
    (hoptions : b.frontend.options = a.frontend.options)
    (hregistry : SameBut path (a.refreshed fs path time).2.registry b.registry) :
    ((a.refreshed fs path time).2.frontend.sourceFile? path = none ∧
      (b.refreshed fs path time).2.frontend.sourceFile? path = none) ∨
    ((b.refreshed fs path time).1 = true ∧
      SameView (a.refreshed fs path time).2.frontend (b.refreshed fs path time).2.frontend) := by
  have hacc := accounted_refreshed hn fs time ha
  have hacc' := accounted_refreshed hn fs time hb
  obtain ⟨-, hfirst, hsteady⟩ := refreshed_eq fs path time a
  obtain ⟨hanew, hsecond, -⟩ := refreshed_eq fs path time b
  -- the answers of the registries differ in the version of `path` only
  have htracked : path ∈ b.registry.tracked := by
    rw [hregistry.tracked]
    exact (tracked_synchronize fs a.frontend _).symm ▸ mem_tracked_ensureTracked hn time
  have hanswers := (hregistry.trans (.ensureTracked hn htracked time)).answers fs
  rw [hsteady] at hanswers
  obtain ⟨w, hw, hnew⟩ := version_ensureTracked (r := a.registry) hn hm
  obtain ⟨w', hw', hnew'⟩ := version_ensureTracked (r := b.registry) hn hm
  rw [hfirst] at hparsed hacc ⊢
  rw [hanew, hsecond]
  rw [hsecond] at hacc'
  generalize (host fs).answers (a.registry.ensureTracked path time).2 = x at *
  generalize (host fs).answers (b.registry.ensureTracked path time).2 = y at *
  have hsources : SameSources (found x a.frontend.parsed).files
      (found y b.frontend.parsed).files := by
    refine found_again hanswers hw hw' _ _ (fun q => ?_)
      (fun f hf => hnew _ (ha.parsed _ f hf).1) fun f hf => hnew' _ (hb.parsed _ f hf).1
    rw [hparsed, parsed_settle]
  by_cases hpath : path ∈ (found x a.frontend.parsed).files.map fun e => e.1.path
  · right
    have hpath' := hsources.paths ▸ hpath
    obtain ⟨-, hk⟩ := settle_found_anew hw
      (fun f hf hp => hnew _ (hp ▸ ha.files f hf)) hpath
    obtain ⟨htrue, hk'⟩ := settle_found_anew hw'
      (fun f hf hp => hnew' _ (hp ▸ hb.files f hf)) hpath'
    refine ⟨htrue, .of_checker ?_ ?_⟩
    · rw [hk, hk', hoptions, hsources.sources]
    · rw [options_settle, options_settle, hoptions]
  · left
    have hpath' := hsources.paths ▸ hpath
    refine ⟨hacc.sourceFile?_none hn ?_, hacc'.sourceFile?_none hn ?_⟩
    · rw [files_settle, List.map_map]
      exact hpath
    · rw [files_settle, List.map_map]
      exact hpath'

/-- What a request leaves to the next one. -/
theorem analyze_leaves (hm : Registry.modified fs (a.resolvePath file) = .ok time) :
    Related (fun p q => p.options = q.options) a.rootType a.projectDir a
      (analyze Program.frontend fs file a).2 ∧
    (analyze Program.frontend fs file a).2.frontend.parsed =
      (a.refreshed fs (a.resolvePath file) time).2.frontend.parsed ∧
    SameBut (a.resolvePath file) (a.refreshed fs (a.resolvePath file) time).2.registry
      (analyze Program.frontend fs file a).2.registry := by
  have hoptions : (a.refreshed fs (a.resolvePath file) time).2.frontend.options =
      a.frontend.options := by
    rw [(refreshed_eq fs _ time a).2.1, options_settle]
  rw [analyze_ok hm]
  obtain ⟨⟨hopts, hparsed⟩, hroot, hdir⟩ := report_keeps
    (I := fun p => p.options = a.frontend.options ∧
      p.parsed = (a.refreshed fs (a.resolvePath file) time).2.frontend.parsed)
    (fun p q hq hp => ⟨hq.options.trans hp.1, hq.same.2.1.trans hp.2⟩) (a.resolvePath file) time
    ⟨hoptions, rfl⟩
  refine ⟨⟨hopts.symm, ⟨rfl, hroot⟩, rfl, hdir⟩, hparsed, ?_⟩
  rcases report_registry Program.frontend (a.resolvePath file) time
    (a.refreshed fs (a.resolvePath file) time).2 with hr | hr
  · rw [hr]
    exact .refl _ _
  · rw [hr]
    exact .markAnalyzed (a.normalize_resolvePath file) _ time

/-- A request that is repeated at once gets the same response. If it got
an answer, the program is checked anew for that. -/
theorem analyze_again (h : Accounted a.registry a.frontend) (fs : FileSystem) (file : String) :
    (analyze Program.frontend fs file (analyze Program.frontend fs file a).2).1 =
        (analyze Program.frontend fs file a).1 ∧
      (checksAnew fs file (analyze Program.frontend fs file a).2 = true ∨
        ∃ e, (analyze Program.frontend fs file a).1 = .error e) := by
  cases hm : Registry.modified fs (a.resolvePath file) with
  | error e =>
    have hfail : analyze Program.frontend fs file a = (.error (.unknownTime e), a) := by
      rw [analyze_eq, hm]
    rw [hfail]
    exact ⟨congrArg Prod.fst hfail, .inr ⟨_, rfl⟩⟩
  | ok time =>
    have hb := accounted_analyze h fs file
    obtain ⟨hsettings, hparsed, hregistry⟩ := analyze_leaves hm
    have hagain := refreshed_again (a.normalize_resolvePath file) (modified_ok hm) h hb hparsed
      hsettings.frontend.symm hregistry
    generalize hnext : (analyze Program.frontend fs file a).2 = b at *
    have hpath : b.resolvePath file = a.resolvePath file := by
      unfold resolvePath
      rw [hsettings.projectDir.2]
    have hm' : Registry.modified fs (b.resolvePath file) = .ok time := hpath ▸ hm
    unfold checksAnew
    rw [analyze_ok hm', analyze_ok hm, hm', hpath]
    rcases hagain with ⟨hnone, hnone'⟩ | ⟨htrue, hview⟩
    · rw [report_noSource hnone', report_noSource hnone]
      exact ⟨rfl, .inr ⟨_, rfl⟩⟩
    · have hrelated : Related SameView a.rootType a.projectDir
          (a.refreshed fs (a.resolvePath file) time).2
          (b.refreshed fs (a.resolvePath file) time).2 :=
        ⟨hview, ⟨rfl, hsettings.rootType.2⟩, rfl, hsettings.projectDir.2⟩
      exact ⟨(report_together frontend_respects_view _ time _ _ hrelated).1.symm, .inl htrue⟩

/-- A request of a file that is there gives it a version that is greater
than the one on record. -/
theorem analyze_raises (hm : Registry.modified fs (a.resolvePath file) = .ok time) :
    ∃ e, (analyze Program.frontend fs file a).2.registry.versions.get? (a.resolvePath file) =
      some e ∧ ∀ old, a.registry.versions.get? (a.resolvePath file) = some old →
        old.version < e.version := by
  have hsynced : Grows (a.registry.ensureTracked (a.resolvePath file) time).2
      (a.refreshed fs (a.resolvePath file) time).2.registry :=
    synchronize_preserves (I := Grows _) (fun s q hs => hs.trans (scriptVersion_grows fs q))
      (fun s q hs => hs.trans (snapshot_grows fs q)) a.frontend (.refl _)
  have hgrows : Grows (a.registry.ensureTracked (a.resolvePath file) time).2
      (analyze Program.frontend fs file a).2.registry := by
    rw [analyze_ok hm]
    rcases report_registry Program.frontend (a.resolvePath file) time
      (a.refreshed fs (a.resolvePath file) time).2 with hr | hr
    · rw [hr]
      exact hsynced
    · rw [hr]
      exact hsynced.trans (markAnalyzed_grows _ time)
  obtain ⟨e, he, hle⟩ := hgrows (a.resolvePath file) (a.registry.nextVersion _ time)
    (by rw [ensureTracked_versions (a.normalize_resolvePath file), Table.get?_insert, if_pos rfl])
  refine ⟨e, he, fun old hold => ?_⟩
  rw [nextVersion_version hold] at hle
  exact hle

end

end Analyzer

/-! ## Runs -/

namespace Session

/-- What a request for a file gets. -/
def response (s : Session) (file : String) : Except AnalysisError Response :=
  (Analyzer.analyze Program.frontend s.fs file s.analyzer).1

/-- Whether a request for a file has the program checked anew. -/
def checksAnew (s : Session) (file : String) : Bool :=
  s.analyzer.checksAnew s.fs file

theorem step_request_fs (s : Session) (file : String) : (s.step (.request file)).fs = s.fs := by
  simp only [step]

theorem step_request_analyzer (s : Session) (file : String) :
    (s.step (.request file)).analyzer =
      (Analyzer.analyze Program.frontend s.fs file s.analyzer).2 := by
  simp only [step]

theorem start_accounted (fs : FileSystem) (declarations : List String) (o : CompilerOptions)
    (rootType projectDir : String) :
    Program.Accounted (start fs declarations o rootType projectDir).analyzer.registry
      (start fs declarations o rootType projectDir).analyzer.frontend where
  dated path hc := by cases hc
  parsed path f hf := by cases hf
  files f hf := by cases hf
  names k hk := by cases hk

/-- The analyzer of every run accounts for the versions of its program. -/
theorem run_accounted {s : Session} (h : Program.Accounted s.analyzer.registry s.analyzer.frontend)
    (actions : List Action) : Program.Accounted (s.run actions).analyzer.registry
      (s.run actions).analyzer.frontend := by
  induction actions generalizing s with
  | nil => exact h
  | cons action rest ih =>
    refine ih (s := s.step action) ?_
    cases action with
    | edit fs => exact h
    | request file =>
      rw [step_request_analyzer]
      exact Analyzer.accounted_analyze h s.fs file

/-- After every run, a request that is repeated before the files change gets
the same response, an answer or an error. Meanwhile the version of the file
has grown, unless it has no time; and if there was an answer, the program
has been checked anew. -/
theorem response_again (fs : FileSystem) (declarations : List String) (o : CompilerOptions)
    (rootType projectDir : String) (actions : List Action) (file : String) :
    let s := (start fs declarations o rootType projectDir).run actions
    let path := s.analyzer.resolvePath file
    (s.step (.request file)).response file = s.response file ∧
    ((∃ v w, (s.step (.request file)).version? path = some v ∧
        ((s.step (.request file)).step (.request file)).version? path = some w ∧ v < w) ∨
      ∃ e, s.response file = .error (.unknownTime e)) ∧
    ((s.step (.request file)).checksAnew file = true ∨ ∃ e, s.response file = .error e) := by
  intro s path
  have hs := run_accounted (start_accounted fs declarations o rootType projectDir) actions
  obtain ⟨hsame, hanew⟩ := Analyzer.analyze_again hs s.fs file
  unfold response checksAnew version?
  rw [step_request_fs, step_request_analyzer (s.step _), step_request_fs, step_request_analyzer s]
  refine ⟨hsame, ?_, hanew⟩
  cases hm : Registry.modified s.fs path with
  | error e =>
    right
    refine ⟨e, ?_⟩
    rw [Analyzer.analyze_eq, hm]
  | ok time =>
    left
    obtain ⟨v, hv, -⟩ := Analyzer.analyze_raises hm
    have hdir := (Analyzer.analyze_leaves hm).1.projectDir.2
    generalize (Analyzer.analyze Program.frontend s.fs file s.analyzer).2 = a at hv hdir ⊢
    have hpath : a.resolvePath file = path := by
      show Analyzer.resolvePath _ file = Analyzer.resolvePath _ file
      unfold Analyzer.resolvePath
      rw [hdir]
    have hm' : Registry.modified s.fs (a.resolvePath file) = .ok time := hpath ▸ hm
    obtain ⟨w, hw, hlt⟩ := Analyzer.analyze_raises hm'
    rw [hpath] at hw hlt
    exact ⟨v.version, w.version, congrArg (Option.map ScriptVersion.version) hv,
      congrArg (Option.map ScriptVersion.version) hw, hlt v hv⟩

end Session

end ScriptAnalysis
