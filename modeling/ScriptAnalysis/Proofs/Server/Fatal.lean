import ScriptAnalysis.Proofs.Analysis.Repetition
import ScriptAnalysis.Proofs.Program.Closure
import ScriptAnalysis.Proofs.Server.Calls

/-!
# When a request ends the service

An analysis can fail at five places, and all failures but that of a file
without a time end the service. Here: which of them happen, for a program
as the frontend.

**Why the file is found.** A request gives its file a version that is new to
the program, so its text is read again; the file is a root, so the walk
gets to it; and what is read becomes a file of the program. So the source
is missing only if there is no text (`Analyzer.source_refreshed`).

**Why there is one output file.** There is none for a declaration file, none
when none is wanted, and a second one with a source map
(`Analyzer.output_eq`).

**Result.** `Server.fatal_iff`: after every run, the requests that end the
service are those for files without a text, and those for files without
problems that do not have exactly one output file.
-/
namespace ScriptAnalysis

namespace Analyzer

open Program Registry

/-- There is no text for a path: none is kept, and none can be read. -/
def Textless (fs : FileSystem) (r : Registry) (path : String) : Prop :=
  r.libraries.get? path = none ∧ ∃ fault, fs.read path = .error fault

theorem snapshot_none_iff {fs : FileSystem} {r : Registry} {path : String} :
    (snapshot fs path r).1 = none ↔ Textless fs r path := by
  rw [snapshot_eq]
  unfold Textless
  cases r.libraries.get? path with
  | some text => simp
  | none => cases fs.read path <;> simp

section

variable {fs : FileSystem} {path : String} {a : Analyzer Program} {time : Nat}

/-- When the program has been brought up to date for a request, its file has
a source, unless there is no text for it. -/
theorem source_refreshed (h : Accounted a.registry a.frontend) (hn : Path.normalize path = path)
    (hm : fs.modified path = .ok time) :
    (Textless fs a.registry path →
      (a.refreshed fs path time).2.frontend.sourceFile? path = none) ∧
    (¬ Textless fs a.registry path →
      ∃ source, (a.refreshed fs path time).2.frontend.sourceFile? path = some source ∧
        source.name = path) := by
  have hacc := accounted_refreshed hn fs time h
  obtain ⟨-, hfront, -⟩ := refreshed_eq fs path time a
  obtain ⟨w, hw, hnew⟩ := version_ensureTracked (r := a.registry) hn hm
  generalize hasks : (host fs).answers (a.registry.ensureTracked path time).2 = asks at hfront hw
  have hlook : look asks a.frontend.parsed path = (asks.source? path).map (w, ·) :=
    look_unremembered hw fun f hf => hnew _ (h.parsed path f hf).1
  have htext : asks.snapshot path = (snapshot fs path a.registry).1 := by
    rw [← hasks]
    exact snapshot_congr rfl
  have hpaths : (a.refreshed fs path time).2.frontend.files.map FileVersion.path =
      (found asks a.frontend.parsed).files.map fun e => e.1.path := by
    rw [hfront, files_settle, List.map_map]
    rfl
  constructor
  · intro hnone
    refine hacc.sourceFile?_none hn fun hmem => ?_
    rw [hpaths, (found_surveyed asks a.frontend.parsed).mem_paths, hlook, Answers.source?, htext,
      snapshot_none_iff.2 hnone] at hmem
    exact absurd hmem.2 (by simp)
  · intro hsome
    obtain ⟨text, htext'⟩ := Option.ne_none_iff_exists'.1 (mt snapshot_none_iff.1 hsome)
    refine hacc.sourceFile?_some hn ?_ ?_
    · rw [hfront]
      exact checker_settle _ _
    · rw [hpaths]
      refine root_found ?_ (by rw [hlook, Answers.source?, htext, htext']; rfl)
      rw [← hasks]
      exact List.mem_map.2 ⟨path, List.mem_append_right _ (mem_tracked_ensureTracked hn time), hn⟩

/-- The settings of the program stay. -/
theorem options_refreshed (fs : FileSystem) (path : String) (time : Nat) (a : Analyzer Program) :
    (a.refreshed fs path time).2.frontend.options = a.frontend.options := by
  rw [(refreshed_eq fs path time a).2.1]
  exact options_settle _ _

theorem options_analyze (fs : FileSystem) (file : String) (a : Analyzer Program) :
    (analyze Program.frontend fs file a).2.frontend.options = a.frontend.options := by
  cases hm : Registry.modified fs (a.resolvePath file) with
  | error e => rw [analyze_eq, hm]
  | ok time =>
    rw [analyze_ok hm]
    have hkeeps := report_keeps (I := fun p => p.options = a.frontend.options)
      (fun p q hq hp => hq.options.trans hp) (a.resolvePath file) time
      (options_refreshed fs (a.resolvePath file) time a)
    exact hkeeps.1

end

/-! ## Reports -/

section

variable {α β : Type} {e? : Option AnalysisError} {x : Step Program α} {f : α → Step Program β}
  {a b : Analyzer Program}

/-- The step fails with the error, or succeeds if there is none. -/
def Ends (e? : Option AnalysisError) (x : Step Program α) (a : Analyzer Program) : Prop :=
  match e? with
  | some e => (x a).1 = .error e
  | none => ∃ v, (x a).1 = .ok v

theorem Ends.bind {v : α} (hx : x a = (.ok v, b)) (hf : Ends e? (f v) b) :
    Ends e? (x >>= f) a := by
  unfold Ends at hf ⊢
  rw [step_bind, hx]
  exact hf

theorem Ends.throw {e : AnalysisError} (hx : x a = (.error e, b)) : Ends (some e) (x >>= f) a := by
  unfold Ends
  rw [step_bind, hx]

end

section

variable {path : String} {a : Analyzer Program} {source : SourceFile}

/-- What is wrong with the output of a file, if anything is. -/
def outputFault (o : CompilerOptions) (path : String) : Option AnalysisError :=
  if o.noEmit then some (.outputSkipped path)
  else if Path.isDeclarationFile path then some (.outputCount 0)
  else if o.sourceMap then some (.outputCount 2)
  else none

theorem outputFault_isSome (o : CompilerOptions) (path : String) :
    (outputFault o path).isSome ↔
      o.noEmit = true ∨ o.sourceMap = true ∨ Path.isDeclarationFile path = true := by
  unfold outputFault
  cases o.noEmit <;> cases Path.isDeclarationFile path <;> cases o.sourceMap <;> simp

theorem outputFault_ne_unknownTime (o : CompilerOptions) (path : String) (e : UnknownTime) :
    outputFault o path ≠ some (.unknownTime e) := by
  unfold outputFault
  cases o.noEmit <;> cases Path.isDeclarationFile path <;> cases o.sourceMap <;> simp

/-- The output of a file with a source. -/
theorem output_eq (h : a.frontend.sourceFile? path = some source) (hname : source.name = path) :
    output Program.frontend path a = (match outputFault a.frontend.options path with
      | some e => .error e
      | none => .ok (String.ofList (Erasure.eraseTypes source)), a) := by
  have hemit : Program.frontend.emit a.frontend path =
      some (Emission.emit source a.frontend.options.emission) := by
    show (a.frontend.sourceFile? path).map _ = _
    rw [h]
    rfl
  unfold output
  rw [step_get, hemit]
  unfold outputFault Emission.emit Emission.artifacts CompilerOptions.emission
  rw [hname]
  cases a.frontend.options.noEmit <;> cases Path.isDeclarationFile path <;>
    cases a.frontend.options.sourceMap <;> rfl

/-- Why a file cannot be reported, if so. -/
def reportFault (p : Program) (path : String) : Option AnalysisError :=
  match p.sourceFile? path with
  | none => some (.noSource path)
  | some _ => if (p.diagnostics path).1 = [] then outputFault p.options path else none

theorem reportFault_ne_unknownTime (p : Program) (path : String) (e : UnknownTime) :
    reportFault p path ≠ some (.unknownTime e) := by
  unfold reportFault
  cases p.sourceFile? path with
  | none => simp
  | some source =>
    dsimp only
    split
    · exact outputFault_ne_unknownTime p.options path e
    · simp

/-- A report fails for these reasons only. -/
theorem report_ends (hname : ∀ source, a.frontend.sourceFile? path = some source →
    source.name = path) (time : Nat) :
    Ends (reportFault a.frontend path) (report Program.frontend path time) a := by
  unfold reportFault
  cases hsource : a.frontend.sourceFile? path with
  | none => exact report_noSource hsource time
  | some source =>
    have hasked := Asked.diagnostics a.frontend path
    have hsource' : (a.frontend.diagnostics path).2.sourceFile? path = some source :=
      (sourceFile?_congr hasked.same.2.2 path).trans hsource
    refine Ends.bind (b := a) rfl ?_
    rw [show Program.frontend.source? a.frontend path = some source from hsource]
    refine Ends.bind (v := (a.frontend.diagnostics path).1)
      (b := { a with frontend := (a.frontend.diagnostics path).2 }) rfl ?_
    cases (a.frontend.diagnostics path).1 with
    | cons d ds => exact ⟨_, rfl⟩
    | nil =>
      rw [if_pos rfl, ← hasked.options]
      have houtput := output_eq (a := { a with frontend := (a.frontend.diagnostics path).2 })
        hsource' (hname source hsource)
      cases hfault : outputFault (a.frontend.diagnostics path).2.options path with
      | some e =>
        rw [hfault] at houtput
        exact Ends.throw houtput
      | none =>
        rw [hfault] at houtput
        exact Ends.bind houtput ⟨_, rfl⟩

variable {fs : FileSystem} {time : Nat}

/-- What the report of a request fails for. -/
theorem reportFault_refreshed (h : Accounted a.registry a.frontend)
    (hn : Path.normalize path = path) (hm : fs.modified path = .ok time) :
    (reportFault (a.refreshed fs path time).2.frontend path).isSome ↔
      Textless fs a.registry path ∨
        ((a.refreshed fs path time).2.frontend.diagnostics path).1 = [] ∧
          (a.frontend.options.noEmit = true ∨ a.frontend.options.sourceMap = true ∨
            Path.isDeclarationFile path = true) := by
  obtain ⟨hnone, hsome⟩ := source_refreshed h hn hm
  unfold reportFault
  by_cases htext : Textless fs a.registry path
  · rw [hnone htext]
    exact iff_of_true rfl (.inl htext)
  · obtain ⟨source, hsource, -⟩ := hsome htext
    rw [hsource, options_refreshed, ← outputFault_isSome]
    by_cases hclean : ((a.refreshed fs path time).2.frontend.diagnostics path).1 = [] <;>
      simp [hclean, htext]

/-- The report of a request. -/
theorem report_refreshed (h : Accounted a.registry a.frontend) (hn : Path.normalize path = path)
    (hm : fs.modified path = .ok time) :
    Ends (reportFault (a.refreshed fs path time).2.frontend path)
      (report Program.frontend path time) (a.refreshed fs path time).2 := by
  obtain ⟨hnone, hsome⟩ := source_refreshed h hn hm
  refine report_ends (fun source hsource => ?_) time
  by_cases htext : Textless fs a.registry path
  · rw [hnone htext] at hsource
    cases hsource
  · obtain ⟨source', hsource', hname⟩ := hsome htext
    rw [hsource'] at hsource
    cases hsource
    exact hname

end

end Analyzer

/-! ## Requests -/

namespace Server

open Analyzer Program Registry

variable {s : Server Program} {call : Call} {file : String}

/-- The analyzer accounts for the versions of its program, whose settings
are `o`. -/
def Sound (o : CompilerOptions) (a : Analyzer Program) : Prop :=
  Accounted a.registry a.frontend ∧ a.frontend.options = o

theorem sound_handle {o : CompilerOptions} (h : Sound o s.analyzer) (call : Call) :
    Sound o (handle Program.frontend s call).analyzer := by
  rw [handle_eq]
  show Sound o ((outcome Program.frontend s call).analyzer Program.frontend s call)
  cases outcome Program.frontend s call with
  | blank | malformed e | kept text => exact h
  | analyzed file result =>
    show Sound o (Analyzer.analyze Program.frontend call.fs file s.analyzer).2
    exact ⟨accounted_analyze h.1 call.fs file, (options_analyze call.fs file s.analyzer).trans h.2⟩

theorem sound_after {o : CompilerOptions} (h : Sound o s.analyzer) (calls : List Call) :
    Sound o (after Program.frontend s calls).analyzer := by
  induction calls generalizing s with
  | nil => exact h
  | cons call rest ih => exact ih (sound_handle h call)

/-- What ends a request ends the service: a file with a time is not one
without. -/
theorem answer_of_ends (file : String) {x : Analyzer.Step Program Response}
    {a : Analyzer Program} {p : Program} {path : String} (h : Ends (reportFault p path) x a) :
    match reportFault p path with
    | some e => (Outcome.analyzed file (x a).1).answer = .error ⟨file, e⟩
    | none => ∃ response : Response,
      (Outcome.analyzed file (x a).1).answer = .ok (some response.render) := by
  unfold Ends at h
  have hknown := reportFault_ne_unknownTime p path
  cases hfault : reportFault p path with
  | none =>
    rw [hfault] at h
    obtain ⟨response, hresult⟩ := h
    exact ⟨response, by rw [hresult]; rfl⟩
  | some e =>
    rw [hfault] at h hknown
    dsimp only at h ⊢
    rw [h]
    cases e with
    | unknownTime u => exact absurd rfl (hknown u)
    | _ => rfl

/-- After every run, a request for a file with a time whose answer is not
kept ends the service if and only if there is no text for the file, or the
file has no problems and its output is not wanted, not alone or not made.
In all other cases there is one response. -/
theorem fatal_iff (declarations : List String) (o : CompilerOptions)
    (rootType projectDir : String) (ttl : Nat) (calls : List Call) (call : Call) (file : String)
    (time : Nat) (hparse : Request.parse call.line = .ok ⟨file⟩) :
    let s := after Program.frontend
      (ofAnalyzer (.ofProject (.ofDeclarations declarations) (.ofOptions o) rootType projectDir) ttl)
      calls
    let path := s.analyzer.resolvePath file
    let p := (s.analyzer.refreshed call.fs path time).2.frontend
    let answer := (handleLine Program.frontend call.fs call.now call.line s).1
    (s.cache.find call.now file).1 = none → Registry.modified call.fs path = .ok time →
    ((∃ e, answer = .error e) ↔ Textless call.fs s.analyzer.registry path ∨
      (p.diagnostics path).1 = [] ∧
        (o.noEmit = true ∨ o.sourceMap = true ∨ Path.isDeclarationFile path = true)) ∧
    ((¬ ∃ e, answer = .error e) → ∃ response : Response, answer = .ok (some response.render)) := by
  intro s path p answer hmiss hm
  obtain ⟨hacc, hoptions⟩ : Sound o s.analyzer :=
    sound_after ⟨Session.start_accounted .empty declarations o rootType projectDir, rfl⟩ calls
  have hn : Path.normalize path = path := s.analyzer.normalize_resolvePath file
  have hanswer : answer = (Outcome.analyzed file (report Program.frontend path time
      (s.analyzer.refreshed call.fs path time).2).1).answer := by
    show (handleLine Program.frontend call.fs call.now call.line s).1 = _
    rw [handleLine_eq, outcome_of_request hparse, requested, hmiss, analyze_ok hm]
  have hends := answer_of_ends file (report_refreshed hacc hn (modified_ok hm))
  rw [← hanswer] at hends
  have hfault : (reportFault p path).isSome ↔ Textless call.fs s.analyzer.registry path ∨
      (p.diagnostics path).1 = [] ∧
        (o.noEmit = true ∨ o.sourceMap = true ∨ Path.isDeclarationFile path = true) := by
    have hrefreshed := reportFault_refreshed hacc hn (modified_ok hm)
    rwa [hoptions] at hrefreshed
  rw [← hfault]
  cases hf : reportFault p path with
  | none =>
    rw [hf] at hends
    obtain ⟨response, hresponse⟩ := hends
    rw [hresponse]
    exact ⟨by simp, fun _ => ⟨response, rfl⟩⟩
  | some e =>
    rw [hf] at hends
    have herror : ∃ e, answer = .error e := ⟨_, hends⟩
    exact ⟨iff_of_true herror rfl, fun h => absurd herror h⟩

/-- A request for what is at a path. -/
def requestFor (e : Entry) : Call :=
  ⟨⟨⟨[([], .directory 0), (["a.ts"], e)]⟩⟩, 0, "\x7b\"file\":\"/a.ts\"\x7d"⟩

/-- A service that has reported a file and keeps no answers. -/
def reporting : Server Program :=
  after Program.frontend
    (ofAnalyzer (.ofProject (.ofDeclarations []) (.ofOptions default) "" "/") 0)
    [requestFor (.file (some "let a = ;".toList) 1)]

/-- A directory has taken the place of the file. -/
theorem fatal_iff_directory :
    Request.parse (requestFor (.directory 2)).line = .ok ⟨"/a.ts"⟩ ∧
    (reporting.cache.find 0 "/a.ts").1 = none ∧
    Registry.modified (requestFor (.directory 2)).fs (reporting.analyzer.resolvePath "/a.ts") =
      .ok 2 ∧
    ∃ e, (handleLine Program.frontend (requestFor (.directory 2)).fs (requestFor (.directory 2)).now
      (requestFor (.directory 2)).line reporting).1 = .error e := by
  have hparse : Request.parse (requestFor (.directory 2)).line = .ok ⟨"/a.ts"⟩ := by
    decide +kernel
  have hmiss : (reporting.cache.find 0 "/a.ts").1 = none := by decide +kernel
  have hpath : reporting.analyzer.resolvePath "/a.ts" = "/a.ts" := by decide +kernel
  have htime : Registry.modified (requestFor (.directory 2)).fs "/a.ts" = .ok 2 := by
    decide +kernel
  have hkept : reporting.analyzer.registry.libraries.get? "/a.ts" = none := by decide +kernel
  have hread : (requestFor (.directory 2)).fs.read "/a.ts" = .error .isADirectory := by
    decide +kernel
  rw [← hpath] at htime hkept hread
  have htext : Textless (requestFor (.directory 2)).fs reporting.analyzer.registry
      (reporting.analyzer.resolvePath "/a.ts") := ⟨hkept, _, hread⟩
  have hs : after Program.frontend
      (ofAnalyzer (.ofProject (.ofDeclarations []) (.ofOptions default) "" "/") 0)
      [requestFor (.file (some "let a = ;".toList) 1)] = reporting := rfl
  have hfatal := fatal_iff [] default "" "/" 0 [requestFor (.file (some "let a = ;".toList) 1)]
    (requestFor (.directory 2)) "/a.ts" 2 hparse
  dsimp only at hfatal
  rw [hs] at hfatal
  exact ⟨hparse, hmiss, htime, (hfatal hmiss htime).1.2 (.inl htext)⟩

end Server

end ScriptAnalysis
