import ScriptAnalysis.Server

/-!
# What becomes of a line

A line ends in one of five ways, by what the service finds on its way:
the line is blank, it is no request, the answer is kept, or the analyzer is
run and ends with a response or with an error. `outcome` tells which, and
`handleLine_eq` that nothing else of the service's state decides the answer
and what is left behind.

**Runs.** `after F s calls` is the service after the calls, each with the
files, the time and the line of its own. A call that ends with a fatal error
does not end the run, so the runs that do end there are among these.
-/
namespace ScriptAnalysis

/-! ## Blank lines -/

section

open Json Reader

theorem peekToken?_bind {α : Type} (f : Option Char → Reader α) (cs : List Char) :
    (peekToken? >>= f) cs = f (cs.dropWhile isSpace).head? (cs.dropWhile isSpace) :=
  rfl

/-- What begins with neither brace nor bracket is no record. -/
theorem record_of_all_white {σ : Type} (fields : List (String × (σ → Reader σ))) (start : σ)
    {cs : List Char} (h : cs.all Text.isWhite = true) :
    record fields start cs = .error .malformed := by
  have hwhite : ∀ c, (cs.dropWhile isSpace).head? = some c → Text.isWhite c = true := fun c hc =>
    List.all_eq_true.1 h c ((List.dropWhile_suffix _).subset (List.mem_of_head? hc))
  unfold record
  rw [peekToken?_bind]
  refine congrFun (g := fail) ?_ _
  split
  · rename_i hc
    exact absurd (hwhite _ hc) (by decide)
  · rename_i hc
    exact absurd (hwhite _ hc) (by decide)
  · rfl

end

/-- A blank line is no request. -/
theorem Request.parse_of_all_white {line : String} (h : line.toList.all Text.isWhite = true) :
    Request.parse line = .error .malformed := by
  unfold Request.parse Json.Reader.run
  have hrecord : StateT.run (Json.Reader.record fields none) line.toList = .error .malformed :=
    record_of_all_white _ _ h
  rw [hrecord]
  rfl

namespace Server

open Json

/-! ## Outcomes -/

variable {φ : Type}

/-- A line that is handled, and the files and the time at which it is. -/
structure Call where
  fs : FileSystem
  now : Nat
  line : String

/-- How a line ends. -/
inductive Outcome where
  | blank
  | malformed (e : ReadError)
  | kept (text : String)
  | analyzed (file : String) (result : Except AnalysisError Response)

/-- What the service finds on its way to the answer of a request. -/
def requested (F : Frontend φ) (s : Server φ) (call : Call) (file : String) : Outcome :=
  match (s.cache.find call.now file).1 with
  | some text => .kept text
  | none => .analyzed file (Analyzer.analyze F call.fs file s.analyzer).1

/-- What the service finds on its way. -/
def outcome (F : Frontend φ) (s : Server φ) (call : Call) : Outcome :=
  if call.line.toList.all Text.isWhite then .blank
  else match Request.parse call.line with
    | .error e => .malformed e
    | .ok request => requested F s call request.file

theorem outcome_of_request {F : Frontend φ} {s : Server φ} {call : Call} {file : String}
    (h : Request.parse call.line = .ok ⟨file⟩) :
    outcome F s call = requested F s call file := by
  have hwhite : ¬ call.line.toList.all Text.isWhite = true := fun hwhite => by
    rw [Request.parse_of_all_white hwhite] at h
    cases h
  unfold outcome
  rw [if_neg hwhite, h]

/-- The answer to a line. -/
def Outcome.answer : Outcome → Except Fatal (Option String)
  | blank => .ok none
  | malformed e => .ok (some (malformedRequest e).render)
  | kept text => .ok (some text)
  | analyzed _ (.ok response) => .ok (some response.render)
  | analyzed _ (.error (.unknownTime e)) => .ok (some (unreadableFile e).render)
  | analyzed file (.error cause) => .error ⟨file, cause⟩

/-- The analyzer that is left behind. -/
def Outcome.analyzer (F : Frontend φ) (s : Server φ) (call : Call) : Outcome → Analyzer φ
  | analyzed file _ => (Analyzer.analyze F call.fs file s.analyzer).2
  | _ => s.analyzer

/-- The answers that are kept behind the line. A look at them drops those
that have expired. -/
def Outcome.cache (s : Server φ) (call : Call) : Outcome → ResponseCache
  | blank | malformed _ => s.cache
  | kept _ | analyzed _ (.error _) => s.cache.evict call.now
  | analyzed file (.ok response) =>
    (s.cache.evict call.now).insert call.now file response.render

/-- The service after a line. -/
def Outcome.leaves (F : Frontend φ) (s : Server φ) (call : Call) (o : Outcome) : Server φ :=
  { analyzer := o.analyzer F s call
    cache := o.cache s call
    lines := s.lines
    handled := match o with
      | blank => s.handled
      | _ => s.handled + 1 }

/-- Behind the run of the analyzer its result alone decides what follows. -/
theorem analyzed_eq (s : Server φ) (call : Call) (file : String) (analyzer : Analyzer φ)
    (result : Except AnalysisError Response) :
    (do
      let text ← (match result with
        | .ok response => do
          keep call.now file response.render
          return response.render
        | .error (.unknownTime e) => return (unreadableFile e).render
        | .error cause => throw ⟨file, cause⟩ : Step φ String)
      return some text : Step φ (Option String))
        ⟨analyzer, s.cache.evict call.now, s.lines, s.handled + 1⟩ =
      ((Outcome.analyzed file result).answer,
        ⟨analyzer, (Outcome.analyzed file result).cache s call, s.lines, s.handled + 1⟩) := by
  match result with
  | .ok response => rfl
  | .error (.unknownTime e) => rfl
  | .error (.notSynchronized _) | .error (.noSource _) | .error (.noOutput _)
  | .error (.outputSkipped _) | .error (.outputCount _) => rfl

/-- Whatever the analyzer is asked to do, its result goes on. -/
theorem run_bind {α β : Type} (x : Analyzer.Step φ α) (f : Except AnalysisError α → Step φ β)
    (s : Server φ) :
    ((do
      let s ← get
      let (result, analyzer) := x.run s.analyzer
      set { s with analyzer := analyzer }
      return result : Step φ (Except AnalysisError α)) >>= f) s =
      f (x s.analyzer).1 { s with analyzer := (x s.analyzer).2 } :=
  rfl

/-- The answer to a request, and the service behind it. -/
theorem answer_eq (F : Frontend φ) (s : Server φ) (call : Call) (file : String) :
    (do return some (← answer F call.fs call.now ⟨file⟩) : Step φ (Option String))
        { s with handled := s.handled + 1 } =
      ((requested F s call file).answer, (requested F s call file).leaves F s call) := by
  show (do
    let text ← (match (s.cache.find call.now file).1 with
      | some response => pure response
      | none => do
        match ← analyze F call.fs file with
        | .ok response =>
          keep call.now file response.render
          return response.render
        | .error (.unknownTime e) => return (unreadableFile e).render
        | .error cause => throw ⟨file, cause⟩ : Step φ String)
    return some text : Step φ (Option String))
      ⟨s.analyzer, s.cache.evict call.now, s.lines, s.handled + 1⟩ = _
  unfold requested
  cases (s.cache.find call.now file).1 with
  | some text => rfl
  | none =>
    rw [bind_assoc]
    refine (run_bind (Analyzer.analyze F call.fs file) _ _).trans ?_
    exact analyzed_eq s call file (Analyzer.analyze F call.fs file s.analyzer).2
      (Analyzer.analyze F call.fs file s.analyzer).1

/-- The outcome of a line decides its answer and all that it leaves
behind. -/
theorem handleLine_eq (F : Frontend φ) (s : Server φ) (call : Call) :
    handleLine F call.fs call.now call.line s =
      ((outcome F s call).answer, (outcome F s call).leaves F s call) := by
  unfold handleLine outcome
  split
  · rfl
  · cases Request.parse call.line with
    | error e => rfl
    | ok request => exact answer_eq F s call request.file

/-! ## Runs -/

/-- The service after a line. -/
def handle (F : Frontend φ) (s : Server φ) (call : Call) : Server φ :=
  (handleLine F call.fs call.now call.line s).2

theorem handle_eq (F : Frontend φ) (s : Server φ) (call : Call) :
    handle F s call = (outcome F s call).leaves F s call :=
  congrArg Prod.snd (handleLine_eq F s call)

/-- The service after some calls. -/
def after (F : Frontend φ) (s : Server φ) (calls : List Call) : Server φ :=
  calls.foldl (handle F) s

end Server

end ScriptAnalysis
