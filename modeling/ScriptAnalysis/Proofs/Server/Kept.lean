import ScriptAnalysis.Proofs.Registry.Versions
import ScriptAnalysis.Proofs.Server.Calls
import ScriptAnalysis.Proofs.Table

/-!
# Which answers are kept

The service drops what has expired whenever it looks for an answer or keeps
one, for all files at once. Here: over whole runs, with all files and times
mixed, none of that matters for a single file.

**The ledger.** `stored F s calls` are the answers that the calls have
stored, with their times, in order; nothing is ever taken out of it. The
cache is compared with it: `Cached ttl now stored c` says that `c` holds for
each file the latest answer of the ledger, or nothing once that has expired.
The clock of the calls must not go back, since what is dropped does not
return.

**Results.**
* `Server.cached_handle`: what a line does to the ledger and to the cache.
* `Server.cached_after`: so the cache of every run stands for its ledger.
* `Server.kept_while_fresh`: a request is answered from the cache exactly as long
  as the latest answer for its text is fresh; what is stored comes from
  analyses that ended well; lines without an analysis store nothing.
-/
namespace ScriptAnalysis

/-! ## The ledger -/

/-- An answer that was stored, the text that was asked for, and the time. -/
structure Stored where
  file : String
  text : String
  time : Nat
  deriving DecidableEq, Repr

/-- The entry that an answer is kept as. -/
def Stored.entry (ttl : Nat) (e : Stored) : CacheEntry :=
  ⟨e.text, e.time + ttl⟩

/-- The answer that was stored last for a text. -/
def latest? (stored : List Stored) (file : String) : Option Stored :=
  (stored.filter (·.file = file)).getLast?

theorem latest?_append (stored : List Stored) (e : Stored) (file : String) :
    latest? (stored ++ [e]) file = if e.file = file then some e else latest? stored file := by
  unfold latest?
  by_cases h : e.file = file <;> simp [h]

theorem mem_of_latest? {stored : List Stored} {file : String} {e : Stored}
    (h : latest? stored file = some e) : e ∈ stored ∧ e.file = file := by
  simpa using List.mem_of_getLast? h

/-- For each text the cache holds the latest answer of the ledger, or
nothing if that has expired. -/
structure Cached (ttl now : Nat) (stored : List Stored) (c : ResponseCache) : Prop where
  period : c.ttl = ttl
  once : c.entries.keys.Nodup
  current : ∀ file v, c.entries.get? file = some v →
    ∃ e, latest? stored file = some e ∧ v = e.entry ttl
  gone : ∀ file e, latest? stored file = some e → c.entries.get? file = none → e.time + ttl ≤ now

namespace Cached

variable {ttl now later : Nat} {stored : List Stored} {c : ResponseCache}

theorem ofTtl (ttl now : Nat) : Cached ttl now [] (.ofTtl ttl) :=
  ⟨rfl, List.nodup_nil, fun _ _ h => (by cases h), fun _ _ h => (by cases h)⟩

theorem mono (h : Cached ttl now stored c) (hnow : now ≤ later) : Cached ttl later stored c :=
  ⟨h.period, h.once, h.current, fun file e he hc => Nat.le_trans (h.gone file e he hc) hnow⟩

theorem get?_evict (h : Cached ttl now stored c) (later : Nat) (file : String) :
    (c.evict later).entries.get? file = (c.entries.get? file).filter (later < ·.expires) :=
  Table.get?_filter h.once _ file

/-- What is found is the latest answer, as long as it is fresh. -/
theorem find (h : Cached ttl now stored c) (hnow : now ≤ later) (file text : String) :
    (c.find later file).1 = some text ↔
      ∃ e, latest? stored file = some e ∧ later < e.time + ttl ∧ text = e.text := by
  show ((c.evict later).entries.get? file).map CacheEntry.response = some text ↔ _
  rw [h.get?_evict, Option.map_eq_some_iff]
  simp only [Option.filter_eq_some_iff, decide_eq_true_eq]
  constructor
  · rintro ⟨v, ⟨hv, hfresh⟩, rfl⟩
    obtain ⟨e, he, rfl⟩ := h.current file v hv
    exact ⟨e, he, hfresh, rfl⟩
  · rintro ⟨e, he, hfresh, rfl⟩
    cases hv : c.entries.get? file with
    | none => exact absurd (Nat.le_trans (h.gone file e he hv) hnow) (Nat.not_le.2 hfresh)
    | some v =>
      obtain ⟨e', he', rfl⟩ := h.current file v hv
      rw [he] at he'
      cases he'
      exact ⟨_, ⟨rfl, hfresh⟩, rfl⟩

theorem evict (h : Cached ttl now stored c) (hnow : now ≤ later) :
    Cached ttl later stored (c.evict later) where
  period := h.period
  once := Table.nodup_keys_filter h.once _
  current file v hv := by
    rw [h.get?_evict, Option.filter_eq_some_iff] at hv
    exact h.current file v hv.1
  gone file e he hv := by
    rw [h.get?_evict] at hv
    cases hc : c.entries.get? file with
    | none => exact Nat.le_trans (h.gone file e he hc) hnow
    | some v =>
      obtain ⟨e', he', rfl⟩ := h.current file v hc
      rw [he] at he'
      cases he'
      rw [hc, Option.filter_eq_none_iff] at hv
      exact Nat.le_of_not_lt (of_decide_eq_false (Bool.eq_false_iff.2 (hv _ rfl)))

/-- A new answer takes the place of the one before. -/
theorem insert (h : Cached ttl now stored c) (hnow : now ≤ later) (file text : String) :
    Cached ttl later (stored ++ [⟨file, text, later⟩]) (c.insert later file text) := by
  have hold := h.evict hnow
  have hget : ∀ other, (c.insert later file text).entries.get? other =
      if file = other then some ⟨text, later + c.ttl⟩ else (c.evict later).entries.get? other :=
    fun other => Table.get?_insert _ _ _ _
  refine ⟨h.period, Table.nodup_keys_insert hold.once _ _, fun other v hv => ?_,
    fun other e he hv => ?_⟩
  · rw [hget] at hv
    rw [latest?_append]
    split at hv
    · rename_i heq
      rw [if_pos heq]
      exact ⟨_, rfl, by rw [← Option.some.inj hv, h.period]; rfl⟩
    · rename_i hne
      rw [if_neg hne]
      exact hold.current other v hv
  · rw [hget] at hv
    rw [latest?_append] at he
    split at hv
    · cases hv
    · rename_i hne
      rw [if_neg hne] at he
      exact hold.gone other e he hv

end Cached

/-! ## Lines -/

namespace Server

variable {φ : Type} {F : Frontend φ} {s : Server φ} {call : Call} {file : String}

/-- The answers that a line stores. -/
def Outcome.stored (now : Nat) : Outcome → List Stored
  | analyzed file (.ok response) => [⟨file, response.render, now⟩]
  | _ => []

/-- The answers that the calls store, in order. -/
def stored (F : Frontend φ) : Server φ → List Call → List Stored
  | _, [] => []
  | s, call :: rest => (outcome F s call).stored call.now ++ stored F (handle F s call) rest

/-- A line stores its answers in the cache and drops nothing that is
fresh. -/
theorem cached_handle {ttl now : Nat} {past : List Stored} (h : Cached ttl now past s.cache)
    (hnow : now ≤ call.now) :
    Cached ttl call.now (past ++ (outcome F s call).stored call.now) (handle F s call).cache := by
  rw [handle_eq]
  show Cached _ _ _ ((outcome F s call).cache s call)
  cases outcome F s call with
  | blank | malformed e => exact (List.append_nil past).symm ▸ h.mono hnow
  | kept text => exact (List.append_nil past).symm ▸ h.evict hnow
  | analyzed file result =>
    cases result with
    | error e => exact (List.append_nil past).symm ▸ h.evict hnow
    | ok response => exact (h.evict hnow).insert (Nat.le_refl _) file response.render

/-- The cache of a run stands for its ledger. -/
theorem cached_after {ttl now last : Nat} {past : List Stored} {calls : List Call}
    (h : Cached ttl now past s.cache) (hsorted : calls.Pairwise (·.now ≤ ·.now))
    (hstart : ∀ call ∈ calls, now ≤ call.now) (hend : ∀ call ∈ calls, call.now ≤ last)
    (hlast : now ≤ last) :
    Cached ttl last (past ++ stored F s calls) (after F s calls).cache := by
  induction calls generalizing s now past with
  | nil => exact (List.append_nil past).symm ▸ h.mono hlast
  | cons call rest ih =>
    obtain ⟨hfirst, hrest⟩ := List.pairwise_cons.1 hsorted
    have hstep := cached_handle (F := F) h (hstart call List.mem_cons_self)
    have hthen := ih hstep hrest hfirst (fun c hc => hend c (List.mem_cons_of_mem _ hc))
      (hend call List.mem_cons_self)
    rwa [List.append_assoc] at hthen

theorem Outcome.mem_stored {now : Nat} {o : Outcome} {e : Stored} (h : e ∈ o.stored now) :
    ∃ file response, o = .analyzed file (.ok response) ∧ e = ⟨file, response.render, now⟩ := by
  cases o with
  | blank | malformed _ | kept _ => cases h
  | analyzed file result =>
    cases result with
    | error _ => cases h
    | ok response => exact ⟨file, response, rfl, List.mem_singleton.1 h⟩

/-- The analyzer is run for requests only, and in its state before. -/
theorem analyzed_of_outcome {result : Except AnalysisError Response}
    (h : outcome F s call = .analyzed file result) :
    Request.parse call.line = .ok ⟨file⟩ ∧
      result = (Analyzer.analyze F call.fs file s.analyzer).1 := by
  unfold outcome at h
  split at h
  · cases h
  · split at h
    · cases h
    · rename_i request hparse
      unfold requested at h
      split at h
      · cases h
      · cases h
        exact ⟨hparse, rfl⟩

/-- What is stored was given by an analysis of the file, at that time, that
ended with a response. -/
theorem mem_stored {e : Stored} {calls : List Call} (h : e ∈ stored F s calls) :
    ∃ before call rest response, calls = before ++ call :: rest ∧ call.now = e.time ∧
      Request.parse call.line = .ok ⟨e.file⟩ ∧
      (Analyzer.analyze F call.fs e.file (after F s before).analyzer).1 = .ok response ∧
      e.text = response.render := by
  induction calls generalizing s with
  | nil => cases h
  | cons call rest ih =>
    rcases List.mem_append.1 h with h | h
    · obtain ⟨file, response, hanalyzed, rfl⟩ := Outcome.mem_stored h
      obtain ⟨hparse, hresult⟩ := analyzed_of_outcome hanalyzed
      exact ⟨[], call, rest, response, rfl, rfl, hparse, hresult.symm, rfl⟩
    · obtain ⟨before, c, later, response, rfl, hc⟩ := ih h
      exact ⟨call :: before, c, later, response, rfl, hc⟩

/-- The line stores no answer and leaves the analyzer as it was. -/
def StoresNothing (F : Frontend φ) (s : Server φ) (call : Call) : Prop :=
  stored F s [call] = [] ∧
    (handle F s call).cache.entries.entries ⊆ s.cache.entries.entries ∧
    (handle F s call).analyzer = s.analyzer

/-- A line that ends without a run of the analyzer. -/
theorem storesNothing_of_outcome
    (h : ∀ file result, outcome F s call ≠ .analyzed file result) : StoresNothing F s call := by
  unfold StoresNothing
  rw [handle_eq]
  unfold stored
  cases ho : outcome F s call with
  | blank | malformed e => exact ⟨rfl, List.Subset.refl _, rfl⟩
  | kept text => exact ⟨rfl, List.filter_subset_self _, rfl⟩
  | analyzed file result => exact absurd ho (h file result)

/-- Without a time of its last change a file is not taken up. -/
theorem analyze_unknown {fs : FileSystem} {a : Analyzer φ} {e : UnknownTime}
    (h : Registry.modified fs (a.resolvePath file) = .error e) :
    Analyzer.analyze F fs file a = (.error (.unknownTime e), a) := by
  unfold Analyzer.analyze
  rw [Analyzer.step_get]
  dsimp only
  rw [h]
  rfl

theorem storesNothing_of_unknown {e : UnknownTime} (hparse : Request.parse call.line = .ok ⟨file⟩)
    (h : Registry.modified call.fs (s.analyzer.resolvePath file) = .error e) :
    StoresNothing F s call := by
  cases hfind : (s.cache.find call.now file).1 with
  | some text =>
    refine storesNothing_of_outcome fun other result => ?_
    rw [outcome_of_request hparse, requested, hfind]
    simp
  | none =>
    have ho : outcome F s call = .analyzed file (.error (.unknownTime e)) := by
      rw [outcome_of_request hparse, requested, hfind, analyze_unknown h]
    unfold StoresNothing
    rw [handle_eq]
    unfold stored
    rw [ho]
    exact ⟨rfl, List.filter_subset_self _, congrArg Prod.snd (analyze_unknown h)⟩

/-- Behind every run whose clock does not go back: a request is answered from
the cache exactly if the latest answer that was stored for its text is
fresh, and then with that answer and without the analyzer. What was stored
are the responses of analyses that ended well. A blank line, a line that is
no request and a request for a file without a time store nothing. -/
theorem kept_while_fresh (F : Frontend φ) (a : Analyzer φ) (ttl : Nat) (calls : List Call)
    (call : Call) (hclock : (calls ++ [call]).Pairwise (·.now ≤ ·.now)) :
    let start := ofAnalyzer a ttl
    let s := after F start calls
    let ledger := stored F start calls
    (∀ file, Request.parse call.line = .ok ⟨file⟩ →
      (∀ text, outcome F s call = .kept text ↔
        ∃ e, latest? ledger file = some e ∧ call.now < e.time + ttl ∧ text = e.text) ∧
      ∀ text, outcome F s call = .kept text →
        (handleLine F call.fs call.now call.line s).1 = .ok (some text) ∧
          (handle F s call).analyzer = s.analyzer) ∧
    (∀ e ∈ ledger, ∃ before c rest response, calls = before ++ c :: rest ∧ c.now = e.time ∧
      Request.parse c.line = .ok ⟨e.file⟩ ∧
      (Analyzer.analyze F c.fs e.file (after F start before).analyzer).1 = .ok response ∧
      e.text = response.render) ∧
    (∀ file entry, (file, entry) ∈ s.cache.entries.entries →
      ∃ e ∈ ledger, e.file = file ∧ entry = e.entry ttl) ∧
    (call.line.toList.all Text.isWhite = true → StoresNothing F s call) ∧
    (∀ e, Request.parse call.line = .error e → StoresNothing F s call) ∧
    ∀ file e, Request.parse call.line = .ok ⟨file⟩ →
      Registry.modified call.fs (s.analyzer.resolvePath file) = .error e →
      StoresNothing F s call := by
  intro start s ledger
  obtain ⟨hsorted, -, hlast⟩ := List.pairwise_append.1 hclock
  have hstart : Cached ttl 0 [] start.cache := Cached.ofTtl ttl 0
  have hcached : Cached ttl call.now ledger s.cache :=
    cached_after hstart hsorted (fun _ _ => Nat.zero_le _)
      (fun c hc => hlast c hc call List.mem_cons_self) (Nat.zero_le _)
  refine ⟨fun file hparse => ⟨fun text => ?_, fun text hkept => ?_⟩, fun e => mem_stored,
    fun file entry hentry => ?_, fun hwhite => ?_, fun e hparse => ?_,
    fun file e => storesNothing_of_unknown⟩
  · rw [← hcached.find (Nat.le_refl _), outcome_of_request hparse, requested]
    cases (s.cache.find call.now file).1 <;> simp
  · rw [handle_eq, handleLine_eq, hkept]
    exact ⟨rfl, rfl⟩
  · obtain ⟨e, he, hentry⟩ := hcached.current file entry (Table.get?_of_mem hcached.once hentry)
    obtain ⟨hmem, hfile⟩ := mem_of_latest? he
    exact ⟨e, hmem, hfile, hentry⟩
  · refine storesNothing_of_outcome fun file result => ?_
    rw [outcome, if_pos hwhite]
    simp
  · refine storesNothing_of_outcome fun file result h => ?_
    rw [(analyzed_of_outcome h).1] at hparse
    cases hparse

/-- A request for a file with an error in it. -/
def askedAt (now : Nat) : Call :=
  ⟨⟨⟨[([], .directory 0), (["a.ts"], .file (some "let a = ;".toList) 1)]⟩⟩, now,
    "\x7b\"file\":\"/a.ts\"\x7d"⟩

/-- The answer is stored, found, dropped, stored again and found again. -/
theorem kept_while_fresh_again :
    let start := ofAnalyzer default 10
    let past := [askedAt 0, askedAt 5, askedAt 15]
    (past ++ [askedAt 20]).Pairwise (·.now ≤ ·.now) ∧
    (stored Program.frontend start past).map (·.time) = [0, 15] ∧
    ∃ text, outcome Program.frontend (after Program.frontend start past) (askedAt 20) =
      .kept text := by
  intro start past
  have hclock : (past ++ [askedAt 20]).Pairwise (·.now ≤ ·.now) := by decide
  obtain ⟨htimes, hlatest⟩ : (stored Program.frontend start past).map (·.time) = [0, 15] ∧
      (latest? (stored Program.frontend start past) "/a.ts").map (·.time) = some 15 := by
    unfold past askedAt
    rw [String.toList_ofList]
    decide +kernel
  obtain ⟨e, he, htime⟩ := Option.map_eq_some_iff.1 hlatest
  have hfresh : (askedAt 20).now < e.time + 10 := by
    rw [htime]
    decide
  have hparse : Request.parse (askedAt 20).line = .ok ⟨"/a.ts"⟩ := by decide +kernel
  obtain ⟨hhit, -⟩ := (kept_while_fresh Program.frontend default 10 past (askedAt 20) hclock).1
    "/a.ts" hparse
  exact ⟨hclock, htimes, e.text, (hhit e.text).2 ⟨e, he, hfresh, rfl⟩⟩

end Server

end ScriptAnalysis
