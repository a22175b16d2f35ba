import ScriptAnalysis.Proofs.Checking.Order

/-!
# What a call leaves alone

A call to a checker is about one file, but what it finds out may lead it
anywhere in the program: it goes to declarations in other files, into scopes,
functions, classes and loops, and notes what it is resolving meanwhile. Here:
it is back where it was when it returns, and has recorded nothing about any
other file.

**Calls.** `Call` lists what a checker can be asked; `after` are any calls,
one after the other.

**Results.**
* `call_cases`: a call does nothing, or checks its file and records nothing
  else.
* `call_program`, `after_program`: a call, and any number of calls, leave the
  standpoint as it is.
* `call_part`: a call changes the record of the file that it is about only.
* `calls_isolated`: all of it for the calls to a new checker.
-/
namespace ScriptAnalysis

open Checking

namespace Checking

/-- What is recorded of a file is the same in both states. -/
structure SamePart (file : FileId) (s s' : State) : Prop where
  checked : s'.checked[file]? = s.checked[file]?
  diagnostics : s'.diagnostics[file]? = s.diagnostics[file]?
  nodeTypes : s'.nodeTypes[file]? = s.nodeTypes[file]?

theorem SamePart.refl (file : FileId) (s : State) : SamePart file s s := ⟨rfl, rfl, rfl⟩

theorem SamePart.trans {file : FileId} {s t u : State} (h : SamePart file s t)
    (h' : SamePart file t u) : SamePart file s u :=
  ⟨h'.checked.trans h.checked, h'.diagnostics.trans h.diagnostics,
    h'.nodeTypes.trans h.nodeTypes⟩

theorem SameRecord.part {s s' : State} (h : SameRecord s s') (file : FileId) :
    SamePart file s s' :=
  ⟨by rw [h.checked], by rw [h.diagnostics], by rw [h.nodeTypes]⟩

end Checking

namespace Checker

/-! ## Calls -/

/-- What a checker can be asked. -/
inductive Call where
  | check (file : FileId)
  | diagnostics (file : FileId)
  | typeAt (file : FileId) (node : NodeId)
  | signature (file : FileId) (node : NodeId)

/-- The file that a call is about. -/
def Call.file : Call → FileId
  | check file => file
  | diagnostics file => file
  | typeAt file _ => file
  | signature file _ => file

/-- What a call makes of the checker. -/
def call (k : Checker) : Call → Checker
  | .check file => k.checkFile file
  | .diagnostics file => (k.semanticDiagnostics file).2
  | .typeAt file node => (k.typeAt file node).2
  | .signature file node => (k.functionSignature file node).2

/-- What some calls, one after the other, make of the checker. -/
def after (k : Checker) (calls : List Call) : Checker := calls.foldl call k

/-! ## One call -/

theorem typeAt_checker (k : Checker) (file : FileId) (node : NodeId) :
    (k.typeAt file node).2 = k ∨ (k.typeAt file node).2 = k.checkFile file := by
  unfold typeAt
  split
  · exact .inl rfl
  · dsimp only
    split <;> exact .inr rfl

/-- A step that comes back to where it has started and records nothing leaves
the program and its record as they are. -/
theorem run_same (k : Checker) {α : Type} {x : Rules → Check α}
    (h : (x (rules (nestingBound k.here)) k.here k.state).1.2 = k.here ∧
      SameRecord k.state (x (rules (nestingBound k.here)) k.here k.state).2) :
    SameProgram k (k.run x).2 ∧ SameRecord k.state (k.run x).2.state :=
  ⟨⟨rfl, rfl, rfl, congrArg Context.toStandpoint h.1⟩, h.2⟩

/-- The signature of a function is found at its declaration, where nothing
is recorded. -/
theorem functionSignature_cases (k : Checker) (file : FileId) (node : NodeId) :
    (k.functionSignature file node).2 = k ∨
    SameProgram (k.checkFile file) (k.functionSignature file node).2 ∧
      SameRecord (k.checkFile file).state (k.functionSignature file node).2.state := by
  unfold functionSignature
  split
  · exact .inl rfl
  · right
    have hsilent := (rules_follow (nestingBound (k.checkFile file).here)).silent_signature node
    have hrun := (k.checkFile file).run_same
      (x := fun self => atDeclaration file
        (((k.checkFile file).bindings.nodeScope? file node).getD
          ((k.checkFile file).bindings.fileScope file)) (signature self node))
      (hsilent.same_atDeclaration file _ _)
    dsimp only
    -- what the step does is known, so it is not looked into again
    generalize (k.checkFile file).run _ = result at hrun ⊢
    exact hrun

/-- A signature is given for every function of the program. -/
theorem isSome_functionSignature (k : Checker) (file : FileId) (node : NodeId) :
    (k.functionSignature file node).1.isSome =
      ((k.files[file]?).bind (·.arena.functionOf? node)).isSome := by
  unfold functionSignature
  split <;> rename_i h
  · rw [h]
    rfl
  · rw [h]
    rfl

/-- A call does nothing, or checks its file and records nothing else. -/
theorem call_cases (k : Checker) (call : Call) :
    k.call call = k ∨ SameProgram (k.checkFile call.file) (k.call call) ∧
      SameRecord (k.checkFile call.file).state (k.call call).state := by
  cases call with
  | check file => exact .inr ⟨.refl _, .refl _⟩
  | diagnostics file => exact .inr ⟨.refl _, .refl _⟩
  | typeAt file node =>
    rcases k.typeAt_checker file node with h | h
    · exact .inl h
    · right
      show SameProgram _ (k.typeAt file node).2 ∧ SameRecord _ (k.typeAt file node).2.state
      rw [h]
      exact ⟨.refl _, .refl _⟩
  | signature file node => exact k.functionSignature_cases file node

/-- A call ends where it has started. -/
theorem call_program (k : Checker) (call : Call) : SameProgram k (k.call call) := by
  rcases k.call_cases call with h | ⟨hp, -⟩
  · rw [h]
    exact .refl k
  · exact (checkFile_program k call.file).trans hp

/-- Checking a file records nothing about another one. -/
theorem checkFile_part (k : Checker) {file other : FileId} (h : other ≠ file) :
    SamePart other k.state (k.checkFile file).state := by
  by_cases hc : k.state.checked[file]? = some false
  · cases hs : k.files[file]? with
    | none =>
      unfold checkFile
      rw [hs]
      exact .refl other k.state
    | some source =>
      have ht := checkFile_told hs hc
      refine ⟨?_, (ht.others other h).1, (ht.others other h).2⟩
      rw [checked_checkFile hs hc, if_neg h]
  · rw [checkFile_done hc]
    exact .refl other k.state

theorem call_part (k : Checker) (call : Call) {other : FileId} (h : other ≠ call.file) :
    SamePart other k.state (k.call call).state := by
  rcases k.call_cases call with hsame | ⟨-, hr⟩
  · rw [hsame]
    exact .refl other k.state
  · exact (k.checkFile_part h).trans (hr.part other)

/-! ## Any calls -/

theorem after_program (k : Checker) (calls : List Call) : SameProgram k (k.after calls) := by
  induction calls generalizing k with
  | nil => exact .refl k
  | cons call rest ih => exact (k.call_program call).trans (ih (k.call call))

/-! ## Calls to a new checker -/

theorem Surveyed.of_same {k₀ k k' : Checker} (h : Surveyed k₀ k) (hp : SameProgram k k')
    (hr : SameRecord k.state k'.state) : Surveyed k₀ k' where
  program := h.program.trans hp
  diagnostics := by rw [hr.diagnostics, hp.files, h.diagnostics]
  checked := by rw [hr.checked, hp.files, h.checked]
  fresh file hf := by
    rw [hr.checked] at hf
    rw [log_congr (hr.part file).diagnostics]
    exact h.fresh file hf
  done file hf d hd := by
    rw [hr.checked] at hf
    rw [log_congr (hr.part file).diagnostics]
    exact h.done file hf d hd

theorem Surveyed.after {k₀ k : Checker} (h : Surveyed k₀ k) (calls : List Call) :
    Surveyed k₀ (k.after calls) := by
  induction calls generalizing k with
  | nil => exact h
  | cons call rest ih =>
    refine ih ?_
    rcases k.call_cases call with hsame | ⟨hp, hr⟩
    · rw [hsame]
      exact h
    · exact (h.checkFile call.file).of_same hp hr

/-- Checking a file marks it, if it is a file of the program. -/
theorem Surveyed.marked {k₀ k : Checker} (h : Surveyed k₀ k) (file : FileId) :
    (k.checkFile file).state.checked[file]? = (k.files[file]?).map fun _ => true := by
  by_cases hf : file < k.files.size
  · rw [h.checked_self hf, Array.getElem?_eq_getElem hf, Option.map_some]
  · have hnone : k.files[file]? = none := Array.getElem?_eq_none (Nat.le_of_not_lt hf)
    have hmark : k.state.checked[file]? = none :=
      Array.getElem?_eq_none (by rw [h.checked]; exact Nat.le_of_not_lt hf)
    rw [checkFile_done (by rw [hmark]; decide), hmark, hnone, Option.map_none]

/-- After any calls to a new checker, for every further call:
* it returns with the checker at the standpoint where it was, which holds
  the file, the scope, the functions, classes, loops and expressions around,
  what is being resolved, and whether anything is recorded;
* it changes the reports, the types of nodes and the mark of no file but the
  one that it is about, and checking a file of the program marks it;
* asked for a function of a file that is marked, it changes nothing of the
  record. -/
theorem calls_isolated (files : List SourceFile) (options : Checking.Options)
    (calls : List Call) (call : Call) :
    let k := (ofFiles files options).after calls
    (k.call call).standpoint = k.standpoint ∧
    (∀ other, other ≠ call.file → SamePart other k.state (k.call call).state) ∧
    (∀ file, (k.call (.check file)).state.checked[file]? = (files[file]?).map fun _ => true) ∧
    (∀ file node, k.state.checked[file]? = some true →
      SameRecord k.state (k.call (.signature file node)).state) := by
  intro k
  refine ⟨(k.call_program call).standpoint, fun other => k.call_part call, fun file => ?_,
    fun file node hmark => ?_⟩
  · have hsurveyed := (surveyed_start files options).after calls
    have hfiles : k.files = files.toArray := hsurveyed.program.files
    show (k.checkFile file).state.checked[file]? = _
    rw [hsurveyed.marked file, hfiles, List.getElem?_toArray]
  · rcases k.functionSignature_cases file node with h | ⟨-, hr⟩
    · show SameRecord k.state (k.functionSignature file node).2.state
      rw [h]
      exact .refl k.state
    · rw [checkFile_done (by rw [hmark]; decide)] at hr
      exact hr

/-- Of two functions that call each other one is asked for when its file has
been checked. -/
theorem calls_isolated_mutual_calls :
    (mutualCalls.after [.check 1]).state.checked[1]? = some true ∧
    ((mutualCalls.after [.check 1]).functionSignature 1 19).1.isSome = true ∧
    SameRecord (mutualCalls.after [.check 1]).state
      ((mutualCalls.after [.check 1]).call (.signature 1 19)).state := by
  obtain ⟨files, options, hk⟩ : ∃ files options, mutualCalls = ofFiles files options :=
    ⟨_, _, rfl⟩
  have hmark : (mutualCalls.after [.check 1]).state.checked[1]? = some true := by
    have hthere : (mutualCalls.files[1]?).map (fun _ => true) = some true := rfl
    rw [hk] at hthere ⊢
    exact ((surveyed_start files options).marked 1).trans hthere
  have hfound : ((mutualCalls.after [.check 1]).functionSignature 1 19).1.isSome = true := by
    rw [isSome_functionSignature, (mutualCalls.after_program _).files]
    decide +kernel
  rw [hk] at hmark hfound ⊢
  exact ⟨hmark, hfound, (calls_isolated files options [.check 1] (.check 1)).2.2.2 1 19 hmark⟩

end Checker

end ScriptAnalysis
