import Mathlib.Algebra.Order.BigOperators.Group.List
import Mathlib.Tactic.Linarith
import ScriptAnalysis.Proofs.Binding.WellFormed
import ScriptAnalysis.Proofs.Checking.Isolation
import ScriptAnalysis.Proofs.Checking.Nesting

/-!
# The checker terminates

The rules of the checker call each other without end in sight: files import
each other, classes and interfaces extend each other, aliases stand for
themselves, functions return what other functions return and variables start
with themselves. Here each call to a checker is given a limit on how deeply
these uses may be nested. A limit that depends on the size of the program alone
is never hit, so the recursion ends by itself.

**Results.**
* `shaped_ofFiles`, `wide_of_nestingBound`: a program of parsed files has the
  shape that `Within` asks for, and `nestingBound` leaves room for any node.
* `callWithin_terminates`: a call does not hit the limit, and returns with the
  checker where it was.
* `after_eq_afterWithin`: the checker is the one with the limit `nestingBound`.
* `calls_terminate`: all of it for the calls to a new checker.
-/
namespace ScriptAnalysis

open Checking

namespace Checking

/-! ## Room for a program -/

/-- The nodes of all files. -/
def nodeCount (files : Array SourceFile) : Nat :=
  files.foldl (fun n f => n + f.arena.size) 0

theorem size_le_nodeCount (files : Array SourceFile) (file : FileId) :
    (files.getD file default).arena.size ≤ nodeCount files := by
  have hsum : nodeCount files = (files.toList.map fun f => f.arena.size).sum := by
    rw [List.sum_eq_foldl, List.foldl_map, Array.foldl_toList]
    rfl
  rw [Array.getD_eq_getD_getElem?]
  cases hfile : files[file]? with
  | none => exact Nat.zero_le _
  | some f =>
    rw [hsum, Option.getD_some]
    have hmem : f ∈ files.toList := Array.mem_toList_iff.2 (Array.mem_of_getElem? hfile)
    exact List.le_sum_of_mem (List.mem_map_of_mem hmem)

/-- The bound is enough for all guards of all symbols, each followed by a walk
through as many nodes as there are. -/
theorem wide_of_nestingBound {k : Checker} {n : Nat} (hn : nestingBound k.here ≤ n) :
    Wide (nodeCount k.files) (4 * k.bindings.symbols.size) n := by
  have hbound : nestingBound k.here =
      16 * Nat.pow (nodeCount k.files + k.bindings.symbols.size + 2) 2 := rfl
  rw [hbound] at hn
  unfold Wide worth
  generalize nodeCount k.files = nodes at hn ⊢
  generalize k.bindings.symbols.size = symbols at hn ⊢
  have hsquare : Nat.pow (nodes + symbols + 2) 2 = (nodes + symbols + 2) * (nodes + symbols + 2) :=
    Nat.pow_two _
  rw [hsquare] at hn
  nlinarith [Nat.zero_le (nodes * symbols)]

theorem shaped_ofFiles {files : List SourceFile} (hf : ∀ file ∈ files, file.arena.Forest []) :
    Shaped (nodeCount files.toArray) files.toArray (Binding.bindProgram files) where
  forest file := by
    rw [Array.getD_eq_getD_getElem?, List.getElem?_toArray]
    cases hfile : files[file]? with
    | none => exact Arena.forest_empty
    | some f => exact hf f (List.mem_of_getElem? hfile)
  small := size_le_nodeCount files.toArray
  looped file d value hvalue := by
    obtain ⟨f, hfile, hloop⟩ := (Binding.after_bindProgram hf).looped ⟨file, d⟩ value hvalue
    rw [Array.getD_eq_getD_getElem?, List.getElem?_toArray, hfile]
    exact hloop

end Checking

namespace Checker

/-! ## Calls with a limit -/

/-- Runs a step of the checker with at most `n` nested uses of the rules. -/
def runWithin (n : Nat) (k : Checker) (x : Rules → Check α) : α × Checker :=
  let c := k.here
  let ((a, c), s) := x (rules n) c k.state
  (a, { k with standpoint := c.toStandpoint, state := s })

/-- `checkFile` with a limit. -/
def checkFileWithin (n : Nat) (k : Checker) (file : FileId) : Checker :=
  match k.files[file]?, k.state.checked[file]? with
  | some source, some false =>
    let k := { k with state := { k.state with checked := k.state.checked.setIfInBounds file true } }
    (k.runWithin n fun self => atTop file <| source.statements.forM fun node => do
      let _ ← self.statement node).2
  | _, _ => k

/-- `semanticDiagnostics` with a limit. -/
def semanticDiagnosticsWithin (n : Nat) (k : Checker) (file : FileId) :
    List Diagnostic × Checker :=
  let k := k.checkFileWithin n file
  let all := k.bindings.diagnosticsOf file ++ k.state.diagnostics.getD file []
  (dropRepeated (Order.sort reportOrder all), k)

/-- `typeAt` with a limit. -/
def typeAtWithin (n : Nat) (k : Checker) (file : FileId) (node : NodeId) :
    Except TypeQueryError TypeId × Checker :=
  match k.files[file]? with
  | none => (.error (.unknownFile (toString file)), k)
  | some source =>
    let k := k.checkFileWithin n file
    match (k.state.nodeTypes.getD file #[]).getD node none with
    | some type => (.ok type, k)
    | none => (.error (.noType node (source.arena.form? node)), k)

/-- `functionSignature` with a limit. -/
def functionSignatureWithin (n : Nat) (k : Checker) (file : FileId) (node : NodeId) :
    Option Signature × Checker :=
  match (k.files[file]?).bind (·.arena.functionOf? node) with
  | none => (none, k)
  | some _ =>
    let k := k.checkFileWithin n file
    let scope := (k.bindings.nodeScope? file node).getD (k.bindings.fileScope file)
    let (s, k) := k.runWithin n fun self => atDeclaration file scope (signature self node)
    (some s, k)

/-- `call` with a limit. -/
def callWithin (n : Nat) (k : Checker) : Call → Checker
  | .check file => k.checkFileWithin n file
  | .diagnostics file => (k.semanticDiagnosticsWithin n file).2
  | .typeAt file node => (k.typeAtWithin n file node).2
  | .signature file node => (k.functionSignatureWithin n file node).2

/-- `after` with a limit. -/
def afterWithin (n : Nat) (k : Checker) (calls : List Call) : Checker :=
  calls.foldl (callWithin n) k

/-! ### The checker has a limit -/

theorem checkFile_eq (k : Checker) (file : FileId) :
    k.checkFile file = k.checkFileWithin (nestingBound k.here) file := by
  unfold checkFile checkFileWithin
  rfl

theorem nestingBound_here {k k' : Checker} (h : SameProgram k k') :
    nestingBound k'.here = nestingBound k.here := by
  unfold nestingBound
  rw [show k'.here.files = k.here.files from h.files,
    show k'.here.bindings = k.here.bindings from h.bindings]

theorem functionSignature_eq (k : Checker) (file : FileId) (node : NodeId) :
    k.functionSignature file node = k.functionSignatureWithin (nestingBound k.here) file node := by
  unfold functionSignature functionSignatureWithin
  rw [← checkFile_eq, ← nestingBound_here (k.checkFile_program file)]
  rfl

theorem call_eq_callWithin (k : Checker) (call : Call) :
    k.call call = k.callWithin (nestingBound k.here) call := by
  cases call with
  | check file => exact k.checkFile_eq file
  | diagnostics file =>
    show k.checkFile file = k.checkFileWithin _ file
    exact k.checkFile_eq file
  | typeAt file node =>
    show (k.typeAt file node).2 = (k.typeAtWithin _ file node).2
    unfold typeAt typeAtWithin
    exact checkFile_eq k file ▸ rfl
  | signature file node => exact congrArg Prod.snd (k.functionSignature_eq file node)

theorem after_eq_afterWithin {n : Nat} {k : Checker} (hn : nestingBound k.here = n)
    (calls : List Call) : k.after calls = k.afterWithin n calls := by
  induction calls generalizing k with
  | nil => rfl
  | cons call rest ih =>
    have hfirst : k.call call = k.callWithin n call := hn ▸ k.call_eq_callWithin call
    have hrest := ih ((nestingBound_here (k.call_program call)).trans hn)
    calc k.after (call :: rest)
      _ = (k.call call).after rest := rfl
      _ = (k.callWithin n call).afterWithin n rest := by rw [hrest, hfirst]
      _ = k.afterWithin n (call :: rest) := rfl

/-! ## A call -/

/-- The limit was not hit, and the checker is back where it was. -/
structure Returns (k k' : Checker) : Prop where
  program : SameProgram k k'
  exhausted : k'.state.exhausted = k.state.exhausted

theorem Returns.refl (k : Checker) : Returns k k := ⟨.refl k, rfl⟩

theorem Returns.trans {k k' k'' : Checker} (h : Returns k k') (h' : Returns k' k'') :
    Returns k k'' :=
  ⟨h.program.trans h'.program, h'.exhausted.trans h.exhausted⟩

section

variable {α : Type} {n : Nat} {k : Checker}

theorem runWithin_returns {x : Rules → Check α}
    (hx : Completes k.here (4 * k.bindings.symbols.size) (x (rules n))) :
    Returns k (k.runWithin n x).2 := by
  obtain ⟨hback, hp⟩ := hx k.state (card_free_le k.here k.state)
  exact ⟨⟨rfl, rfl, rfl, congrArg Context.toStandpoint hback⟩, hp.exhausted⟩

variable (hp : Shaped (nodeCount k.files) k.files k.bindings) (hn : nestingBound k.here ≤ n)

include hp hn

theorem checkFileWithin_returns (file : FileId) : Returns k (k.checkFileWithin n file) := by
  have hw : Wide (nodeCount k.files) (4 * k.bindings.symbols.size) n := wide_of_nestingBound hn
  have hrules := rules_within (nodeCount k.files) n
  unfold checkFileWithin
  split
  · rename_i source _ _
    let k₁ : Checker :=
      { k with state := { k.state with checked := k.state.checked.setIfInBounds file true } }
    have hmarked : Returns k k₁ := ⟨⟨rfl, rfl, rfl, rfl⟩, rfl⟩
    have hchecked : Returns k₁ (k₁.runWithin n fun self =>
        atTop file <| source.statements.forM fun node => do
          let _ ← self.statement node).2 := by
      refine runWithin_returns (.at_top (.forM fun node _ => ?_))
      refine Completes.bind (hrules.statement hp (hw.fits hp) fun _ _ value hvalue => ?_)
        fun _ => .pure _
      exact hw.value hvalue hp
    exact hmarked.trans hchecked
  · exact .refl k

theorem functionSignatureWithin_returns (file : FileId) (node : NodeId) :
    Returns k (k.functionSignatureWithin n file node).2 := by
  have hw : Wide (nodeCount k.files) (4 * k.bindings.symbols.size) n := wide_of_nestingBound hn
  have hrules := rules_within (nodeCount k.files) n
  unfold functionSignatureWithin
  split
  · exact .refl k
  · have hchecked := checkFileWithin_returns hp hn file
    rw [← hchecked.program.files, ← hchecked.program.bindings] at hp hw
    rw [← hchecked.program.files] at hrules
    let k' := k.checkFileWithin n file
    let scope := (k'.bindings.nodeScope? file node).getD (k'.bindings.fileScope file)
    have hfound : Returns k' (k'.runWithin n fun self =>
        atDeclaration file scope (signature self node)).2 :=
      runWithin_returns (.at_declaration fun _ =>
        hrules.completes_signature hp (.more (hw.fits hp)))
    exact hchecked.trans hfound

theorem callWithin_returns (call : Call) : Returns k (k.callWithin n call) := by
  cases call with
  | check file => exact checkFileWithin_returns hp hn file
  | diagnostics file => exact checkFileWithin_returns hp hn file
  | typeAt file node =>
    show Returns k (k.typeAtWithin n file node).2
    unfold typeAtWithin
    split
    · exact .refl k
    · dsimp only
      split <;> exact checkFileWithin_returns hp hn file
  | signature file node => exact functionSignatureWithin_returns hp hn file node

theorem afterWithin_returns (calls : List Call) : Returns k (k.afterWithin n calls) := by
  induction calls generalizing k with
  | nil => exact .refl k
  | cons call rest ih =>
    have hfirst := callWithin_returns hp hn call
    refine hfirst.trans (ih ?_ ?_)
    · rw [hfirst.program.files, hfirst.program.bindings]
      exact hp
    · rw [nestingBound_here hfirst.program]
      exact hn

end

/-- For every program of parsed files there is a bound on the nesting of the
rules such that no calls to its checker hit the limit that they are given, if
this is the bound or more. The checker itself is limited to the bound. -/
theorem calls_terminate (sources : List (String × List Char)) (options : Checking.Options) :
    ∃ bound,
      (∀ calls, (ofFiles (sources.map fun s => SourceFile.parse s.1 s.2) options).after calls =
        (ofFiles (sources.map fun s => SourceFile.parse s.1 s.2) options).afterWithin bound
          calls) ∧
      ∀ more calls, ((ofFiles (sources.map fun s => SourceFile.parse s.1 s.2) options).afterWithin
        (bound + more) calls).state.exhausted = false := by
  have hforest : ∀ file ∈ sources.map fun s => SourceFile.parse s.1 s.2,
      file.arena.Forest [] := fun file hfile => by
    obtain ⟨s, -, rfl⟩ := List.mem_map.1 hfile
    exact SourceFile.forest_parse s.1 s.2
  refine ⟨nestingBound (ofFiles _ options).here, fun calls => after_eq_afterWithin rfl calls,
    fun more calls => ?_⟩
  exact (afterWithin_returns (shaped_ofFiles hforest) (Nat.le_add_right _ more) calls).exhausted

/-- A limit can be hit: with no use left the statement is not looked at. -/
example : ((ofFiles [SourceFile.parse "/p/a.ts" "f();".toList] ⟨true, false⟩).afterWithin 0
    [.check 0]).state.exhausted = true := by
  rw [String.toList_ofList]
  decide +kernel

end Checker

end ScriptAnalysis
