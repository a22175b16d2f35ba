import ScriptAnalysis.Proofs.Checking.Yielding
import ScriptAnalysis.Proofs.Checking.ClassTypes

/-!
# Widening the types of a checker

Between calls a checker stands outside of functions and classes, where it
refers to no types, so that every call starts and ends in a closed state. The
table of a checker has canonical unions of types that are there, which is what
widening rests on.

**Results.**
* `closed_after`: after any calls, nothing that a checker refers to is missing.
* `widening_closes`: in each such table widening is a closure, upwards with
  regard to assignability.
-/
namespace ScriptAnalysis.Checker

open Checking TypeTable

variable {α : Type} {k : Checker}

/-- A step of a checker outside of functions and classes. -/
theorem closed_run {mentions : α → List TypeId} {x : Rules → Check α}
    (hx : ∀ self, Yielding self → ∀ n, Yields n k.here mentions (x self))
    (hs : k.state.Closed) (hplace : k.here.mentions = []) : (k.run x).2.state.Closed := by
  have hbelow : Below k.state.types.size k.here.mentions := by
    rw [hplace]
    exact below_nil
  exact (hx _ (yielding_rules _) _ k.state hs (Nat.le_refl _) hbelow).2.1

theorem closed_checkFile (hs : k.state.Closed) (hplace : k.here.mentions = []) (file : FileId) :
    (k.checkFile file).state.Closed := by
  unfold checkFile
  split
  · rename_i source _ _
    let marked : Checker :=
      { k with state := { k.state with checked := k.state.checked.setIfInBounds file true } }
    have hmarked : marked.state.Closed := ⟨hs.types, { hs.found with }⟩
    exact closed_run (k := marked) (fun self h _ => Yields.at_top (.forM fun node _ =>
      (h.statement _ _ node).andThen fun _ => .pure below_nil)) hmarked hplace
  · exact hs

theorem closed_call (hs : k.state.Closed) (hplace : k.here.mentions = []) (call : Call) :
    (k.call call).state.Closed := by
  cases call with
  | check file => exact closed_checkFile hs hplace file
  | diagnostics file => exact closed_checkFile hs hplace file
  | typeAt file node =>
    show (k.typeAt file node).2.state.Closed
    rcases k.typeAt_checker file node with h | h
    · rw [h]
      exact hs
    · rw [h]
      exact closed_checkFile hs hplace file
  | signature file node =>
    show (k.functionSignature file node).2.state.Closed
    unfold functionSignature
    split
    · exact hs
    · have hback : (k.checkFile file).here = k.here := (k.checkFile_program file).here
      refine closed_run (fun self h n => .at_declaration fun m c' _ => h.signature node)
        (closed_checkFile hs hplace file) ?_
      rw [hback]
      exact hplace

/-- A new checker has only the predefined types. -/
theorem closed_ofFiles (files : List SourceFile) (options : Checking.Options) :
    (ofFiles files options).state.Closed where
  types := closed_initial
  found :=
    { values := holds_empty
      aliases := holds_empty
      classes := holds_empty
      interfaces := holds_empty
      signatures := holds_empty
      arrows := holds_empty
      contextual := holds_empty
      apparent := holds_empty }

/-- After any calls the types that the table and the memory of a checker refer
to are in the table. -/
theorem closed_after (files : List SourceFile) (options : Checking.Options) (calls : List Call) :
    ((ofFiles files options).after calls).state.Closed := by
  have hall : ∀ k : Checker, k.state.Closed → k.here.mentions = [] →
      (k.after calls).state.Closed := by
    induction calls with
    | nil => exact fun _ hs _ => hs
    | cons call rest ih =>
      intro k hs hplace
      refine ih (k.call call) (closed_call hs hplace call) ?_
      rw [(k.call_program call).here]
      exact hplace
  exact hall _ (closed_ofFiles files options) rfl

/-- After any calls, for every type of the table and the type that widening
makes of it:
* widening that once more gives the same type and adds nothing;
* none of its members is a literal;
* a type without literals among its members is given back, and nothing is
  added;
* the first type fits the second, whatever the options. -/
theorem widening_closes (files : List SourceFile) (options : Checking.Options)
    (calls : List Call) (id : TypeId)
    (hid : id < ((ofFiles files options).after calls).types.size) :
    let t := ((ofFiles files options).after calls).types
    let t' := (widen id t).2
    let w := (widen id t).1
    widen w t' = (w, t') ∧
    (∀ m ∈ t'.unionMembers w, t'.isLiteral m = false) ∧
    ((∀ m ∈ t.unionMembers id, t.isLiteral m = false) → widen id t = (id, t)) ∧
    ∀ strict, t'.assignable strict id w = true := by
  intro t t' w
  have ht : t.Closed := (closed_after files options calls).types
  have hwidened : Widened t id t' w := widened ht.tidy ht.indexed ht.founded id
  exact ⟨hwidened.stays, hwidened.plain, widen_of_not_literal ht.tidy ht.indexed ht.founded,
    fun _ => hwidened.fits ht.tidy ht.indexed hid⟩

/-- A variable of two literals and another type. -/
def mixedUnion : Checker :=
  ofSources [("/p/a.ts", "let x: 1 | \"a\" | boolean;".toList)] ⟨true, false⟩

/-- The type of the variable is widened to a new type, and no further. -/
theorem widening_closes_mixed :
    let t := (mixedUnion.after [.check 0]).types
    14 < t.size ∧ t.unionMembers 14 = [12, 13, .boolean] ∧
    (widen 14 t).2.unionMembers 15 = [.number, .string, .boolean] ∧
    widen 15 (widen 14 t).2 = (15, (widen 14 t).2) := by
  intro t
  obtain ⟨hid, hmembers, hwide, hwidened⟩ : 14 < t.size ∧
      t.unionMembers 14 = [12, 13, .boolean] ∧ (widen 14 t).1 = 15 ∧
      (widen 14 t).2.unionMembers 15 = [.number, .string, .boolean] := by
    unfold t mixedUnion
    rw [String.toList_ofList]
    decide +kernel
  have hstays := (widening_closes _ _ [.check 0] 14 hid).1
  refine ⟨hid, hmembers, hwidened, ?_⟩
  rw [← hwide]
  exact hstays

end ScriptAnalysis.Checker
