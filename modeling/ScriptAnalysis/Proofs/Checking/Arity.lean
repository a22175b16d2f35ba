import ScriptAnalysis.Proofs.Checking.Coverage
import ScriptAnalysis.Proofs.Checking.Overloads

/-!
# How many arguments a call takes

A call must give as many arguments as there are parameters before the first
optional one. That is less than it needs when a required parameter stands
behind an optional one: such a parameter may go without an argument, and
nothing is reported.

`Accepts count signature` says which parameters may go without.

**Results.**
* `minArguments_le_iff`, `takesCount_iff`: the number that is compared, said
  by the parameters that are left without an argument.
* `Follows.findSignature_apply`: the choice among several signatures records
  nothing.
* `call_accepts`: which calls are accepted and which are reported, for every
  list of signatures.
-/
namespace ScriptAnalysis

namespace Checking

/-! ## Parameters without arguments -/

/-- There are not more arguments than parameters, and each parameter without
an argument is optional or stands behind an optional one. -/
def Accepts (count : Nat) (s : Signature) : Prop :=
  count ≤ s.parameters.length ∧
    ∀ i p, count ≤ i → s.parameters[i]? = some p → p.optional = true ∨
      ∃ j < i, ∃ q, s.parameters[j]? = some q ∧ q.optional = true

/-- Whether the first optional parameter comes soon enough. -/
theorem length_takeWhile_le_iff (parameters : List Parameter) (count : Nat) :
    (parameters.takeWhile fun p => !p.optional).length ≤ count ↔
      ∀ i p, count ≤ i → parameters[i]? = some p → p.optional = true ∨
        ∃ j < i, ∃ q, parameters[j]? = some q ∧ q.optional = true := by
  induction parameters generalizing count with
  | nil => simp
  | cons first rest ih =>
    cases hfirst : first.optional with
    | true =>
      refine iff_of_true (by simp [hfirst]) fun i p _ hp => ?_
      cases i with
      | zero =>
        cases hp
        exact .inl hfirst
      | succ i => exact .inr ⟨0, Nat.succ_pos i, first, rfl, hfirst⟩
    | false =>
      rw [List.takeWhile_cons_of_pos (by simp [hfirst]), List.length_cons]
      cases count with
      | zero =>
        refine iff_of_false (Nat.not_succ_le_zero _) fun hall => ?_
        rcases hall 0 first (Nat.le_refl 0) rfl with hoptional | ⟨j, hj, -⟩
        · rw [hfirst] at hoptional
          cases hoptional
        · exact Nat.not_lt_zero j hj
      | succ count =>
        rw [Nat.succ_le_succ_iff, ih]
        constructor
        · intro hall i p hi hp
          obtain ⟨i, rfl⟩ : ∃ k, i = k + 1 := ⟨i - 1, by omega⟩
          refine (hall i p (by omega) hp).imp_right ?_
          rintro ⟨j, hj, q, hq, hoptional⟩
          exact ⟨j + 1, by omega, q, hq, hoptional⟩
        · intro hall i p hi hp
          refine (hall (i + 1) p (by omega) hp).imp_right ?_
          rintro ⟨j, hj, q, hq, hoptional⟩
          cases j with
          | zero =>
            cases hq
            rw [hfirst] at hoptional
            cases hoptional
          | succ j => exact ⟨j, by omega, q, hq, hoptional⟩

theorem takesCount_iff (count : Nat) (s : Signature) :
    takesCount count s = true ↔ Accepts count s := by
  unfold takesCount Accepts Signature.minArguments
  rw [Bool.and_eq_true, decide_eq_true_eq, decide_eq_true_eq, length_takeWhile_le_iff, and_comm]

/-- If no required parameter stands behind an optional one, all that go
without an argument are optional. -/
theorem Accepts.optional {count : Nat} {s : Signature} (h : Accepts count s)
    (hordered : s.parameters.Pairwise fun p q => p.optional = true → q.optional = true) :
    ∀ p ∈ s.parameters.drop count, p.optional = true := by
  intro p hp
  obtain ⟨k, hk⟩ := List.mem_iff_getElem?.1 hp
  rw [List.getElem?_drop] at hk
  rcases h.2 (count + k) p (Nat.le_add_right count k) hk with hoptional | ⟨j, hj, q, hq, hoptional⟩
  · exact hoptional
  · obtain ⟨hjlt, rfl⟩ := List.getElem?_eq_some_iff.1 hq
    obtain ⟨hklt, rfl⟩ := List.getElem?_eq_some_iff.1 hk
    exact List.pairwise_iff_getElem.1 hordered j (count + k) hjlt hklt hj hoptional

/-! ## The choice -/

section

variable {self : Rules} {n : Nat} {c : Context} {s : State} (h : Follows self n)

include h

/-- The choice among some signatures comes back to where it has started, and
records nothing. -/
theorem Follows.findSignature_apply (arguments : List NodeId) (signatures : List Signature) :
    ∃ found s', findSignature self arguments signatures c s = ((found, c), s') ∧
      SameRecord s s' ∧ ∀ signature ∈ found, signature ∈ signatures := by
  induction signatures generalizing s with
  | nil => exact ⟨none, s, rfl, .refl s, fun _ h => by cases h⟩
  | cons first rest ih =>
    have htrial := (h.silently_argumentsFit (c := c) (s := s) arguments first).2
    rw [h.findSignature_cons]
    split
    · refine ⟨some first, _, rfl, htrial, fun signature hsignature => ?_⟩
      exact Option.some.inj hsignature ▸ List.mem_cons_self
    · obtain ⟨found, s', hrun, hsame, hmem⟩ := ih (s := afterTrial self c arguments s first)
      refine ⟨found, s', hrun, htrial.trans hsame, fun signature hsignature => ?_⟩
      exact List.mem_cons_of_mem first (hmem signature hsignature)

/-- A call that some signature takes is checked against one that does. -/
theorem Follows.resolveCall_taken (node : NodeId) {signatures : List Signature}
    {arguments : List NodeId} (hsome : signatures.filter (takesCount arguments.length) ≠ []) :
    ∃ chosen ∈ signatures.filter (takesCount arguments.length), ∃ s', SameRecord s s' ∧
      resolveCall self node signatures arguments c s =
        ((arguments.zip chosen.parameters).forM (fun pair => checkArgument self pair.1 pair.2) >>=
          fun _ => pure chosen.returnType : Check TypeId) c s' := by
  unfold resolveCall
  generalize signatures.filter (takesCount arguments.length) = candidates at hsome ⊢
  cases candidates with
  | nil => exact absurd rfl hsome
  | cons first others =>
    cases others with
    | nil => exact ⟨first, List.mem_cons_self, s, .refl s, rfl⟩
    | cons second others =>
      obtain ⟨found, s', hrun, hsame, hmem⟩ :=
        h.findSignature_apply (c := c) (s := s) arguments (first :: second :: others)
      refine ⟨found.getD first, ?_, s', hsame, ?_⟩
      · cases found with
        | none => exact List.mem_cons_self
        | some found => exact hmem found rfl
      · show (findSignature self arguments (first :: second :: others) >>= fun found =>
          (pure (found.getD first) : Check Signature) >>= fun chosen => _) c s = _
        rw [bind_apply, hrun]
        rfl

/-- A call that no signature takes is reported at its node. -/
theorem Follows.resolveCall_reported {node : NodeId} {entry : Node} {signatures : List Signature}
    {arguments : List NodeId} (hrecording : c.recording = true)
    (hfile : c.file < s.diagnostics.size) (hentry : c.arena[node]? = some entry)
    (hnone : signatures.filter (takesCount arguments.length) = []) :
    ∃ d ∈ (resolveCall self node signatures arguments c s).2.log c.file,
      d.code = 2554 ∧ d.start = entry.pos ∧ d.length = entry.stop - entry.pos := by
  obtain ⟨d, hreport, hplace⟩ := reportWith_apply hrecording hentry
    (.expectedArguments (expectedCount signatures) (toString arguments.length)) [] (s := s)
  unfold resolveCall
  rw [hnone]
  show ∃ d ∈ ((reportWith node (.expectedArguments (expectedCount signatures)
    (toString arguments.length)) [] >>= fun _ => _) c s).2.log c.file, _
  rw [bind_apply, hreport]
  -- whatever the arguments are, the report stays
  have hlater : Tells c _ _ (checkArguments self arguments) := h.reports_arguments arguments
  exact ⟨d, (hlater _).2.kept d (mem_log_report hfile d), hplace⟩

end

end Checking

namespace Checker

open Checking

/-- For every call at a node of a file whose problems are recorded, every list
of signatures and every list of arguments.
* If some signature accepts the number of arguments, the arguments are checked
  against one of those that do, in a state with the same record, and this
  gives the type. So a parameter goes without an argument only if it is
  optional or stands behind an optional one.
* If none does, the call is reported. -/
theorem call_accepts (n : Nat) {c : Context} {s : State} {node : NodeId} {entry : Node}
    (hrecording : c.recording = true) (hfile : c.file < s.diagnostics.size)
    (hentry : c.arena[node]? = some entry) (signatures : List Signature)
    (arguments : List NodeId) :
    let result := resolveCall (rules n) node signatures arguments c s
    ((∃ signature ∈ signatures, Accepts arguments.length signature) →
      ∃ chosen ∈ signatures, Accepts arguments.length chosen ∧ ∃ s', SameRecord s s' ∧
        result = ((arguments.zip chosen.parameters).forM
          (fun pair => checkArgument (rules n) pair.1 pair.2) >>=
            fun _ => pure chosen.returnType : Check TypeId) c s') ∧
    ((∀ signature ∈ signatures, ¬ Accepts arguments.length signature) →
      ∃ d ∈ result.2.log c.file,
        d.code = 2554 ∧ d.start = entry.pos ∧ d.length = entry.stop - entry.pos) := by
  intro result
  have hrules := rules_follow n
  constructor
  · rintro ⟨signature, hsignature, haccepts⟩
    have hmem : signature ∈ signatures.filter (takesCount arguments.length) :=
      List.mem_filter.2 ⟨hsignature, (takesCount_iff _ _).2 haccepts⟩
    obtain ⟨chosen, hchosen, s', hsame, hrun⟩ :=
      hrules.resolveCall_taken (c := c) (s := s) node (List.ne_nil_of_mem hmem)
    obtain ⟨hchosen, htakes⟩ := List.mem_filter.1 hchosen
    exact ⟨chosen, hchosen, (takesCount_iff _ _).1 htakes, s', hsame, hrun⟩
  · intro hnone
    refine hrules.resolveCall_reported hrecording hfile hentry (List.filter_eq_nil_iff.2 ?_)
    exact fun signature hsignature htakes =>
      hnone signature hsignature ((takesCount_iff _ _).1 htakes)

/-- A function, called without arguments. -/
def calledWithout (parameters : String) : Checker :=
  ofSources [("/p/a.ts", "function f(".toList ++ parameters.toList ++
    "): void { }\nf();".toList)] ⟨true, false⟩

/-- A required parameter alone is missed. -/
theorem call_accepts_none :
    let k := calledWithout "b: number"
    let c := k.context 0
    let signature : Signature := ⟨[⟨"b", .number, false⟩], .void⟩
    (c.recording = true ∧ c.file < k.state.diagnostics.size ∧ ∃ entry, c.arena[8]? = some entry) ∧
      ¬ Accepts 0 signature ∧
      ∃ d ∈ (resolveCall (rules 12) 8 [signature] [] c k.state).2.log c.file,
        d.code = 2554 ∧ d.start = 32 ∧ d.length = 3 := by
  intro k c signature
  have hrecording : c.recording = true := rfl
  have hfile : c.file < k.state.diagnostics.size := Nat.zero_lt_one
  have hspan : c.arena[8]?.map (fun e => (e.pos, e.stop)) = some (32, 35) := by
    unfold c k calledWithout
    repeat rw [String.toList_ofList]
    decide +kernel
  obtain ⟨entry, hentry, hplace⟩ := Option.map_eq_some_iff.1 hspan
  have hrejects : ¬ Accepts 0 signature := fun haccepts =>
    absurd ((takesCount_iff 0 signature).2 haccepts) (by decide)
  obtain ⟨-, hreported⟩ := call_accepts 12 hrecording hfile hentry [signature] []
  obtain ⟨d, hd, hcode, hstart, hlength⟩ :=
    hreported fun _ hmem => List.mem_singleton.1 hmem ▸ hrejects
  obtain ⟨hpos, hstop⟩ := Prod.mk.inj hplace
  refine ⟨⟨hrecording, hfile, entry, hentry⟩, hrejects, d, hd, hcode, ?_, ?_⟩
  · rw [hstart, hpos]
  · rw [hlength, hpos, hstop]

/-- A required parameter behind one with a value goes without an argument, and
nothing is reported. -/
theorem required_without_argument :
    let k := calledWithout "a = 1, b: number"
    let c := k.context 0
    let inside : Context := { c with depth := c.depth + 1 }
    let called := (rules 12).expression 10 none inside k.state
    let signatures := signaturesOf TypeTable.calls called.2.types called.1.1
    let result := resolveCall (rules 12) 11 signatures [] inside called.2
    c.arena.form? 11 = some (.call 10 []) ∧ inside.recording = true ∧
      signatures.map (fun signature => signature.parameters.map Parameter.optional) =
        [[true, false]] ∧
      result.2.log 0 = [] ∧ (k.semanticDiagnostics 0).1 = [] := by
  unfold calledWithout
  repeat rw [String.toList_ofList]
  decide +kernel

end Checker

end ScriptAnalysis
