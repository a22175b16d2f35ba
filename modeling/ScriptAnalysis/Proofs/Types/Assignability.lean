import ScriptAnalysis.Proofs.Types.Unions
import ScriptAnalysis.Types.Assignable

/-!
# Laws of assignability

A comparison asks deeper comparisons about the types inside two types and
answers yes when a limit of levels is reached, so a law of assignability is
proved for any number of levels, each from the comparisons below it.

**Strictness.** No rule asks a deeper comparison for a no. So a comparison that
relates more below relates more (`Comparison.Below` and the lemmas `…_below`), and
leaving out `strict` only adds pairs.

**Literals.** A literal fits where its primitive fits, with one exception: the
primitive fits an object type without members, the literal does not
(`misfit_of_literal`). A target may be such a type itself or have it among its
alternatives.

**Results.**
* `assignable_of_strict`: what fits with `strict` fits without.
* `misfit_of_literal`: when a literal fits nowhere that its primitive fits.
-/
namespace ScriptAnalysis.TypeTable

variable {t : TypeTable} {source target : TypeId}

/-- The comparison with one more level. -/
theorem assignableWithin_succ (t : TypeTable) (strict : Bool) (n : Nat) :
    t.assignableWithin strict (n + 1) =
      t.compareLevel strict (t.assignableWithin strict n) (t.assignableWithin strict (n - 1)) := by
  cases n <;> rfl

/-! ## Strictness -/

/-- All that the first comparison relates the second relates too. -/
def Comparison.Below (r r' : Comparison) : Prop :=
  ∀ source target, r source target = true → r' source target = true

section

variable {deeper deeper' deepest deepest' : Comparison}

theorem relatedOutright_of_strict (h : relatedOutright true source target = true) :
    relatedOutright false source target = true := by
  simp only [relatedOutright, Bool.not_true, Bool.false_and, Bool.or_false, Bool.or_eq_true] at h ⊢
  exact h.imp_left .inl

/-- Parameters are asked about in both directions, and either may say yes. -/
theorem signatureFits_below (h : deeper.Below deeper') {s s' : Signature}
    (hfits : signatureFits deeper s s' = true) : signatureFits deeper' s s' = true := by
  simp only [signatureFits, Bool.and_eq_true, Bool.or_eq_true, List.all_eq_true] at hfits ⊢
  obtain ⟨⟨hcount, hparameters⟩, hreturn⟩ := hfits
  refine ⟨⟨hcount, fun pair hpair => ?_⟩, hreturn.imp_right (h _ _)⟩
  exact (hparameters pair hpair).imp (h _ _) (h _ _)

theorem propertiesFit_below (h : deeper.Below deeper')
    (hfits : t.propertiesFit deeper source target = true) :
    t.propertiesFit deeper' source target = true := by
  simp only [propertiesFit, List.all_eq_true] at hfits ⊢
  intro p hp
  have hproperty := hfits p hp
  cases hfound : t.property? source p.name with
  | none =>
    rw [hfound] at hproperty
    exact hproperty
  | some found =>
    rw [hfound] at hproperty
    exact h _ _ hproperty

theorem objectFits_below (h : deeper.Below deeper') (h' : deepest.Below deepest')
    (hfits : t.objectFits deeper deepest source target = true) :
    t.objectFits deeper' deepest' source target = true := by
  unfold objectFits at hfits ⊢
  rw [Bool.or_eq_true, Bool.and_eq_true, Bool.and_eq_true] at hfits ⊢
  refine hfits.imp_right fun ⟨⟨hproperties, hcalls⟩, hconstructs⟩ =>
    ⟨⟨propertiesFit_below h hproperties, ?_⟩, hconstructs⟩
  cases hwanted : t.calls target with
  | nil => rfl
  | cons wanted others =>
    rw [hwanted] at hcalls
    obtain ⟨s, hs, hsignature⟩ := List.any_eq_true.1 hcalls
    exact List.any_eq_true.2 ⟨s, hs, signatureFits_below h' hsignature⟩

theorem structureFits_below (h : deeper.Below deeper') (h' : deepest.Below deepest')
    (hfits : t.structureFits deeper deepest source target = true) :
    t.structureFits deeper' deepest' source target = true := by
  unfold structureFits at hfits ⊢
  split at hfits
  · exact hfits
  · exact h _ _ hfits
  · exact objectFits_below h h' hfits
  · exact hfits
  · exact hfits
  · cases hfits

/-- A level without `strict` over comparisons that relate more. -/
theorem compareLevel_below (h : deeper.Below deeper') (h' : deepest.Below deepest') :
    Comparison.Below (t.compareLevel true deeper deepest)
      (t.compareLevel false deeper' deepest') := by
  intro source target hlevel
  unfold compareLevel at hlevel ⊢
  rw [Bool.or_eq_true] at hlevel ⊢
  refine hlevel.imp relatedOutright_of_strict fun hlevel => ?_
  split at hlevel
  · rename_i members _ hsource
    rw [List.all_eq_true] at hlevel ⊢
    exact fun m hm => h _ _ (hlevel m hm)
  · rename_i members hnot htarget
    obtain ⟨m, hm, hfits⟩ := List.any_eq_true.1 hlevel
    exact List.any_eq_true.2 ⟨m, hm, h _ _ hfits⟩
  · exact structureFits_below h h' hlevel

end

theorem assignableWithin_below (t : TypeTable) (n : Nat) :
    Comparison.Below (t.assignableWithin true n) (t.assignableWithin false n) := by
  -- a level looks at the two levels below it
  induction n using Nat.strong_induction_on with
  | _ n ih =>
    cases n with
    | zero => exact fun _ _ _ => rfl
    | succ n =>
      rw [assignableWithin_succ, assignableWithin_succ]
      exact compareLevel_below (ih n (by omega)) (ih (n - 1) (by omega))

/-- Strictness only removes pairs, whatever types the table has. -/
theorem assignable_of_strict (t : TypeTable) (source target : TypeId)
    (h : t.assignable true source target = true) : t.assignable false source target = true :=
  assignableWithin_below t _ source target h

/-- An object type with one property, of the type `next`. -/
def ringShape (next : TypeId) : Shape :=
  { Shape.bare .interface none none with properties := [⟨"next", next, false, false⟩] }

/-- Two object types that refer to each other, and a third that refers to
itself and has itself for a base. -/
def rings : TypeTable :=
  let objects := [ringShape 13, ringShape 12, { ringShape 14 with bases := [14] }]
  ⟨(predefined ++ objects.map TypeData.object).toArray, .empty⟩

/-- The first fits the third, since the comparison ends in agreement. -/
theorem assignable_of_strict_rings :
    rings.assignable true 12 14 = true ∧ rings.assignable false 12 14 = true :=
  have h : rings.assignable true 12 14 = true := by decide +kernel
  ⟨h, assignable_of_strict rings 12 14 h⟩

/-! ## Literals -/

/-- A type is an alternative of itself, and the alternatives of the members
of a union are those of the union. -/
inductive Alternative (t : TypeTable) : TypeId → TypeId → Prop
  | itself (id : TypeId) : Alternative t id id
  | member {id m leaf : TypeId} {members : List TypeId} (h : t.dataOf id = .union members)
      (hm : m ∈ members) (hleaf : Alternative t m leaf) : Alternative t id leaf

/-- An object type that has no members of its own. -/
def EmptyObject (t : TypeTable) (id : TypeId) : Prop :=
  ∃ shape, t.dataOf id = .object shape ∧
    shape.properties = [] ∧ shape.calls = [] ∧ shape.constructs = []

/-- The primitives that have literals. -/
structure HasLiterals (t : TypeTable) (p : TypeId) : Prop where
  data : ∃ kind, t.dataOf p = .intrinsic kind
  loose : p.isLoose = false
  never : p ≠ .never
  null : p ≠ .null
  undefined : p ≠ .undefined
  void : p ≠ .void

section

variable {strict : Bool} {l p : TypeId} {value : LiteralValue}

theorem hasLiterals_primitive (hf : Founded t) (hl : t.dataOf l = .literal value) :
    HasLiterals t (t.primitive l) := by
  have hcases : t.primitive l = .number ∨ t.primitive l = .string ∨ t.primitive l = .boolean := by
    unfold primitive
    rw [hl]
    cases value with
    | number => exact .inl rfl
    | string => exact .inr (.inl rfl)
    | boolean => exact .inr (.inr rfl)
  rcases hcases with h | h | h
  all_goals
    rw [h]
    exact ⟨⟨_, dataOf_predefined hf rfl⟩, rfl, by decide, by decide, by decide, by decide⟩

/-- What has literals is related outright to itself and to what everything
fits. -/
theorem HasLiterals.relatedOutright (h : HasLiterals t p) :
    relatedOutright strict p target = (p == target || target == .any || target == .unknown ||
      target == .error) := by
  simp [TypeTable.relatedOutright, h.loose, beq_false_of_ne h.never, beq_false_of_ne h.null,
    beq_false_of_ne h.undefined]

theorem HasLiterals.fitsEmptyObject (h : HasLiterals t p) {shape : Shape} :
    fitsEmptyObject p shape = true ↔
      shape.properties = [] ∧ shape.calls = [] ∧ shape.constructs = [] := by
  simp [TypeTable.fitsEmptyObject, h.null, h.undefined, h.void, and_assoc]

/-- What has literals fits where an alternative has no members. -/
theorem HasLiterals.fits (h : HasLiterals t p) {leaf : TypeId} (halternative : Alternative t target leaf)
    (hleaf : EmptyObject t leaf) (n : Nat) : t.assignableWithin strict n p target = true := by
  obtain ⟨kind, hp⟩ := h.data
  induction halternative generalizing n with
  | itself id =>
    cases n with
    | zero => rfl
    | succ n =>
      obtain ⟨shape, hshape, hempty⟩ := hleaf
      rw [assignableWithin_succ]
      unfold compareLevel structureFits
      rw [hp, hshape, Bool.or_eq_true]
      exact .inr (h.fitsEmptyObject.2 hempty)
  | member hunion hm _ ih =>
    cases n with
    | zero => rfl
    | succ n =>
      rw [assignableWithin_succ]
      unfold compareLevel
      rw [hp, hunion, Bool.or_eq_true]
      exact .inr (List.any_eq_true.2 ⟨_, hm, ih hleaf n⟩)

/-- A literal fits where its primitive does and no alternative is without
members. -/
theorem literal_fits (hl : t.dataOf l = .literal value) (h : HasLiterals t (t.primitive l)) (n : Nat)
    (hfits : t.assignableWithin strict n (t.primitive l) target = true)
    (hnone : ∀ leaf, Alternative t target leaf → ¬ EmptyObject t leaf) :
    t.assignableWithin strict n l target = true := by
  obtain ⟨kind, hp⟩ := h.data
  induction n generalizing target with
  | zero => rfl
  | succ n ih =>
    rw [assignableWithin_succ] at hfits ⊢
    unfold compareLevel structureFits at hfits ⊢
    rw [Bool.or_eq_true, h.relatedOutright, hp] at hfits
    rw [Bool.or_eq_true, hl]
    rcases hfits with houtright | hfits
    · simp only [Bool.or_eq_true, beq_iff_eq] at houtright
      rcases houtright with ((rfl | rfl) | rfl) | rfl
      · -- a primitive is no union
        right
        rw [hp]
        exact beq_self_eq_true _
      all_goals
        left
        simp [TypeTable.relatedOutright]
    · right
      cases htarget : t.dataOf target with
      | union members =>
        rw [htarget] at hfits
        obtain ⟨m, hm, hmember⟩ := List.any_eq_true.1 hfits
        exact List.any_eq_true.2
          ⟨m, hm, ih hmember fun leaf hleaf => hnone leaf (.member htarget hm hleaf)⟩
      | object shape =>
        rw [htarget] at hfits
        exact absurd ⟨shape, htarget, h.fitsEmptyObject.1 hfits⟩ (hnone target (.itself target))
      | intrinsic | literal | array =>
        rw [htarget] at hfits
        cases hfits

/-- Where a literal does not fit, its primitive does if and only if an
alternative of the target is without members. -/
theorem misfit_of_literal (hf : Founded t) (hl : t.isLiteral l = true)
    (hmisfit : t.assignable strict l target = false) :
    t.assignable strict (t.primitive l) target = true ↔
      ∃ leaf, Alternative t target leaf ∧ EmptyObject t leaf := by
  obtain ⟨value, hvalue⟩ : ∃ value, t.dataOf l = .literal value := by
    unfold isLiteral at hl
    split at hl
    · exact ⟨_, ‹_›⟩
    · cases hl
  have hp := hasLiterals_primitive hf hvalue
  constructor
  · intro hfits
    by_contra hnone
    have hliteral := literal_fits hvalue hp _ hfits fun leaf h hempty => hnone ⟨leaf, h, hempty⟩
    exact Bool.false_ne_true (hmisfit.symm.trans hliteral)
  · rintro ⟨leaf, halternative, hleaf⟩
    exact hp.fits halternative hleaf _

end

end ScriptAnalysis.TypeTable
