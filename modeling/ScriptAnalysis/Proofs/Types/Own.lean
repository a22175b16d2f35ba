import ScriptAnalysis.Proofs.Types.Linking

/-!
# A table beside itself

Of the objects of a table only some may be of account. The table is put beside
itself, and an object stands for itself if it is of account (`own`). A type made
of such objects is alike to itself then, and any other type is lost.

**Results.**
* `alike_or_lost`: there is no third case.
* `alike_self`: with all objects every type is alike to itself.
* `Linked.own`: what has partners in another table keeps to itself.
* `Lost.across`: what is lost has a partner that is lost.
-/
namespace ScriptAnalysis.Pairing

open TypeTable (Grounded Kept)

variable {p p' : Pairing} {t : TypeTable} {D : TypeId → Prop} {a b : TypeId}

/-- A table beside itself, with the objects that stand for themselves. -/
def own (D : TypeId → Prop) (t : TypeTable) : Pairing :=
  ⟨fun a b => D a ∧ a = b, t, t⟩

/-- A type is made of objects that stand for themselves or mentions another. -/
theorem alike_or_lost (ht : t.Grounded) (D : TypeId → Prop) (ha : a < t.size) :
    (own D t).Alike a a ∨ (own D t).Lost a := by
  induction a using Nat.strong_induction_on with
  | h a ih =>
    have hdata : t.types[a]? = some t.types[a] := Array.getElem?_eq_getElem ha
    generalize t.types[a] = data at hdata
    have hpart : ∀ x ∈ data.parts, (own D t).Alike x x ∨ (own D t).Lost x := fun x hx =>
      have hlt := ht.before a data hdata x hx
      ih x hlt (Nat.lt_trans hlt ha)
    cases data with
    | intrinsic kind => exact .inl (.leaf hdata hdata rfl)
    | literal value => exact .inl (.leaf hdata hdata rfl)
    | array x =>
      rcases hpart x (List.mem_singleton_self x) with hx | hx
      · exact .inl (.array hdata hdata hx)
      · exact .inr (.array hdata hx)
    | union xs =>
      by_cases hall : ∀ x ∈ xs, (own D t).Alike x x
      · refine .inl (.union hdata hdata rfl fun i x y hx hy => ?_)
        obtain rfl : x = y := Option.some.inj (hx.symm.trans hy)
        exact hall x (List.mem_of_getElem? hx)
      · simp only [not_forall] at hall
        obtain ⟨x, hx, hne⟩ := hall
        exact .inr (.union hdata hx ((hpart x hx).resolve_left hne))
    | object shape =>
      by_cases hd : D a
      · exact .inl (.object ⟨hd, rfl⟩)
      · exact .inr (.object hdata fun b hab => hd hab.1)

/-- If all objects stand for themselves, all types are alike to themselves. -/
theorem alike_self (ht : t.Grounded)
    (hD : ∀ (a : TypeId) (shape : Shape), t.types[a]? = some (.object shape) → D a)
    (ha : a < t.size) : (own D t).Alike a a := by
  refine (alike_or_lost ht D ha).resolve_right fun hlost => ?_
  induction hlost with
  | array hdata _ ih => exact ih (Nat.lt_trans (ht.before _ _ hdata _ (List.mem_singleton_self _)) ha)
  | union hdata hx _ ih => exact ih (Nat.lt_trans (ht.before _ _ hdata _ hx) ha)
  | @object a shape hdata hnone => exact hnone a ⟨hD a shape hdata, rfl⟩

section

variable (ht : t.Grounded)
  (hD : ∀ (a : TypeId) (shape : Shape), t.types[a]? = some (.object shape) → D a)

include ht hD

theorem alike_there (ha : There t.size a) : (own D t).Alike a a :=
  alike_self ht hD (ht.there_iff.1 ha)

theorem signatureAlike_there {s : Signature} (hs : Below t.size s.mentions) :
    (own D t).SignatureAlike s s := by
  obtain ⟨hreturn, hparameters⟩ := below_signature.1 hs
  exact ⟨List.forall₂_same.2 fun q hq => ⟨rfl, alike_there ht hD (hparameters q hq), rfl⟩,
    alike_there ht hD hreturn⟩

theorem shapeAlike_there {s : Shape} (hs : Below t.size s.mentions) : (own D t).ShapeAlike s s := by
  obtain ⟨hproperties, hcalls, hconstructs, hbases⟩ := below_shape.1 hs
  exact ⟨rfl, rfl, rfl,
    List.forall₂_same.2 fun q hq => ⟨rfl, alike_there ht hD (hproperties q hq), rfl, rfl⟩,
    List.forall₂_same.2 fun g hg => signatureAlike_there ht hD (hcalls g hg),
    List.forall₂_same.2 fun g hg => signatureAlike_there ht hD (hconstructs g hg),
    List.forall₂_same.2 fun i hi => alike_there ht hD (hbases i hi)⟩

end

/-- All objects of a table may be of account. -/
theorem linked_own (ht : t.Grounded)
    (hD : ∀ a, D a ↔ ∃ shape, t.types[a]? = some (.object shape)) : (own D t).Linked where
  left := ht
  right := ht
  left_unique _ _ _ hab hab' := hab.2.trans hab'.2.symm
  right_unique _ _ _ hab hab' := hab.2.symm.trans hab'.2
  shapes a b hab := by
    obtain ⟨hd, rfl⟩ := hab
    obtain ⟨shape, hshape⟩ := (hD a).1 hd
    exact ⟨shape, shape, hshape, hshape,
      shapeAlike_there ht (fun a shape h => (hD a).2 ⟨shape, h⟩) (ht.shapes a shape hshape)⟩

/-- What has partners in another table keeps to itself. -/
theorem Linked.own (h : p.Linked) (hD : ∀ a, D a ↔ ∃ b, p.link a b) : (own D p.left).Linked where
  left := h.left
  right := h.left
  left_unique _ _ _ hab hab' := hab.2.trans hab'.2.symm
  right_unique _ _ _ hab hab' := hab.2.symm.trans hab'.2
  shapes a b hab := by
    obtain ⟨hd, rfl⟩ := hab
    obtain ⟨b, hab⟩ := (hD a).1 hd
    obtain ⟨s, s', hs, -, halike⟩ := h.shapes a b hab
    refine ⟨s, s, hs, hs, halike.alone fun i j hij => ?_⟩
    exact hij.alone (fun a b hab => ⟨(hD a).2 ⟨b, hab⟩, rfl⟩) (.refl _) (.refl _)

/-- What mentions a late object is late. -/
theorem Lost.le {n : Nat} (h : (own (· < n) t).Lost a) (ht : t.Grounded) : n ≤ a := by
  induction h with
  | array hdata _ ih =>
    exact Nat.le_of_lt (Nat.lt_of_le_of_lt ih (ht.before _ _ hdata _ (List.mem_singleton_self _)))
  | union hdata hx _ ih => exact Nat.le_of_lt (Nat.lt_of_le_of_lt ih (ht.before _ _ hdata _ hx))
  | @object a _ _ hnone => exact Nat.not_lt.1 fun hlt => hnone a ⟨hlt, rfl⟩

/-- If the objects that are of no account have partners that are lost, so has
whatever mentions one. -/
theorem Lost.across (hlost : (Pairing.own D p.left).Lost a) (hab : p.Alike a b) (hp : p.Linked)
    (hright : p'.left = p.right) (hpartner : ∀ a b, p.link a b → ¬ D a → ∀ x, ¬ p'.link b x) :
    p'.Lost b := by
  induction hlost generalizing b with
  | @array a x hdata _ ih =>
    cases hab with
    | leaf hl _ hleaf =>
      cases hl.symm.trans hdata
      cases hleaf
    | array hl hr hxy =>
      cases hl.symm.trans hdata
      exact .array (hright ▸ hr) (ih hxy)
    | union hl => cases hl.symm.trans hdata
    | object hlink =>
      obtain ⟨s, -, hs, -⟩ := hp.shapes _ _ hlink
      cases hs.symm.trans hdata
  | @union a x xs hdata hx _ ih =>
    cases hab with
    | leaf hl _ hleaf =>
      cases hl.symm.trans hdata
      cases hleaf
    | array hl => cases hl.symm.trans hdata
    | @union _ _ _ ys hl hr hlength hall =>
      cases hl.symm.trans hdata
      obtain ⟨i, hi, rfl⟩ := List.mem_iff_getElem.1 hx
      have hy : i < ys.length := hlength ▸ hi
      exact .union (hright ▸ hr) (List.getElem_mem hy)
        (ih (hall i _ _ (List.getElem?_eq_getElem hi) (List.getElem?_eq_getElem hy)))
    | object hlink =>
      obtain ⟨s, -, hs, -⟩ := hp.shapes _ _ hlink
      cases hs.symm.trans hdata
  | @object a shape hdata hnone =>
    cases hab with
    | leaf hl _ hleaf =>
      cases hl.symm.trans hdata
      cases hleaf
    | array hl | union hl => cases hl.symm.trans hdata
    | object hlink =>
      obtain ⟨-, s', -, hs', -⟩ := hp.shapes _ _ hlink
      exact .object (hright ▸ hs') (hpartner a b hlink fun hd => hnone a ⟨hd, rfl⟩)

end ScriptAnalysis.Pairing
