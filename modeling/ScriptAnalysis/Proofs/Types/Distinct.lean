import Mathlib.Data.List.Nodup
import ScriptAnalysis.Proofs.Types.Growth
import ScriptAnalysis.Proofs.Types.Inheritance

/-!
# No property hides another

The properties of an object are a list, and a name is looked up from the front. If two
had one name, the second would never be found. In a `Distinct` table this does not
happen. Types that are added by asking for them leave a table distinct; an object that
is allocated or filled in does so if its shape has distinct names.

**Results.**
* `FilledIn`: how a table changes when types are added and objects are filled in.
* `Distinct.own_property?_iff`: a property is found by its name.
-/
namespace ScriptAnalysis.TypeTable

variable {t t' t'' : TypeTable} {shape : Shape}

/-- In no object have two properties one name. -/
def Distinct (t : TypeTable) : Prop :=
  ∀ id shape, t.shape? id = some shape → shape.Distinct

theorem distinct_initial : initial.Distinct := by
  intro id shape hshape
  cases (shape?_initial id).symm.trans hshape

theorem Distinct.getD (h : t.Distinct) (hshape : shape.Distinct) (id : TypeId) :
    ((t.shape? id).getD shape).Distinct := by
  cases hid : t.shape? id with
  | none => exact hshape
  | some other => exact h id other hid

theorem Distinct.ownProperties (h : t.Distinct) (id : TypeId) :
    ((t.ownProperties id).map Property.name).Nodup := by
  unfold TypeTable.ownProperties
  cases hid : t.shape? id with
  | none => exact List.nodup_nil
  | some shape => exact h id shape hid

/-- A property is found by its name. -/
theorem Distinct.own_property?_iff (h : t.Distinct) (id : TypeId) (p : Property) :
    (t.shape? id).bind (·.property? p.name) = some p ↔ p ∈ t.ownProperties id := by
  rw [own_property?]
  refine ⟨List.mem_of_find?_eq_some, fun hp => ?_⟩
  cases hfind : (t.ownProperties id).find? (·.name == p.name) with
  | none => exact absurd (beq_self_eq_true p.name) (List.find?_eq_none.1 hfind p hp)
  | some q =>
    have hsame := List.find?_some hfind
    have hname : q.name = p.name := beq_iff_eq.1 hsame
    rw [List.inj_on_of_nodup_map (h.ownProperties id) (List.mem_of_find?_eq_some hfind) hp hname]

/-! ## Filling in -/

/-- Types were added and objects filled in, and names that were distinct are. -/
structure FilledIn (t t' : TypeTable) : Prop extends Kept t t' where
  distinct : t.Distinct → t'.Distinct

theorem FilledIn.refl (t : TypeTable) : FilledIn t t :=
  ⟨.refl t, fun h => h⟩

theorem FilledIn.trans (h : FilledIn t t') (h' : FilledIn t' t'') : FilledIn t t'' :=
  ⟨h.toKept.trans h'.toKept, fun hd => h'.distinct (h.distinct hd)⟩

theorem Grown.filledIn (h : Grown t t') : FilledIn t t' := by
  refine ⟨h.kept, fun hd id shape hshape => ?_⟩
  rcases h.new id shape (shape?_iff.1 hshape) with hold | hnew
  · exact hd id shape (shape?_iff.2 hold)
  · exact hnew.names

theorem filledIn_allocate (h : shape.Distinct) : FilledIn t (allocate shape t).2 := by
  refine ⟨(allots_allocate t shape).change.kept, fun hd id other hother => ?_⟩
  rw [shape?_iff, getElem?_allocate] at hother
  split at hother
  · cases hother
    exact h
  · exact hd id other (shape?_iff.2 hother)

theorem Distinct.setShape (h : t.Distinct) (hshape : shape.Distinct) (id : TypeId) :
    (setShape id shape t).2.Distinct := by
  cases hid : t.shape? id with
  | none => rwa [setShape_other hid]
  | some old =>
    intro j other hother
    rw [shape?_iff, getElem?_setShape hid] at hother
    split at hother
    · cases hother
      exact hshape
    · exact h j other (shape?_iff.2 hother)

end ScriptAnalysis.TypeTable
