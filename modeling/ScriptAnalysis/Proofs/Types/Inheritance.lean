import Mathlib.Data.List.Nodup
import ScriptAnalysis.Types.Members

/-!
# Looking up and listing

A property is looked up on the way from a type to its bases, which ends at the
first one of the name. All properties are listed by a walk of its own, which
keeps of each name what comes first. The two ways agree for any bases, also when
a name is reached along several ways, when types extend each other in a circle,
and when the limit on the number of steps cuts a way off.

**The list between them.** `declared` is all that stands on the walk, what is
hidden included. A look-up is the first entry of a name in it
(`propertyWithin_eq`), and the listing keeps the first entry of each name
(`find?_listed`, `nodup_listed`).

**Results.**
* `lookup_agrees`: what is looked up is what is listed, and each name is listed
  once.
-/
namespace ScriptAnalysis.TypeTable

variable {t : TypeTable}

/-- The properties of a type itself. -/
def ownProperties (t : TypeTable) (id : TypeId) : List Property :=
  ((t.shape? id).map Shape.properties).getD []

/-- The properties on the walk from a type upwards, with those that are hidden;
at most `n` types on a path. -/
def declared (t : TypeTable) (n : Nat) (id : TypeId) : List Property :=
  (t.lineageWithin n id).flatMap t.ownProperties

theorem declared_succ (n : Nat) (id : TypeId) :
    t.declared (n + 1) id = t.ownProperties id ++ (t.bases id).flatMap (t.declared n) := by
  show (id :: (t.bases id).flatMap (t.lineageWithin n)).flatMap t.ownProperties = _
  rw [List.flatMap_cons, List.flatMap_assoc]
  rfl

/-! ## Looking up -/

theorem own_property? (id : TypeId) (name : String) :
    (t.shape? id).bind (·.property? name) = (t.ownProperties id).find? (·.name == name) := by
  unfold ownProperties
  cases t.shape? id <;> rfl

/-- A look-up gives the first property of the name on the walk. -/
theorem propertyWithin_eq (n : Nat) (id : TypeId) (name : String) :
    t.propertyWithin name n id = (t.declared n id).find? (·.name == name) := by
  induction n generalizing id with
  | zero => rfl
  | succ n ih =>
    have hbases : (t.bases id).findSome? (t.propertyWithin name n) =
        ((t.bases id).flatMap (t.declared n)).find? (·.name == name) := by
      rw [List.find?_flatMap]
      exact congrArg (List.findSome? · (t.bases id)) (funext ih)
    unfold propertyWithin
    rw [declared_succ, List.find?_append, ← own_property?, hbases]
    cases (t.shape? id).bind (·.property? name) <;> rfl

/-! ## Listing -/

section

variable (listed rest : List Property)

/-- Adding a property changes no look-up but that of a new name. -/
theorem find?_addProperty (p : Property) (name : String) :
    (addProperty listed p).find? (·.name == name) =
      (listed.find? (·.name == name)).or ([p].find? (·.name == name)) := by
  unfold addProperty
  split
  · rename_i htaken
    obtain ⟨q, hq, hname⟩ := List.any_eq_true.1 htaken
    by_cases hp : p.name == name
    · have hfound : (listed.find? (·.name == name)).isSome :=
        List.find?_isSome.2 ⟨q, hq, by rw [eq_of_beq hname]; exact hp⟩
      obtain ⟨found, hfound⟩ := Option.isSome_iff_exists.1 hfound
      rw [hfound]
      rfl
    · rw [List.find?_singleton, if_neg hp, Option.or_none]
  · exact List.find?_append

/-- Of each name the first property is listed. -/
theorem find?_listed (name : String) :
    (rest.foldl addProperty listed).find? (·.name == name) =
      (listed ++ rest).find? (·.name == name) := by
  induction rest generalizing listed with
  | nil => rw [List.append_nil, List.foldl_nil]
  | cons p rest ih =>
    rw [List.foldl_cons, ih, List.find?_append, find?_addProperty, List.append_cons,
      List.find?_append, List.find?_append]

/-- Each name is listed once. -/
theorem nodup_listed (h : (listed.map Property.name).Nodup) :
    ((rest.foldl addProperty listed).map Property.name).Nodup := by
  induction rest generalizing listed with
  | nil => exact h
  | cons p rest ih =>
    refine ih _ ?_
    unfold addProperty
    split
    · exact h
    · rename_i hnew
      rw [List.map_append, List.map_singleton]
      refine h.append (List.nodup_singleton _) (List.disjoint_singleton.2 fun hmem => hnew ?_)
      obtain ⟨q, hq, hname⟩ := List.mem_map.1 hmem
      exact List.any_eq_true.2 ⟨q, hq, beq_iff_eq.2 hname⟩

end

theorem properties_eq (id : TypeId) :
    t.properties id = (t.declared (maxBaseDepth + 1) id).foldl addProperty [] :=
  rfl

/-- Where each name stands once, finding a name and being an entry of that name
are the same. -/
theorem find?_name_eq_some {l : List Property} (h : (l.map Property.name).Nodup) {name : String}
    {p : Property} : l.find? (·.name == name) = some p ↔ p ∈ l ∧ p.name = name := by
  constructor
  · intro hfind
    exact ⟨List.mem_of_find?_eq_some hfind, by simpa using List.find?_some hfind⟩
  · rintro ⟨hmem, rfl⟩
    have hfound : (l.find? (·.name == p.name)).isSome :=
      List.find?_isSome.2 ⟨p, hmem, beq_self_eq_true _⟩
    obtain ⟨q, hq⟩ := Option.isSome_iff_exists.1 hfound
    have hname : q.name = p.name := by simpa using List.find?_some hq
    rw [hq, List.inj_on_of_nodup_map h (List.mem_of_find?_eq_some hq) hmem hname]

/-- For every table, type and name, the property that is looked up is the entry
of that name in the list of all properties; there is none exactly when the list
has none; and the list has one entry for each name. -/
theorem lookup_agrees (t : TypeTable) (id : TypeId) :
    (∀ name p, t.property? id name = some p ↔ p ∈ t.properties id ∧ p.name = name) ∧
    (∀ name, t.property? id name = none ↔ ∀ p ∈ t.properties id, p.name ≠ name) ∧
    ((t.properties id).map Property.name).Nodup := by
  have hnodup : ((t.properties id).map Property.name).Nodup := by
    rw [properties_eq]
    exact nodup_listed [] _ List.nodup_nil
  have hlookup : ∀ name, t.property? id name = (t.properties id).find? (·.name == name) := by
    intro name
    rw [properties_eq, find?_listed, List.nil_append]
    exact propertyWithin_eq _ id name
  refine ⟨fun name p => ?_, fun name => ?_, hnodup⟩
  · rw [hlookup]
    exact find?_name_eq_some hnodup
  · rw [hlookup, List.find?_eq_none]
    simp only [beq_iff_eq, ne_eq]

end ScriptAnalysis.TypeTable
