import Mathlib.Data.Finset.Basic
import Mathlib.Data.Finset.Lattice.Lemmas
import ScriptAnalysis.Proofs.Types.Growth

/-!
# The normal form of unions

A union is written as a list of types, in any order, with repetitions and
with unions among them. What it means is a set. `normal` is the set of
members that a set of types stands for: `any` wins, `never` goes, both
booleans are `boolean`, a literal goes where its primitive is. A table keeps
no union but in this form (`Canonical`), so one level of flattening is enough.

**Results.**
* `mem_proper`, `normal_union`: what stays in a normal form, and that a part
  may be replaced by its normal form.
* `Tidy.run`: each operation keeps all unions of a table canonical.
* `memberSet_union`: the members of a union are the normal form of what its
  types are made of.
* `InUse.union_normal`: all of it for tables in use, with the laws of sets
  that follow.
-/
namespace ScriptAnalysis.TypeTable

variable {t t' : TypeTable} {id : TypeId} {ids xs ys members : List TypeId}

/-! ## Sets of types -/

/-- The types that some types are made of, with unions replaced by their
members. -/
def flatSet (t : TypeTable) (ids : List TypeId) : Finset TypeId :=
  (ids.flatMap t.unionMembers).toFinset

/-- The members of a type. -/
def memberSet (t : TypeTable) (id : TypeId) : Finset TypeId :=
  (t.unionMembers id).toFinset

/-- Both booleans are replaced by `boolean`. -/
def withBoolean (s : Finset TypeId) : Finset TypeId :=
  if .trueValue ∈ s ∧ .falseValue ∈ s then insert .boolean ((s.erase .trueValue).erase .falseValue)
  else s

/-- The literals whose primitive is there are left out. -/
def withoutLiterals (t : TypeTable) (s : Finset TypeId) : Finset TypeId :=
  s.filter fun id => t.primitive id = id ∨ t.primitive id ∉ s

/-- The members that stay of some types that do not fit everywhere. -/
def proper (t : TypeTable) (s : Finset TypeId) : Finset TypeId :=
  t.withoutLiterals (withBoolean (s.erase .never))

/-- The members of the union of some types. -/
def normal (t : TypeTable) (s : Finset TypeId) : Finset TypeId :=
  if .any ∈ s ∨ .error ∈ s then {.any}
  else if t.proper s = ∅ then {.never}
  else t.proper s

/-- A set has a type, or both booleans for `boolean`. -/
def StandsFor (s : Finset TypeId) (id : TypeId) : Prop :=
  id ∈ s ∨ id = .boolean ∧ TypeId.trueValue ∈ s ∧ TypeId.falseValue ∈ s

/-! ### What is a literal -/

theorem dataOf_predefined (hf : Founded t) {data : TypeData} (h : predefined[id]? = some data) :
    t.dataOf id = data :=
  dataOf_of_getElem? (hf id data h)

theorem primitive_trueValue (hf : Founded t) : t.primitive .trueValue = .boolean := by
  unfold primitive
  rw [dataOf_predefined hf (by rfl : predefined[TypeId.trueValue]? = some (.literal (.boolean true)))]

theorem primitive_falseValue (hf : Founded t) : t.primitive .falseValue = .boolean := by
  unfold primitive
  rw [dataOf_predefined hf
    (by rfl : predefined[TypeId.falseValue]? = some (.literal (.boolean false)))]

/-- A literal belongs to a number, a string or a boolean, and only these have
literals. -/
theorem primitive_cases (t : TypeTable) (id : TypeId) : t.primitive id = id ∨
    t.primitive id = .number ∨ t.primitive id = .string ∨ t.primitive id = .boolean := by
  unfold primitive
  split <;> simp

theorem primitive_predefined (hf : Founded t) {kind : Intrinsic}
    (h : predefined[id]? = some (.intrinsic kind)) : t.primitive id = id := by
  unfold primitive
  rw [dataOf_predefined hf h]

theorem primitive_primitive (hf : Founded t) (id : TypeId) :
    t.primitive (t.primitive id) = t.primitive id := by
  rcases t.primitive_cases id with h | h | h | h
  · rw [h, h]
  · rw [h]; exact primitive_predefined hf (by rfl : predefined[TypeId.number]? = _)
  · rw [h]; exact primitive_predefined hf (by rfl : predefined[TypeId.string]? = _)
  · rw [h]; exact primitive_predefined hf (by rfl : predefined[TypeId.boolean]? = _)

/-- The primitive of a literal is neither `never` nor one of the booleans. -/
theorem primitive_ne (h : t.primitive id ≠ id) :
    t.primitive id ≠ .never ∧ t.primitive id ≠ .trueValue ∧ t.primitive id ≠ .falseValue := by
  rcases t.primitive_cases id with hp | hp | hp | hp
  · exact absurd hp h
  all_goals
    rw [hp]
    decide

/-! ### The normal form by its elements -/

/-- What stays is what the set stands for and whose primitive it does not
stand for. -/
theorem mem_proper (hf : Founded t) {s : Finset TypeId} : id ∈ t.proper s ↔
    id ≠ .never ∧ StandsFor s id ∧ (t.primitive id = id ∨ ¬ StandsFor s (t.primitive id)) := by
  have htrue := primitive_trueValue hf
  have hfalse := primitive_falseValue hf
  have hboolean : t.primitive .boolean = .boolean :=
    primitive_predefined hf (by rfl : predefined[TypeId.boolean]? = _)
  have hne : (TypeId.boolean : TypeId) ≠ .never ∧ (TypeId.trueValue : TypeId) ≠ .never ∧
      (TypeId.falseValue : TypeId) ≠ .never ∧ (TypeId.boolean : TypeId) ≠ .trueValue ∧
      (TypeId.boolean : TypeId) ≠ .falseValue := by decide
  obtain ⟨hbn, htn, hfn, hbt, hbf⟩ := hne
  have hliteral : t.primitive id ≠ id → _ := primitive_ne
  unfold proper withoutLiterals withBoolean StandsFor
  split
  · rename_i hboth
    simp only [Finset.mem_erase] at hboth
    simp only [Finset.mem_filter, Finset.mem_insert, Finset.mem_erase]
    grind
  · rename_i hboth
    simp only [Finset.mem_erase] at hboth
    simp only [Finset.mem_filter, Finset.mem_erase]
    grind

theorem normal_of_loose {s : Finset TypeId} (h : .any ∈ s ∨ .error ∈ s) : t.normal s = {.any} :=
  if_pos h

theorem normal_of_not_loose {s : Finset TypeId} (h : ¬ (.any ∈ s ∨ .error ∈ s)) :
    t.normal s = if t.proper s = ∅ then {.never} else t.proper s :=
  if_neg h

theorem loose_normal (hf : Founded t) {s : Finset TypeId} :
    (.any ∈ t.normal s ∨ .error ∈ t.normal s) ↔ .any ∈ s ∨ .error ∈ s := by
  have hne : (TypeId.any : TypeId) ≠ .never ∧ (TypeId.error : TypeId) ≠ .never ∧
      (TypeId.any : TypeId) ≠ .boolean ∧ (TypeId.error : TypeId) ≠ .boolean := by decide
  unfold normal
  split
  · simp [*]
  · rename_i hloose
    split
    · simp [hloose, hne.1, hne.2.1]
    · simp only [mem_proper hf, StandsFor]
      grind

theorem mem_normal (hf : Founded t) {s : Finset TypeId} (hloose : ¬ (.any ∈ s ∨ .error ∈ s))
    (hid : id ≠ .never) : id ∈ t.normal s ↔
      StandsFor s id ∧ (t.primitive id = id ∨ ¬ StandsFor s (t.primitive id)) := by
  have hproper : id ∈ t.proper s ↔ _ := mem_proper hf
  simp only [hid, ne_eq, not_false_eq_true, true_and] at hproper
  unfold normal
  rw [if_neg hloose, ← hproper]
  split
  · rename_i hempty
    simp [hempty, hid]
  · exact Iff.rfl

/-- A set stands for the same primitives and objects with the normal form of
a part in its place. -/
theorem standsFor_normal (hf : Founded t) {s s' : Finset TypeId}
    (hloose : ¬ (.any ∈ s' ∨ .error ∈ s')) (hid : id ≠ .never) (hprimitive : t.primitive id = id) :
    StandsFor (s ∪ t.normal s') id ↔ StandsFor (s ∪ s') id := by
  have hself := mem_normal hf hloose hid
  have htrue : TypeId.trueValue ∈ t.normal s' ↔ _ := mem_normal hf hloose (by decide)
  have hfalse : TypeId.falseValue ∈ t.normal s' ↔ _ := mem_normal hf hloose (by decide)
  rw [primitive_trueValue hf] at htrue
  rw [primitive_falseValue hf] at hfalse
  have hne : (TypeId.trueValue : TypeId) ≠ .boolean ∧ (TypeId.falseValue : TypeId) ≠ .boolean := by
    decide
  simp only [StandsFor, Finset.mem_union] at *
  grind

/-- The normal form of a set does not change when a part of it is replaced
by the normal form of the part. -/
theorem normal_union (hf : Founded t) (s s' : Finset TypeId) :
    t.normal (s ∪ t.normal s') = t.normal (s ∪ s') := by
  have hkept : (.any ∈ s ∪ t.normal s' ∨ .error ∈ s ∪ t.normal s') ↔
      (.any ∈ s ∪ s' ∨ .error ∈ s ∪ s') := by
    have hpart := loose_normal hf (s := s')
    simp only [Finset.mem_union]
    grind
  by_cases hloose : .any ∈ s ∪ s' ∨ .error ∈ s ∪ s'
  · rw [normal_of_loose hloose, normal_of_loose (hkept.2 hloose)]
  have hpart : ¬ (.any ∈ s' ∨ .error ∈ s') := fun h =>
    hloose (h.imp (Finset.mem_union_right s) (Finset.mem_union_right s))
  have hproper : t.proper (s ∪ t.normal s') = t.proper (s ∪ s') := by
    ext id
    rw [mem_proper hf, mem_proper hf]
    refine and_congr_right fun hid => ?_
    by_cases hprimitive : t.primitive id = id
    · simp [hprimitive, standsFor_normal hf hpart hid hprimitive]
    · -- a literal stays if its primitive is in neither part
      have hmem := mem_normal hf hpart hid
      have hbase := standsFor_normal hf (s := s) hpart (primitive_ne hprimitive).1
        (primitive_primitive hf id)
      have hboolean : id ≠ .boolean := by
        rintro rfl
        exact hprimitive (primitive_predefined hf (by rfl : predefined[TypeId.boolean]? = _))
      rw [hbase]
      simp only [StandsFor, Finset.mem_union] at *
      grind
  rw [normal_of_not_loose (mt hkept.1 hloose), normal_of_not_loose hloose, hproper]

/-! ## Lists of types -/

theorem mem_foldl_addMember (new acc : List TypeId) :
    id ∈ new.foldl addMember acc ↔ id ∈ acc ∨ id ∈ new := by
  induction new generalizing acc with
  | nil => simp
  | cons a rest ih =>
    rw [List.foldl_cons, ih]
    unfold addMember
    split
    · rename_i ha
      rw [List.contains_iff_mem] at ha
      grind
    · grind

theorem nodup_foldl_addMember (new : List TypeId) {acc : List TypeId} (h : acc.Nodup) :
    (new.foldl addMember acc).Nodup := by
  induction new generalizing acc with
  | nil => exact h
  | cons a rest ih =>
    refine ih ?_
    unfold addMember
    split
    · exact h
    · rename_i ha
      rw [List.contains_iff_mem] at ha
      exact List.nodup_append.2 ⟨h, List.nodup_singleton a, by grind⟩

theorem toFinset_flatten (t : TypeTable) (ids : List TypeId) :
    (t.flatten ids).toFinset = t.flatSet ids := by
  ext id
  simp [flatten, flatSet, mem_foldl_addMember]

theorem perm_joinBooleans_insert (others : List TypeId) (place : Nat) :
    (others.take place ++ TypeId.boolean :: others.drop place).Perm (.boolean :: others) := by
  have h : (others.take place ++ TypeId.boolean :: others.drop place).Perm
      (.boolean :: (others.take place ++ others.drop place)) := List.perm_middle
  rwa [List.take_append_drop] at h

theorem toFinset_joinBooleans (members : List TypeId) :
    (joinBooleans members).toFinset = withBoolean members.toFinset := by
  unfold joinBooleans withBoolean
  simp only [Bool.and_eq_true, List.contains_iff_mem, List.mem_toFinset]
  by_cases hboth : .trueValue ∈ members ∧ .falseValue ∈ members
  · rw [if_pos hboth, if_pos hboth]
    ext id
    split
    · rename_i h
      simp only [List.mem_filter, List.mem_toFinset, Bool.not_or,
        Bool.and_eq_true, Bool.not_eq_eq_eq_not, Bool.not_true, beq_eq_false_iff_ne,
        Finset.mem_insert, Finset.mem_erase] at h ⊢
      grind
    · rw [List.mem_toFinset, (perm_joinBooleans_insert _ _).mem_iff]
      simp only [List.mem_cons, List.mem_filter, Bool.not_or, Bool.and_eq_true,
        Bool.not_eq_eq_eq_not, Bool.not_true, beq_eq_false_iff_ne, Finset.mem_insert,
        Finset.mem_erase, List.mem_toFinset]
      grind
  · rw [if_neg hboth, if_neg hboth]

theorem nodup_joinBooleans (h : members.Nodup) : (joinBooleans members).Nodup := by
  unfold joinBooleans
  split
  · dsimp only
    split
    · exact h.filter _
    · rename_i hnot
      refine (perm_joinBooleans_insert _ _).nodup_iff.2 (List.nodup_cons.2 ⟨?_, h.filter _⟩)
      rwa [List.contains_iff_mem] at hnot
  · exact h

theorem toFinset_unionOf (t : TypeTable) (ids : List TypeId) :
    (t.unionOf ids).toFinset = t.proper (t.flatSet ids) := by
  have hpresent : ((t.flatten ids).filter (· != TypeId.never)).toFinset =
      (t.flatSet ids).erase .never := by
    ext id
    simp [← toFinset_flatten, and_comm]
  unfold unionOf proper withoutLiterals
  rw [← hpresent, ← toFinset_joinBooleans]
  ext id
  simp [absorb]

theorem nodup_unionOf (t : TypeTable) (ids : List TypeId) : (t.unionOf ids).Nodup :=
  List.Nodup.filter _ (nodup_joinBooleans ((nodup_foldl_addMember _ List.nodup_nil).filter _))

theorem any_isLoose_flatten (t : TypeTable) (ids : List TypeId) :
    (t.flatten ids).any TypeId.isLoose = true ↔ .any ∈ t.flatSet ids ∨ .error ∈ t.flatSet ids := by
  simp only [List.any_eq_true, TypeId.isLoose, Bool.or_eq_true, beq_iff_eq, ← toFinset_flatten,
    List.mem_toFinset]
  grind

/-! ## Canonical unions -/

def isUnion : TypeData → Bool
  | .union _ => true
  | _ => false

/-- The form in which a table keeps the members of a union. -/
structure Canonical (t : TypeTable) (members : List TypeId) : Prop where
  nodup : members.Nodup
  several : 2 ≤ members.length
  there : ∀ m ∈ members, m < t.size
  flat : ∀ m ∈ members, isUnion (t.dataOf m) = false
  strict : ∀ m ∈ members, m ≠ .any ∧ m ≠ .error ∧ m ≠ .never
  booleans : ¬ (.trueValue ∈ members ∧ .falseValue ∈ members)
  literals : ∀ m ∈ members, t.primitive m = m ∨ t.primitive m ∉ members

/-- All unions of a table are canonical. -/
def Tidy (t : TypeTable) : Prop :=
  ∀ (id : TypeId) (members : List TypeId), t.types[id]? = some (.union members) →
    Canonical t members

theorem getElem?_of_dataOf_union (h : t.dataOf id = .union members) :
    t.types[id]? = some (.union members) := by
  unfold dataOf at h
  rw [Array.getD_eq_getD_getElem?] at h
  cases hid : t.types[id]? with
  | none => rw [hid] at h; cases h
  | some data => rw [hid] at h; exact congrArg some h

theorem unionMembers_of_not_union (h : isUnion (t.dataOf id) = false) : t.unionMembers id = [id] := by
  unfold unionMembers
  split
  · rename_i members hmembers
    rw [hmembers] at h
    cases h
  · rfl

/-- What a flattened list is made of are no unions. -/
theorem Tidy.flat (h : Tidy t) (hid : id ∈ t.flatSet ids) : isUnion (t.dataOf id) = false := by
  obtain ⟨i, -, hmem⟩ := List.mem_flatMap.1 (List.mem_toFinset.1 hid)
  unfold unionMembers at hmem
  split at hmem
  · rename_i members hmembers
    exact (h i members (getElem?_of_dataOf_union hmembers)).flat id hmem
  · rename_i hother
    rw [List.mem_singleton.1 hmem]
    cases hdata : t.dataOf i with
    | union members => exact absurd hdata (hother members)
    | _ => rfl

theorem Indexed.lt_size_flatSet (h : Indexed t) (hids : ∀ i ∈ ids, i < t.size)
    (hid : id ∈ t.flatSet ids) : id < t.size := by
  obtain ⟨i, hi, hmem⟩ := List.mem_flatMap.1 (List.mem_toFinset.1 hid)
  exact h.lt_size_unionMembers (hids i hi) hmem

theorem mem_unionOf (hf : Founded t) : id ∈ t.unionOf ids ↔ id ≠ .never ∧
    StandsFor (t.flatSet ids) id ∧
      (t.primitive id = id ∨ ¬ StandsFor (t.flatSet ids) (t.primitive id)) := by
  rw [← List.mem_toFinset, toFinset_unionOf]
  exact mem_proper hf

theorem Tidy.flat_unionOf (h : Tidy t) (hf : Founded t) (hid : id ∈ t.unionOf ids) :
    isUnion (t.dataOf id) = false := by
  rcases ((mem_unionOf hf).1 hid).2.1 with hmem | ⟨rfl, -⟩
  · exact h.flat hmem
  · rw [dataOf_predefined hf (by rfl : predefined[TypeId.boolean]? = _)]
    rfl

theorem Tidy.canonical_unionOf (h : Tidy t) (hi : Indexed t) (hf : Founded t)
    (hids : ∀ i ∈ ids, i < t.size)
    (hloose : ¬ (.any ∈ t.flatSet ids ∨ .error ∈ t.flatSet ids))
    (hlength : 2 ≤ (t.unionOf ids).length) : Canonical t (t.unionOf ids) where
  nodup := t.nodup_unionOf ids
  several := hlength
  there _ := hi.lt_size_unionOf hf hids
  flat _ := h.flat_unionOf hf
  strict m hm := by
    obtain ⟨hnever, hstands, -⟩ := (mem_unionOf hf).1 hm
    have hboolean : (TypeId.any : TypeId) ≠ .boolean ∧ (TypeId.error : TypeId) ≠ .boolean := by
      decide
    unfold StandsFor at hstands
    grind
  booleans := by
    rintro ⟨htrue, hfalse⟩
    obtain ⟨-, hstands, hstay⟩ := (mem_unionOf hf).1 htrue
    have hstands' := ((mem_unionOf hf).1 hfalse).2.1
    rw [primitive_trueValue hf] at hstay
    have hne : (TypeId.trueValue : TypeId) ≠ .boolean ∧ (TypeId.falseValue : TypeId) ≠ .boolean := by
      decide
    unfold StandsFor at *
    grind
  literals m hm := by
    obtain ⟨-, -, hstay⟩ := (mem_unionOf hf).1 hm
    exact hstay.imp_right fun hnot hmem => hnot ((mem_unionOf hf).1 hmem).2.1

/-! ### Later tables -/

theorem Kept.isUnion_dataOf (h : Kept t t') (hid : id < t.size) :
    isUnion (t'.dataOf id) = isUnion (t.dataOf id) := by
  have hentry : t.types[id]? = some t.types[id] := Array.getElem?_eq_getElem hid
  cases hdata : t.types[id] with
  | object shape =>
    rw [hdata] at hentry
    obtain ⟨shape', hentry'⟩ := h.objects id shape hentry
    rw [dataOf_of_getElem? hentry, dataOf_of_getElem? hentry']
    rfl
  | _ =>
    rw [hdata] at hentry
    rw [dataOf_of_getElem? hentry, dataOf_of_getElem? (h.structures id _ hentry rfl)]

/-- The primitive and the members of a type stay. -/
theorem Kept.primitive (h : Kept t t') (hid : id < t.size) :
    t'.primitive id = t.primitive id ∧ t'.unionMembers id = t.unionMembers id := by
  have hentry : t.types[id]? = some t.types[id] := Array.getElem?_eq_getElem hid
  unfold TypeTable.primitive unionMembers
  cases hdata : t.types[id] with
  | object shape =>
    rw [hdata] at hentry
    obtain ⟨shape', hentry'⟩ := h.objects id shape hentry
    rw [dataOf_of_getElem? hentry, dataOf_of_getElem? hentry']
    exact ⟨rfl, rfl⟩
  | _ =>
    rw [hdata] at hentry
    rw [dataOf_of_getElem? hentry, dataOf_of_getElem? (h.structures id _ hentry rfl)]
    exact ⟨rfl, rfl⟩

theorem Canonical.kept (h : Canonical t members) (hk : Kept t t') : Canonical t' members :=
  { h with
    there := fun m hm => Nat.lt_of_lt_of_le (h.there m hm) hk.size
    flat := fun m hm => by
      rw [hk.isUnion_dataOf (h.there m hm)]
      exact h.flat m hm
    literals := fun m hm => by
      rw [(hk.primitive (h.there m hm)).1]
      exact h.literals m hm }

theorem Tidy.kept (h : Tidy t) (hk : Kept t t')
    (hnew : ∀ (id : TypeId) (members : List TypeId), t'.types[id]? = some (.union members) →
      t.types[id]? = some (.union members) ∨ Canonical t members) : Tidy t' :=
  fun id members hid => ((hnew id members hid).elim (h id members) fun hc => hc).kept hk

/-! ## Operations -/

/-- What is interned is found under the index that is given. -/
theorem Indexed.getElem?_intern (h : Indexed t) (data : TypeData) :
    (intern data t).2.types[(intern data t).1]? = some data := by
  cases hk : t.known.get? data with
  | some known => rw [intern_known hk]; exact ((h.known data known).1 hk).1
  | none => rw [intern_new hk]; exact Array.getElem?_push_size

/-- What the union of some types comes to. -/
theorem union_cases (t : TypeTable) (ids : List TypeId) :
    ((.any ∈ t.flatSet ids ∨ .error ∈ t.flatSet ids) ∧ union ids t = (.any, t)) ∨
    ¬ (.any ∈ t.flatSet ids ∨ .error ∈ t.flatSet ids) ∧
      (t.unionOf ids = [] ∧ union ids t = (.never, t) ∨
        (∃ id, t.unionOf ids = [id] ∧ union ids t = (id, t)) ∨
        2 ≤ (t.unionOf ids).length ∧ union ids t = intern (.union (t.unionOf ids)) t) := by
  rw [← any_isLoose_flatten]
  unfold union
  rw [get_bind]
  split
  · exact .inl ⟨‹_›, rfl⟩
  · refine .inr ⟨‹_›, ?_⟩
    match t.unionOf ids with
    | [] => exact .inl ⟨rfl, rfl⟩
    | [id] => exact .inr (.inl ⟨id, rfl, rfl⟩)
    | _ :: _ :: _ => exact .inr (.inr ⟨by simp, rfl⟩)

theorem getElem?_intern {data new : TypeData} (h : (intern new t).2.types[id]? = some data) :
    t.types[id]? = some data ∨ data = new := by
  cases hk : t.known.get? new with
  | some known => rw [intern_known hk] at h; exact .inl h
  | none =>
    rw [intern_new hk] at h
    exact (getElem?_push_cases h).imp_right And.right

theorem Tidy.intern (h : Tidy t) {data : TypeData} (hdata : isUnion data = false)
    (ha : Allots t (intern data)) : Tidy (TypeTable.intern data t).2 := by
  refine h.kept ha.change.kept fun id members hid => ?_
  rcases getElem?_intern hid with hold | hnew
  · exact .inl hold
  · rw [← hnew] at hdata
    cases hdata

theorem Tidy.allocate (h : Tidy t) (shape : Shape) : Tidy (TypeTable.allocate shape t).2 := by
  refine h.kept (Change.allocate shape).kept fun id members hid => ?_
  rcases getElem?_push_cases hid with hold | ⟨-, hnew⟩
  · exact .inl hold
  · cases hnew

theorem Tidy.setShape (h : Tidy t) (id : TypeId) (shape : Shape) :
    Tidy (TypeTable.setShape id shape t).2 := by
  refine h.kept (t.change_setShape id shape).kept fun i members hi => .inl ?_
  cases hs : t.shape? id with
  | none =>
    rw [setShape_other hs] at hi
    exact hi
  | some old =>
    rw [getElem?_setShape hs] at hi
    split at hi
    · cases hi
    · exact hi

section

variable (h : Tidy t) (hi : Indexed t) (hf : Founded t)

include h hi hf

theorem Tidy.union (hids : ∀ i ∈ ids, i < t.size) : Tidy (TypeTable.union ids t).2 := by
  refine h.kept (hi.allots_union hf hids).change.kept fun id members hid => ?_
  rcases t.union_cases ids with ⟨-, heq⟩ | ⟨hloose, ⟨-, heq⟩ | ⟨_, -, heq⟩ | ⟨hlength, heq⟩⟩
  · exact .inl (by rwa [heq] at hid)
  · exact .inl (by rwa [heq] at hid)
  · exact .inl (by rwa [heq] at hid)
  · rw [heq] at hid
    refine (getElem?_intern hid).imp_right fun hnew => ?_
    cases hnew
    exact h.canonical_unionOf hi hf hids hloose hlength

theorem Tidy.widen (id : TypeId) : Tidy (TypeTable.widen id t).2 := by
  unfold TypeTable.widen
  rw [get_bind]
  cases hdata : t.dataOf id with
  | union members =>
    refine h.union hi hf fun i hmem => ?_
    obtain ⟨m, hm, rfl⟩ := List.mem_map.1 hmem
    exact hf.lt_size_primitive (hi.parts id _ (getElem?_of_dataOf_union hdata) m hm)
  | _ => exact h

/-- Each operation keeps all unions canonical. -/
theorem Tidy.run (op : Operation) (hop : ∀ i ∈ op.takes, i < t.size) : Tidy (op.run t).2 := by
  cases op with
  | numberLiteral text => exact h.intern rfl (hi.allots_intern rfl fun _ hpart => by cases hpart)
  | stringLiteral text => exact h.intern rfl (hi.allots_intern rfl fun _ hpart => by cases hpart)
  | array element => exact h.intern rfl (hi.allots_intern rfl hop)
  | union members => exact h.union hi hf hop
  | widen id => exact h.widen hi hf id
  | function signature => exact h.allocate _
  | allocate shape => exact h.allocate shape
  | setShape id shape => exact h.setShape id shape

/-- The members of a union are the normal form of what its types are made
of. -/
theorem memberSet_union (ids : List TypeId) :
    (TypeTable.union ids t).2.memberSet (TypeTable.union ids t).1 = t.normal (t.flatSet ids) := by
  have hset := t.toFinset_unionOf ids
  have hpredefined : ∀ {id : TypeId} {kind : Intrinsic}, predefined[id]? = some (.intrinsic kind) →
      t.memberSet id = {id} := fun hid => by
    unfold memberSet
    rw [unionMembers_of_not_union (by rw [dataOf_predefined hf hid]; rfl)]
    rfl
  rcases t.union_cases ids with
    ⟨hloose, heq⟩ | ⟨hloose, ⟨hnone, heq⟩ | ⟨id, hone, heq⟩ | ⟨hlength, heq⟩⟩
  · rw [heq, normal_of_loose hloose]
    exact hpredefined (by rfl : predefined[TypeId.any]? = _)
  · rw [hnone] at hset
    rw [heq, normal_of_not_loose hloose, ← hset, List.toFinset_nil, if_pos rfl]
    exact hpredefined (by rfl : predefined[TypeId.never]? = _)
  · rw [hone] at hset
    rw [heq, normal_of_not_loose hloose, ← hset, if_neg (by simp)]
    have hflat := h.flat_unionOf hf (show id ∈ t.unionOf ids by simp [hone])
    show t.memberSet id = _
    unfold memberSet
    rw [unionMembers_of_not_union hflat]
  · have hsome : t.proper (t.flatSet ids) ≠ ∅ := by
      rw [← hset]
      intro hempty
      rw [(List.toFinset_eq_empty_iff _).1 hempty] at hlength
      simp at hlength
    rw [normal_of_not_loose hloose, if_neg hsome, ← hset, heq]
    have hentry := (hi.getElem?_intern (.union (t.unionOf ids)))
    unfold memberSet unionMembers
    rw [dataOf_of_getElem? hentry]

end

/-! ## Laws -/

/-- The members of the type that an action gives. -/
def outcome (t : TypeTable) (x : Alloc TypeId) : Finset TypeId :=
  (x t).2.memberSet (x t).1

theorem outcome_bind (t : TypeTable) (x : Alloc TypeId) (next : TypeId → Alloc TypeId) :
    t.outcome (x >>= next) = (x t).2.outcome (next (x t).1) :=
  rfl

theorem flatSet_append (t : TypeTable) (xs ys : List TypeId) :
    t.flatSet (xs ++ ys) = t.flatSet xs ∪ t.flatSet ys := by
  simp [flatSet, List.toFinset_append]

theorem flatSet_nil (t : TypeTable) : t.flatSet [] = ∅ :=
  rfl

theorem flatSet_cons (t : TypeTable) (id : TypeId) (ids : List TypeId) :
    t.flatSet (id :: ids) = t.memberSet id ∪ t.flatSet ids := by
  simp [flatSet, memberSet, List.toFinset_append]

theorem Kept.flatSet (h : Kept t t') (hids : ∀ i ∈ ids, i < t.size) :
    t'.flatSet ids = t.flatSet ids := by
  induction ids with
  | nil => rfl
  | cons id rest ih =>
    obtain ⟨hid, hrest⟩ := List.forall_mem_cons.1 hids
    rw [flatSet_cons, flatSet_cons, ih hrest]
    unfold memberSet
    rw [(h.primitive hid).2]

theorem Kept.normal (h : Kept t t') (hf : Founded t) {s : Finset TypeId}
    (hs : ∀ id ∈ s, id < t.size) : t'.normal s = t.normal s := by
  have hproper : t'.proper s = t.proper s := by
    ext id
    rw [mem_proper hf, mem_proper (hf.kept h)]
    refine and_congr_right fun _ => and_congr_right fun hstands => ?_
    have hid : id < t.size := by
      rcases hstands with hmem | ⟨rfl, -⟩
      · exact hs id hmem
      · exact hf.lt_size (by decide)
    rw [(h.primitive hid).1]
  unfold TypeTable.normal
  rw [hproper]

theorem Canonical.normal (h : Canonical t members) (hf : Founded t) :
    t.normal members.toFinset = members.toFinset := by
  have hstands : ∀ m, StandsFor members.toFinset m ↔ m ∈ members := fun m => by
    have := h.booleans
    simp only [StandsFor, List.mem_toFinset]
    grind
  have hproper : t.proper members.toFinset = members.toFinset := by
    ext m
    rw [mem_proper hf, hstands, hstands, List.mem_toFinset]
    exact ⟨fun hm => hm.2.1, fun hm => ⟨(h.strict m hm).2.2, hm, h.literals m hm⟩⟩
  have hsome : members.toFinset ≠ ∅ := fun hempty => by
    have hseveral := h.several
    rw [(List.toFinset_eq_empty_iff _).1 hempty] at hseveral
    cases hseveral
  have hloose : ¬ (.any ∈ members.toFinset ∨ .error ∈ members.toFinset) := by
    simp only [List.mem_toFinset]
    rintro (hm | hm)
    · exact (h.strict _ hm).1 rfl
    · exact (h.strict _ hm).2.1 rfl
  rw [normal_of_not_loose hloose, hproper, if_neg hsome]

theorem normal_singleton (hf : Founded t) (hid : id ≠ .error) : t.normal {id} = {id} := by
  have hne : (TypeId.trueValue : TypeId) ≠ .falseValue := by decide
  have hstands : ∀ m, StandsFor {id} m ↔ m = id := fun m => by
    simp only [StandsFor, Finset.mem_singleton]
    grind
  have hproper : ∀ m, m ∈ t.proper {id} ↔ m = id ∧ id ≠ .never := fun m => by
    rw [mem_proper hf, hstands, hstands]
    grind
  by_cases hany : id = .any
  · exact hany ▸ normal_of_loose (.inl (Finset.mem_singleton_self _))
  have hloose : ¬ (.any ∈ ({id} : Finset TypeId) ∨ .error ∈ ({id} : Finset TypeId)) := by
    simp only [Finset.mem_singleton]
    exact fun h => h.elim (fun h => hany h.symm) fun h => hid h.symm
  rw [normal_of_not_loose hloose]
  split
  · rename_i hempty
    have hnever : id = .never := by
      by_contra hne
      have hmem := (hproper id).2 ⟨rfl, hne⟩
      rw [hempty] at hmem
      cases hmem
    rw [hnever]
  · rename_i hsome
    obtain ⟨m, hm⟩ := Finset.nonempty_iff_ne_empty.2 hsome
    ext m'
    rw [hproper, Finset.mem_singleton]
    exact and_iff_left ((hproper m).1 hm).2

/-- A type that is no error is its own normal form. -/
theorem Tidy.normal_memberSet (h : Tidy t) (hf : Founded t) (hid : id ≠ .error) :
    t.normal (t.memberSet id) = t.memberSet id := by
  cases hunion : isUnion (t.dataOf id) with
  | true =>
    unfold isUnion at hunion
    split at hunion
    · rename_i members hdata
      have hset : t.memberSet id = members.toFinset := by
        unfold memberSet unionMembers
        rw [hdata]
      rw [hset]
      exact (h id members (getElem?_of_dataOf_union hdata)).normal hf
    · cases hunion
  | false =>
    have hset : t.memberSet id = {id} := by
      unfold memberSet
      rw [unionMembers_of_not_union hunion]
      rfl
    rw [hset]
    exact normal_singleton hf hid

/-- The normal form adds no types but the predefined ones. -/
theorem lt_size_normal (hf : Founded t) {s : Finset TypeId} (hs : ∀ id ∈ s, id < t.size)
    (hid : id ∈ t.normal s) : id < t.size := by
  unfold normal at hid
  split at hid
  · rw [Finset.mem_singleton.1 hid]
    exact hf.lt_size (by decide)
  · split at hid
    · rw [Finset.mem_singleton.1 hid]
      exact hf.lt_size (by decide)
    · rcases ((mem_proper hf).1 hid).2.1 with hmem | ⟨rfl, -⟩
      · exact hs id hmem
      · exact hf.lt_size (by decide)

section

variable (h : Tidy t) (hi : Indexed t) (hf : Founded t)

include h hi hf

/-- What a union is made of stays in later tables. -/
theorem Kept.memberSet_union (hids : ∀ i ∈ ids, i < t.size)
    (hk : Kept (TypeTable.union ids t).2 t') :
    t'.memberSet (TypeTable.union ids t).1 = t.normal (t.flatSet ids) := by
  rw [← TypeTable.memberSet_union h hi hf]
  unfold memberSet
  rw [(hk.primitive (hi.allots_union hf hids).handed).2]

/-- The union of two unions has the members of one union of it all. -/
theorem outcome_union_union (hxs : ∀ i ∈ xs, i < t.size) (hys : ∀ i ∈ ys, i < t.size) :
    t.outcome (do TypeTable.union [← TypeTable.union xs, ← TypeTable.union ys]) =
      t.outcome (TypeTable.union (xs ++ ys)) := by
  -- the table after each of the two parts
  have hfirst := hi.allots_union hf hxs
  have hk₁ := hfirst.change.kept
  have h₁ := h.union hi hf hxs
  have hi₁ := hi.change hfirst.change
  have hf₁ := hf.kept hk₁
  have hys₁ := fun i hmem => Nat.lt_of_lt_of_le (hys i hmem) hk₁.size
  have hsecond := hi₁.allots_union hf₁ hys₁
  have hk₂ := hsecond.change.kept
  have h₂ := h₁.union hi₁ hf₁ hys₁
  have hi₂ := hi₁.change hsecond.change
  have hf₂ := hf₁.kept hk₂
  have hk : Kept t _ := hk₁.trans hk₂
  have hsxs : ∀ id ∈ t.flatSet xs, id < t.size := fun id hid => hi.lt_size_flatSet hxs hid
  have hsys : ∀ id ∈ t.flatSet ys, id < t.size := fun id hid => hi.lt_size_flatSet hys hid
  have hparts : ∀ id ∈ t.normal (t.flatSet xs) ∪ t.normal (t.flatSet ys), id < t.size :=
    fun id hid => (Finset.mem_union.1 hid).elim (lt_size_normal hf hsxs) (lt_size_normal hf hsys)
  have hjoined := memberSet_union h₂ hi₂ hf₂
    [(TypeTable.union xs t).1, (TypeTable.union ys (TypeTable.union xs t).2).1]
  rw [flatSet_cons, flatSet_cons, hk₂.memberSet_union h hi hf hxs,
    (Kept.refl _).memberSet_union h₁ hi₁ hf₁ hys₁, hk₁.flatSet hys, hk₁.normal hf hsys,
    flatSet_nil, Finset.union_empty] at hjoined
  calc t.outcome (do TypeTable.union [← TypeTable.union xs, ← TypeTable.union ys])
    _ = t.normal (t.normal (t.flatSet xs) ∪ t.normal (t.flatSet ys)) := by
        rw [← hk.normal hf hparts, outcome_bind, outcome_bind]
        exact hjoined
    _ = t.normal (t.flatSet xs ∪ t.flatSet ys) := by
        rw [normal_union hf, Finset.union_comm, normal_union hf, Finset.union_comm]
    _ = t.outcome (TypeTable.union (xs ++ ys)) := by
        rw [← flatSet_append]
        exact (memberSet_union h hi hf _).symm

end

/-! ## All tables in use -/

theorem tidy_initial : Tidy initial := by
  intro id members hid
  rw [types_initial, List.getElem?_toArray] at hid
  have hmem := List.mem_of_getElem? hid
  simp [predefined] at hmem

theorem Tidy.after {u : InUse} (h : Tidy u.table) (hu : u.Sound) {ops : List Operation}
    (hops : u.Allows ops) : Tidy (u.after ops).table := by
  induction ops generalizing u with
  | nil => exact h
  | cons op rest ih =>
    exact ih (h.run hu.indexed hu.founded op fun id hid => hu.handed id (hops.1 id hid))
      (hu.perform hops.1) hops.2

/-- After any operations on types that were handed out, and for any types
that are there:
* all unions are canonical;
* the members of a union are the normal form of what its types are made of;
* so neither the order of the types nor repetitions matter;
* a type that is no error is the union of itself with itself;
* the union of two unions has the members of one union of it all.
An error is the one type that its union with itself hides: that is `any`. -/
theorem InUse.union_normal (ops : List Operation) (h : new.Allows ops) :
    (∀ (id : TypeId) (members : List TypeId),
      (new.after ops).table.types[id]? = some (.union members) →
        Canonical (new.after ops).table members) ∧
    (∀ ids, (∀ id ∈ ids, id < (new.after ops).table.size) →
      (new.after ops).table.outcome (union ids) =
        (new.after ops).table.normal ((new.after ops).table.flatSet ids)) ∧
    (∀ xs ys, (∀ id ∈ xs, id < (new.after ops).table.size) → xs.toFinset = ys.toFinset →
      (new.after ops).table.outcome (union xs) = (new.after ops).table.outcome (union ys)) ∧
    (∀ id < (new.after ops).table.size, id ≠ TypeId.error →
      (new.after ops).table.outcome (union [id, id]) = (new.after ops).table.memberSet id) ∧
    ∀ xs ys, (∀ id ∈ xs ++ ys, id < (new.after ops).table.size) →
      (new.after ops).table.outcome (do union [← union xs, ← union ys]) =
        (new.after ops).table.outcome (union (xs ++ ys)) := by
  have hsound := sound_new.after h
  have htidy := tidy_initial.after (u := new) sound_new h
  have hunion := memberSet_union htidy hsound.indexed hsound.founded
  refine ⟨htidy, fun ids _ => hunion ids, fun xs ys _ hsame => ?_, fun id _ hid => ?_,
    fun xs ys hall => ?_⟩
  · have hflat : (new.after ops).table.flatSet xs = (new.after ops).table.flatSet ys := by
      unfold flatSet
      ext m
      have hmem : ∀ i, i ∈ xs ↔ i ∈ ys := fun i => by
        rw [← List.mem_toFinset, hsame, List.mem_toFinset]
      simp only [List.mem_toFinset, List.mem_flatMap, hmem]
    exact (hunion xs).trans (hflat ▸ (hunion ys).symm)
  · refine (hunion [id, id]).trans ?_
    rw [flatSet_cons, flatSet_cons, ← Finset.union_assoc, Finset.union_self, flatSet_nil,
      Finset.union_empty]
    exact htidy.normal_memberSet hsound.founded hid
  · exact outcome_union_union htidy hsound.indexed hsound.founded
      (fun i hmem => hall i (List.mem_append_left ys hmem))
      fun i hmem => hall i (List.mem_append_right xs hmem)

/-- Two literals and a boolean, then their union with a primitive and the
other boolean. -/
def InUse.mixed : List Operation :=
  [.stringLiteral "a", .numberLiteral "1", .union [12, TypeId.trueValue, 13],
    .union [TypeId.string, TypeId.falseValue, 14]]

/-- The second union keeps `1` of the literals, in whatever order and by
whatever parts it is asked for. -/
theorem InUse.union_normal_mixed :
    new.Allows mixed ∧
    (new.after mixed).table.types[15]? = some (.union [TypeId.string, TypeId.boolean, 13]) ∧
    Canonical (new.after mixed).table [TypeId.string, TypeId.boolean, 13] ∧
    (new.after mixed).table.outcome (union [14, TypeId.falseValue, TypeId.string]) =
      {TypeId.string, TypeId.boolean, 13} ∧
    (new.after mixed).table.outcome (union [14, TypeId.falseValue, TypeId.string, 14]) =
      {TypeId.string, TypeId.boolean, 13} ∧
    (new.after mixed).table.outcome (union [15, 15]) = {TypeId.string, TypeId.boolean, 13} ∧
    (new.after mixed).table.outcome (do union [← union [14, 12], ← union [TypeId.string, 10, 11]]) =
      {TypeId.string, TypeId.boolean, 13} := by
  have hallows : new.Allows mixed := by decide +kernel
  have hstored : (new.after mixed).table.types[15]? =
      some (.union [TypeId.string, TypeId.boolean, 13]) := by decide +kernel
  have hsize : (new.after mixed).table.size = 16 := by decide +kernel
  obtain ⟨hcanonical, hnormal, horder, hself, hparts⟩ := union_normal mixed hallows
  rw [hsize] at hnormal horder hself hparts
  have hunion : (new.after mixed).table.outcome (union [14, TypeId.falseValue, TypeId.string]) =
      {TypeId.string, TypeId.boolean, 13} :=
    (hnormal _ (by decide)).trans (by decide +kernel)
  refine ⟨hallows, hstored, hcanonical 15 _ hstored, hunion,
    (horder _ _ (by decide) (by decide)).trans hunion,
    (hself 15 (by decide) (by decide)).trans (by decide +kernel),
    (hparts _ _ (by decide)).trans ((hnormal _ (by decide)).trans (by decide +kernel))⟩

end ScriptAnalysis.TypeTable
