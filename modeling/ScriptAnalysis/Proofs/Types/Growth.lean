import ScriptAnalysis.Proofs.Types.Interning
import ScriptAnalysis.Types.Apparent

/-!
# A table only grows

Whatever types are asked for, those that are there stay as they are. Of the
new ones, the objects belong to no declaration: they are functions and object
literals (`Shape.Nameless`). Classes and interfaces are put into a table by
the checker alone, which also fills them in.

**Results.**
* `shape?_iff`, `getElem?_setShape`: what is read off a type, and what filling
  in an object changes.
* `Grows.bind`: actions in sequence, and from that each action on a table,
  up to `grows_union`, `grows_widen` and `grows_memberType`.
-/
namespace ScriptAnalysis

/-- No two properties have one name. -/
def Shape.Distinct (s : Shape) : Prop :=
  (s.properties.map Property.name).Nodup

theorem Shape.distinct_bare (kind : ObjectKind) (name : Option String) (symbol : Option SymbolId) :
    (Shape.bare kind name symbol).Distinct :=
  List.nodup_nil

/-- A property with a new name comes last. -/
theorem nodup_names_concat {ps : List Property} {p : Property} (h : (ps.map Property.name).Nodup)
    (hnew : ∀ q ∈ ps, q.name ≠ p.name) : ((ps ++ [p]).map Property.name).Nodup := by
  rw [List.map_append, List.map_singleton]
  refine List.nodup_append.2 ⟨h, List.pairwise_singleton _ _, ?_⟩
  simp only [List.mem_map, List.mem_singleton]
  rintro _ ⟨q, hq, rfl⟩ _ rfl
  exact hnew q hq

/-- An object that belongs to no class and no interface. -/
structure Shape.Nameless (s : Shape) : Prop where
  kind : s.kind = .anonymous
  symbol : s.symbol = none
  constructs : s.constructs = []
  names : (s.properties.map Property.name).Nodup

namespace TypeTable

variable {α β : Type} {t t' t'' : TypeTable} {id : TypeId} {data : TypeData} {shape : Shape}

/-- The types are still there, and the new objects belong to no declaration. -/
structure Grown (t t' : TypeTable) : Prop where
  old : ∀ (id : TypeId) (data : TypeData), t.types[id]? = some data → t'.types[id]? = some data
  new : ∀ (id : TypeId) (shape : Shape), t'.types[id]? = some (.object shape) →
    t.types[id]? = some (.object shape) ∨ shape.Nameless

theorem Grown.refl (t : TypeTable) : Grown t t :=
  ⟨fun _ _ h => h, fun _ _ h => .inl h⟩

theorem Grown.trans (h : Grown t t') (h' : Grown t' t'') : Grown t t'' where
  old id data hid := h'.old id data (h.old id data hid)
  new id shape hid := (h'.new id shape hid).elim (h.new id shape) .inr

theorem Grown.kept (h : Grown t t') : Kept t t' where
  size := by
    refine Nat.le_of_not_lt fun hlt => ?_
    have hentry := h.old t'.size _ (Array.getElem?_eq_getElem hlt)
    exact Nat.lt_irrefl _ (lt_size_of_getElem? hentry)
  structures id data hid _ := h.old id data hid
  objects id shape hid := ⟨shape, h.old id _ hid⟩

/-! ## What is read off a type -/

theorem getElem?_of_shape? (h : t.shape? id = some shape) :
    t.types[id]? = some (.object shape) := by
  unfold shape? dataOf at h
  rw [Array.getD_eq_getD_getElem?] at h
  cases hid : t.types[id]? with
  | none => rw [hid] at h; cases h
  | some data =>
    rw [hid] at h
    cases data with
    | object found => cases h; rfl
    | _ => cases h

theorem shape?_of_getElem? (h : t.types[id]? = some (.object shape)) : t.shape? id = some shape := by
  unfold shape?
  rw [dataOf_of_getElem? h]

theorem shape?_iff : t.shape? id = some shape ↔ t.types[id]? = some (.object shape) :=
  ⟨getElem?_of_shape?, shape?_of_getElem?⟩

theorem constructs_of_shape? (h : t.shape? id = some shape) : t.constructs id = shape.constructs := by
  unfold constructs
  rw [h]
  rfl

theorem setShape_object {old : Shape} (h : t.shape? id = some old) (shape : Shape) :
    (setShape id shape t).2 = { t with types := t.types.setIfInBounds id (.object shape) } := by
  have hdata : t.dataOf id = .object old := dataOf_of_getElem? (getElem?_of_shape? h)
  rw [setShape_eq, hdata]

/-- What is no object stays. -/
theorem setShape_other (h : t.shape? id = none) (shape : Shape) : (setShape id shape t).2 = t := by
  rw [setShape_eq]
  split
  · rename_i hdata
    unfold shape? at h
    rw [hdata] at h
    cases h
  · rfl

/-- The shape of an object is replaced and all else stays. -/
theorem getElem?_setShape {old : Shape} (h : t.shape? id = some old) (shape : Shape) (j : TypeId) :
    (setShape id shape t).2.types[j]? = if id = j then some (.object shape) else t.types[j]? := by
  rw [setShape_object h, Array.getElem?_setIfInBounds]
  have hlt := lt_size_of_getElem? (getElem?_of_shape? h)
  split
  · rename_i heq
    exact if_pos (heq ▸ hlt)
  · rfl

/-- A new object comes last. -/
theorem getElem?_allocate (t : TypeTable) (shape : Shape) (j : TypeId) :
    (allocate shape t).2.types[j]? = if j = t.size then some (.object shape) else t.types[j]? :=
  Array.getElem?_push

theorem size_allocate (t : TypeTable) (shape : Shape) : (allocate shape t).2.size = t.size + 1 :=
  Array.size_push _

/-- At first there are no objects. -/
theorem shape?_initial (id : TypeId) : initial.shape? id = none := by
  refine Option.eq_none_iff_forall_ne_some.2 fun shape hshape => ?_
  have hobjects : ∀ data ∈ predefined, data.isObject = false := by decide
  have hentry := getElem?_of_shape? hshape
  rw [types_initial, List.getElem?_toArray] at hentry
  cases hobjects _ (List.mem_of_getElem? hentry)

/-! ## Actions on a table -/

/-- The action only adds types. -/
def Grows (x : Alloc α) : Prop :=
  ∀ t, Grown t (x t).2

theorem Grows.pure (a : α) : Grows (Pure.pure a : Alloc α) :=
  Grown.refl

theorem Grows.bind {x : Alloc α} {f : α → Alloc β} (hx : Grows x) (hf : ∀ a, Grows (f a)) :
    Grows (x >>= f) :=
  fun t => (hx t).trans (hf (x t).1 (x t).2)

theorem Grows.get {f : TypeTable → Alloc β} (h : ∀ t, Grows (f t)) :
    Grows ((MonadState.get : Alloc TypeTable) >>= f) :=
  fun t => h t t

theorem Grown.push {known : Table TypeData TypeId}
    (hdata : ∀ shape, data = .object shape → shape.Nameless) :
    Grown t ⟨t.types.push data, known⟩ where
  old _ _ := getElem?_push_old
  new _ _ hid := (getElem?_push_cases hid).imp id fun hnew => hdata _ hnew.2.symm

theorem grows_intern (hdata : data.isObject = false) : Grows (intern data) := by
  intro t
  cases hk : t.known.get? data with
  | some known =>
    rw [intern_known hk]
    exact .refl t
  | none =>
    rw [intern_new hk]
    refine .push fun shape hshape => ?_
    rw [hshape] at hdata
    cases hdata

theorem grows_allocate (h : shape.Nameless) : Grows (allocate shape) :=
  fun _ => .push fun other hother => by cases hother; exact h

theorem grows_function (signature : Signature) : Grows (function signature) :=
  grows_allocate ⟨rfl, rfl, rfl, List.nodup_nil⟩

theorem grows_numberLiteral (text : String) : Grows (numberLiteral text) := grows_intern rfl

theorem grows_stringLiteral (text : String) : Grows (stringLiteral text) := grows_intern rfl

theorem grows_array (element : TypeId) : Grows (array element) := grows_intern rfl

theorem grows_union (ids : List TypeId) : Grows (union ids) := by
  refine .get fun t => ?_
  split
  · exact .pure _
  · split
    · exact .pure _
    · exact .pure _
    · exact grows_intern rfl

theorem grows_widen (id : TypeId) : Grows (widen id) := by
  refine .get fun t => ?_
  split
  · exact .pure _
  · exact grows_union _
  · exact .pure _

/-! ## Built-in members -/

theorem grows_arraySignature (element : TypeId) (name : String) :
    Grows (Receiver.arraySignature element name) := by
  unfold Receiver.arraySignature
  split
  all_goals first
    | exact .pure _
    | exact (grows_array _).bind fun _ => .pure _
    | exact (grows_function _).bind fun _ => .pure _
    | exact (grows_function _).bind fun _ => (grows_array _).bind fun _ => .pure _

theorem grows_stringSignature (name : String) : Grows (Receiver.stringSignature name) := by
  unfold Receiver.stringSignature
  split
  all_goals first
    | exact .pure _
    | exact (grows_array _).bind fun _ => .pure _

theorem grows_signature? (r : Receiver) (name : String) : Grows (r.signature? name) := by
  cases r with
  | array element => exact grows_arraySignature element name
  | string => exact grows_stringSignature name
  | number => exact .pure _
  | boolean => exact .pure _

theorem grows_memberType (r : Receiver) (name : String) : Grows (r.memberType name) := by
  unfold Receiver.memberType
  split
  · exact .pure _
  · refine (grows_signature? r name).bind fun found => ?_
    split
    · exact grows_function _
    · exact .pure _

end TypeTable

end ScriptAnalysis
