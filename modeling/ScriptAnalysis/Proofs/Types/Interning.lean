import ScriptAnalysis.Types.Table

/-!
# One index for one structure

Types are compared by index all over the checker, so a structure must not
have two of them, and an index must not change what it stands for. Objects
are the exception: each has an index of its own, and its shape may be filled
in later.

**Operations.** `Operation` lists what a table can be asked to do. A table is
`InUse` together with the indices that it has handed out; operations are
applied to such indices (`InUse.Allows`). What a shape mentions does not
matter.

**Changes.** Whatever the operation, it changes a table in one of four ways
(`Change`): not at all, by one more structure that was not known, by one more
object, or by another shape for an object.

**Results.**
* `Indexed.change`, `Change.kept`: what one change keeps.
* `Indexed.change_run`: each operation is one change.
* `InUse.one_index_each`: what holds after any operations on a new table.
-/
namespace ScriptAnalysis

namespace TypeData

def isObject : TypeData → Bool
  | object _ => true
  | _ => false

/-- The types that an array or a union is made of. -/
def parts : TypeData → List TypeId
  | array element => [element]
  | union members => members
  | _ => []

end TypeData

namespace TypeTable

variable {t t' : TypeTable} {data : TypeData} {id : TypeId} {ids : List TypeId}

/-! ## Operations -/

/-- What a table can be asked to do. -/
inductive Operation where
  | numberLiteral (text : String)
  | stringLiteral (text : String)
  | array (element : TypeId)
  | union (members : List TypeId)
  | widen (id : TypeId)
  | function (signature : Signature)
  | allocate (shape : Shape)
  | setShape (id : TypeId) (shape : Shape)

/-- The indices that an operation is applied to. -/
def Operation.takes : Operation → List TypeId
  | array element => [element]
  | union members => members
  | widen id | setShape id _ => [id]
  | _ => []

/-- Carries out an operation; gives the index that it hands out. -/
def Operation.run : Operation → Alloc (Option TypeId)
  | numberLiteral text => some <$> TypeTable.numberLiteral text
  | stringLiteral text => some <$> TypeTable.stringLiteral text
  | array element => some <$> TypeTable.array element
  | union members => some <$> TypeTable.union members
  | widen id => some <$> TypeTable.widen id
  | function signature => some <$> TypeTable.function signature
  | allocate shape => some <$> TypeTable.allocate shape
  | setShape id shape => do
    TypeTable.setShape id shape
    return none

/-- A table in use, with the indices that it has handed out so far. -/
structure InUse where
  table : TypeTable
  handed : List TypeId

/-- A new table hands out the predefined types. -/
def InUse.new : InUse := ⟨initial, List.range predefined.length⟩

def InUse.perform (u : InUse) (op : Operation) : InUse :=
  ⟨(op.run u.table).2, (op.run u.table).1.toList ++ u.handed⟩

def InUse.after (u : InUse) (ops : List Operation) : InUse :=
  ops.foldl perform u

/-- Each of the operations is applied to indices that were handed out
before it. -/
def InUse.Allows (u : InUse) : List Operation → Prop
  | [] => True
  | op :: rest => (∀ id ∈ op.takes, id ∈ u.handed) ∧ (u.perform op).Allows rest

instance InUse.decidableAllows (u : InUse) : (ops : List Operation) → Decidable (u.Allows ops)
  | [] => .isTrue trivial
  | op :: rest =>
    have := (u.perform op).decidableAllows rest
    inferInstanceAs (Decidable ((∀ id ∈ op.takes, id ∈ u.handed) ∧ (u.perform op).Allows rest))

/-! ## Changes -/

/-- What an operation can do to a table. -/
inductive Change (t : TypeTable) : TypeTable → Prop
  | stay : Change t t
  | add (data : TypeData) (new : t.known.get? data = none) (structural : data.isObject = false)
      (parts : ∀ part ∈ data.parts, part < t.size) :
      Change t ⟨t.types.push data, t.known.insert data t.size⟩
  | allocate (shape : Shape) : Change t { t with types := t.types.push (.object shape) }
  | reshape (id : TypeId) (old shape : Shape) (h : t.types[id]? = some (.object old)) :
      Change t { t with types := t.types.setIfInBounds id (.object shape) }

/-- What is known are the structures with their indices, and arrays and
unions are made of types that are there. -/
structure Indexed (t : TypeTable) : Prop where
  known : ∀ data id, t.known.get? data = some id ↔
    t.types[id]? = some data ∧ data.isObject = false
  parts : ∀ (id : TypeId) (data : TypeData), t.types[id]? = some data →
    ∀ part ∈ data.parts, part < t.size

/-- All types are still there. Structures are the same, and objects are
objects. -/
structure Kept (t t' : TypeTable) : Prop where
  size : t.size ≤ t'.size
  structures : ∀ (id : TypeId) (data : TypeData), t.types[id]? = some data →
    data.isObject = false → t'.types[id]? = some data
  objects : ∀ (id : TypeId) (shape : Shape), t.types[id]? = some (.object shape) →
    ∃ shape', t'.types[id]? = some (.object shape')

theorem lt_size_of_getElem? (h : t.types[id]? = some data) : id < t.size :=
  (Array.getElem?_eq_some_iff.1 h).1

theorem dataOf_of_getElem? (h : t.types[id]? = some data) : t.dataOf id = data := by
  unfold dataOf
  rw [Array.getD_eq_getD_getElem?, h]
  rfl

/-- An entry of a table with one more type is an old one or the new one. -/
theorem getElem?_push_cases {new : TypeData} (h : (t.types.push new)[id]? = some data) :
    t.types[id]? = some data ∨ id = t.size ∧ data = new := by
  rw [Array.getElem?_push] at h
  split at h
  · exact .inr ⟨‹_›, (Option.some.inj h).symm⟩
  · exact .inl h

theorem getElem?_push_old {new : TypeData} (h : t.types[id]? = some data) :
    (t.types.push new)[id]? = some data := by
  have hne : id ≠ t.types.size := Nat.ne_of_lt (lt_size_of_getElem? h)
  rw [Array.getElem?_push, if_neg hne]
  exact h

theorem Kept.refl (t : TypeTable) : Kept t t :=
  ⟨Nat.le_refl _, fun _ _ h _ => h, fun _ shape h => ⟨shape, h⟩⟩

theorem Kept.trans {t'' : TypeTable} (h : Kept t t') (h' : Kept t' t'') : Kept t t'' where
  size := Nat.le_trans h.size h'.size
  structures id data hid hdata := h'.structures id data (h.structures id data hid hdata) hdata
  objects id shape hid :=
    have ⟨shape', hid'⟩ := h.objects id shape hid
    h'.objects id shape' hid'

theorem Kept.push (new : TypeData) (known : Table TypeData TypeId) :
    Kept t ⟨t.types.push new, known⟩ where
  size := by
    show t.types.size ≤ (t.types.push new).size
    rw [Array.size_push]
    exact Nat.le_succ _
  structures _ _ h _ := getElem?_push_old h
  objects _ shape h := ⟨shape, getElem?_push_old h⟩

theorem Change.kept (h : Change t t') : Kept t t' := by
  cases h with
  | stay => exact .refl t
  | add => exact .push _ _
  | allocate => exact .push _ _
  | reshape id old shape hid =>
    refine ⟨by simp [TypeTable.size], fun i data hi hdata => ?_, fun i s hi => ?_⟩
    · have hne : id ≠ i := by
        rintro rfl
        rw [hid, Option.some.injEq] at hi
        rw [← hi] at hdata
        cases hdata
      rw [Array.getElem?_setIfInBounds, if_neg hne]
      exact hi
    · rw [Array.getElem?_setIfInBounds]
      split
      · rename_i heq
        exact ⟨shape, if_pos (heq ▸ lt_size_of_getElem? hi)⟩
      · exact ⟨s, hi⟩

theorem Indexed.add (h : Indexed t) (hnew : t.known.get? data = none)
    (hdata : data.isObject = false) (hparts : ∀ part ∈ data.parts, part < t.size) :
    Indexed ⟨t.types.push data, t.known.insert data t.size⟩ where
  known other id := by
    rw [Table.get?_insert]
    constructor
    · split
      · rename_i heq
        rintro ⟨⟩
        subst heq
        exact ⟨Array.getElem?_push_size, hdata⟩
      · intro hk
        exact ((h.known other id).1 hk).imp_left getElem?_push_old
    · rintro ⟨hid, hother⟩
      rcases getElem?_push_cases hid with hold | ⟨rfl, rfl⟩
      · have hk := (h.known other id).2 ⟨hold, hother⟩
        have hne : data ≠ other := by
          rintro rfl
          rw [hnew] at hk
          cases hk
        rw [if_neg hne]
        exact hk
      · exact if_pos rfl
  parts id other hid part hpart := by
    have hlt : part < t.size := by
      rcases getElem?_push_cases hid with hold | ⟨-, rfl⟩
      · exact h.parts id other hold part hpart
      · exact hparts part hpart
    exact Nat.lt_of_lt_of_le hlt (Kept.push data _).size

/-- An object is not among what is known, and has no parts. -/
theorem Indexed.allocate (h : Indexed t) (shape : Shape) :
    Indexed { t with types := t.types.push (.object shape) } where
  known other id := by
    refine (h.known other id).trans (and_congr_left fun hother => ⟨getElem?_push_old, ?_⟩)
    intro hid
    rcases getElem?_push_cases hid with hold | ⟨-, rfl⟩
    · exact hold
    · cases hother
  parts id other hid part hpart := by
    rcases getElem?_push_cases hid with hold | ⟨-, rfl⟩
    · exact Nat.lt_of_lt_of_le (h.parts id other hold part hpart) (Kept.push _ t.known).size
    · cases hpart

/-- Only an object is overwritten. -/
theorem Indexed.reshape (h : Indexed t) {old : Shape} (hid : t.types[id]? = some (.object old))
    (shape : Shape) : Indexed { t with types := t.types.setIfInBounds id (.object shape) } := by
  have hentry : ∀ {i : TypeId} {data : TypeData},
      (t.types.setIfInBounds id (.object shape))[i]? = some data →
        data = .object shape ∨ t.types[i]? = some data := by
    intro i data hi
    rw [Array.getElem?_setIfInBounds] at hi
    split at hi
    · split at hi
      · exact .inl (Option.some.inj hi).symm
      · cases hi
    · exact .inr hi
  refine ⟨fun data i => ?_, fun i data hi part hpart => ?_⟩
  · refine (h.known data i).trans (and_congr_left fun hdata => ⟨fun hi => ?_, fun hi => ?_⟩)
    · exact (Change.reshape id old shape hid).kept.structures i data hi hdata
    · rcases hentry hi with rfl | hold
      · cases hdata
      · exact hold
  · show part < (t.types.setIfInBounds id (.object shape)).size
    rw [Array.size_setIfInBounds]
    rcases hentry hi with rfl | hold
    · cases hpart
    · exact h.parts i data hold part hpart

/-- What is known stays true whatever is changed. -/
theorem Indexed.change (h : Indexed t) (hc : Change t t') : Indexed t' := by
  cases hc with
  | stay => exact h
  | add data hnew hdata hparts => exact h.add hnew hdata hparts
  | allocate shape => exact h.allocate shape
  | reshape id old shape hid => exact h.reshape hid shape

/-! ## Each operation is a change -/

/-- What an operation that hands out an index does. -/
structure Allots (t : TypeTable) (x : Alloc TypeId) : Prop where
  change : Change t (x t).2
  handed : (x t).1 < (x t).2.size

theorem Allots.congr {x y : Alloc TypeId} (h : x t = y t) (hy : Allots t y) : Allots t x :=
  ⟨h ▸ hy.change, h ▸ hy.handed⟩

theorem Allots.pure (h : id < t.size) : Allots t (Pure.pure id) :=
  ⟨.stay, h⟩

theorem get_bind {α : Type} (f : TypeTable → Alloc α) (t : TypeTable) :
    ((MonadState.get : Alloc TypeTable) >>= f) t = f t t :=
  rfl

theorem Allots.get {f : TypeTable → Alloc TypeId} (h : Allots t (f t)) :
    Allots t ((MonadState.get : Alloc TypeTable) >>= f) :=
  ⟨h.change, h.handed⟩

theorem intern_known (h : t.known.get? data = some id) : intern data t = (id, t) := by
  unfold intern
  rw [get_bind, h]
  rfl

theorem intern_new (h : t.known.get? data = none) :
    intern data t = (t.size, ⟨t.types.push data, t.known.insert data t.size⟩) := by
  unfold intern
  rw [get_bind, h]
  rfl

theorem Indexed.allots_intern (h : Indexed t) (hdata : data.isObject = false)
    (hparts : ∀ part ∈ data.parts, part < t.size) : Allots t (intern data) := by
  cases hk : t.known.get? data with
  | some id =>
    exact .congr (intern_known hk) (.pure (lt_size_of_getElem? ((h.known data id).1 hk).1))
  | none =>
    refine ⟨by rw [intern_new hk]; exact .add data hk hdata hparts, ?_⟩
    rw [intern_new hk]
    show t.types.size < (t.types.push data).size
    rw [Array.size_push]
    exact Nat.lt_succ_self _

theorem allots_allocate (t : TypeTable) (shape : Shape) : Allots t (allocate shape) where
  change := .allocate shape
  handed := by
    show t.types.size < (t.types.push (.object shape)).size
    rw [Array.size_push]
    exact Nat.lt_succ_self _

theorem setShape_eq (t : TypeTable) (id : TypeId) (shape : Shape) :
    (setShape id shape t).2 = match t.dataOf id with
      | .object _ => { t with types := t.types.setIfInBounds id (.object shape) }
      | _ => t :=
  rfl

theorem change_setShape (t : TypeTable) (id : TypeId) (shape : Shape) :
    Change t (setShape id shape t).2 := by
  rw [setShape_eq]
  split
  · rename_i old hold
    cases hid : t.types[id]? with
    | none =>
      unfold dataOf at hold
      rw [Array.getD_eq_getD_getElem?, hid] at hold
      cases hold
    | some data =>
      rw [dataOf_of_getElem? hid] at hold
      exact .reshape id old shape (hold ▸ hid)
  · exact .stay

/-! ### Unions -/

theorem mem_addMember {members : List TypeId} {new : TypeId} (h : id ∈ addMember members new) :
    id ∈ members ∨ id = new := by
  unfold addMember at h
  split at h
  · exact .inl h
  · simpa using h

/-- All that is in a flattened list comes from its unions and its other
types. -/
theorem mem_flatten (h : id ∈ t.flatten ids) : ∃ i ∈ ids, id ∈ t.unionMembers i := by
  have hfold : ∀ (new acc : List TypeId), id ∈ new.foldl addMember acc → id ∈ acc ∨ id ∈ new := by
    intro new
    induction new with
    | nil => exact fun acc h => .inl h
    | cons a rest ih =>
      intro acc h
      rcases ih _ h with h | h
      · rcases mem_addMember h with h | rfl
        · exact .inl h
        · exact .inr List.mem_cons_self
      · exact .inr (List.mem_cons_of_mem _ h)
  rcases hfold _ _ h with h | h
  · cases h
  · exact List.mem_flatMap.1 h

theorem mem_joinBooleans {members : List TypeId} (h : id ∈ joinBooleans members) :
    id = .boolean ∨ id ∈ members := by
  unfold joinBooleans at h
  split at h
  · dsimp only at h
    split at h
    · exact .inr (List.mem_filter.1 h).1
    · rcases List.mem_append.1 h with h | h
      · exact .inr (List.mem_filter.1 (List.mem_of_mem_take h)).1
      · rcases List.mem_cons.1 h with rfl | h
        · exact .inl rfl
        · exact .inr (List.mem_filter.1 (List.mem_of_mem_drop h)).1
  · exact .inr h

/-- The table has the types that are predefined. -/
def Founded (t : TypeTable) : Prop :=
  ∀ (id : TypeId) (data : TypeData), predefined[id]? = some data → t.types[id]? = some data

theorem Founded.lt_size (h : Founded t) (hid : id < predefined.length) : id < t.size :=
  lt_size_of_getElem? (h id _ (List.getElem?_eq_getElem hid))

theorem Indexed.lt_size_unionMembers (h : Indexed t) {i : TypeId} (hi : i < t.size)
    (hid : id ∈ t.unionMembers i) : id < t.size := by
  have hentry : t.types[i]? = some t.types[i] := Array.getElem?_eq_getElem hi
  unfold unionMembers at hid
  rw [dataOf_of_getElem? hentry] at hid
  split at hid
  · rename_i members hmembers
    rw [hmembers] at hentry
    exact h.parts i _ hentry id hid
  · rw [List.mem_singleton.1 hid]
    exact hi

theorem Indexed.lt_size_unionOf (h : Indexed t) (hf : Founded t) (hids : ∀ i ∈ ids, i < t.size)
    (hid : id ∈ t.unionOf ids) : id < t.size := by
  rcases mem_joinBooleans (List.mem_filter.1 hid).1 with rfl | hmem
  · exact hf.lt_size (by decide)
  · obtain ⟨i, hi, hmem⟩ := mem_flatten (List.mem_filter.1 hmem).1
    exact h.lt_size_unionMembers (hids i hi) hmem

theorem Indexed.allots_union (h : Indexed t) (hf : Founded t) (hids : ∀ i ∈ ids, i < t.size) :
    Allots t (union ids) := by
  have hlt : ∀ id ∈ t.unionOf ids, id < t.size := fun _ => h.lt_size_unionOf hf hids
  unfold union
  refine .get ?_
  split
  · exact .pure (hf.lt_size (by decide))
  · split
    · exact .pure (hf.lt_size (by decide))
    · rename_i id hunion
      rw [hunion] at hlt
      exact .pure (hlt id (List.mem_singleton_self id))
    · exact h.allots_intern rfl hlt

theorem Founded.lt_size_primitive (hf : Founded t) (hid : id < t.size) :
    t.primitive id < t.size := by
  unfold primitive
  split
  · exact hf.lt_size (by decide)
  · exact hf.lt_size (by decide)
  · exact hf.lt_size (by decide)
  · exact hid

theorem Indexed.allots_widen (h : Indexed t) (hf : Founded t) (hid : id < t.size) :
    Allots t (widen id) := by
  unfold widen
  refine .get ?_
  split
  · exact .pure (hf.lt_size_primitive hid)
  · rename_i members hmembers
    refine h.allots_union hf fun i hi => ?_
    obtain ⟨m, hm, rfl⟩ := List.mem_map.1 hi
    refine hf.lt_size_primitive (h.lt_size_unionMembers hid ?_)
    unfold unionMembers
    rwa [hmembers]
  · exact .pure hid

/-- An operation on types that are there is one change, and hands out a type
that is there then. -/
theorem Indexed.change_run (h : Indexed t) (hf : Founded t) (op : Operation)
    (hop : ∀ id ∈ op.takes, id < t.size) :
    Change t (op.run t).2 ∧ ∀ id ∈ (op.run t).1, id < (op.run t).2.size := by
  have hsome : ∀ {x : Alloc TypeId}, Allots t x →
      Change t ((some <$> x : Alloc (Option TypeId)) t).2 ∧
        ∀ id ∈ ((some <$> x : Alloc (Option TypeId)) t).1,
          id < ((some <$> x : Alloc (Option TypeId)) t).2.size := by
    rintro x ⟨hchange, hhanded⟩
    refine ⟨hchange, fun id hid => ?_⟩
    cases hid
    exact hhanded
  cases op with
  | numberLiteral text => exact hsome (h.allots_intern rfl fun _ hpart => by cases hpart)
  | stringLiteral text => exact hsome (h.allots_intern rfl fun _ hpart => by cases hpart)
  | array element => exact hsome (h.allots_intern rfl hop)
  | union members => exact hsome (h.allots_union hf hop)
  | widen id => exact hsome (h.allots_widen hf (hop id (List.mem_singleton_self id)))
  | function signature => exact hsome (allots_allocate t _)
  | allocate shape => exact hsome (allots_allocate t shape)
  | setShape id shape => exact ⟨change_setShape t id shape, fun id hid => by cases hid⟩

/-! ## All tables -/

theorem Indexed.mapM_intern {all : List TypeData} (h : Indexed t)
    (hall : ∀ data ∈ all, data.isObject = false ∧ data.parts = []) :
    Indexed ((all.mapM intern).run t).2 := by
  induction all generalizing t with
  | nil => exact h
  | cons data rest ih =>
    obtain ⟨⟨hdata, hparts⟩, hrest⟩ := List.forall_mem_cons.1 hall
    have hfirst : Indexed (intern data t).2 :=
      h.change (h.allots_intern hdata (by simp [hparts])).change
    rw [List.mapM_cons]
    exact ih hfirst hrest

theorem indexed_initial : Indexed initial := by
  refine Indexed.mapM_intern ⟨fun data id => ?_, fun id data h => ?_⟩ (by decide)
  · simp [empty]
  · simp [empty] at h

theorem types_initial : initial.types = predefined.toArray := by
  rfl

theorem founded_initial : Founded initial := by
  intro id data h
  rw [types_initial, List.getElem?_toArray]
  exact h

/-- The predefined types are structures, so no change touches them. -/
theorem Founded.kept (h : Founded t) (hk : Kept t t') : Founded t' := fun id data hid =>
  hk.structures id data (h id data hid)
    ((by decide : ∀ data ∈ predefined, data.isObject = false) data (List.mem_of_getElem? hid))

/-- What holds of a table in use. -/
structure InUse.Sound (u : InUse) : Prop where
  indexed : Indexed u.table
  founded : Founded u.table
  handed : ∀ id ∈ u.handed, id < u.table.size

theorem InUse.sound_new : new.Sound where
  indexed := indexed_initial
  founded := founded_initial
  handed _ hid := founded_initial.lt_size (List.mem_range.1 hid)

namespace InUse.Sound

variable {u : InUse}

theorem change (h : u.Sound) {op : Operation} (hop : ∀ id ∈ op.takes, id ∈ u.handed) :
    Change u.table (u.perform op).table :=
  (h.indexed.change_run h.founded op fun id hid => h.handed id (hop id hid)).1

theorem perform (h : u.Sound) {op : Operation} (hop : ∀ id ∈ op.takes, id ∈ u.handed) :
    (u.perform op).Sound where
  indexed := h.indexed.change (h.change hop)
  founded := h.founded.kept (h.change hop).kept
  handed id hid := by
    rcases List.mem_append.1 hid with hid | hid
    · exact (h.indexed.change_run h.founded op fun id hid => h.handed id (hop id hid)).2 id
        (Option.mem_toList.1 hid)
    · exact Nat.lt_of_lt_of_le (h.handed id hid) (h.change hop).kept.size

theorem after (h : u.Sound) {ops : List Operation} (hops : u.Allows ops) :
    (u.after ops).Sound := by
  induction ops generalizing u with
  | nil => exact h
  | cons op rest ih => exact ih (h.perform hops.1) hops.2

end InUse.Sound

/-- After any operations on types that were handed out:
* the predefined types are where they were;
* no structure has two indices;
* what is known are exactly the structures with their indices, and no
  object;
* a further operation leaves each structure as it is and each object an
  object;
* arrays and unions are made of types that are there;
* all that was handed out is there. -/
theorem InUse.one_index_each (ops : List Operation) (h : new.Allows ops) :
    (∀ (id : TypeId) (data : TypeData), predefined[id]? = some data →
      (new.after ops).table.types[id]? = some data) ∧
    (∀ (i j : TypeId) (data : TypeData), (new.after ops).table.types[i]? = some data →
      (new.after ops).table.types[j]? = some data → data.isObject = false → i = j) ∧
    (∀ data id, (new.after ops).table.known.get? data = some id ↔
      (new.after ops).table.types[id]? = some data ∧ data.isObject = false) ∧
    (∀ op : Operation, (∀ id ∈ op.takes, id ∈ (new.after ops).handed) →
      Kept (new.after ops).table ((new.after ops).perform op).table) ∧
    (∀ (id : TypeId) (data : TypeData), (new.after ops).table.types[id]? = some data →
      ∀ part ∈ data.parts, part < (new.after ops).table.size) ∧
    ∀ id ∈ (new.after ops).handed, id < (new.after ops).table.size := by
  have hsound : (new.after ops).Sound := sound_new.after h
  refine ⟨hsound.founded, fun i j data hi hj hdata => ?_, hsound.indexed.known,
    fun op hop => (hsound.change hop).kept, hsound.indexed.parts, hsound.handed⟩
  have hsame := (hsound.indexed.known data i).2 ⟨hi, hdata⟩
  rw [(hsound.indexed.known data j).2 ⟨hj, hdata⟩] at hsame
  exact (Option.some.inj hsame).symm

/-- An array of a union with a literal, asked for twice, and an object that is
filled in after the array of it is there. -/
def InUse.nested : List Operation :=
  [.stringLiteral "a", .union [12, TypeId.number, TypeId.null], .array 13,
    .allocate (.bare .interface (some "I") none), .array 15,
    .setShape 15 { Shape.bare .interface (some "I") none with bases := [15] },
    .widen 13, .array 13]

/-- The table has one array of the union, and the object in its place. -/
theorem InUse.one_index_each_nested :
    new.Allows nested ∧ (new.after nested).table.size = 18 ∧
    (new.after nested).table.known.get? (.array 13) = some 14 ∧
    (∀ id, (new.after nested).table.types[id]? = some (.array 13) → id = 14) ∧
    ∀ id < 18, id ∈ (new.after nested).handed := by
  have hallows : new.Allows nested := by decide +kernel
  have hknown : (new.after nested).table.known.get? (.array 13) = some 14 := by decide +kernel
  obtain ⟨-, honce, hlookup, -⟩ := one_index_each nested hallows
  have hentry := ((hlookup (.array 13) 14).1 hknown).1
  exact ⟨hallows, by decide +kernel, hknown, fun id hid => honce id 14 _ hid hentry rfl,
    by decide +kernel⟩

end TypeTable

end ScriptAnalysis
