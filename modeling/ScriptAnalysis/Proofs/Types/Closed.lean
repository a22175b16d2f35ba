import ScriptAnalysis.Types.Apparent
import ScriptAnalysis.Types.Members
import ScriptAnalysis.Proofs.Types.Widening

/-!
# Tables that mention only their own types

A type refers to others by their indices, and an index that is not in the
table yet would get its meaning from a later type. `There n` says that an index
is in each table with at least `n` types, `Below n` says it of some indices;
`mentions` lists what a value refers to. A table is `Closed` if all that its
objects refer to is there, and its structures are those of a table in use.

An action is `Fair` if it keeps a table closed, takes no type away and gives
only types that are there, as long as those that it was given are.

**Results.**
* `Closed.property?`, `Closed.calls` and the like: what is read off a closed
  table is there.
* `Fair.bind`, and from that each action on a table, up to `fair_union`,
  `fair_widen` and `fair_memberType`.
-/
namespace ScriptAnalysis

/-- The type is in each table with at least `n` types; the predefined types are
in all of them. -/
def There (n : Nat) (id : TypeId) : Prop :=
  id < n ∨ id < TypeTable.predefined.length

/-- All of the types are there. -/
def Below (n : Nat) (ids : List TypeId) : Prop :=
  ∀ id ∈ ids, There n id

section

variable {m n : Nat} {id : TypeId} {ids ids' : List TypeId}

theorem There.mono (h : There n id) (hle : n ≤ m) : There m id :=
  h.imp_left fun hid => Nat.lt_of_lt_of_le hid hle

theorem there_predefined (h : id < TypeTable.predefined.length) : There n id :=
  .inr h

@[simp] theorem there_any : There n .any := there_predefined (by decide)

@[simp] theorem there_error : There n .error := there_predefined (by decide)

@[simp] theorem there_void : There n .void := there_predefined (by decide)

@[simp] theorem there_number : There n .number := there_predefined (by decide)

@[simp] theorem there_string : There n .string := there_predefined (by decide)

@[simp] theorem there_boolean : There n .boolean := there_predefined (by decide)

theorem Below.mono (h : Below n ids) (hle : n ≤ m) : Below m ids :=
  fun id hid => (h id hid).mono hle

@[simp] theorem below_nil : Below n [] :=
  fun _ h => by cases h

@[simp] theorem below_cons : Below n (id :: ids) ↔ There n id ∧ Below n ids :=
  List.forall_mem_cons

@[simp] theorem below_append : Below n (ids ++ ids') ↔ Below n ids ∧ Below n ids' :=
  List.forall_mem_append

theorem below_flatMap {α : Type} {l : List α} {f : α → List TypeId} :
    Below n (l.flatMap f) ↔ ∀ a ∈ l, Below n (f a) := by
  simp only [Below, List.mem_flatMap]
  grind

theorem below_map {α : Type} {l : List α} {f : α → TypeId} :
    Below n (l.map f) ↔ ∀ a ∈ l, There n (f a) := by
  simp [Below]

theorem Below.sub (h : Below n ids) (hsub : ids' ⊆ ids) : Below n ids' :=
  fun id hid => h id (hsub hid)

end

/-! ## What values refer to -/

/-- An index by itself. -/
def single (id : TypeId) : List TypeId := [id]

theorem below_single {n : Nat} {id : TypeId} : Below n (single id) ↔ There n id := by
  simp [single]

/-- Lists of types refer to themselves. -/
theorem below_flatMap_single {n : Nat} {ids : List TypeId} :
    Below n (ids.flatMap single) ↔ Below n ids := by
  rw [below_flatMap]
  simp only [below_single]
  exact Iff.rfl

/-- Nothing is mentioned. -/
def nothing {α : Type} (_ : α) : List TypeId := []

/-- The types that a signature refers to. -/
def Signature.mentions (s : Signature) : List TypeId :=
  s.returnType :: s.parameters.map Parameter.type

theorem below_signature {n : Nat} {s : Signature} : Below n s.mentions ↔
    There n s.returnType ∧ ∀ p ∈ s.parameters, There n p.type := by
  simp [Signature.mentions, below_map]

/-- The types that a signature refers to, if there is one. -/
def Signature.mentionsOf (s : Option Signature) : List TypeId :=
  s.toList.flatMap Signature.mentions

/-- The types that an object type refers to. -/
def Shape.mentions (s : Shape) : List TypeId :=
  s.properties.map Property.type ++ s.calls.flatMap Signature.mentions ++
    s.constructs.flatMap Signature.mentions ++ s.bases

theorem below_shape {n : Nat} {s : Shape} : Below n s.mentions ↔
    (∀ p ∈ s.properties, There n p.type) ∧ (∀ g ∈ s.calls, Below n g.mentions) ∧
      (∀ g ∈ s.constructs, Below n g.mentions) ∧ Below n s.bases := by
  simp only [Shape.mentions, below_append, below_map, below_flatMap, and_assoc]

/-- An object that can be called refers to what its signatures refer to. -/
theorem below_withCalls {n : Nat} {signatures : List Signature}
    (h : ∀ s ∈ signatures, Below n s.mentions) :
    Below n ({ Shape.bare .anonymous none none with calls := signatures } : Shape).mentions := by
  rw [below_shape]
  simpa [Shape.bare] using h

theorem below_bare {n : Nat} {kind : ObjectKind} {name : Option String}
    {symbol : Option SymbolId} : Below n (Shape.bare kind name symbol).mentions :=
  below_nil

namespace TypeTable

variable {α β : Type} {t t' : TypeTable} {id : TypeId} {ids : List TypeId} {n : Nat} {shape : Shape}

/-- Nothing that is mentioned is missing. -/
structure Closed (t : TypeTable) : Prop where
  indexed : Indexed t
  founded : Founded t
  tidy : Tidy t
  shapes : ∀ (id : TypeId) (shape : Shape), t.types[id]? = some (.object shape) →
    Below t.size shape.mentions

theorem closed_initial : Closed initial where
  indexed := indexed_initial
  founded := founded_initial
  tidy := tidy_initial
  shapes id shape hid := by
    rw [types_initial, List.getElem?_toArray] at hid
    have hmem := List.mem_of_getElem? hid
    simp [predefined] at hmem

/-! ## What is read off a table -/

namespace Closed

variable (h : Closed t)

include h

theorem there_iff : There t.size id ↔ id < t.size := by
  constructor
  · rintro (hid | hid)
    · exact hid
    · exact h.founded.lt_size hid
  · exact .inl

theorem lt_size (hid : There n id) (hn : n ≤ t.size) : id < t.size :=
  h.there_iff.1 (hid.mono hn)

theorem shape? (hs : t.shape? id = some shape) : Below t.size shape.mentions :=
  h.shapes id shape (getElem?_of_shape? hs)

/-- A structure that stands in where there is none. -/
theorem shapeOr (id : TypeId) {other : Shape} (ho : Below t.size other.mentions) :
    Below t.size ((t.shape? id).getD other).mentions := by
  cases hs : t.shape? id with
  | none => exact ho
  | some shape => exact h.shape? hs

theorem calls (id : TypeId) : ∀ s ∈ t.calls id, Below t.size s.mentions := by
  intro s hs
  unfold TypeTable.calls at hs
  cases hshape : t.shape? id with
  | none =>
    rw [hshape] at hs
    cases hs
  | some shape =>
    rw [hshape] at hs
    exact (below_shape.1 (h.shape? hshape)).2.1 s hs

theorem constructs (id : TypeId) : ∀ s ∈ t.constructs id, Below t.size s.mentions := by
  intro s hs
  unfold TypeTable.constructs at hs
  cases hshape : t.shape? id with
  | none =>
    rw [hshape] at hs
    cases hs
  | some shape =>
    rw [hshape] at hs
    exact (below_shape.1 (h.shape? hshape)).2.2.1 s hs

theorem bases (id : TypeId) : Below t.size (t.bases id) := by
  unfold TypeTable.bases
  cases hshape : t.shape? id with
  | none => exact below_nil
  | some shape => exact (below_shape.1 (h.shape? hshape)).2.2.2

theorem ownProperty {i : TypeId} {name : String} {p : Property}
    (hp : (t.shape? i).bind (·.property? name) = some p) : There t.size p.type := by
  obtain ⟨shape, hshape, hfound⟩ := Option.bind_eq_some_iff.1 hp
  exact (below_shape.1 (h.shape? hshape)).1 p (List.mem_of_find?_eq_some hfound)

theorem propertyWithin {i : TypeId} {name : String} {p : Property} (k : Nat)
    (hp : t.propertyWithin name k i = some p) : There t.size p.type := by
  induction k generalizing i with
  | zero => cases hp
  | succ k ih =>
    unfold TypeTable.propertyWithin at hp
    split at hp
    · rename_i found hfound
      rw [← Option.some.inj hp]
      exact h.ownProperty hfound
    · obtain ⟨base, hbase, hlater⟩ := List.exists_of_findSome?_eq_some hp
      exact ih hlater

theorem property? {name : String} {p : Property} (hp : t.property? id name = some p) :
    There t.size p.type :=
  h.propertyWithin _ hp

theorem element? {element : TypeId} (he : t.element? id = some element) :
    There t.size element := by
  unfold TypeTable.element? at he
  split at he
  · rename_i other hdata
    cases he
    have hid : t.types[id]? = some (.array element) := by
      unfold dataOf at hdata
      rw [Array.getD_eq_getD_getElem?] at hdata
      cases hentry : t.types[id]? with
      | none =>
        rw [hentry] at hdata
        cases hdata
      | some data =>
        rw [hentry] at hdata
        exact congrArg some hdata
    exact .inl (h.indexed.parts id _ hid element (List.mem_singleton_self element))
  · cases he

theorem unionMembers (hid : There t.size id) : Below t.size (t.unionMembers id) :=
  fun _ hm => .inl (h.indexed.lt_size_unionMembers (h.there_iff.1 hid) hm)

end Closed

/-! ## Actions on a table -/

/-- The action keeps tables of at least a size closed, and gives what is
there. -/
def Fair (n : Nat) (mentions : α → List TypeId) (x : Alloc α) : Prop :=
  ∀ t, Closed t → n ≤ t.size →
    Closed (x t).2 ∧ t.size ≤ (x t).2.size ∧ Below (x t).2.size (mentions (x t).1)

variable {mentions : α → List TypeId} {mentions' : β → List TypeId}

theorem Fair.pure {a : α} (h : Below n (mentions a)) : Fair n mentions (Pure.pure a : Alloc α) :=
  fun _ ht hn => ⟨ht, Nat.le_refl _, h.mono hn⟩

theorem Fair.bind {x : Alloc α} {f : α → Alloc β} (hx : Fair n mentions x)
    (hf : ∀ a m, n ≤ m → Below m (mentions a) → Fair m mentions' (f a)) :
    Fair n mentions' (x >>= f) := by
  intro t ht hn
  obtain ⟨hclosed, hsize, hbelow⟩ := hx t ht hn
  obtain ⟨hclosed', hsize', hbelow'⟩ :=
    hf (x t).1 (x t).2.size (Nat.le_trans hn hsize) hbelow (x t).2 hclosed (Nat.le_refl _)
  exact ⟨hclosed', Nat.le_trans hsize hsize', hbelow'⟩

/-- Shapes stay where they were. -/
theorem Closed.shapes_of (h : Closed t) (hk : t.size ≤ t'.size)
    (hnew : ∀ (id : TypeId) (shape : Shape), t'.types[id]? = some (.object shape) →
      t.types[id]? = some (.object shape) ∨ Below t'.size shape.mentions) :
    ∀ (id : TypeId) (shape : Shape), t'.types[id]? = some (.object shape) →
      Below t'.size shape.mentions := by
  intro id shape hid
  rcases hnew id shape hid with hold | hbelow
  · exact (h.shapes id shape hold).mono hk
  · exact hbelow

/-- An action that adds no objects to a table and keeps its unions canonical. -/
theorem Closed.of_allots {x : Alloc TypeId} (h : Closed t) (ha : Allots t x) (htidy : Tidy (x t).2)
    (hobjects : ∀ (id : TypeId) (shape : Shape), (x t).2.types[id]? = some (.object shape) →
      t.types[id]? = some (.object shape)) :
    Closed (x t).2 ∧ t.size ≤ (x t).2.size ∧ Below (x t).2.size (single (x t).1) :=
  ⟨⟨h.indexed.change ha.change, h.founded.kept ha.change.kept, htidy,
    h.shapes_of ha.change.kept.size fun id shape hid => .inl (hobjects id shape hid)⟩,
    ha.change.kept.size, below_single.2 (.inl ha.handed)⟩

theorem objects_intern {data : TypeData} (hobject : data.isObject = false)
    (h : (intern data t).2.types[id]? = some (.object shape)) :
    t.types[id]? = some (.object shape) := by
  rcases getElem?_intern h with hold | hnew
  · exact hold
  · rw [← hnew] at hobject
    cases hobject

theorem fair_intern {data : TypeData} (hobject : data.isObject = false)
    (hunion : isUnion data = false) (hparts : Below n data.parts) :
    Fair n single (intern data) := by
  intro t ht hn
  have hallots := ht.indexed.allots_intern hobject fun part hpart =>
    ht.lt_size (hparts part hpart) hn
  exact ht.of_allots hallots (ht.tidy.intern hunion hallots) fun _ _ => objects_intern hobject

theorem fair_numberLiteral (text : String) : Fair n single (numberLiteral text) :=
  fair_intern rfl rfl below_nil

theorem fair_stringLiteral (text : String) : Fair n single (stringLiteral text) :=
  fair_intern rfl rfl below_nil

theorem fair_array (h : There n id) : Fair n single (array id) :=
  fair_intern rfl rfl (below_single.2 h)

theorem objects_union (h : (union ids t).2.types[id]? = some (.object shape)) :
    t.types[id]? = some (.object shape) := by
  rcases t.union_cases ids with ⟨-, heq⟩ | ⟨-, ⟨-, heq⟩ | ⟨_, -, heq⟩ | ⟨-, heq⟩⟩
  all_goals rw [heq] at h
  · exact h
  · exact h
  · exact h
  · exact objects_intern rfl h

theorem fair_union (h : Below n ids) : Fair n single (union ids) := by
  intro t ht hn
  have hids : ∀ i ∈ ids, i < t.size := fun i hi => ht.lt_size (h i hi) hn
  exact ht.of_allots (ht.indexed.allots_union ht.founded hids)
    (ht.tidy.union ht.indexed ht.founded hids) fun _ _ => objects_union

theorem objects_widen {i : TypeId} (h : (widen id t).2.types[i]? = some (.object shape)) :
    t.types[i]? = some (.object shape) := by
  cases hunion : isUnion (t.dataOf id) with
  | false => rwa [widen_of_not_union hunion] at h
  | true =>
    unfold isUnion at hunion
    split at hunion
    · rw [widen_union ‹_›] at h
      exact objects_union h
    · cases hunion

theorem fair_widen (h : There n id) : Fair n single (widen id) := by
  intro t ht hn
  exact ht.of_allots (ht.indexed.allots_widen ht.founded (ht.lt_size h hn))
    (ht.tidy.widen ht.indexed ht.founded id) fun _ _ => objects_widen

theorem fair_allocate (h : Below n shape.mentions) : Fair n single (allocate shape) := by
  intro t ht hn
  have hallots := t.allots_allocate shape
  refine ⟨⟨ht.indexed.change hallots.change, ht.founded.kept hallots.change.kept,
    ht.tidy.allocate shape, ht.shapes_of hallots.change.kept.size fun i other hi => ?_⟩,
    hallots.change.kept.size, below_single.2 (.inl hallots.handed)⟩
  rw [getElem?_allocate] at hi
  split at hi
  · cases hi
    exact .inr ((h.mono hn).mono hallots.change.kept.size)
  · exact .inl hi

theorem fair_function {s : Signature} (h : Below n s.mentions) : Fair n single (function s) :=
  fair_allocate (below_withCalls (by simpa using h))

theorem fair_setShape (h : Below n shape.mentions) : Fair n nothing (setShape id shape) := by
  intro t ht hn
  have hchange := t.change_setShape id shape
  refine ⟨⟨ht.indexed.change hchange, ht.founded.kept hchange.kept, ht.tidy.setShape id shape,
    ht.shapes_of hchange.kept.size fun i other hi => ?_⟩, hchange.kept.size, below_nil⟩
  cases hs : t.shape? id with
  | none =>
    rw [setShape_other hs] at hi
    exact .inl hi
  | some old =>
    rw [getElem?_setShape hs] at hi
    split at hi
    · cases hi
      exact .inr ((h.mono hn).mono hchange.kept.size)
    · exact .inl hi

/-! ## Built-in members -/

section

variable {element : TypeId} (h : There n element)

include h

theorem fair_callback {returnType : TypeId} (hr : There n returnType) :
    Fair n single (Receiver.callback element returnType) := by
  apply fair_function
  simp [below_signature, Receiver.required, Receiver.optional, hr, h]

theorem fair_arraySignature (name : String) :
    Fair n Signature.mentionsOf (Receiver.arraySignature element name) := by
  -- a known signature refers to the element, to predefined types and to what was just added
  have hknown : ∀ {m : Nat} {s : Signature}, Below m s.mentions →
      Fair m Signature.mentionsOf (Pure.pure (some s) : Alloc (Option Signature)) := fun hs =>
    .pure (by simpa [Signature.mentionsOf] using hs)
  have hcallback : ∀ {r}, There n r → Fair n single (Receiver.callback element r) :=
    fair_callback h
  unfold Receiver.arraySignature
  split
  any_goals
    apply hknown
    simp [below_signature, Receiver.required, Receiver.optional, h]
  · refine (fair_array h).bind fun a m hm ha => hknown ?_
    simpa [below_signature, Receiver.optional] using below_single.1 ha
  · refine (fair_array h).bind fun a m hm ha => hknown ?_
    simpa [below_signature] using below_single.1 ha
  · refine (hcallback there_void).bind fun f m hm hf => hknown ?_
    simpa [below_signature, Receiver.required] using below_single.1 hf
  · refine (hcallback there_any).bind fun f m hm hf => ?_
    refine (fair_array there_any).bind fun a k hk ha => hknown ?_
    simpa [below_signature, Receiver.required] using
      ⟨below_single.1 ha, (below_single.1 hf).mono hk⟩
  · refine (hcallback there_any).bind fun f m hm hf => ?_
    refine (fair_array (h.mono hm)).bind fun a k hk ha => hknown ?_
    simpa [below_signature, Receiver.required] using
      ⟨below_single.1 ha, (below_single.1 hf).mono hk⟩
  · exact .pure below_nil

end

theorem fair_stringSignature (name : String) :
    Fair n Signature.mentionsOf (Receiver.stringSignature name) := by
  unfold Receiver.stringSignature
  split
  any_goals
    apply Fair.pure
    simp [Signature.mentionsOf, below_signature, Receiver.required, Receiver.optional]
  refine (fair_array there_string).bind fun a m hm ha => .pure ?_
  simpa [Signature.mentionsOf, below_signature, Receiver.required] using below_single.1 ha

/-- The types that a receiver refers to. -/
def receiverMentions : Receiver → List TypeId
  | .array element => [element]
  | _ => []

theorem fair_signature? {r : Receiver} (h : Below n (receiverMentions r)) (name : String) :
    Fair n Signature.mentionsOf (r.signature? name) := by
  cases r with
  | array element => exact fair_arraySignature (below_single.1 h) name
  | string => exact fair_stringSignature name
  | number =>
    apply Fair.pure
    unfold Receiver.numberSignature
    split <;> simp [Signature.mentionsOf, below_signature, Receiver.optional]
  | boolean =>
    apply Fair.pure
    unfold Receiver.booleanSignature
    split <;> simp [Signature.mentionsOf, below_signature]

theorem fair_memberType {r : Receiver} (h : Below n (receiverMentions r)) (name : String) :
    Fair n single (r.memberType name) := by
  unfold Receiver.memberType
  split
  · exact .pure (below_single.2 there_number)
  · refine (fair_signature? h name).bind fun found m hm hfound => ?_
    split
    · exact fair_function (by simpa [Signature.mentionsOf] using hfound)
    · exact .pure (below_single.2 there_error)

theorem Closed.receiver (h : Closed t) {r : Receiver} (hr : Receiver.ofType? t id = some r) :
    Below t.size (receiverMentions r) := by
  unfold Receiver.ofType? at hr
  split at hr
  · rename_i element helement
    cases hr
    exact below_single.2 (h.element? helement)
  · dsimp only at hr
    split at hr
    · cases hr
      exact below_nil
    · split at hr
      · cases hr
        exact below_nil
      · split at hr
        · cases hr
          exact below_nil
        · cases hr

end TypeTable

end ScriptAnalysis
