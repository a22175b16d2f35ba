import Mathlib.Data.List.Forall2
import ScriptAnalysis.Proofs.Types.Closed

/-!
# Types of two tables

What a checker finds out about a type does not depend on the index that the
type has. To say so, two tables are looked at side by side. In a `Pairing` some
objects of the one table are linked to objects of the other. Two types are
`Alike` if they are built in the same way from the same primitives and from
linked objects, and objects may be linked only if what is known of them is
alike (`Linked`). An object need not be linked, and then no type made of it has
anything alike on the other side.

**Readings.** What is read off alike types is alike: their properties, their
signatures, whether they fit, and so on. Each reading has one lemma, in the
order of the definitions.

**Results.**
* `Alike.unique`, `Linked.eq_iff`: an index stands for one index.
* `Linked.data`, and from that all that is read off a table.
* `Linked.property?`, `Linked.assignable`: what needs many steps.
-/
namespace ScriptAnalysis

/-! ## Lists side by side -/

section

variable {α β γ δ : Type} {R : α → β → Prop} {S : γ → δ → Prop} {xs : List α} {ys : List β}

theorem forall₂_iff_getElem? : List.Forall₂ R xs ys ↔
    xs.length = ys.length ∧ ∀ (i : Nat) (x : α) (y : β), xs[i]? = some x → ys[i]? = some y →
      R x y := by
  rw [List.forall₂_iff_get]
  refine and_congr_right fun _ => ⟨fun h i x y hx hy => ?_, fun h i hx hy => ?_⟩
  · obtain ⟨hix, rfl⟩ := List.getElem?_eq_some_iff.1 hx
    obtain ⟨hiy, rfl⟩ := List.getElem?_eq_some_iff.1 hy
    exact h i hix hiy
  · exact h i _ _ (List.getElem?_eq_getElem hx) (List.getElem?_eq_getElem hy)

section

variable (h : List.Forall₂ R xs ys) {f : α → Bool} {g : β → Bool} (hfg : ∀ a b, R a b → f a = g b)

include h hfg

theorem any_forall₂ : xs.any f = ys.any g := by
  induction h with
  | nil => rfl
  | cons hab _ ih => rw [List.any_cons, List.any_cons, hfg _ _ hab, ih]

theorem all_forall₂ : xs.all f = ys.all g := by
  induction h with
  | nil => rfl
  | cons hab _ ih => rw [List.all_cons, List.all_cons, hfg _ _ hab, ih]

theorem length_takeWhile_forall₂ : (xs.takeWhile f).length = (ys.takeWhile g).length := by
  induction h with
  | nil => rfl
  | cons hab _ ih =>
    rw [List.takeWhile_cons, List.takeWhile_cons, hfg _ _ hab]
    split
    · rw [List.length_cons, List.length_cons, ih]
    · rfl

theorem findIdx_forall₂ : xs.findIdx f = ys.findIdx g := by
  induction h with
  | nil => rfl
  | cons hab _ ih => rw [List.findIdx_cons, List.findIdx_cons, hfg _ _ hab, ih]

theorem find?_forall₂ : Option.Rel R (xs.find? f) (ys.find? g) := by
  induction h with
  | nil => exact .none
  | cons hab _ ih =>
    rw [List.find?_cons, List.find?_cons, hfg _ _ hab]
    split
    · exact .some hab
    · exact ih

theorem filter_forall₂ : List.Forall₂ R (xs.filter f) (ys.filter g) :=
  List.rel_filter (fun a b hab => iff_of_eq (congrArg (· = true) (hfg a b hab))) h

end

theorem left_forall₂ (h : List.Forall₂ R xs ys) {S : α → α → Prop}
    (hS : ∀ a b, R a b → S a a) : List.Forall₂ S xs xs := by
  induction h with
  | nil => exact .nil
  | cons hab _ ih => exact .cons (hS _ _ hab) ih

theorem isEmpty_forall₂ (h : List.Forall₂ R xs ys) : xs.isEmpty = ys.isEmpty := by
  cases h <;> rfl

theorem head?_forall₂ (h : List.Forall₂ R xs ys) : Option.Rel R xs.head? ys.head? := by
  cases h with
  | nil => exact .none
  | cons hab _ => exact .some hab

/-- Both are there or none is. -/
theorem both_or_none {x : Option α} {y : Option β} (h : Option.Rel R x y) :
    x = none ∧ y = none ∨ ∃ a b, x = some a ∧ y = some b ∧ R a b := by
  cases h with
  | none => exact .inl ⟨rfl, rfl⟩
  | some hab => exact .inr ⟨_, _, rfl, rfl, hab⟩

theorem findSome?_forall₂ (h : List.Forall₂ R xs ys) {f : α → Option γ} {g : β → Option δ}
    (hfg : ∀ a b, R a b → Option.Rel S (f a) (g b)) :
    Option.Rel S (xs.findSome? f) (ys.findSome? g) := by
  induction h with
  | nil => exact .none
  | @cons a b _ _ hab _ ih =>
    rw [List.findSome?_cons, List.findSome?_cons]
    match f a, g b, hfg a b hab with
    | _, _, .none => exact ih
    | _, _, .some hs => exact .some hs

/-- What holds of alike elements holds of all elements. -/
theorem forall_forall₂ (h : List.Forall₂ R xs ys) {P : α → Prop} {Q : β → Prop}
    (hpq : ∀ a b, R a b → P a ∧ Q b) : (∀ a ∈ xs, P a) ∧ ∀ b ∈ ys, Q b := by
  induction h with
  | nil => exact ⟨by simp, by simp⟩
  | cons hab _ ih => exact ⟨List.forall_mem_cons.2 ⟨(hpq _ _ hab).1, ih.1⟩,
      List.forall_mem_cons.2 ⟨(hpq _ _ hab).2, ih.2⟩⟩

theorem zip_forall₂ {us : List γ} {vs : List δ} (h : List.Forall₂ R xs ys)
    (h' : List.Forall₂ S us vs) :
    List.Forall₂ (fun a b => R a.1 b.1 ∧ S a.2 b.2) (xs.zip us) (ys.zip vs) := by
  induction h generalizing us vs with
  | nil => exact .nil
  | cons hab _ ih =>
    cases h' with
    | nil => exact .nil
    | cons huv hrest => exact .cons ⟨hab, huv⟩ (ih hrest)

theorem flatMap_forall₂ {f : α → List γ} {g : β → List δ} (h : List.Forall₂ R xs ys)
    (hfg : ∀ a b, R a b → List.Forall₂ S (f a) (g b)) :
    List.Forall₂ S (xs.flatMap f) (ys.flatMap g) :=
  List.rel_flatMap h fun _ _ => hfg _ _

theorem map_forall₂ {f : α → γ} {g : β → δ} (h : List.Forall₂ R xs ys)
    (hfg : ∀ a b, R a b → S (f a) (g b)) : List.Forall₂ S (xs.map f) (ys.map g) := by
  induction h with
  | nil => exact .nil
  | cons hab _ ih => exact .cons (hfg _ _ hab) ih

theorem foldl_forall₂ {f : γ → α → γ} {g : δ → β → δ} (h : List.Forall₂ R xs ys) {c : γ} {d : δ}
    (hcd : S c d) (hfg : ∀ c d a b, S c d → R a b → S (f c a) (g d b)) :
    S (xs.foldl f c) (ys.foldl g d) := by
  induction h generalizing c d with
  | nil => exact hcd
  | cons hab _ ih => exact ih (hfg _ _ _ _ hcd hab)

theorem map_option {o : Option α} {o' : Option β} {f : α → γ} {g : β → δ} (h : Option.Rel R o o')
    (hfg : ∀ a b, R a b → S (f a) (g b)) : Option.Rel S (o.map f) (o'.map g) := by
  cases h with
  | none => exact .none
  | some hab => exact .some (hfg _ _ hab)

theorem bind_option {o : Option α} {o' : Option β} {f : α → Option γ} {g : β → Option δ}
    (h : Option.Rel R o o') (hfg : ∀ a b, R a b → Option.Rel S (f a) (g b)) :
    Option.Rel S (o.bind f) (o'.bind g) := by
  cases h with
  | none => exact .none
  | some hab => exact hfg _ _ hab

theorem getD_option {o : Option α} {o' : Option β} {a : α} {b : β} (h : Option.Rel R o o')
    (hab : R a b) : R (o.getD a) (o'.getD b) := by
  cases h with
  | none => exact hab
  | some hs => exact hs

theorem left_option {o : Option α} {o' : Option β} (h : Option.Rel R o o') {S : α → α → Prop}
    (hS : ∀ a b, R a b → S a a) : Option.Rel S o o := by
  cases h with
  | none => exact .none
  | some hab => exact .some (hS _ _ hab)

theorem isSome_option {o : Option α} {o' : Option β} (h : Option.Rel R o o') :
    o.isSome = o'.isSome := by
  cases h <;> rfl

end

/-! ## Alike types -/

/-- What is no object and not made of other types. -/
def TypeData.isLeaf : TypeData → Bool
  | intrinsic _ => true
  | literal _ => true
  | _ => false

/-- Two tables of types. Some objects of the left one stand for objects of the
right one. -/
structure Pairing where
  link : TypeId → TypeId → Prop
  left : TypeTable
  right : TypeTable

namespace Pairing

/-- The types are built in the same way. -/
inductive Alike (p : Pairing) : TypeId → TypeId → Prop
  | leaf {a b : TypeId} {data : TypeData} (hl : p.left.types[a]? = some data)
      (hr : p.right.types[b]? = some data) (h : data.isLeaf = true) : Alike p a b
  | array {a b x y : TypeId} (hl : p.left.types[a]? = some (.array x))
      (hr : p.right.types[b]? = some (.array y)) (h : Alike p x y) : Alike p a b
  | union {a b : TypeId} {xs ys : List TypeId} (hl : p.left.types[a]? = some (.union xs))
      (hr : p.right.types[b]? = some (.union ys)) (hlength : xs.length = ys.length)
      (h : ∀ (i : Nat) (x y : TypeId), xs[i]? = some x → ys[i]? = some y → Alike p x y) :
      Alike p a b
  | object {a b : TypeId} (h : p.link a b) : Alike p a b

/-- The parameters differ at most in the index of their types. -/
structure ParameterAlike (p : Pairing) (a b : Parameter) : Prop where
  name : a.name = b.name
  type : p.Alike a.type b.type
  optional : a.optional = b.optional

structure SignatureAlike (p : Pairing) (a b : Signature) : Prop where
  parameters : List.Forall₂ p.ParameterAlike a.parameters b.parameters
  returnType : p.Alike a.returnType b.returnType

structure PropertyAlike (p : Pairing) (a b : Property) : Prop where
  name : a.name = b.name
  type : p.Alike a.type b.type
  optional : a.optional = b.optional
  readonly : a.readonly = b.readonly

structure ShapeAlike (p : Pairing) (a b : Shape) : Prop where
  kind : a.kind = b.kind
  name : a.name = b.name
  symbol : a.symbol = b.symbol
  properties : List.Forall₂ p.PropertyAlike a.properties b.properties
  calls : List.Forall₂ p.SignatureAlike a.calls b.calls
  constructs : List.Forall₂ p.SignatureAlike a.constructs b.constructs
  bases : List.Forall₂ p.Alike a.bases b.bases

/-- Receivers of the same sort, with alike elements if they are arrays. -/
inductive ReceiverAlike (p : Pairing) : Receiver → Receiver → Prop
  | array {x y : TypeId} (h : p.Alike x y) : ReceiverAlike p (.array x) (.array y)
  | string : ReceiverAlike p .string .string
  | number : ReceiverAlike p .number .number
  | boolean : ReceiverAlike p .boolean .boolean

/-- The structures are made of alike types. -/
inductive DataAlike (p : Pairing) : TypeData → TypeData → Prop
  | intrinsic (kind : Intrinsic) : DataAlike p (.intrinsic kind) (.intrinsic kind)
  | literal (value : LiteralValue) : DataAlike p (.literal value) (.literal value)
  | array {x y : TypeId} (h : p.Alike x y) : DataAlike p (.array x) (.array y)
  | union {xs ys : List TypeId} (h : List.Forall₂ p.Alike xs ys) :
      DataAlike p (.union xs) (.union ys)
  | object {s s' : Shape} (h : p.ShapeAlike s s') : DataAlike p (.object s) (.object s')

end Pairing

/-! ## Tables with their parts in front -/

namespace TypeTable

variable {t t' : TypeTable} {id : TypeId} {data : TypeData}

/-- A closed table in which arrays and unions stand behind what they are made
of. -/
structure Grounded (t : TypeTable) : Prop extends Closed t where
  before : ∀ (id : TypeId) (data : TypeData), t.types[id]? = some data →
    ∀ part ∈ data.parts, part < id

/-- All types are there with the same structure. -/
def Extends (t t' : TypeTable) : Prop :=
  ∀ (id : TypeId) (data : TypeData), t.types[id]? = some data → t'.types[id]? = some data

theorem Extends.refl (t : TypeTable) : Extends t t :=
  fun _ _ h => h

theorem Extends.trans {t'' : TypeTable} (h : Extends t t') (h' : Extends t' t'') : Extends t t'' :=
  fun id data hid => h' id data (h id data hid)

theorem Extends.kept (h : Extends t t') : Kept t t' where
  size := by
    refine Nat.le_of_not_lt fun hlt => ?_
    exact Nat.lt_irrefl _ (lt_size_of_getElem? (h t'.size _ (Array.getElem?_eq_getElem hlt)))
  structures id data hid _ := h id data hid
  objects id shape hid := ⟨shape, h id _ hid⟩

/-- A type that was there had its structure then. -/
theorem Extends.was (h : Extends t t') {id : TypeId} {data : TypeData} (hid : id < t.size)
    (hdata : t'.types[id]? = some data) : t.types[id]? = some data := by
  have hentry := Array.getElem?_eq_getElem hid
  rw [hentry, ← h id _ hentry, hdata]

theorem Extends.dataOf (h : Extends t t') (hid : id < t.size) : t'.dataOf id = t.dataOf id := by
  have hentry : t.types[id]? = some t.types[id] := Array.getElem?_eq_getElem hid
  rw [dataOf_of_getElem? (h id _ hentry), dataOf_of_getElem? hentry]

theorem Grown.extends (h : Grown t t') : Extends t t' :=
  h.old

theorem extends_allocate (t : TypeTable) (shape : Shape) : Extends t (allocate shape t).2 :=
  fun _ _ => getElem?_push_old

theorem before_change (h : ∀ (id : TypeId) (data : TypeData), t.types[id]? = some data →
    ∀ part ∈ data.parts, part < id) (hc : Change t t') :
    ∀ (id : TypeId) (data : TypeData), t'.types[id]? = some data → ∀ part ∈ data.parts, part < id := by
  intro id other hid part hpart
  cases hc with
  | stay => exact h id other hid part hpart
  | add data _ _ hparts =>
    rcases getElem?_push_cases hid with hold | ⟨rfl, rfl⟩
    · exact h id other hold part hpart
    · exact hparts part hpart
  | allocate shape =>
    rcases getElem?_push_cases hid with hold | ⟨-, rfl⟩
    · exact h id other hold part hpart
    · cases hpart
  | reshape i old shape hi =>
    rw [Array.getElem?_setIfInBounds] at hid
    split at hid
    · split at hid
      · cases hid
        cases hpart
      · cases hid
    · exact h id other hid part hpart

end TypeTable

namespace Pairing

variable {p p' p'' : Pairing} {a a' b b' : TypeId}

/-! ## Growing -/

/-- More is known: types may have been added, objects filled in, and new
objects of the left table linked. -/
structure Grows (p p' : Pairing) : Prop where
  link : ∀ a b, p.link a b → p'.link a b
  new : ∀ a b, p'.link a b → p.link a b ∨ p.left.size ≤ a
  left : TypeTable.Kept p.left p'.left
  right : TypeTable.Kept p.right p'.right

theorem Grows.refl (p : Pairing) : Grows p p :=
  ⟨fun _ _ h => h, fun _ _ h => .inl h, .refl _, .refl _⟩

theorem Grows.trans (h : Grows p p') (h' : Grows p' p'') : Grows p p'' where
  link a b hab := h'.link a b (h.link a b hab)
  new a b hab := (h'.new a b hab).elim (h.new a b) fun hnew =>
    .inr (Nat.le_trans h.left.size hnew)
  left := h.left.trans h'.left
  right := h.right.trans h'.right

theorem isObject_of_isLeaf {data : TypeData} (h : data.isLeaf = true) : data.isObject = false := by
  cases data with
  | object shape => cases h
  | _ => rfl

theorem Alike.mono (h : p.Alike a b) (hp : Grows p p') : p'.Alike a b := by
  induction h with
  | leaf hl hr hleaf =>
    have hobject := isObject_of_isLeaf hleaf
    exact .leaf (hp.left.structures _ _ hl hobject) (hp.right.structures _ _ hr hobject) hleaf
  | array hl hr _ ih =>
    exact .array (hp.left.structures _ _ hl rfl) (hp.right.structures _ _ hr rfl) ih
  | union hl hr hlength _ ih =>
    exact .union (hp.left.structures _ _ hl rfl) (hp.right.structures _ _ hr rfl) hlength ih
  | object hlink => exact .object (hp.link _ _ hlink)

/-- Types that have something alike are alike to themselves where the objects
that they are made of stand for themselves. -/
theorem Alike.alone (h : p.Alike a b) (hlink : ∀ a b, p.link a b → p'.link a a)
    (hl : TypeTable.Kept p.left p'.left) (hr : TypeTable.Kept p.left p'.right) : p'.Alike a a := by
  induction h with
  | leaf hdata _ hleaf =>
    have hobject := isObject_of_isLeaf hleaf
    exact .leaf (hl.structures _ _ hdata hobject) (hr.structures _ _ hdata hobject) hleaf
  | array hdata _ _ ih =>
    exact .array (hl.structures _ _ hdata rfl) (hr.structures _ _ hdata rfl) ih
  | @union _ _ xs ys hdata _ hlength _ ih =>
    refine .union (hl.structures _ _ hdata rfl) (hr.structures _ _ hdata rfl) rfl fun i x y hx hy => ?_
    obtain rfl : x = y := Option.some.inj (hx.symm.trans hy)
    obtain ⟨hi, -⟩ := List.getElem?_eq_some_iff.1 hx
    exact ih i x _ hx (List.getElem?_eq_getElem (hlength ▸ hi))
  | object hab => exact .object (hlink _ _ hab)

/-! ### What is made of alike types -/

section

variable (h : ∀ a b, p.Alike a b → p'.Alike a b)

include h

theorem ParameterAlike.imp {x y : Parameter} (hxy : p.ParameterAlike x y) :
    p'.ParameterAlike x y :=
  ⟨hxy.name, h _ _ hxy.type, hxy.optional⟩

theorem SignatureAlike.imp {x y : Signature} (hxy : p.SignatureAlike x y) :
    p'.SignatureAlike x y :=
  ⟨hxy.parameters.imp fun _ _ => ParameterAlike.imp h, h _ _ hxy.returnType⟩

theorem PropertyAlike.imp {x y : Property} (hxy : p.PropertyAlike x y) : p'.PropertyAlike x y :=
  ⟨hxy.name, h _ _ hxy.type, hxy.optional, hxy.readonly⟩

theorem ShapeAlike.imp {x y : Shape} (hxy : p.ShapeAlike x y) : p'.ShapeAlike x y where
  kind := hxy.kind
  name := hxy.name
  symbol := hxy.symbol
  properties := hxy.properties.imp fun _ _ => PropertyAlike.imp h
  calls := hxy.calls.imp fun _ _ => SignatureAlike.imp h
  constructs := hxy.constructs.imp fun _ _ => SignatureAlike.imp h
  bases := hxy.bases.imp h

end

section

variable {n : Nat} (h : ∀ a b, There n a → p.Alike a b → p'.Alike a b)

include h

/-- Only what the left signature refers to is of account. -/
theorem SignatureAlike.imp_there {x y : Signature} (hxy : p.SignatureAlike x y)
    (hx : Below n x.mentions) : p'.SignatureAlike x y := by
  obtain ⟨hreturn, hparameters⟩ := below_signature.1 hx
  exact ⟨((List.forall₂_and_left _ _).2 ⟨hparameters, hxy.parameters⟩).imp fun _ _ ⟨hthere, hab⟩ =>
    ⟨hab.name, h _ _ hthere hab.type, hab.optional⟩, h _ _ hreturn hxy.returnType⟩

theorem ShapeAlike.imp_there {x y : Shape} (hxy : p.ShapeAlike x y) (hx : Below n x.mentions) :
    p'.ShapeAlike x y := by
  obtain ⟨hproperties, hcalls, hconstructs, hbases⟩ := below_shape.1 hx
  exact
    { kind := hxy.kind
      name := hxy.name
      symbol := hxy.symbol
      properties := ((List.forall₂_and_left _ _).2 ⟨hproperties, hxy.properties⟩).imp
        fun _ _ ⟨hthere, hab⟩ => ⟨hab.name, h _ _ hthere hab.type, hab.optional, hab.readonly⟩
      calls := ((List.forall₂_and_left _ _).2 ⟨hcalls, hxy.calls⟩).imp
        fun _ _ ⟨hthere, hs⟩ => hs.imp_there h hthere
      constructs := ((List.forall₂_and_left _ _).2 ⟨hconstructs, hxy.constructs⟩).imp
        fun _ _ ⟨hthere, hs⟩ => hs.imp_there h hthere
      bases := ((List.forall₂_and_left _ _).2 ⟨hbases, hxy.bases⟩).imp
        fun _ _ ⟨hthere, hab⟩ => h _ _ hthere hab }

end

/-! ### What is made of types that are alone -/

/-- What has something alike is alike to itself where its types are. -/
theorem SignatureAlike.alone {x y : Signature} (hxy : p.SignatureAlike x y)
    (h : ∀ a b, p.Alike a b → p'.Alike a a) : p'.SignatureAlike x x :=
  ⟨left_forall₂ hxy.parameters fun _ _ hab => ⟨rfl, h _ _ hab.type, rfl⟩, h _ _ hxy.returnType⟩

theorem ShapeAlike.alone {x y : Shape} (hxy : p.ShapeAlike x y)
    (h : ∀ a b, p.Alike a b → p'.Alike a a) : p'.ShapeAlike x x where
  kind := rfl
  name := rfl
  symbol := rfl
  properties := left_forall₂ hxy.properties fun _ _ hab => ⟨rfl, h _ _ hab.type, rfl, rfl⟩
  calls := left_forall₂ hxy.calls fun _ _ hs => hs.alone h
  constructs := left_forall₂ hxy.constructs fun _ _ hs => hs.alone h
  bases := left_forall₂ hxy.bases h

/-! ## One index for one index -/

/-- A structure has one index. -/
theorem unique_of_getElem? {t : TypeTable} {data : TypeData} (hi : t.Indexed)
    (ha : t.types[a]? = some data) (hb : t.types[b]? = some data)
    (hobject : data.isObject = false) : a = b := by
  have hknown := (hi.known data a).2 ⟨ha, hobject⟩
  rw [(hi.known data b).2 ⟨hb, hobject⟩] at hknown
  exact (Option.some.inj hknown).symm

theorem Alike.unique (h : p.Alike a b) (h' : p.Alike a b') (hi : p.right.Indexed)
    (hobject : ∀ a b, p.link a b → ∃ s, p.left.types[a]? = some (.object s))
    (hlink : ∀ a b b', p.link a b → p.link a b' → b = b') : b = b' := by
  induction h generalizing b' with
  | leaf hl hr hleaf =>
    cases h' with
    | leaf hl' hr' =>
      cases hl.symm.trans hl'
      exact unique_of_getElem? hi hr hr' (isObject_of_isLeaf hleaf)
    | array hl' | union hl' =>
      cases hl.symm.trans hl'
      cases hleaf
    | object hab =>
      obtain ⟨s, hs⟩ := hobject _ _ hab
      cases hl.symm.trans hs
      cases hleaf
  | array hl hr _ ih =>
    cases h' with
    | leaf hl' _ hleaf =>
      cases hl.symm.trans hl'
      cases hleaf
    | array hl' hr' hxy =>
      cases hl.symm.trans hl'
      rw [ih hxy] at hr
      exact unique_of_getElem? hi hr hr' rfl
    | union hl' => cases hl.symm.trans hl'
    | object hab =>
      obtain ⟨s, hs⟩ := hobject _ _ hab
      cases hl.symm.trans hs
  | @union _ _ xs ys hl hr hlength _ ih =>
    cases h' with
    | leaf hl' _ hleaf =>
      cases hl.symm.trans hl'
      cases hleaf
    | array hl' => cases hl.symm.trans hl'
    | @union _ _ _ ys' hl' hr' hlength' hxy =>
      cases hl.symm.trans hl'
      have hsame : ys = ys' := List.ext_getElem (hlength.symm.trans hlength') fun i hy hy' =>
        have hx : i < xs.length := hlength ▸ hy
        ih i _ _ (List.getElem?_eq_getElem hx) (List.getElem?_eq_getElem hy)
          (hxy i _ _ (List.getElem?_eq_getElem hx) (List.getElem?_eq_getElem hy'))
      exact unique_of_getElem? hi hr (hsame ▸ hr') rfl
    | object hab =>
      obtain ⟨s, hs⟩ := hobject _ _ hab
      cases hl.symm.trans hs
  | object hab =>
    obtain ⟨s, hs⟩ := hobject _ _ hab
    cases h' with
    | leaf hl _ hleaf =>
      cases hl.symm.trans hs
      cases hleaf
    | array hl | union hl => cases hl.symm.trans hs
    | object hab' => exact hlink _ _ _ hab hab'

/-- The two tables the other way round. -/
def swap (p : Pairing) : Pairing :=
  ⟨fun a b => p.link b a, p.right, p.left⟩

theorem Alike.swap (h : p.Alike a b) : p.swap.Alike b a := by
  induction h with
  | leaf hl hr hleaf => exact .leaf hr hl hleaf
  | array hl hr _ ih => exact .array hr hl ih
  | union hl hr hlength _ ih =>
    exact .union hr hl hlength.symm fun i x y hx hy => ih i y x hy hx
  | object hab => exact .object hab

theorem Grows.swap (h : Grows p p')
    (hnew : ∀ a b, p'.link a b → p.link a b ∨ p.right.size ≤ b) : Grows p.swap p'.swap :=
  ⟨fun a b => h.link b a, fun a b => hnew b a, h.right, h.left⟩

theorem SignatureAlike.swap {x y : Signature} (h : p.SignatureAlike x y) :
    p.swap.SignatureAlike y x :=
  ⟨h.parameters.flip.imp fun _ _ hab => ⟨hab.name.symm, hab.type.swap, hab.optional.symm⟩,
    h.returnType.swap⟩

theorem ShapeAlike.swap {x y : Shape} (h : p.ShapeAlike x y) : p.swap.ShapeAlike y x where
  kind := h.kind.symm
  name := h.name.symm
  symbol := h.symbol.symm
  properties := h.properties.flip.imp fun _ _ hab =>
    ⟨hab.name.symm, hab.type.swap, hab.optional.symm, hab.readonly.symm⟩
  calls := h.calls.flip.imp fun _ _ => SignatureAlike.swap
  constructs := h.constructs.flip.imp fun _ _ => SignatureAlike.swap
  bases := h.bases.flip.imp fun _ _ => Alike.swap

/-! ## Linked objects -/

/-- The objects that stand for each other are known to be alike. -/
structure Linked (p : Pairing) : Prop where
  left : p.left.Grounded
  right : p.right.Grounded
  left_unique : ∀ a a' b, p.link a b → p.link a' b → a = a'
  right_unique : ∀ a b b', p.link a b → p.link a b' → b = b'
  shapes : ∀ a b, p.link a b → ∃ s s', p.left.types[a]? = some (.object s) ∧
    p.right.types[b]? = some (.object s') ∧ p.ShapeAlike s s'

theorem Linked.swap (h : Linked p) : Linked p.swap where
  left := h.right
  right := h.left
  left_unique a a' b := h.right_unique b a a'
  right_unique a b b' := h.left_unique b b' a
  shapes a b hab :=
    have ⟨s, s', hs, hs', halike⟩ := h.shapes b a hab
    ⟨s', s, hs', hs, halike.swap⟩

namespace Linked

variable (h : Linked p)

include h

theorem unique (hab : p.Alike a b) (hab' : p.Alike a b') : b = b' :=
  hab.unique hab' h.right.indexed
    (fun a b hlink => have ⟨s, _, hs, _⟩ := h.shapes a b hlink; ⟨s, hs⟩) h.right_unique

theorem unique_left (hab : p.Alike a b) (hab' : p.Alike a' b) : a = a' :=
  hab.swap.unique hab'.swap h.left.indexed
    (fun b a hlink => have ⟨_, s, _, hs, _⟩ := h.shapes a b hlink; ⟨s, hs⟩)
    fun b a a' hlink hlink' => h.left_unique a a' b hlink hlink'

theorem eq_iff (hab : p.Alike a b) (hab' : p.Alike a' b') : a = a' ↔ b = b' :=
  ⟨fun heq => h.unique hab (heq ▸ hab'), fun heq => h.unique_left hab (heq ▸ hab')⟩

theorem beq_eq (hab : p.Alike a b) (hab' : p.Alike a' b') : (a == a') = (b == b') := by
  rw [Bool.eq_iff_iff, beq_iff_eq, beq_iff_eq]
  exact h.eq_iff hab hab'

/-- A predefined type stands for itself. -/
theorem predefined (ha : a < TypeTable.predefined.length) : p.Alike a a := by
  have hentry : TypeTable.predefined[a]? = some TypeTable.predefined[a] :=
    List.getElem?_eq_getElem ha
  have hleaf : ∀ data ∈ TypeTable.predefined, data.isLeaf = true := by decide
  exact .leaf (h.left.founded a _ hentry) (h.right.founded a _ hentry)
    (hleaf _ (List.getElem_mem ha))

theorem any : p.Alike .any .any := h.predefined (by decide)

theorem never : p.Alike .never .never := h.predefined (by decide)

theorem void : p.Alike .void .void := h.predefined (by decide)

theorem number : p.Alike .number .number := h.predefined (by decide)

theorem string : p.Alike .string .string := h.predefined (by decide)

theorem boolean : p.Alike .boolean .boolean := h.predefined (by decide)

theorem error : p.Alike .error .error := h.predefined (by decide)

theorem beq_predefined (hab : p.Alike a b) {k : TypeId} (hk : k < TypeTable.predefined.length) :
    (a == k) = (b == k) :=
  h.beq_eq hab (h.predefined hk)

theorem isLoose (hab : p.Alike a b) : a.isLoose = b.isLoose := by
  unfold TypeId.isLoose
  rw [h.beq_predefined hab (by decide), h.beq_predefined hab (by decide)]

/-! ### What is read off a type -/

theorem data (hab : p.Alike a b) : p.DataAlike (p.left.dataOf a) (p.right.dataOf b) := by
  cases hab with
  | @leaf _ _ data hl hr hleaf =>
    rw [TypeTable.dataOf_of_getElem? hl, TypeTable.dataOf_of_getElem? hr]
    cases data with
    | intrinsic kind => exact .intrinsic kind
    | literal value => exact .literal value
    | _ => cases hleaf
  | array hl hr hxy =>
    rw [TypeTable.dataOf_of_getElem? hl, TypeTable.dataOf_of_getElem? hr]
    exact .array hxy
  | union hl hr hlength hxy =>
    rw [TypeTable.dataOf_of_getElem? hl, TypeTable.dataOf_of_getElem? hr]
    exact .union (forall₂_iff_getElem?.2 ⟨hlength, hxy⟩)
  | object hlink =>
    obtain ⟨s, s', hl, hr, hs⟩ := h.shapes a b hlink
    rw [TypeTable.dataOf_of_getElem? hl, TypeTable.dataOf_of_getElem? hr]
    exact .object hs

theorem shape? (hab : p.Alike a b) :
    Option.Rel p.ShapeAlike (p.left.shape? a) (p.right.shape? b) := by
  unfold TypeTable.shape?
  match p.left.dataOf a, p.right.dataOf b, h.data hab with
  | _, _, .object hs => exact .some hs
  | _, _, .array _ => exact .none
  | _, _, .union _ => exact .none
  | _, _, .intrinsic _ => exact .none
  | _, _, .literal _ => exact .none

theorem calls (hab : p.Alike a b) :
    List.Forall₂ p.SignatureAlike (p.left.calls a) (p.right.calls b) :=
  getD_option (map_option (h.shape? hab) fun _ _ hs => hs.calls) .nil

theorem constructs (hab : p.Alike a b) :
    List.Forall₂ p.SignatureAlike (p.left.constructs a) (p.right.constructs b) :=
  getD_option (map_option (h.shape? hab) fun _ _ hs => hs.constructs) .nil

theorem bases (hab : p.Alike a b) :
    List.Forall₂ p.Alike (p.left.bases a) (p.right.bases b) :=
  getD_option (map_option (h.shape? hab) fun _ _ hs => hs.bases) .nil

theorem element? (hab : p.Alike a b) :
    Option.Rel p.Alike (p.left.element? a) (p.right.element? b) := by
  unfold TypeTable.element?
  match p.left.dataOf a, p.right.dataOf b, h.data hab with
  | _, _, .array hxy => exact .some hxy
  | _, _, .union _ => exact .none
  | _, _, .object _ => exact .none
  | _, _, .intrinsic _ => exact .none
  | _, _, .literal _ => exact .none

theorem unionMembers (hab : p.Alike a b) :
    List.Forall₂ p.Alike (p.left.unionMembers a) (p.right.unionMembers b) := by
  unfold TypeTable.unionMembers
  match p.left.dataOf a, p.right.dataOf b, h.data hab with
  | _, _, .union hxys => exact hxys
  | _, _, .array _ => exact .cons hab .nil
  | _, _, .object _ => exact .cons hab .nil
  | _, _, .intrinsic _ => exact .cons hab .nil
  | _, _, .literal _ => exact .cons hab .nil

theorem primitive (hab : p.Alike a b) : p.Alike (p.left.primitive a) (p.right.primitive b) := by
  unfold TypeTable.primitive
  match p.left.dataOf a, p.right.dataOf b, h.data hab with
  | _, _, .literal (.number _) => exact h.number
  | _, _, .literal (.string _) => exact h.string
  | _, _, .literal (.boolean _) => exact h.boolean
  | _, _, .intrinsic _ => exact hab
  | _, _, .array _ => exact hab
  | _, _, .union _ => exact hab
  | _, _, .object _ => exact hab

/-! ### Inherited members -/

theorem lineageWithin (hab : p.Alike a b) (n : Nat) :
    List.Forall₂ p.Alike (p.left.lineageWithin n a) (p.right.lineageWithin n b) := by
  induction n generalizing a b with
  | zero => exact .nil
  | succ n ih => exact .cons hab (flatMap_forall₂ (h.bases hab) fun _ _ hbase => ih hbase)

theorem propertyWithin (hab : p.Alike a b) (name : String) (n : Nat) :
    Option.Rel p.PropertyAlike (p.left.propertyWithin name n a)
      (p.right.propertyWithin name n b) := by
  induction n generalizing a b with
  | zero => exact .none
  | succ n ih =>
    have hown : Option.Rel p.PropertyAlike ((p.left.shape? a).bind (·.property? name))
        ((p.right.shape? b).bind (·.property? name)) :=
      bind_option (h.shape? hab) fun _ _ hs =>
        find?_forall₂ hs.properties fun _ _ hproperty => by rw [hproperty.name]
    unfold TypeTable.propertyWithin
    rcases both_or_none hown with ⟨hl, hr⟩ | ⟨_, _, hl, hr, hproperty⟩
    · rw [hl, hr]
      exact findSome?_forall₂ (h.bases hab) fun _ _ hbase => ih hbase
    · rw [hl, hr]
      exact .some hproperty

theorem property? (hab : p.Alike a b) (name : String) :
    Option.Rel p.PropertyAlike (p.left.property? a name) (p.right.property? b name) :=
  h.propertyWithin hab name _

omit h in
theorem addProperty {ps qs : List Property} (hps : List.Forall₂ p.PropertyAlike ps qs)
    {x y : Property} (hxy : p.PropertyAlike x y) :
    List.Forall₂ p.PropertyAlike (TypeTable.addProperty ps x) (TypeTable.addProperty qs y) := by
  unfold TypeTable.addProperty
  rw [any_forall₂ hps fun _ _ hproperty => by rw [hproperty.name, hxy.name]]
  split
  · exact hps
  · exact List.rel_append hps (.cons hxy .nil)

theorem properties (hab : p.Alike a b) :
    List.Forall₂ p.PropertyAlike (p.left.properties a) (p.right.properties b) := by
  refine foldl_forall₂ ?_ .nil fun _ _ _ _ hps hxy => addProperty hps hxy
  exact flatMap_forall₂ (h.lineageWithin hab _) fun _ _ hi =>
    getD_option (map_option (h.shape? hi) fun _ _ hs => hs.properties) .nil

theorem derivesWithin (hab : p.Alike a b) (ht : p.Alike a' b') (n : Nat) :
    p.left.derivesWithin a' n a = p.right.derivesWithin b' n b := by
  induction n generalizing a b with
  | zero => rfl
  | succ n ih =>
    show (a == a' || _) = (b == b' || _)
    rw [h.beq_eq hab ht, any_forall₂ (h.bases hab) fun _ _ hbase => ih hbase]

theorem derivesFrom (hab : p.Alike a b) (ht : p.Alike a' b') :
    p.left.derivesFrom a a' = p.right.derivesFrom b b' :=
  h.derivesWithin hab ht _

/-! ### Assignability -/

omit h in
theorem minArguments {s s' : Signature} (hs : p.SignatureAlike s s') :
    s.minArguments = s'.minArguments :=
  length_takeWhile_forall₂ hs.parameters fun _ _ hxy => by rw [hxy.optional]

theorem relatedOutright (strict : Bool) (hab : p.Alike a b) (ht : p.Alike a' b') :
    TypeTable.relatedOutright strict a a' = TypeTable.relatedOutright strict b b' := by
  unfold TypeTable.relatedOutright
  rw [h.beq_eq hab ht, h.isLoose hab]
  iterate 4 rw [h.beq_predefined ht (by decide)]
  iterate 3 rw [h.beq_predefined hab (by decide)]

section

variable {deeper deeper' deepest deepest' : TypeTable.Comparison}
  (hd : ∀ {a b a' b'}, p.Alike a b → p.Alike a' b' → deeper a a' = deeper' b b')

include hd

theorem signatureFits {s s' g g' : Signature} (hs : p.SignatureAlike s s')
    (hg : p.SignatureAlike g g') :
    TypeTable.signatureFits deeper s g = TypeTable.signatureFits deeper' s' g' := by
  unfold TypeTable.signatureFits
  rw [minArguments hs, hg.parameters.length_eq, h.beq_predefined hg.returnType (by decide),
    hd hs.returnType hg.returnType]
  have hparameters := all_forall₂ (zip_forall₂ hs.parameters hg.parameters)
    (f := fun e => deeper e.2.type e.1.type || deeper e.1.type e.2.type)
    (g := fun e => deeper' e.2.type e.1.type || deeper' e.1.type e.2.type) fun _ _ hxy => by
      rw [hd hxy.1.type hxy.2.type, hd hxy.2.type hxy.1.type]
  exact congrArg₂ and (congrArg₂ and rfl hparameters) rfl

theorem propertiesFit (hab : p.Alike a b) (ht : p.Alike a' b') :
    p.left.propertiesFit deeper a a' = p.right.propertiesFit deeper' b b' := by
  refine all_forall₂ (h.properties ht) fun x y hxy => ?_
  have hfound := h.property? hab x.name
  rw [← hxy.name]
  match p.left.property? a x.name, p.right.property? b x.name, hfound with
  | _, _, .none => exact hxy.optional
  | _, _, .some hsource => exact hd hsource.type hxy.type

theorem objectFits
    (hd' : ∀ {a b a' b'}, p.Alike a b → p.Alike a' b' → deepest a a' = deepest' b b')
    (hab : p.Alike a b) (ht : p.Alike a' b') :
    p.left.objectFits deeper deepest a a' = p.right.objectFits deeper' deepest' b b' := by
  unfold TypeTable.objectFits
  rw [h.derivesFrom hab ht, h.propertiesFit hd hab ht]
  rw [isEmpty_forall₂ (h.constructs hab), isEmpty_forall₂ (h.constructs ht)]
  congr 3
  match p.left.calls a', p.right.calls b', h.calls ht with
  | _, _, .nil => rfl
  | _, _, .cons hwanted _ =>
    exact any_forall₂ (h.calls hab) fun _ _ hs => h.signatureFits hd' hs hwanted

omit hd in
theorem fitsEmptyObject {s s' : Shape} (hab : p.Alike a b) (hs : p.ShapeAlike s s') :
    TypeTable.fitsEmptyObject a s = TypeTable.fitsEmptyObject b s' := by
  unfold TypeTable.fitsEmptyObject
  rw [isEmpty_forall₂ hs.properties, isEmpty_forall₂ hs.calls, isEmpty_forall₂ hs.constructs]
  iterate 3 rw [h.beq_predefined hab (by decide)]

theorem structureFits
    (hd' : ∀ {a b a' b'}, p.Alike a b → p.Alike a' b' → deepest a a' = deepest' b b')
    (hab : p.Alike a b) (ht : p.Alike a' b') :
    p.left.structureFits deeper deepest a a' = p.right.structureFits deeper' deepest' b b' := by
  have hobject := h.objectFits hd hd' hab ht
  have hprimitive := h.beq_eq (h.primitive hab) ht
  have hsource := h.data hab
  have htarget := h.data ht
  unfold TypeTable.structureFits
  generalize p.left.dataOf a = source, p.right.dataOf b = source' at hsource
  generalize p.left.dataOf a' = target, p.right.dataOf b' = target' at htarget
  cases hsource with
  | literal value => exact hprimitive
  | union _ => rfl
  | intrinsic kind =>
    cases htarget with
    | object hs => exact h.fitsEmptyObject hab hs
    | _ => rfl
  | array hxy =>
    cases htarget with
    | array hxy' => exact hd hxy hxy'
    | object hs => exact h.fitsEmptyObject hab hs
    | _ => rfl
  | object hs =>
    cases htarget with
    | object hs' => exact hobject
    | _ => rfl

theorem compareLevel (strict : Bool)
    (hd' : ∀ {a b a' b'}, p.Alike a b → p.Alike a' b' → deepest a a' = deepest' b b')
    (hab : p.Alike a b) (ht : p.Alike a' b') :
    p.left.compareLevel strict deeper deepest a a' =
      p.right.compareLevel strict deeper' deepest' b b' := by
  have hstructure := h.structureFits hd hd' hab ht
  have hsource := h.data hab
  have htarget := h.data ht
  unfold TypeTable.compareLevel
  rw [h.relatedOutright strict hab ht]
  congr 1
  generalize p.left.dataOf a = source, p.right.dataOf b = source' at hsource
  generalize p.left.dataOf a' = target, p.right.dataOf b' = target' at htarget
  have hall : ∀ {xs ys}, List.Forall₂ p.Alike xs ys →
      xs.all (deeper · a') = ys.all (deeper' · b') :=
    fun hxs => all_forall₂ hxs fun _ _ hx => hd hx ht
  have hany : ∀ {xs ys}, List.Forall₂ p.Alike xs ys →
      xs.any (deeper a ·) = ys.any (deeper' b ·) :=
    fun hxs => any_forall₂ hxs fun _ _ hx => hd hab hx
  cases hsource with
  | union hxs => exact hall hxs
  | _ =>
    cases htarget with
    | union hxs => exact hany hxs
    | _ => exact hstructure

end

theorem assignableWithin (strict : Bool) (n : Nat) :
    (∀ {a b a' b'}, p.Alike a b → p.Alike a' b' →
      p.left.assignableWithin strict n a a' = p.right.assignableWithin strict n b b') ∧
    ∀ {a b a' b'}, p.Alike a b → p.Alike a' b' →
      p.left.assignableWithin strict (n + 1) a a' = p.right.assignableWithin strict (n + 1) b b' := by
  induction n with
  | zero => exact ⟨fun _ _ => rfl, fun hab ht =>
      h.compareLevel (fun _ _ => rfl) strict (fun _ _ => rfl) hab ht⟩
  | succ n ih => exact ⟨ih.2, fun hab ht => h.compareLevel ih.2 strict ih.1 hab ht⟩

theorem assignable (strict : Bool) (hab : p.Alike a b) (ht : p.Alike a' b') :
    p.left.assignable strict a a' = p.right.assignable strict b b' :=
  (h.assignableWithin strict _).2 hab ht

/-! ### Unions -/

theorem contains {xs ys : List TypeId} (hxs : List.Forall₂ p.Alike xs ys) (hab : p.Alike a b) :
    xs.contains a = ys.contains b := by
  rw [List.contains_eq_any_beq, List.contains_eq_any_beq]
  exact any_forall₂ hxs fun _ _ hx => h.beq_eq hab hx

theorem addMember {xs ys : List TypeId} (hxs : List.Forall₂ p.Alike xs ys) (hab : p.Alike a b) :
    List.Forall₂ p.Alike (TypeTable.addMember xs a) (TypeTable.addMember ys b) := by
  unfold TypeTable.addMember
  rw [h.contains hxs hab]
  split
  · exact hxs
  · exact List.rel_append hxs (.cons hab .nil)

theorem flatten {xs ys : List TypeId} (hxs : List.Forall₂ p.Alike xs ys) :
    List.Forall₂ p.Alike (p.left.flatten xs) (p.right.flatten ys) :=
  foldl_forall₂ (flatMap_forall₂ hxs fun _ _ => h.unionMembers) .nil
    fun _ _ _ _ hms hm => h.addMember hms hm

theorem joinBooleans {xs ys : List TypeId} (hxs : List.Forall₂ p.Alike xs ys) :
    List.Forall₂ p.Alike (TypeTable.joinBooleans xs) (TypeTable.joinBooleans ys) := by
  have hvalue : ∀ a b, p.Alike a b → (a == TypeId.trueValue || a == TypeId.falseValue) =
      (b == TypeId.trueValue || b == TypeId.falseValue) := fun a b hab => by
    rw [h.beq_predefined hab (by decide), h.beq_predefined hab (by decide)]
  have hothers := filter_forall₂ hxs fun a b hab => congrArg not (hvalue a b hab)
  unfold TypeTable.joinBooleans
  rw [h.contains hxs (h.predefined (by decide)), h.contains hxs (h.predefined (by decide))]
  split
  · dsimp only
    rw [findIdx_forall₂ hxs hvalue, h.contains hothers h.boolean]
    split
    · exact hothers
    · exact List.rel_append (List.forall₂_take _ hothers)
        (.cons h.boolean (List.forall₂_drop _ hothers))
  · exact hxs

theorem unionOf {xs ys : List TypeId} (hxs : List.Forall₂ p.Alike xs ys) :
    List.Forall₂ p.Alike (p.left.unionOf xs) (p.right.unionOf ys) := by
  have hproper := filter_forall₂ (h.flatten hxs) (f := (· != .never)) (g := (· != .never))
    fun _ _ hab => congrArg not (h.beq_eq hab h.never)
  have hjoined := h.joinBooleans hproper
  refine filter_forall₂ hjoined fun _ _ hab => ?_
  rw [h.beq_eq (h.primitive hab) hab, h.contains hjoined (h.primitive hab)]

end Linked

end Pairing

end ScriptAnalysis
