import ScriptAnalysis.Proofs.Types.Alike
import ScriptAnalysis.Proofs.Types.Growth

/-!
# Adding types to two tables

If types are added to two tables in the same way, what was alike stays alike
and what is made of alike types is alike (`Makes`). New objects are linked to
each other. Types may also be added on one side only: they have nothing alike
on the other side, and take nothing away (`Linked.makes`).

**Results.**
* `Linked.makes_union`, `Linked.makes_widen` and the like: each action on a
  table.
* `Linked.makes_sim`: types that are alike only if what they are made of is.
* `Linked.setShape`: objects that are filled in on both sides.
* `Lost.not_alike`: what mentions an object without a partner has none.
-/
namespace ScriptAnalysis

namespace Pairing

variable {p p' p'' : Pairing} {a a' b b' : TypeId}

/-! ## Adding types on both sides -/

open TypeTable (Alloc Extends Grounded)

/-- Types are added, and new objects are linked to new ones. -/
structure Adds (p p' : Pairing) : Prop where
  link : ∀ a b, p.link a b → p'.link a b
  new : ∀ a b, p'.link a b → p.link a b ∨ p.left.size ≤ a ∧ p.right.size ≤ b
  left : Extends p.left p'.left
  right : Extends p.right p'.right

theorem Adds.grows (h : Adds p p') : Grows p p' :=
  ⟨h.link, fun a b hab => (h.new a b hab).imp_right And.left, h.left.kept, h.right.kept⟩

theorem Adds.refl (p : Pairing) : Adds p p :=
  ⟨fun _ _ h => h, fun _ _ h => .inl h, .refl _, .refl _⟩

theorem Adds.trans (h : Adds p p') (h' : Adds p' p'') : Adds p p'' where
  link a b hab := h'.link a b (h.link a b hab)
  new a b hab := (h'.new a b hab).elim (h.new a b) fun hnew =>
    .inr ⟨Nat.le_trans h.left.kept.size hnew.1, Nat.le_trans h.right.kept.size hnew.2⟩
  left := h.left.trans h'.left
  right := h.right.trans h'.right

/-- The action adds types to the table, which stays in order. -/
structure Enlarges {α : Type} (t : TypeTable) (x : Alloc α) : Prop where
  grounded : Grounded (x t).2
  extends_ : Extends t (x t).2

theorem Enlarges.of_get {α : Type} {t : TypeTable} {f : TypeTable → Alloc α}
    (h : Enlarges t ((MonadState.get : Alloc TypeTable) >>= f)) : Enlarges t (f t) :=
  ⟨h.grounded, h.extends_⟩

theorem enlarges_allots {t : TypeTable} {x : Alloc TypeId} {n : Nat}
    {mentions : TypeId → List TypeId} (ht : t.Grounded) (hfair : TypeTable.Fair n mentions x)
    (hn : n ≤ t.size) (hallots : TypeTable.Allots t x) (hextends : Extends t (x t).2) :
    Enlarges t x :=
  ⟨⟨(hfair t ht.toClosed hn).1, TypeTable.before_change ht.before hallots.change⟩, hextends⟩

section

variable {t : TypeTable} (ht : t.Grounded)

include ht

theorem enlarges_intern {data : TypeData} (hobject : data.isObject = false)
    (hunion : TypeTable.isUnion data = false) (hparts : ∀ part ∈ data.parts, part < t.size) :
    Enlarges t (TypeTable.intern data) :=
  enlarges_allots ht (TypeTable.fair_intern hobject hunion fun part hpart => .inl (hparts part hpart))
    (Nat.le_refl _) (ht.indexed.allots_intern hobject hparts)
    (TypeTable.grows_intern hobject t).extends

theorem enlarges_union {ids : List TypeId} (hids : ∀ i ∈ ids, i < t.size) :
    Enlarges t (TypeTable.union ids) :=
  enlarges_allots ht (TypeTable.fair_union fun i hi => .inl (hids i hi)) (Nat.le_refl _)
    (ht.indexed.allots_union ht.founded hids) (TypeTable.grows_union ids t).extends

theorem enlarges_widen (ha : a < t.size) : Enlarges t (TypeTable.widen a) :=
  enlarges_allots ht (TypeTable.fair_widen (.inl ha)) (Nat.le_refl _)
    (ht.indexed.allots_widen ht.founded ha) (TypeTable.grows_widen a t).extends

theorem enlarges_allocate {shape : Shape} (hshape : Below t.size shape.mentions) :
    Enlarges t (TypeTable.allocate shape) :=
  enlarges_allots ht (TypeTable.fair_allocate hshape) (Nat.le_refl _) (t.allots_allocate shape)
    (t.extends_allocate shape)

end

/-- Both actions add types, and what they give is alike then. -/
def Makes {α β : Type} (p : Pairing) (x : Alloc α) (y : Alloc β)
    (Q : Pairing → α → β → Prop) : Prop :=
  ∃ link, let p' : Pairing := ⟨link, (x p.left).2, (y p.right).2⟩
    p.Adds p' ∧ p'.Linked ∧ Q p' (x p.left).1 (y p.right).1

section

variable {α β γ δ : Type} {x : Alloc α} {y : Alloc β} {Q : Pairing → α → β → Prop}
  {R : Pairing → γ → δ → Prop}

theorem Makes.pure (hp : p.Linked) {a : α} {b : β} (h : Q p a b) :
    p.Makes (Pure.pure a : Alloc α) (Pure.pure b : Alloc β) Q :=
  ⟨p.link, .refl p, hp, h⟩

theorem Makes.bind {f : α → Alloc γ} {g : β → Alloc δ} (hx : p.Makes x y Q)
    (hf : ∀ p' a b, p.Adds p' → p'.Linked → Q p' a b → p'.Makes (f a) (g b) R) :
    p.Makes (x >>= f) (y >>= g) R := by
  obtain ⟨link, hadds, hlinked, hq⟩ := hx
  obtain ⟨link', hadds', hlinked', hr⟩ := hf _ _ _ hadds hlinked hq
  exact ⟨link', hadds.trans hadds', hlinked', hr⟩

theorem Makes.get {f : TypeTable → Alloc γ} {g : TypeTable → Alloc δ}
    (h : p.Makes (f p.left) (g p.right) R) :
    p.Makes ((MonadState.get : Alloc TypeTable) >>= f) ((MonadState.get : Alloc TypeTable) >>= g) R :=
  h

theorem Makes.imp {Q' : Pairing → α → β → Prop} (hx : p.Makes x y Q)
    (h : ∀ p' a b, p.Adds p' → p'.Linked → Q p' a b → Q' p' a b) : p.Makes x y Q' :=
  have ⟨link, hadds, hlinked, hq⟩ := hx
  ⟨link, hadds, hlinked, h _ _ _ hadds hlinked hq⟩

/-- Types that are added without a partner. -/
theorem Linked.extended (hp : p.Linked) {t t' : TypeTable} (hl : t.Grounded) (hr : t'.Grounded)
    (hleft : Extends p.left t) (hright : Extends p.right t') :
    let p' : Pairing := ⟨p.link, t, t'⟩
    p.Adds p' ∧ p'.Linked := by
  intro p'
  have hadds : p.Adds p' := ⟨fun _ _ h => h, fun _ _ h => .inl h, hleft, hright⟩
  refine ⟨hadds, hl, hr, hp.left_unique, hp.right_unique, fun a b hab => ?_⟩
  obtain ⟨s, s', hs, hs', halike⟩ := hp.shapes a b hab
  exact ⟨s, s', hleft a _ hs, hright b _ hs', halike.imp fun _ _ h => h.mono hadds.grows⟩

theorem Linked.makes (hp : p.Linked) (hl : Enlarges p.left x) (hr : Enlarges p.right y) :
    let p' : Pairing := ⟨p.link, (x p.left).2, (y p.right).2⟩
    p.Adds p' ∧ p'.Linked :=
  hp.extended hl.grounded hr.grounded hl.extends_ hr.extends_

end

/-! ### Structures -/

namespace Linked

variable (h : Linked p)

include h

theorem lt_left (hab : p.Alike a b) : a < p.left.size := by
  cases hab with
  | leaf hl | array hl | union hl => exact TypeTable.lt_size_of_getElem? hl
  | object hlink =>
    obtain ⟨s, s', hl, -⟩ := h.shapes a b hlink
    exact TypeTable.lt_size_of_getElem? hl

theorem lt_right (hab : p.Alike a b) : b < p.right.size := by
  cases hab with
  | leaf _ hr | array _ hr | union _ hr => exact TypeTable.lt_size_of_getElem? hr
  | object hlink =>
    obtain ⟨s, s', -, hr, -⟩ := h.shapes a b hlink
    exact TypeTable.lt_size_of_getElem? hr

theorem there (hab : p.Alike a b) : There p.left.size a ∧ There p.right.size b :=
  ⟨.inl (h.lt_left hab), .inl (h.lt_right hab)⟩

theorem below {xs ys : List TypeId} (hxs : List.Forall₂ p.Alike xs ys) :
    Below p.left.size xs ∧ Below p.right.size ys :=
  forall_forall₂ hxs fun _ _ => h.there

theorem below_signature {s s' : Signature} (hs : p.SignatureAlike s s') :
    Below p.left.size s.mentions ∧ Below p.right.size s'.mentions := by
  obtain ⟨hl, hr⟩ := forall_forall₂ hs.parameters fun _ _ hxy => h.there hxy.type
  obtain ⟨hl', hr'⟩ := h.there hs.returnType
  exact ⟨ScriptAnalysis.below_signature.2 ⟨hl', hl⟩, ScriptAnalysis.below_signature.2 ⟨hr', hr⟩⟩

theorem below_shape {s s' : Shape} (hs : p.ShapeAlike s s') :
    Below p.left.size s.mentions ∧ Below p.right.size s'.mentions := by
  obtain ⟨hproperties, hproperties'⟩ := forall_forall₂ hs.properties fun _ _ hxy => h.there hxy.type
  obtain ⟨hcalls, hcalls'⟩ := forall_forall₂ hs.calls fun _ _ => h.below_signature
  obtain ⟨hconstructs, hconstructs'⟩ := forall_forall₂ hs.constructs fun _ _ => h.below_signature
  obtain ⟨hbases, hbases'⟩ := h.below hs.bases
  exact ⟨ScriptAnalysis.below_shape.2 ⟨hproperties, hcalls, hconstructs, hbases⟩,
    ScriptAnalysis.below_shape.2 ⟨hproperties', hcalls', hconstructs', hbases'⟩⟩

/-- What has alike structures is alike. -/
theorem makes_structure {x y : Alloc TypeId} {data data' : TypeData} (hl : Enlarges p.left x)
    (hr : Enlarges p.right y) (hx : (x p.left).2.types[(x p.left).1]? = some data)
    (hy : (y p.right).2.types[(y p.right).1]? = some data') (hdata : p.DataAlike data data')
    (hobject : data.isObject = false) : p.Makes x y Alike := by
  obtain ⟨hadds, hlinked⟩ := h.makes hl hr
  refine ⟨p.link, hadds, hlinked, ?_⟩
  cases hdata with
  | intrinsic kind => exact .leaf hx hy rfl
  | literal value => exact .leaf hx hy rfl
  | array hxy => exact .array hx hy (hxy.mono hadds.grows)
  | union hxs =>
    obtain ⟨hlength, hmembers⟩ := forall₂_iff_getElem?.1 hxs
    exact .union hx hy hlength fun i m m' hm hm' => (hmembers i m m' hm hm').mono hadds.grows
  | object hs => cases hobject

theorem makes_literal (value : LiteralValue) :
    p.Makes (TypeTable.intern (.literal value)) (TypeTable.intern (.literal value)) Alike :=
  h.makes_structure (enlarges_intern h.left rfl rfl fun _ hpart => by cases hpart)
    (enlarges_intern h.right rfl rfl fun _ hpart => by cases hpart)
    (h.left.indexed.getElem?_intern _) (h.right.indexed.getElem?_intern _) (.literal value) rfl

theorem makes_array (hab : p.Alike a b) : p.Makes (TypeTable.array a) (TypeTable.array b) Alike :=
  h.makes_structure
    (enlarges_intern h.left rfl rfl fun _ hpart => List.mem_singleton.1 hpart ▸ h.lt_left hab)
    (enlarges_intern h.right rfl rfl fun _ hpart => List.mem_singleton.1 hpart ▸ h.lt_right hab)
    (h.left.indexed.getElem?_intern _) (h.right.indexed.getElem?_intern _) (.array hab) rfl

theorem makes_union {xs ys : List TypeId} (hxs : List.Forall₂ p.Alike xs ys) :
    p.Makes (TypeTable.union xs) (TypeTable.union ys) Alike := by
  obtain ⟨hbelow, hbelow'⟩ := h.below hxs
  have hl := enlarges_union h.left fun i hi => h.left.there_iff.1 (hbelow i hi)
  have hr := enlarges_union h.right fun i hi => h.right.there_iff.1 (hbelow' i hi)
  have hunion := h.unionOf hxs
  have hloose := any_forall₂ (h.flatten hxs) fun _ _ hab => h.isLoose hab
  unfold TypeTable.union at hl hr ⊢
  replace hl := hl.of_get
  replace hr := hr.of_get
  refine .get ?_
  rw [← hloose] at hr ⊢
  split
  · exact .pure h h.any
  · rename_i hnot
    rw [if_neg hnot] at hl hr
    revert hl hr
    match p.left.unionOf xs, p.right.unionOf ys, hunion with
    | _, _, .nil => exact fun _ _ => .pure h h.never
    | _, _, .cons hab .nil => exact fun _ _ => .pure h hab
    | _, _, .cons hab (.cons hab' hrest) =>
      exact fun hl hr => h.makes_structure hl hr (h.left.indexed.getElem?_intern _)
        (h.right.indexed.getElem?_intern _) (.union (.cons hab (.cons hab' hrest))) rfl

theorem makes_widen (hab : p.Alike a b) : p.Makes (TypeTable.widen a) (TypeTable.widen b) Alike := by
  have hprimitive := h.primitive hab
  have hdata := h.data hab
  unfold TypeTable.widen
  refine .get ?_
  match p.left.dataOf a, p.right.dataOf b, hdata with
  | _, _, .literal _ => exact .pure h hprimitive
  | _, _, .union hxs => exact h.makes_union (map_forall₂ hxs fun _ _ => h.primitive)
  | _, _, .intrinsic _ => exact .pure h hab
  | _, _, .array _ => exact .pure h hab
  | _, _, .object _ => exact .pure h hab

/-- New objects are linked. -/
theorem makes_object {s s' : Shape} (hs : p.ShapeAlike s s') :
    p.Makes (TypeTable.allocate s) (TypeTable.allocate s') fun p => p.link := by
  have hmentions := h.below_shape hs
  obtain ⟨hadds, hlinked⟩ := h.makes (enlarges_allocate h.left hmentions.1)
    (enlarges_allocate h.right hmentions.2)
  let p' : Pairing :=
    ⟨fun a b => p.link a b ∨ a = p.left.size ∧ b = p.right.size,
      (TypeTable.allocate s p.left).2, (TypeTable.allocate s' p.right).2⟩
  have hadds' : p.Adds p' :=
    ⟨fun a b hab => .inl hab, fun a b hab => hab.imp_right fun ⟨ha, hb⟩ => ⟨ha.ge, hb.ge⟩,
      hadds.left, hadds.right⟩
  have hold : ∀ {a b}, p.link a b → a < p.left.size ∧ b < p.right.size := fun hab =>
    ⟨h.lt_left (.object hab), h.lt_right (.object hab)⟩
  refine ⟨p'.link, hadds', ⟨hlinked.left, hlinked.right, ?_, ?_, ?_⟩, .inr ⟨rfl, rfl⟩⟩
  · rintro a a' b (hab | ⟨rfl, rfl⟩) (hab' | ⟨rfl, hb⟩)
    · exact h.left_unique a a' b hab hab'
    · exact absurd (hb ▸ (hold hab).2) (Nat.lt_irrefl _)
    · exact absurd (hold hab').2 (Nat.lt_irrefl _)
    · rfl
  · rintro a b b' (hab | ⟨rfl, rfl⟩) (hab' | ⟨ha, rfl⟩)
    · exact h.right_unique a b b' hab hab'
    · exact absurd (ha ▸ (hold hab).1) (Nat.lt_irrefl _)
    · exact absurd (hold hab').1 (Nat.lt_irrefl _)
    · rfl
  · rintro a b (hab | ⟨rfl, rfl⟩)
    · obtain ⟨g, g', hg, hg', halike⟩ := h.shapes a b hab
      exact ⟨g, g', hadds.left a _ hg, hadds.right b _ hg',
        halike.imp fun _ _ h => h.mono hadds'.grows⟩
    · exact ⟨s, s', (TypeTable.getElem?_allocate _ _ _).trans (if_pos rfl),
        (TypeTable.getElem?_allocate _ _ _).trans (if_pos rfl),
        hs.imp fun _ _ h => h.mono hadds'.grows⟩

theorem makes_allocate {s s' : Shape} (hs : p.ShapeAlike s s') :
    p.Makes (TypeTable.allocate s) (TypeTable.allocate s') Alike :=
  (h.makes_object hs).imp fun _ _ _ _ _ => .object

theorem makes_function {s s' : Signature} (hs : p.SignatureAlike s s') :
    p.Makes (TypeTable.function s) (TypeTable.function s') Alike :=
  h.makes_allocate ⟨rfl, rfl, rfl, .nil, .cons hs .nil, .nil, .nil⟩

/-! ### Built-in members -/

omit h in
/-- Receivers of the same sort have the same members. -/
theorem members_receiver {r r' : Receiver} (hr : p.ReceiverAlike r r') : r.members = r'.members := by
  cases hr <;> rfl

theorem ofType? (hab : p.Alike a b) :
    Option.Rel p.ReceiverAlike (Receiver.ofType? p.left a) (Receiver.ofType? p.right b) := by
  unfold Receiver.ofType?
  match p.left.element? a, p.right.element? b, h.element? hab with
  | _, _, .some hxy => exact .some (.array hxy)
  | _, _, .none =>
    have hprimitive := h.primitive hab
    dsimp only
    rw [h.beq_eq hprimitive h.string, h.beq_eq hprimitive h.number, h.beq_eq hprimitive h.boolean]
    split
    · exact .some .string
    · split
      · exact .some .number
      · split
        · exact .some .boolean
        · exact .none

theorem makes_callback (hab : p.Alike a b) (hr : p.Alike a' b') :
    p.Makes (Receiver.callback a a') (Receiver.callback b b') Alike :=
  h.makes_function ⟨.cons ⟨rfl, hab, rfl⟩ (.cons ⟨rfl, h.number, rfl⟩ .nil), hr⟩

theorem makes_arraySignature (hab : p.Alike a b) (name : String) :
    p.Makes (Receiver.arraySignature a name) (Receiver.arraySignature b name)
      fun p => Option.Rel p.SignatureAlike := by
  have hknown : ∀ {p : Pairing} {s s'}, p.Linked → p.SignatureAlike s s' →
      p.Makes (Pure.pure (some s) : Alloc (Option Signature)) (Pure.pure (some s'))
        fun p => Option.Rel p.SignatureAlike := fun h hs => .pure h (.some hs)
  unfold Receiver.arraySignature
  split
  · exact hknown h ⟨.cons ⟨rfl, hab, rfl⟩ .nil, h.number⟩
  · exact hknown h ⟨.nil, hab⟩
  · exact hknown h ⟨.cons ⟨rfl, hab, rfl⟩ .nil, h.number⟩
  · exact hknown h ⟨.cons ⟨rfl, hab, rfl⟩ .nil, h.boolean⟩
  · exact hknown h ⟨.cons ⟨rfl, h.string, rfl⟩ .nil, h.string⟩
  · exact (h.makes_array hab).bind fun _ _ _ _ h harray =>
      hknown h ⟨.cons ⟨rfl, h.number, rfl⟩ (.cons ⟨rfl, h.number, rfl⟩ .nil), harray⟩
  · exact (h.makes_array hab).bind fun _ _ _ _ h harray => hknown h ⟨.nil, harray⟩
  · exact (h.makes_callback hab h.void).bind fun _ _ _ _ h hcallback =>
      hknown h ⟨.cons ⟨rfl, hcallback, rfl⟩ .nil, h.void⟩
  · exact (h.makes_callback hab h.any).bind fun _ _ _ _ h hcallback =>
      (h.makes_array h.any).bind fun _ _ _ hp h harray =>
        hknown h ⟨.cons ⟨rfl, hcallback.mono hp.grows, rfl⟩ .nil, harray⟩
  · exact (h.makes_callback hab h.any).bind fun _ _ _ hp h hcallback =>
      (h.makes_array (hab.mono hp.grows)).bind fun _ _ _ hp h harray =>
        hknown h ⟨.cons ⟨rfl, hcallback.mono hp.grows, rfl⟩ .nil, harray⟩
  · exact .pure h .none

theorem makes_stringSignature (name : String) :
    p.Makes (Receiver.stringSignature name) (Receiver.stringSignature name)
      fun p => Option.Rel p.SignatureAlike := by
  have hone : p.SignatureAlike ⟨[Receiver.required "searchString" .string], .boolean⟩
      ⟨[Receiver.required "searchString" .string], .boolean⟩ :=
    ⟨.cons ⟨rfl, h.string, rfl⟩ .nil, h.boolean⟩
  have hnone : p.SignatureAlike ⟨[], .string⟩ ⟨[], .string⟩ := ⟨.nil, h.string⟩
  unfold Receiver.stringSignature
  split
  · exact .pure h (.some ⟨.cons ⟨rfl, h.number, rfl⟩ .nil, h.string⟩)
  · exact .pure h (.some ⟨.cons ⟨rfl, h.string, rfl⟩ .nil, h.number⟩)
  · exact .pure h (.some hone)
  · exact .pure h (.some hone)
  · exact .pure h (.some hone)
  · exact .pure h (.some ⟨.cons ⟨rfl, h.number, rfl⟩ (.cons ⟨rfl, h.number, rfl⟩ .nil), h.string⟩)
  · exact .pure h (.some hnone)
  · exact .pure h (.some hnone)
  · exact .pure h (.some hnone)
  · exact (h.makes_array h.string).bind fun _ _ _ _ h harray =>
      .pure h (.some ⟨.cons ⟨rfl, h.string, rfl⟩ .nil, harray⟩)
  · exact .pure h (.some ⟨.cons ⟨rfl, h.string, rfl⟩ (.cons ⟨rfl, h.string, rfl⟩ .nil), h.string⟩)
  · exact .pure h .none

theorem makes_memberType {r r' : Receiver} (hr : p.ReceiverAlike r r') (name : String) :
    p.Makes (r.memberType name) (r'.memberType name) Alike := by
  have hsignature : p.Makes (r.signature? name) (r'.signature? name)
      fun p => Option.Rel p.SignatureAlike := by
    cases hr with
    | array hxy => exact h.makes_arraySignature hxy name
    | string => exact h.makes_stringSignature name
    | number =>
      show p.Makes (Pure.pure (Receiver.numberSignature name)) (Pure.pure _) _
      unfold Receiver.numberSignature
      refine .pure h ?_
      split
      · exact .some ⟨.cons ⟨rfl, h.number, rfl⟩ .nil, h.string⟩
      · exact .some ⟨.cons ⟨rfl, h.number, rfl⟩ .nil, h.string⟩
      · exact .none
    | boolean =>
      show p.Makes (Pure.pure (Receiver.booleanSignature name)) (Pure.pure _) _
      unfold Receiver.booleanSignature
      refine .pure h ?_
      split
      · exact .some ⟨.nil, h.boolean⟩
      · exact .none
  unfold Receiver.memberType
  split
  · exact .pure h h.number
  · refine hsignature.bind fun p _ _ _ h hfound => ?_
    cases hfound with
    | none => exact .pure h h.error
    | some hs => exact h.makes_function hs

end Linked

/-! ## Objects that are filled in -/

/-- Linked objects that get alike shapes stay linked. -/
theorem Linked.setShape (h : Linked p) (hab : p.link a b) {s s' : Shape} (hs : p.ShapeAlike s s') :
    let p' : Pairing :=
      ⟨p.link, (TypeTable.setShape a s p.left).2, (TypeTable.setShape b s' p.right).2⟩
    Grows p p' ∧ p'.Linked := by
  intro p'
  obtain ⟨hmentions, hmentions'⟩ := h.below_shape hs
  have hl := TypeTable.change_setShape p.left a s
  have hr := TypeTable.change_setShape p.right b s'
  have hgrows : Grows p p' := ⟨fun _ _ h => h, fun _ _ h => .inl h, hl.kept, hr.kept⟩
  obtain ⟨old, old', hold, hold', -⟩ := h.shapes a b hab
  have hgetl := TypeTable.getElem?_setShape (TypeTable.shape?_of_getElem? hold) s
  have hgetr := TypeTable.getElem?_setShape (TypeTable.shape?_of_getElem? hold') s'
  refine ⟨hgrows, ⟨⟨(TypeTable.fair_setShape hmentions p.left h.left.toClosed (Nat.le_refl _)).1,
    TypeTable.before_change h.left.before hl⟩,
    ⟨(TypeTable.fair_setShape hmentions' p.right h.right.toClosed (Nat.le_refl _)).1,
    TypeTable.before_change h.right.before hr⟩, h.left_unique, h.right_unique, ?_⟩⟩
  intro x y hxy
  by_cases heq : a = x
  · obtain rfl : b = y := h.right_unique a b y hab (heq ▸ hxy)
    exact ⟨s, s', (hgetl x).trans (if_pos heq), (hgetr b).trans (if_pos rfl),
      hs.imp fun _ _ h => h.mono hgrows⟩
  · have hother : ¬ b = y := fun hby => heq (h.left_unique a x b hab (hby ▸ hxy))
    obtain ⟨g, g', hg, hg', halike⟩ := h.shapes x y hxy
    exact ⟨g, g', (hgetl x).trans ((if_neg heq).trans hg), (hgetr y).trans ((if_neg hother).trans hg'),
      halike.imp fun _ _ h => h.mono hgrows⟩

/-! ## Types that need not be alike -/

/-- Both types are there, and they are alike if `q` holds. -/
structure Sim (p : Pairing) (q : Prop) (a b : TypeId) : Prop where
  left : a < p.left.size
  right : b < p.right.size
  alike : q → p.Alike a b

/-- Both shapes refer to types that are there, and they are alike if `q` holds. -/
structure ShapeSim (p : Pairing) (q : Prop) (s s' : Shape) : Prop where
  left : Below p.left.size s.mentions
  right : Below p.right.size s'.mentions
  alike : q → p.ShapeAlike s s'

section

variable {q : Prop}

theorem Sim.mono (h : p.Sim q a b) (hp : Grows p p') : p'.Sim q a b :=
  ⟨Nat.lt_of_lt_of_le h.left hp.left.size, Nat.lt_of_lt_of_le h.right hp.right.size,
    fun hq => (h.alike hq).mono hp⟩

theorem Sim.weaken {q' : Prop} (h : p.Sim q' a b) (hq : q → q') : p.Sim q a b :=
  ⟨h.left, h.right, fun h' => h.alike (hq h')⟩

theorem ShapeSim.mono {s s' : Shape} (h : p.ShapeSim q s s') (hp : Grows p p') :
    p'.ShapeSim q s s' :=
  ⟨h.left.mono hp.left.size, h.right.mono hp.right.size,
    fun hq => (h.alike hq).imp fun _ _ h => h.mono hp⟩

namespace Linked

variable (h : Linked p)

include h

theorem sim (hab : p.Alike a b) : p.Sim q a b :=
  ⟨h.lt_left hab, h.lt_right hab, fun _ => hab⟩

/-- Where the types are alike they are added alike, elsewhere without a partner. -/
theorem makes_sim {x y : Alloc TypeId} (hl : Enlarges p.left x) (hr : Enlarges p.right y)
    (hx : (x p.left).1 < (x p.left).2.size) (hy : (y p.right).1 < (y p.right).2.size)
    (hq : q → p.Makes x y Alike) : p.Makes x y fun p => p.Sim q := by
  by_cases h' : q
  · exact (hq h').imp fun p' a b _ hlinked hab => hlinked.sim hab
  · obtain ⟨hadds, hlinked⟩ := h.makes hl hr
    exact ⟨p.link, hadds, hlinked, hx, hy, fun hq => absurd hq h'⟩

theorem sim_widen (hab : p.Sim q a b) :
    p.Makes (TypeTable.widen a) (TypeTable.widen b) fun p => p.Sim q :=
  have hl := enlarges_widen h.left hab.left
  have hr := enlarges_widen h.right hab.right
  h.makes_sim hl hr
    (hl.grounded.there_iff.1 (below_single.1 (TypeTable.fair_widen (.inl hab.left) p.left
      h.left.toClosed (Nat.le_refl _)).2.2))
    (hr.grounded.there_iff.1 (below_single.1 (TypeTable.fair_widen (.inl hab.right) p.right
      h.right.toClosed (Nat.le_refl _)).2.2))
    fun hq => h.makes_widen (hab.alike hq)

theorem sim_array (hab : p.Sim q a b) :
    p.Makes (TypeTable.array a) (TypeTable.array b) fun p => p.Sim q :=
  have hl : Enlarges p.left (TypeTable.array a) := enlarges_intern h.left rfl rfl fun _ hpart =>
    List.mem_singleton.1 hpart ▸ hab.left
  have hr : Enlarges p.right (TypeTable.array b) := enlarges_intern h.right rfl rfl fun _ hpart =>
    List.mem_singleton.1 hpart ▸ hab.right
  h.makes_sim hl hr (TypeTable.lt_size_of_getElem? (h.left.indexed.getElem?_intern _))
    (TypeTable.lt_size_of_getElem? (h.right.indexed.getElem?_intern _))
    fun hq => h.makes_array (hab.alike hq)

theorem sim_union {xs ys : List TypeId} (hxs : List.Forall₂ (p.Sim q) xs ys) :
    p.Makes (TypeTable.union xs) (TypeTable.union ys) fun p => p.Sim q := by
  obtain ⟨hbelow, hbelow'⟩ := forall_forall₂ hxs (P := (· < p.left.size)) (Q := (· < p.right.size))
    fun _ _ hab => ⟨hab.left, hab.right⟩
  have hl := enlarges_union h.left hbelow
  have hr := enlarges_union h.right hbelow'
  exact h.makes_sim hl hr
    (hl.grounded.there_iff.1 (below_single.1 (TypeTable.fair_union (fun i hi => .inl (hbelow i hi))
      p.left h.left.toClosed (Nat.le_refl _)).2.2))
    (hr.grounded.there_iff.1 (below_single.1 (TypeTable.fair_union (fun i hi => .inl (hbelow' i hi))
      p.right h.right.toClosed (Nat.le_refl _)).2.2))
    fun hq => h.makes_union (hxs.imp fun _ _ hab => hab.alike hq)

theorem sim_allocate {s s' : Shape} (hs : p.ShapeSim q s s') :
    p.Makes (TypeTable.allocate s) (TypeTable.allocate s') fun p => p.Sim q :=
  h.makes_sim (enlarges_allocate h.left hs.left) (enlarges_allocate h.right hs.right)
    (Nat.lt_of_lt_of_eq (Nat.lt_succ_self _) (TypeTable.size_allocate _ _).symm)
    (Nat.lt_of_lt_of_eq (Nat.lt_succ_self _) (TypeTable.size_allocate _ _).symm)
    fun hq => h.makes_allocate (hs.alike hq)

end Linked

end

/-! ## Types without a partner -/

/-- The type is made of an object that is linked to none. -/
inductive Lost (p : Pairing) : TypeId → Prop
  | array {a x : TypeId} (hl : p.left.types[a]? = some (.array x)) (h : Lost p x) : Lost p a
  | union {a x : TypeId} {xs : List TypeId} (hl : p.left.types[a]? = some (.union xs))
      (hx : x ∈ xs) (h : Lost p x) : Lost p a
  | object {a : TypeId} {s : Shape} (hl : p.left.types[a]? = some (.object s))
      (h : ∀ b, ¬ p.link a b) : Lost p a

/-- Less is linked, and so what was lost still is. -/
theorem Lost.relink (h : p.Lost a) (hl : TypeTable.Kept p.left p'.left)
    (hlink : ∀ a b shape, p.left.types[a]? = some (.object shape) → p'.link a b →
      ∃ b, p.link a b) : p'.Lost a := by
  induction h with
  | array hdata _ ih => exact .array (hl.structures _ _ hdata rfl) ih
  | union hdata hx _ ih => exact .union (hl.structures _ _ hdata rfl) hx ih
  | @object a shape hdata hnone =>
    obtain ⟨shape', hshape'⟩ := hl.objects _ _ hdata
    refine .object hshape' fun b hab => ?_
    obtain ⟨b', hab'⟩ := hlink a b shape hdata hab
    exact hnone b' hab'

theorem Lost.lt_left (h : p.Lost a) : a < p.left.size := by
  cases h with
  | array hl | union hl | object hl => exact TypeTable.lt_size_of_getElem? hl

theorem Lost.mono (h : p.Lost a) (hp : Grows p p') : p'.Lost a := by
  refine h.relink hp.left fun a b shape hdata hab => ?_
  rcases hp.new a b hab with hold | hnew
  · exact ⟨b, hold⟩
  · exact absurd hnew (Nat.not_le.2 (TypeTable.lt_size_of_getElem? hdata))

theorem Lost.not_alike (h : p.Lost a) (hp : p.Linked) : ¬ p.Alike a b := by
  intro hab
  induction hab with
  | leaf hl _ hleaf =>
    cases h with
    | array hl' | union hl' | object hl' =>
      cases hl.symm.trans hl'
      cases hleaf
  | array hl _ _ ih =>
    cases h with
    | array hl' hx =>
      cases hl.symm.trans hl'
      exact ih hx
    | union hl' | object hl' => cases hl.symm.trans hl'
  | union hl _ hlength _ ih =>
    cases h with
    | union hl' hx hlost =>
      cases hl.symm.trans hl'
      obtain ⟨i, hi, rfl⟩ := List.mem_iff_getElem.1 hx
      exact ih i _ _ (List.getElem?_eq_getElem hi) (List.getElem?_eq_getElem (hlength ▸ hi)) hlost
    | array hl' | object hl' => cases hl.symm.trans hl'
  | object hlink =>
    obtain ⟨s, -, hs, -⟩ := hp.shapes _ _ hlink
    cases h with
    | array hl' | union hl' => cases hs.symm.trans hl'
    | object _ hnone => exact hnone _ hlink

end Pairing

end ScriptAnalysis
