import ScriptAnalysis.Proofs.Checking.Twins

/-!
# Expressions in two runs

If all that the rules of the checker find out about symbols is alike in two
runs, the types of type nodes and of expressions are too. What is expected of
an expression may differ between the runs as long as there is no arrow function
in it, since only arrow functions learn from it. The types are alike then only
where what is expected is (`Pairing.Sim`), but the two runs go the same way.

**Results.**
* `Tied`: what the rules have to keep; `Tied.runs_…`: each function of the
  checker keeps it.
* `Tied.runs_typeNode`, `Tied.runs_expression`: so do type nodes and expressions
  with one more nested use of the rules.
-/
namespace ScriptAnalysis.Checking

open Tie (Runs)

variable {T : Tie} {w : Sides} {c c' : Context}

/-- What is expected is there, if something is expected. -/
structure Expect (p : Pairing) (expected expected' : Option TypeId) : Prop where
  left : ∀ a ∈ expected, a < p.left.size
  right : ∀ b ∈ expected', b < p.right.size

theorem Expect.mono {p p' : Pairing} {expected expected' : Option TypeId}
    (h : Expect p expected expected') (hp : p.Grows p') : Expect p' expected expected' :=
  ⟨fun a ha => Nat.lt_of_lt_of_le (h.left a ha) hp.left.size,
    fun b hb => Nat.lt_of_lt_of_le (h.right b hb) hp.right.size⟩

theorem Expect.of_alike {p : Pairing} (hp : p.Linked) {expected expected' : Option TypeId}
    (h : Option.Rel p.Alike expected expected') : Expect p expected expected' := by
  cases h with
  | none =>
    constructor
    · intro a ha
      cases ha
    · intro b hb
      cases hb
  | some hab =>
    constructor
    · intro a ha
      cases ha
      exact hp.lt_left hab
    · intro b hb
      cases hb
      exact hp.lt_right hab

/-- The signatures of the constructor of the base class. -/
def superSignatures (r : Rules) (callee : NodeId) : Check (List Signature) := do
  let base ← r.expression callee none
  return constructsOfInstance (← get) base

/-- The rules keep the tie where they are used. -/
structure Tied (T : Tie) (r : Rules) : Prop where
  walked : T.careful → Walked T.walk r
  typeNode : ∀ {w c c' node}, T.Opens c c' node →
    T.Runs w c c' (r.typeNode node) (r.typeNode node) Pairing.Alike
  expression : ∀ {w c c' node expected expected'}, T.Opens c c' node →
    (Plain c.arena node ∨ Option.Rel w.pairing.Alike expected expected') →
    Expect w.pairing expected expected' →
    T.Runs w c c' (r.expression node expected) (r.expression node expected')
      fun p => p.Sim (Option.Rel w.pairing.Alike expected expected')
  superSignatures : ∀ {w c c' node}, T.Opens c c' node →
    c.arena.form? node = some (.keyword .kwSuper) →
    T.Runs w c c' (superSignatures r node) (superSignatures r node)
      fun p => List.Forall₂ p.SignatureAlike
  valueType : ∀ {w c c'} id, T.Runs w c c' (r.valueType id) (r.valueType id) Pairing.Alike
  declaredType : ∀ {w c c'} id, T.Runs w c c' (r.declaredType id) (r.declaredType id)
    fun p => Option.Rel p.Alike
  signature : ∀ {w c c' node p}, T.Opens c c' node →
    c.arena.form? node = some (.function .functionType p) →
    T.Runs w c c' (signature r node) (signature r node) Pairing.SignatureAlike
  memberType : ∀ {w c c' a b} name, w.pairing.Alike a b →
    T.Runs w c c' (memberType a name) (memberType b name) fun p => Option.Rel p.Alike
  arrow : ∀ {w c c' node expected expected' p}, T.arrows → c.recording = c'.recording →
    T.Opens c c' node → c.arena.form? node = some (.function .arrow p) →
    Option.Rel w.pairing.Alike expected expected' →
    T.Runs w c c' (checkArrow r node expected) (checkArrow r node expected') Pairing.Alike

namespace Tie.Runs

/-! ## What needs no rules -/

theorem error : T.Runs w c c' (Pure.pure TypeId.error) (Pure.pure TypeId.error) Pairing.Alike :=
  linked fun h => pure h.error

theorem literalType (a : Arena) (literal : NodeId) :
    T.Runs w c c' (literalType a literal) (Checking.literalType a literal) Pairing.Alike := by
  unfold Checking.literalType
  split
  · exact linked fun h => pure (h.predefined (by decide))
  · exact linked fun h => pure (h.predefined (by decide))
  · exact alloc fun h => h.makes_literal _
  · exact alloc fun h => h.makes_literal _
  · exact error

/-- The type that an ascription spells, if there is one. -/
theorem ascription {self : Rules} {type : Option NodeId}
    (h : ∀ node ∈ type, T.Runs w c c' (self.typeNode node) (self.typeNode node) Pairing.Alike) :
    T.Runs w c c' (ascription self type) (Checking.ascription self type)
      fun p => Option.Rel p.Alike := by
  cases type with
  | none => exact pure .none
  | some node => exact map (h node rfl) fun _ _ _ _ _ hab => .some hab

section

variable {node : NodeId} (ho : T.Opens c c' node) (hform : namesClass (c.arena.form? node) = true)

include ho hform

theorem thisType : T.Runs w c c' thisType Checking.thisType fun p => Option.Rel p.Alike :=
  fun hw hc hat => ⟨rfl, fun _ => ⟨rfl, w.link, .refl _, hw,
    thisAt_alike hc (T.this hw hat (ho.nodes node .refl) hform)⟩⟩

theorem superType : T.Runs w c c' superType Checking.superType Pairing.Alike :=
  fun hw hc hat => ⟨rfl, fun _ => ⟨rfl, w.link, .refl _, hw,
    superAt_alike (T.linked hw) (thisAt_alike hc (T.this hw hat (ho.nodes node .refl) hform))⟩⟩

end

theorem checkTarget (target : NodeId) :
    T.Runs w c c' (checkTarget target) (Checking.checkTarget target) fun _ => Eq := by
  refine look (fun _ _ _ => rfl) ?_
  split
  · exact pure rfl
  · split
    · exact bind (report _ _ _) (fun _ _ => .pure _) fun _ _ _ _ _ _ => pure rfl
    · exact pure rfl

theorem additionType {p : Pairing} (hp : p.Linked) {a a' b b' : TypeId} (hab : p.Alike a b)
    (hab' : p.Alike a' b') :
    p.Alike (additionType p.left a a') (Checking.additionType p.right b b') := by
  have hl := hp.primitive hab
  have hr := hp.primitive hab'
  unfold Checking.additionType
  dsimp only
  rw [hp.beq_eq hl hp.string, hp.beq_eq hr hp.string, hp.beq_eq hl hp.number,
    hp.beq_eq hr hp.number]
  split
  · exact hp.string
  · split
    · exact hp.number
    · exact hp.any

theorem operatorType (operator : TokenKind) {a a' b b' : TypeId} (hab : w.pairing.Alike a b)
    (hab' : w.pairing.Alike a' b') :
    T.Runs w c c' (operatorType operator a a') (Checking.operatorType operator b b')
      Pairing.Alike := by
  have hnumber : T.Runs w c c' (Pure.pure TypeId.number) (Pure.pure TypeId.number)
      Pairing.Alike := linked fun h => pure h.number
  have hboolean : T.Runs w c c' (Pure.pure TypeId.boolean) (Pure.pure TypeId.boolean)
      Pairing.Alike := linked fun h => pure h.boolean
  have hpresent : T.Runs w c c'
      (do Checking.alloc (TypeTable.union
        (((← Checking.table).unionMembers a).filter (fun m => m != .null && m != .undefined) ++ [a'])))
      (do Checking.alloc (TypeTable.union
        (((← Checking.table).unionMembers b).filter (fun m => m != .null && m != .undefined) ++ [b'])))
      Pairing.Alike := by
    refine table fun h => alloc fun _ => h.makes_union (List.rel_append ?_ (.cons hab' .nil))
    refine filter_forall₂ (h.unionMembers hab) fun x y hxy => ?_
    exact congrArg₂ and (congrArg not (h.beq_predefined hxy (by decide)))
      (congrArg not (h.beq_predefined hxy (by decide)))
  unfold Checking.operatorType
  split
  any_goals assumption
  · exact table fun h => pure (additionType h hab hab')
  · exact pure hab'
  · exact error

end Tie.Runs

namespace Tied

variable {self : Rules} (h : Tied T self)

include h

/-- An expression of which the same is expected. -/
theorem typed {node : NodeId} {expected expected' : Option TypeId} (ho : T.Opens c c' node)
    (hex : Option.Rel w.pairing.Alike expected expected') :
    T.Runs w c c' (self.expression node expected) (self.expression node expected')
      Pairing.Alike :=
  .linked fun hp => (h.expression ho (.inr hex) (.of_alike hp hex)).imp
    fun _ _ _ _ _ hab => hab.alike hex

/-- An expression of which nothing is expected. -/
theorem bare {node : NodeId} (ho : T.Opens c c' node) :
    T.Runs w c c' (self.expression node none) (self.expression node none) Pairing.Alike :=
  h.typed ho .none

/-! ## Types that are spelled out -/

theorem runs_typeReference (node : NodeId) :
    T.Runs w c c' (typeReference self node) (typeReference self node) Pairing.Alike := by
  refine .look (fun _ _ _ => rfl) ?_
  split
  · exact .error
  · split
    · exact .error
    · extract_lets rest
      have hrest : ∀ (w : Sides) type type', w.pairing.Alike type type' →
          T.Runs w c c' (rest type) (rest type') Pairing.Alike := fun w type type' hab =>
        Runs.bind (.record _ _ _) (fun _ _ => .pure _) fun _ _ _ hgrows _ _ =>
          .pure (hab.mono hgrows)
      have hk : T.Moves c (rest .error) := fun _ => Walk.Moves.bind (.record _ _) fun _ => .pure _
      have hfail : ∀ (w : Sides) (p : Problem), T.Runs w c c'
          (report node p >>= fun _ => Pure.pure TypeId.error >>= rest)
          (report node p >>= fun _ => Pure.pure TypeId.error >>= rest) Pairing.Alike := fun w p =>
        Runs.bind (.report _ _ _) (fun _ => hk) fun w' _ _ _ hw' _ =>
          hrest w' _ _ (T.linked hw').error
      split
      · refine Runs.bind (h.declaredType _) (fun found hc => ?_) fun w' a b hgrows hw' hab => ?_
        · split
          · exact Walk.Moves.bind (.pure _) fun _ => Walk.Moves.bind (.record _ _) fun _ => .pure _
          · exact Walk.Moves.bind (.report _ _) fun _ => hk hc
        · cases hab with
          | none => exact hfail _ _
          | some hab => exact hrest _ _ _ hab
      · split
        · exact hfail _ _
        · exact hfail _ _

theorem runs_signatureParameter {node : NodeId} (ho : T.Opens c c' node) :
    T.Runs w c c' (signatureParameter self node) (signatureParameter self node)
      fun _ _ _ => True := by
  refine .look (fun _ _ _ => rfl) ?_
  cases hp : c.arena.parameterOf? node with
  | none => exact .pure trivial
  | some p =>
    refine Runs.bind (.ascription fun type htype => h.typeNode (ho.child ?_)) (fun _ _ => ?_)
      fun _ _ _ _ _ _ => ?_
    · rw [Arena.children_of_form? (Arena.form?_of_parameterOf? hp)]
      exact List.mem_cons_of_mem _ (List.mem_append_left _ (Option.mem_toList.2 htype))
    · exact Walk.Moves.bind (.record _ _) fun _ => .record _ _
    · exact Runs.bind (.record _ _ _) (fun _ _ => .record _ _) fun _ _ _ _ _ _ => .record _ _ _

theorem runs_typeOfForm {node : NodeId} {form : Form} (hform : c.arena.form? node = some form)
    (ho : T.Opens c c' node) :
    T.Runs w c c' (typeOfForm self node form) (typeOfForm self node form) Pairing.Alike := by
  have hchildren := Arena.children_of_form? hform
  have hchild : ∀ m ∈ form.children, T.Opens c c' m := fun m hm => ho.child (hchildren ▸ hm)
  unfold typeOfForm
  split
  · rename_i word
    refine .linked fun hp => .pure (hp.predefined ?_)
    unfold keywordType
    split <;> decide
  · refine .look (fun _ _ _ => rfl) (Runs.bind (.literalType _ _) (fun _ _ => ?_) ?_)
    · exact Walk.Moves.bind (.record _ _) fun _ => .pure _
    · intro w' a b _ _ hab
      exact Runs.bind (.record _ _ _) (fun _ _ => .pure _) fun _ _ _ hgrows _ _ =>
        .pure (hab.mono hgrows)
  · refine Runs.bind (h.typeNode (hchild _ (List.mem_singleton_self _)))
      (fun _ _ => .alloc (TypeTable.grows_array _)) fun w' a b _ _ hab => ?_
    exact .alloc fun hp => hp.makes_array hab
  · exact h.typeNode (hchild _ (List.mem_singleton_self _))
  · refine Runs.bind (.mapM_same (fun hp hab => hab.mono hp)
      (fun _ hc => (h.walked hc).typeNode _ _) fun w' m hm _ => h.typeNode (hchild m hm))
      (fun _ _ => .union _) fun w' _ _ _ _ hxs => ?_
    exact .alloc fun hp => hp.makes_union hxs
  · rename_i p
    refine Runs.bind (.forM_same (fun _ hc => (h.walked hc).moves_signatureParameter _)
      fun w' m hm _ => h.runs_signatureParameter (hchild m ?_)) (fun _ hc => ?_)
      fun w' _ _ _ _ _ => ?_
    · simp only [Form.children, List.mem_append]
      exact .inl (.inl (.inr hm))
    · exact Walk.Moves.bind ((h.walked hc).moves_signature _) fun _ =>
        .alloc (TypeTable.grows_function _)
    · exact Runs.bind (h.signature ho hform) (fun _ _ => .alloc (TypeTable.grows_function _))
        fun w'' _ _ _ _ hs => .alloc fun hp => hp.makes_function hs
  · exact h.runs_typeReference _
  · exact .error

theorem runs_typeNode {node : NodeId} (ho : T.Opens c c' node) :
    T.Runs w c c' (Checking.typeNode self node) (Checking.typeNode self node) Pairing.Alike := by
  refine .look (fun _ _ _ => rfl) ?_
  cases hform : c.arena.form? node with
  | none => exact .error
  | some form =>
    refine Runs.bind (h.runs_typeOfForm hform ho) (fun _ _ => ?_) fun w' a b _ _ hab => ?_
    · exact Walk.Moves.bind (.record _ _) fun _ => .pure _
    · exact Runs.bind (.record _ _ _) (fun _ _ => .pure _) fun _ _ _ hgrows _ _ =>
        .pure (hab.mono hgrows)

/-! ## Names and members -/

theorem runs_checkName (node : NodeId) :
    T.Runs w c c' (checkName self node) (checkName self node) Pairing.Alike := by
  refine .look (fun _ _ _ => rfl) ?_
  dsimp only
  split
  · exact .error
  · split
    · exact h.valueType _
    · split
      · exact Runs.bind (.report _ _ _) (fun _ _ => .pure _) fun _ _ _ _ _ _ => .error
      · exact Runs.bind (.report _ _ _) (fun _ _ => .pure _) fun _ _ _ _ _ _ => .error

theorem runs_memberTypes (name : String) {ids ids' : List TypeId}
    (hids : List.Forall₂ w.pairing.Alike ids ids') :
    T.Runs w c c' (memberTypes name ids) (memberTypes name ids')
      fun p => Option.Rel (List.Forall₂ p.Alike) := by
  induction ids generalizing w ids' with
  | nil =>
    cases hids
    exact .pure (.some .nil)
  | cons a rest ih =>
    cases hids with
    | cons hab hrest =>
      have hothers : T.Moves c (memberTypes name rest) := fun _ => .memberTypes _ _
      refine Runs.bind (h.memberType name hab) (fun found hc => ?_) fun w' _ _ hgrows _ hfound => ?_
      · split
        · exact .pure _
        · refine Walk.Moves.bind (hothers hc) fun others => ?_
          split <;> exact .pure _
      · cases hfound with
        | none => exact .pure .none
        | some htype =>
          refine Runs.bind (ih (hrest.imp fun _ _ h => h.mono hgrows)) (fun others _ => ?_)
            fun _ _ _ hgrows' _ hothers => ?_
          · split <;> exact .pure _
          · cases hothers with
            | none => exact .pure .none
            | some htypes => exact .pure (.some (.cons (htype.mono hgrows') htypes))

theorem runs_propertyType (name : String) {a b : TypeId} (hab : w.pairing.Alike a b) :
    T.Runs w c c' (propertyType a name) (propertyType b name) fun p => Option.Rel p.Alike := by
  have hmember : T.Runs w c c' (Checking.memberType a name) (Checking.memberType b name)
      fun p => Option.Rel p.Alike := h.memberType name hab
  refine .table fun hp => ?_
  match w.pairing.left.dataOf a, w.pairing.right.dataOf b, hp.data hab with
  | _, _, .union hxs =>
    refine Runs.bind (h.runs_memberTypes name hxs) (fun found _ => ?_) fun w' _ _ _ _ hfound => ?_
    · split
      · exact .pure _
      · exact Walk.Moves.bind (.union _) fun _ => .pure _
    · cases hfound with
      | none => exact .pure .none
      | some htypes =>
        exact .map (.alloc fun hp => hp.makes_union htypes) fun _ _ _ _ _ htype => .some htype
  | _, _, .array _ => exact hmember
  | _, _, .object _ => exact hmember
  | _, _, .intrinsic _ => exact hmember
  | _, _, .literal _ => exact hmember

theorem runs_checkPropertyAccess {object name : NodeId} (ho : T.Opens c c' object) :
    T.Runs w c c' (checkPropertyAccess self object name) (checkPropertyAccess self object name)
      Pairing.Alike := by
  refine Runs.bind (h.bare ho) (fun a hc => ?_) fun w' a b _ _ hab => ?_
  · refine Walk.Moves.read ?_
    extract_lets text rest
    have hrest : ∀ type, T.walk.Moves c (rest type) := fun type =>
      Walk.Moves.bind (.record _ _) fun _ => .pure _
    split
    · exact .pure _
    · refine Walk.Moves.bind (.propertyType _ _) fun found => ?_
      split
      · exact Walk.Moves.bind (.pure _) hrest
      · exact Walk.Moves.bind (.display _) fun _ => Walk.Moves.bind (.report _ _) fun _ =>
          Walk.Moves.bind (.pure _) hrest
  · refine .look (fun _ _ _ => rfl) ?_
    extract_lets text rest
    have hrest : ∀ (w : Sides) type type', w.pairing.Alike type type' →
        T.Runs w c c' (rest type) (rest type') Pairing.Alike := fun w type type' hab =>
      Runs.bind (.record _ _ _) (fun _ _ => .pure _) fun _ _ _ hgrows _ _ =>
        .pure (hab.mono hgrows)
    have hmoves : ∀ type, T.walk.Moves c (rest type) := fun type =>
      Walk.Moves.bind (.record _ _) fun _ => .pure _
    split
    · exact .error
    · refine Runs.bind (h.runs_propertyType _ hab) (fun found _ => ?_)
        fun w'' _ _ _ _ hfound => ?_
      · split
        · exact Walk.Moves.bind (.pure _) (hmoves)
        · exact Walk.Moves.bind (.display _) fun _ => Walk.Moves.bind (.report _ _) fun _ =>
            Walk.Moves.bind (.pure _) (hmoves)
      · cases hfound with
        | some htype => exact hrest _ _ _ htype
        | none =>
          refine Runs.bind (.display _ _) (fun _ _ => ?_) fun _ _ _ _ _ _ => ?_
          · exact Walk.Moves.bind (.report _ _) fun _ => Walk.Moves.bind (.pure _) (hmoves)
          · exact Runs.bind (.report _ _ _) (fun _ _ => Walk.Moves.bind (.pure _) (hmoves))
              fun _ _ _ _ hw _ => hrest _ _ _ (T.linked hw).error

/-- The type of `object[index]`, from the types of the two. -/
def elementType (object index : TypeId) : Check TypeId := do
  if object.isLoose then return object
  let t ← table
  match t.element? object with
  | some element => return element
  | none =>
    if t.primitive object == .string then return .string
    match t.dataOf index with
    | .literal (.string key) => return (← propertyType object key).getD .any
    | _ => return .any

omit h in
theorem moves_elementType (object index : TypeId) : T.walk.Moves c (elementType object index) := by
  unfold elementType
  split
  · exact .pure _
  · refine Walk.Moves.bind .table fun t => ?_
    split
    · exact .pure _
    · split
      · exact .pure _
      · split
        · exact Walk.Moves.bind (.propertyType _ _) fun _ => .pure _
        · exact .pure _

theorem runs_elementType {a b a' b' : TypeId} (hab : w.pairing.Alike a b)
    (hab' : w.pairing.Alike a' b') :
    T.Runs w c c' (elementType a a') (elementType b b') Pairing.Alike := by
  unfold elementType
  refine .linked fun hlinked => ?_
  rw [hlinked.isLoose hab]
  split
  · exact .pure hab
  refine .table fun hp => ?_
  rcases both_or_none (hp.element? hab) with ⟨hl, hr⟩ | ⟨_, _, hl, hr, helement⟩
  · rw [hl, hr, hp.beq_eq (hp.primitive hab) hp.string]
    dsimp only
    split
    · exact .pure hp.string
    · have hany : T.Runs w c c' (Pure.pure TypeId.any) (Pure.pure TypeId.any) Pairing.Alike :=
        .pure hp.any
      have hdata := hp.data hab'
      generalize w.pairing.left.dataOf a' = data, w.pairing.right.dataOf b' = data' at hdata ⊢
      cases hdata with
      | literal l =>
        cases l with
        | string key =>
          exact .map (h.runs_propertyType key hab) fun p _ _ _ hp hfound => getD_option hfound hp.any
        | number _ => exact hany
        | boolean _ => exact hany
      | array _ => exact hany
      | union _ => exact hany
      | object _ => exact hany
      | intrinsic _ => exact hany
  · rw [hl, hr]
    exact .pure helement

theorem runs_checkElementAccess {object index : NodeId} (ho : T.Opens c c' object)
    (hi : T.Opens c c' index) :
    T.Runs w c c' (checkElementAccess self object index) (checkElementAccess self object index)
      Pairing.Alike := by
  refine Runs.bind (h.bare ho) (fun a hc => ?_) fun w' a b _ _ hab => ?_
  · exact Walk.Moves.bind ((h.walked hc).expression _ _ _) fun b => moves_elementType a b
  refine Runs.bind (h.bare hi) (fun a' _ => moves_elementType a a') fun w'' a' b' hgrows _ hab' => ?_
  exact h.runs_elementType (hab.mono hgrows) hab'

/-! ## Literals

What is expected of an array or an object is handed down to its parts.
-/

omit h in
/-- What is expected of the parts of an expression is there too. -/
theorem expect_bind {p : Pairing} (hp : p.Linked) {expected expected' : Option TypeId}
    {f g : TypeId → Option TypeId} (hf : ∀ a e, f a = some e → There p.left.size e)
    (hg : ∀ b e, g b = some e → There p.right.size e) :
    Expect p (expected.bind f) (expected'.bind g) where
  left e he := by
    obtain ⟨a, -, ha⟩ := Option.bind_eq_some_iff.1 he
    exact hp.left.there_iff.1 (hf a e ha)
  right e he := by
    obtain ⟨b, -, hb⟩ := Option.bind_eq_some_iff.1 he
    exact hp.right.there_iff.1 (hg b e hb)

/-- A part of an expression. Where the expressions are alike, so are the parts. -/
theorem runs_part {q : Prop} {node : NodeId} {expected expected' : Option TypeId}
    (ho : T.Opens c c' node) (hplain : Plain c.arena node ∨ q)
    (hexpect : Expect w.pairing expected expected')
    (hq : q → Option.Rel w.pairing.Alike expected expected') :
    T.Runs w c c' (self.expression node expected) (self.expression node expected')
      fun p => p.Sim q :=
  (h.expression ho (hplain.imp_right hq) hexpect).imp fun _ _ _ _ _ hab => hab.weaken hq

theorem runs_checkArray {q : Prop} {elements : List NodeId} {expected expected' : Option TypeId}
    (ho : ∀ e ∈ elements, T.Opens c c' e) (hplain : (∀ e ∈ elements, Plain c.arena e) ∨ q)
    (hq : q → Option.Rel w.pairing.Alike expected expected') :
    T.Runs w c c' (checkArray self elements expected) (checkArray self elements expected')
      fun p => p.Sim q := by
  refine .table fun hp => ?_
  have hexpect : Expect w.pairing (expected.bind w.pairing.left.element?)
      (expected'.bind w.pairing.right.element?) :=
    expect_bind hp (fun _ _ => hp.left.element?) fun _ _ => hp.right.element?
  have hparts : q → Option.Rel w.pairing.Alike (expected.bind w.pairing.left.element?)
      (expected'.bind w.pairing.right.element?) := fun h' =>
    bind_option (hq h') fun _ _ => hp.element?
  generalize expected.bind w.pairing.left.element? = part at hexpect hparts ⊢
  generalize expected'.bind w.pairing.right.element? = part' at hexpect hparts ⊢
  refine Runs.bind (Q := fun p => List.Forall₂ (p.Sim q))
    (.mapM_same (fun hp hab => hab.mono hp) (fun e hc => ?_) fun w' e he hgrows => ?_)
    (fun types _ => ?_) fun w' types types' hgrows hw' htypes => ?_
  · exact Walk.Moves.bind ((h.walked hc).expression _ _ _) fun _ => .widen _
  · refine Runs.bind (h.runs_part (ho e he) (hplain.imp_left fun hall => hall e he)
      (hexpect.mono hgrows) fun h' => rel_mono (fun _ _ hab => hab.mono hgrows) (hparts h'))
      (fun _ _ => .widen _) fun w'' a b _ _ hab => ?_
    exact .alloc fun hp => hp.sim_widen hab
  · dsimp only
    split
    · exact Walk.Moves.bind (.pure _) fun _ => .alloc (TypeTable.grows_array _)
    · exact Walk.Moves.bind (.union _) fun _ => .alloc (TypeTable.grows_array _)
  · dsimp only
    rw [isEmpty_forall₂ htypes]
    split
    · refine .alloc fun hp => hp.sim_array ?_
      have hthere := hexpect.mono hgrows
      refine ⟨?_, ?_, fun h' => ?_⟩
      · cases hpart : part with
        | none => exact hp.left.there_iff.1 there_any
        | some a => exact hthere.left a hpart
      · cases hpart : part' with
        | none => exact hp.right.there_iff.1 there_any
        | some b => exact hthere.right b hpart
      · exact getD_option (rel_mono (fun _ _ hab => hab.mono hgrows) (hparts h')) hp.any
    · refine Runs.bind (.alloc fun hp => hp.sim_union htypes)
        (fun _ _ => .alloc (TypeTable.grows_array _)) fun w'' a b _ _ hab => ?_
      exact .alloc fun hp => hp.sim_array hab

omit h in
/-- Properties that differ only where the types do. -/
theorem shapeSim_replace {p : Pairing} {q : Prop} {s s' : Shape} (hs : p.ShapeSim q s s')
    (name : String) {a b : TypeId} (hab : p.Sim q a b) :
    p.ShapeSim q
      { s with properties := s.properties.filter (·.name != name) ++ [⟨name, a, false, false⟩] }
      { s' with properties := s'.properties.filter (·.name != name) ++ [⟨name, b, false, false⟩] } where
  left := by
    have hold := below_shape.1 hs.left
    refine below_shape.2 ⟨fun x hx => ?_, hold.2⟩
    rcases List.mem_append.1 hx with hx | hx
    · exact hold.1 x (List.mem_filter.1 hx).1
    · cases List.mem_singleton.1 hx
      exact .inl hab.left
  right := by
    have hold := below_shape.1 hs.right
    refine below_shape.2 ⟨fun x hx => ?_, hold.2⟩
    rcases List.mem_append.1 hx with hx | hx
    · exact hold.1 x (List.mem_filter.1 hx).1
    · cases List.mem_singleton.1 hx
      exact .inl hab.right
  alike hq := by
    have hold := hs.alike hq
    refine { hold with
      properties := List.rel_append (filter_forall₂ hold.properties fun x y hxy => ?_)
        (.cons ⟨rfl, hab.alike hq, rfl, rfl⟩ .nil) }
    rw [hxy.name]

theorem runs_addLiteralProperty {q : Prop} {element : NodeId} {expected expected' : Option TypeId}
    (ho : T.Opens c c' element) (hplain : Plain c.arena element ∨ q)
    (hq : q → Option.Rel w.pairing.Alike expected expected') {s s' : Shape}
    (hs : w.pairing.ShapeSim q s s') :
    T.Runs w c c' (addLiteralProperty self expected s element)
      (addLiteralProperty self expected' s' element) fun p => p.ShapeSim q := by
  refine .look (fun _ _ _ => rfl) ?_
  extract_lets a
  split
  · rename_i nameNode value hform
    have hchildren := Arena.children_of_form? hform
    refine .table fun hp => ?_
    extract_lets wanted rest wanted' rest'
    have hexpect : Expect w.pairing wanted wanted' := by
      unfold wanted wanted'
      rw [Option.map_bind, Option.map_bind]
      refine expect_bind hp (fun x e he => ?_) fun x e he => ?_
      · obtain ⟨property, hproperty, rfl⟩ := Option.map_eq_some_iff.1 he
        exact hp.left.property? hproperty
      · obtain ⟨property, hproperty, rfl⟩ := Option.map_eq_some_iff.1 he
        exact hp.right.property? hproperty
    have hwanted : q → Option.Rel w.pairing.Alike wanted wanted' := fun h' =>
      map_option (bind_option (hq h') fun _ _ hab => hp.property? hab _) fun _ _ hxy => hxy.type
    have hmoves : ∀ found, T.Moves c (rest found) := fun found _ =>
      Walk.Moves.bind (.widen _) fun _ => Walk.Moves.bind (.record _ _) fun _ =>
        Walk.Moves.bind (.record _ _) fun _ => .pure _
    have hrest : ∀ w' : Sides, ∀ found found', w.pairing.Grows w'.pairing → T.Holds w' →
        w'.pairing.Sim q found found' →
        T.Runs w' c c' (rest found) (rest' found') fun p => p.ShapeSim q := by
      intro w' found found' hgrows _ hfound
      refine Runs.bind (.alloc fun hp => hp.sim_widen hfound) (fun _ _ =>
        Walk.Moves.bind (.record _ _) fun _ => Walk.Moves.bind (.record _ _) fun _ => .pure _)
        fun w₁ _ _ hgrows₁ _ htype => ?_
      refine Runs.bind (.record _ _ _) (fun _ _ => Walk.Moves.bind (.record _ _) fun _ => .pure _)
        fun w₂ _ _ hgrows₂ _ _ => ?_
      refine Runs.bind (.record _ _ _) (fun _ _ => .pure _) fun w₃ _ _ hgrows₃ _ _ => .pure ?_
      exact shapeSim_replace (hs.mono (((hgrows.trans hgrows₁).trans hgrows₂).trans hgrows₃)) _
        (htype.mono (hgrows₂.trans hgrows₃))
    split
    · rename_i value
      have hvalue : value ∈ a.children element := by simp [hchildren, Form.children]
      exact Runs.bind (h.runs_part (ho.child hvalue) (hplain.imp_left fun hall => hall.child hvalue)
        hexpect hwanted) hmoves hrest
    · exact Runs.bind ((h.runs_checkName _).imp fun _ _ _ _ hp hab => hp.sim hab) hmoves hrest
  · exact .pure hs

theorem runs_checkObject {q : Prop} {properties : List NodeId} {expected expected' : Option TypeId}
    (ho : ∀ e ∈ properties, T.Opens c c' e) (hplain : (∀ e ∈ properties, Plain c.arena e) ∨ q)
    (hq : q → Option.Rel w.pairing.Alike expected expected') :
    T.Runs w c c' (checkObject self properties expected) (checkObject self properties expected')
      fun p => p.Sim q := by
  have hbare : w.pairing.ShapeSim q (.bare .anonymous none none) (.bare .anonymous none none) :=
    ⟨below_bare, below_bare, fun _ => ⟨rfl, rfl, rfl, .nil, .nil, .nil, .nil⟩⟩
  refine Runs.bind_gives (Q := fun p => p.ShapeSim q)
    (.foldlM_same (fun s e hc => ?_) (fun w' s s' e he hgrows hs => ?_) hbare)
    (fun shape hgives hc => ?_) fun w' _ _ _ _ hs => .alloc fun hp => hp.sim_allocate hs
  · exact (h.walked hc).moves_addLiteralProperty _ _ _
  · exact h.runs_addLiteralProperty (ho e he) (hplain.imp_left fun hall => hall e he)
      (fun h' => rel_mono (fun _ _ hab => hab.mono hgrows) (hq h')) hs
  · have hw := h.walked hc
    have hshape : shape.Nameless :=
      Walk.gives_foldlM (fun _ shape => shape.Nameless)
        (fun shape e s => (hw.moves_addLiteralProperty _ shape e s).1)
        (fun _ _ _ _ hs => hw.nameless_addLiteralProperty hs) ⟨rfl, rfl, rfl, List.nodup_nil⟩ hgives
    exact .alloc (TypeTable.grows_allocate hshape)

/-! ## Calls -/

theorem runs_checkArguments {arguments : List NodeId} (ho : ∀ e ∈ arguments, T.Opens c c' e) :
    T.Runs w c c' (checkArguments self arguments) (checkArguments self arguments)
      fun _ _ _ => True := by
  refine .forM_same (fun e hc => ?_) fun w' e he _ => ?_
  · exact Walk.Moves.bind ((h.walked hc).expression _ _ _) fun _ => .pure _
  · exact Runs.bind (h.bare (ho e he)) (fun _ _ => .pure _) fun _ _ _ _ _ _ => .pure trivial

omit h in
/-- An argument and its parameter, in two runs. -/
def Passed (p : Pairing) (e e' : NodeId × Parameter) : Prop :=
  e.1 = e'.1 ∧ p.ParameterAlike e.2 e'.2

omit h in
theorem Passed.mono {p p' : Pairing} {e e' : NodeId × Parameter} (hp : p.Grows p')
    (h : Passed p e e') : Passed p' e e' :=
  ⟨h.1, h.2.imp fun _ _ hab => hab.mono hp⟩

omit h in
/-- The same arguments and alike parameters. -/
theorem passed_zip {p : Pairing} (arguments : List NodeId) {ps ps' : List Parameter}
    (hps : List.Forall₂ p.ParameterAlike ps ps') :
    List.Forall₂ (Passed p) (arguments.zip ps) (arguments.zip ps') :=
  zip_forall₂ (List.forall₂_same.2 fun _ _ => rfl) hps

theorem runs_argumentsFit {pairs pairs' : List (NodeId × Parameter)}
    (hpairs : List.Forall₂ (Passed w.pairing) pairs pairs')
    (ho : ∀ e ∈ pairs, T.Opens c c' e.1) :
    T.Runs w c c' (argumentsFit self pairs) (argumentsFit self pairs') fun _ => Eq := by
  induction pairs generalizing w pairs' with
  | nil =>
    cases hpairs
    exact .pure rfl
  | cons e rest ih =>
    cases hpairs with
    | @cons _ e' _ rest' he hrest =>
      obtain ⟨argument, a⟩ := e
      obtain ⟨argument', b⟩ := e'
      obtain ⟨heq, hab⟩ := he
      obtain rfl : argument = argument' := heq
      refine Runs.bind (h.typed (ho _ List.mem_cons_self) (.some hab.type)) (fun type hc => ?_)
        fun w' _ _ hgrows _ htype => ?_
      · refine Walk.Moves.bind (.assignable _ _) fun fits => ?_
        split
        · exact (h.walked hc).moves_argumentsFit _
        · exact .pure _
      · refine Runs.bind (.assignable htype (hab.type.mono hgrows)) (fun fits hc => ?_) ?_
        · split
          · exact (h.walked hc).moves_argumentsFit _
          · exact .pure _
        · rintro w'' fits _ hgrows' _ rfl
          split
          · exact ih (hrest.imp fun _ _ h => h.mono (hgrows.trans hgrows'))
              fun e he => ho e (List.mem_cons_of_mem _ he)
          · exact .pure rfl

theorem runs_checkArgument {argument : NodeId} {a b : Parameter} (ho : T.Opens c c' argument)
    (hab : w.pairing.ParameterAlike a b) :
    T.Runs w c c' (checkArgument self argument a) (checkArgument self argument b)
      fun _ _ _ => True := by
  refine Runs.bind (h.typed ho (.some hab.type)) (fun type _ => ?_) fun w' _ _ hgrows _ htype => ?_
  · refine Walk.Moves.bind (.assignable _ _) fun fits => ?_
    split
    · exact .pure _
    · exact Walk.Moves.bind .table fun _ => .read (.reportWith _ _ _)
  · refine Runs.bind (.assignable htype (hab.type.mono hgrows)) (fun fits _ => ?_) ?_
    · split
      · exact .pure _
      · exact Walk.Moves.bind .table fun _ => .read (.reportWith _ _ _)
    · rintro w'' fits _ _ _ rfl
      split
      · exact .pure trivial
      · have hreport : ∀ (c : Context) (type : TypeId) (p : Parameter), Runs.Notes c (do
            let t ← table
            let details := t.elaboration? (← read).options.strict type p.type
            reportWith argument (.argumentNotAssignable (t.display type) (t.display p.type))
              details.toList) := fun c type p =>
          Runs.notes_bind (fun s => ⟨rfl, .refl s⟩) fun _ => Runs.notes_read (Runs.notes_reportWith _ _ _)
        exact .quiet (hreport _ _ _) (hreport _ _ _)

theorem runs_findSignature {arguments : List NodeId} (ho : ∀ e ∈ arguments, T.Opens c c' e)
    {signatures signatures' : List Signature}
    (hs : List.Forall₂ w.pairing.SignatureAlike signatures signatures') :
    T.Runs w c c' (findSignature self arguments signatures) (findSignature self arguments signatures')
      fun p => Option.Rel p.SignatureAlike := by
  induction signatures generalizing w signatures' with
  | nil =>
    cases hs
    exact .pure .none
  | cons s rest ih =>
    cases hs with
    | cons hfirst hrest =>
      refine Runs.bind (.in_silence (h.runs_argumentsFit (passed_zip arguments hfirst.parameters)
        fun e he => (ho e.1 (List.of_mem_zip he).1).silent)) (fun fits hc => ?_) ?_
      · split
        · exact .pure _
        · exact (h.walked hc).moves_findSignature _ _
      · rintro w' fits _ hgrows _ rfl
        split
        · exact .pure (.some (hfirst.imp fun _ _ h => h.mono hgrows))
        · exact ih (hrest.imp fun _ _ h => h.imp fun _ _ h => h.mono hgrows)

omit h in
theorem takesCount_alike {p : Pairing} {s s' : Signature} (hs : p.SignatureAlike s s') (count : Nat) :
    takesCount count s = takesCount count s' := by
  unfold takesCount
  rw [Pairing.Linked.minArguments hs, hs.parameters.length_eq]

theorem runs_resolveCall (node : NodeId) {arguments : List NodeId}
    (ho : ∀ e ∈ arguments, T.Opens c c' e) {signatures signatures' : List Signature}
    (hs : List.Forall₂ w.pairing.SignatureAlike signatures signatures') :
    T.Runs w c c' (resolveCall self node signatures arguments)
      (resolveCall self node signatures' arguments) Pairing.Alike := by
  have hfitting := filter_forall₂ hs fun _ _ h => takesCount_alike h arguments.length
  have hmoves : ∀ (chosen : Signature), T.careful → T.walk.Moves c (do
      (arguments.zip chosen.parameters).forM fun pair => checkArgument self pair.1 pair.2
      return chosen.returnType) := fun chosen hc =>
    Walk.Moves.bind (.forM fun _ => (h.walked hc).moves_checkArgument _ _) fun _ => .pure _
  have hrest : ∀ (w' : Sides) (chosen chosen' : Signature), w'.pairing.SignatureAlike chosen chosen' →
      T.Runs w' c c'
        (do
          (arguments.zip chosen.parameters).forM fun pair => checkArgument self pair.1 pair.2
          return chosen.returnType)
        (do
          (arguments.zip chosen'.parameters).forM fun pair => checkArgument self pair.1 pair.2
          return chosen'.returnType) Pairing.Alike := by
    intro w' chosen chosen' hchosen
    refine Runs.bind (.forM (passed_zip arguments hchosen.parameters) Passed.mono
      (fun e hc => (h.walked hc).moves_checkArgument _ _) ?_) (fun _ _ => .pure _)
      fun _ _ _ hgrows _ _ => .pure (hchosen.returnType.mono hgrows)
    rintro w'' ⟨argument, a⟩ he ⟨_, b⟩ _ ⟨rfl, hab⟩
    exact h.runs_checkArgument (ho argument (List.of_mem_zip he).1) hab
  unfold resolveCall
  match signatures.filter (takesCount arguments.length),
    signatures'.filter (takesCount arguments.length), hfitting with
  | _, _, .nil =>
    refine Runs.bind (.report _ _ _) (fun _ hc => ?_) fun w' _ _ hgrows _ _ => ?_
    · exact Walk.Moves.bind ((h.walked hc).moves_checkArguments _) fun _ => .pure _
    · refine Runs.bind (h.runs_checkArguments ho) (fun _ _ => .pure _)
        fun w'' _ _ hgrows' hw'' _ => .pure ?_
      exact getD_option (map_option (head?_forall₂ hs) fun _ _ h =>
        h.returnType.mono (hgrows.trans hgrows')) (T.linked hw'').error
  | _, _, .cons hfirst hothers =>
    dsimp only
    rw [isEmpty_forall₂ hothers]
    split
    · exact hrest w _ _ hfirst
    · refine Runs.bind (h.runs_findSignature ho (.cons hfirst hothers)) (fun found hc =>
        hmoves _ hc) fun w' _ _ hgrows _ hfound => ?_
      exact hrest w' _ _ (getD_option hfound (hfirst.imp fun _ _ h => h.mono hgrows))

theorem runs_checkSuperCall (node : NodeId) {callee : NodeId} {arguments : List NodeId}
    (hsuper : c.arena.form? callee = some (.keyword .kwSuper)) (hcallee : T.Opens c c' callee)
    (ho : ∀ e ∈ arguments, T.Opens c c' e) :
    T.Runs w c c' (checkSuperCall self node callee arguments)
      (checkSuperCall self node callee arguments) Pairing.Alike := by
  have hvoid : ∀ w' : Sides, T.Runs w' c c' (Pure.pure TypeId.void) (Pure.pure TypeId.void)
      Pairing.Alike := fun w' => .linked fun hp => .pure hp.void
  have hsplit : checkSuperCall self node callee arguments =
      Checking.superSignatures self callee >>= fun signatures => do
        if signatures.isEmpty then checkArguments self arguments
        else
          let _ ← resolveCall self node signatures arguments
        return TypeId.void := rfl
  rw [hsplit]
  refine Runs.bind (h.superSignatures hcallee hsuper) (fun signatures hc => ?_)
    fun w' _ _ _ _ hs => ?_
  · dsimp only
    split
    · exact Walk.Moves.bind ((h.walked hc).moves_checkArguments _) fun _ => .pure _
    · exact Walk.Moves.bind ((h.walked hc).moves_resolveCall _ _ _) fun _ => .pure _
  · dsimp only
    rw [isEmpty_forall₂ hs]
    split
    · exact Runs.bind (h.runs_checkArguments ho) (fun _ _ => .pure _) fun w'' _ _ _ _ _ => hvoid w''
    · exact Runs.bind (h.runs_resolveCall node ho hs) (fun _ _ => .pure _)
        fun w'' _ _ _ _ _ => hvoid w''

/-- What follows once the type of a callee is known. -/
theorem runs_callee (node : NodeId) {arguments : List NodeId} {callee : NodeId} (p p' : Problem)
    (ho : ∀ e ∈ arguments, T.Opens c c' e) {signatures signatures' : List Signature}
    (hs : List.Forall₂ w.pairing.SignatureAlike signatures signatures') :
    T.Runs w c c'
      (match signatures with
      | [] => do
        report callee p
        checkArguments self arguments
        return TypeId.error
      | signatures => resolveCall self node signatures arguments)
      (match signatures' with
      | [] => do
        report callee p'
        checkArguments self arguments
        return TypeId.error
      | signatures => resolveCall self node signatures arguments) Pairing.Alike := by
  cases hs with
  | nil =>
    refine Runs.bind (.report _ _ _) (fun _ hc => ?_) fun w' _ _ _ _ _ => ?_
    · exact Walk.Moves.bind ((h.walked hc).moves_checkArguments _) fun _ => .pure _
    · exact Runs.bind (h.runs_checkArguments ho) (fun _ _ => .pure _) fun _ _ _ _ _ _ => .error
  | cons hfirst hothers => exact h.runs_resolveCall node ho (.cons hfirst hothers)

theorem runs_checkCall (node : NodeId) {callee : NodeId} {arguments : List NodeId}
    (hcallee : T.Opens c c' callee) (ho : ∀ e ∈ arguments, T.Opens c c' e) :
    T.Runs w c c' (checkCall self node callee arguments) (checkCall self node callee arguments)
      Pairing.Alike := by
  refine .look (fun _ _ _ => rfl) ?_
  split
  · rename_i hsuper
    exact h.runs_checkSuperCall node hsuper hcallee ho
  · refine Runs.bind (h.bare hcallee) (fun type hc => ?_) fun w' a b _ hw' hab => ?_
    · split
      · exact Walk.Moves.bind ((h.walked hc).moves_checkArguments _) fun _ => .pure _
      · refine Walk.Moves.bind .table fun t => ?_
        split
        · exact Walk.Moves.bind (.report _ _) fun _ =>
            Walk.Moves.bind ((h.walked hc).moves_checkArguments _) fun _ => .pure _
        · exact (h.walked hc).moves_resolveCall _ _ _
    · rw [(T.linked hw').isLoose hab]
      split
      · exact Runs.bind (h.runs_checkArguments ho) (fun _ _ => .pure _)
          fun _ _ _ hgrows _ _ => .pure (hab.mono hgrows)
      · exact .table fun hp => h.runs_callee node _ _ ho (hp.calls hab)

theorem runs_checkNew (node : NodeId) {callee : NodeId} {arguments : List NodeId}
    (hcallee : T.Opens c c' callee) (ho : ∀ e ∈ arguments, T.Opens c c' e) :
    T.Runs w c c' (checkNew self node callee arguments) (checkNew self node callee arguments)
      Pairing.Alike := by
  refine Runs.bind (h.bare hcallee) (fun type hc => ?_) fun w' a b _ hw' hab => ?_
  · split
    · exact Walk.Moves.bind ((h.walked hc).moves_checkArguments _) fun _ => .pure _
    · refine Walk.Moves.bind .table fun t => ?_
      split
      · exact Walk.Moves.bind (.report _ _) fun _ =>
          Walk.Moves.bind ((h.walked hc).moves_checkArguments _) fun _ => .pure _
      · exact (h.walked hc).moves_resolveCall _ _ _
  · rw [(T.linked hw').isLoose hab]
    split
    · exact Runs.bind (h.runs_checkArguments ho) (fun _ _ => .pure _)
        fun _ _ _ hgrows _ _ => .pure (hab.mono hgrows)
    · exact .table fun hp => h.runs_callee node _ _ ho (hp.constructs hab)

/-! ## Operators -/

theorem runs_checkPrefix (operator : TokenKind) {operand : NodeId} (ho : T.Opens c c' operand) :
    T.Runs w c c' (checkPrefix self operator operand) (checkPrefix self operator operand)
      Pairing.Alike := by
  have hknown : ∀ {a : TypeId}, a < TypeTable.predefined.length → ∀ {w' : Sides},
      T.Runs w' c c' (Pure.pure a) (Pure.pure a) Pairing.Alike := fun ha w' =>
    .linked fun hp => .pure (hp.predefined ha)
  have htarget : ∀ {w' : Sides}, T.Runs w' c c'
      (do let _ ← checkTarget operand; return TypeId.number)
      (do let _ ← checkTarget operand; return TypeId.number) Pairing.Alike := fun {w'} =>
    Runs.bind (.checkTarget _) (fun _ _ => .pure _) fun _ _ _ _ _ _ => hknown (by decide)
  refine .look (fun _ _ _ => rfl) ?_
  split
  · exact Runs.bind (h.bare ho) (fun _ _ => .pure _) fun _ _ _ _ _ _ => hknown (by decide)
  · exact Runs.bind (h.bare ho) (fun _ _ => .alloc (TypeTable.grows_numberLiteral _))
      fun _ _ _ _ _ _ => .alloc fun hp => hp.makes_literal _
  · exact Runs.bind (h.bare ho) (fun _ _ => Walk.Moves.bind (.checkTarget _) fun _ => .pure _)
      fun _ _ _ _ _ _ => htarget
  · exact Runs.bind (h.bare ho) (fun _ _ => Walk.Moves.bind (.checkTarget _) fun _ => .pure _)
      fun _ _ _ _ _ _ => htarget
  · exact Runs.bind (h.bare ho) (fun _ _ => .pure _) fun _ _ _ _ _ _ => hknown (by decide)

theorem runs_checkAssignment {left right : NodeId} (hl : T.Opens c c' left)
    (hr : T.Opens c c' right) :
    T.Runs w c c' (checkAssignment self left right) (checkAssignment self left right)
      Pairing.Alike := by
  have hlast : ∀ value target (writable : Bool), T.walk.Moves c (do
      if writable then checkAssignable value target left
      return value) := by
    intro value target writable
    dsimp only
    split
    · exact Walk.Moves.bind (.checkAssignable _ _ _) fun _ => .pure _
    · exact .pure _
  refine Runs.bind (h.bare hl) (fun target hc => ?_) fun w₁ a b _ _ hab => ?_
  · exact Walk.Moves.bind (.checkTarget _) fun writable =>
      Walk.Moves.bind ((h.walked hc).expression _ _ _) fun value => hlast _ _ _
  refine Runs.bind (.checkTarget _) (fun writable hc => ?_) ?_
  · exact Walk.Moves.bind ((h.walked hc).expression _ _ _) fun value => hlast _ _ _
  rintro w₂ writable _ hgrows _ rfl
  refine Runs.bind (h.typed hr (.some (hab.mono hgrows))) (fun value _ => hlast _ _ _)
    fun w₃ x y _ _ hxy => ?_
  dsimp only
  split
  · exact Runs.bind (.checkAssignable _ _ _ _ _) (fun _ _ => .pure _)
      fun _ _ _ hgrows _ _ => .pure (hxy.mono hgrows)
  · exact .pure hxy

theorem runs_checkUpdate {left right : NodeId} (operator : TokenKind) (hl : T.Opens c c' left)
    (hr : T.Opens c c' right) :
    T.Runs w c c' (checkUpdate self left operator right) (checkUpdate self left operator right)
      Pairing.Alike := by
  have hlast : ∀ value target, T.walk.Moves c
      (if operator = .plusEquals then do return additionType (← table) target value
        else return TypeId.number) := by
    intro value target
    split
    · exact Walk.Moves.bind .table fun _ => .pure _
    · exact .pure _
  refine Runs.bind (h.bare hl) (fun target hc => ?_) fun w₁ a b _ _ hab => ?_
  · exact Walk.Moves.bind (.checkTarget _) fun _ =>
      Walk.Moves.bind ((h.walked hc).expression _ _ _) fun value => hlast _ _
  refine Runs.bind (.checkTarget _) (fun _ hc => ?_) fun w₂ _ _ hgrows _ _ => ?_
  · exact Walk.Moves.bind ((h.walked hc).expression _ _ _) fun value => hlast _ _
  refine Runs.bind (h.bare hr) (fun value _ => hlast _ _) fun w₃ x y hgrows' _ hxy => ?_
  split
  · exact .table fun hp => .pure (Runs.additionType hp (hab.mono (hgrows.trans hgrows')) hxy)
  · exact .linked fun hp => .pure hp.number

theorem runs_checkBinary {left right : NodeId} (operator : TokenKind) (hl : T.Opens c c' left)
    (hr : T.Opens c c' right) :
    T.Runs w c c' (checkBinary self left operator right) (checkBinary self left operator right)
      Pairing.Alike := by
  unfold checkBinary
  split
  · exact h.runs_checkAssignment hl hr
  any_goals exact h.runs_checkUpdate _ hl hr
  refine Runs.bind (h.bare hl) (fun l hc => ?_) fun w₁ a b _ _ hab => ?_
  · exact Walk.Moves.bind ((h.walked hc).expression _ _ _) fun _ => .operatorType _ _ _
  · exact Runs.bind (h.bare hr) (fun _ _ => .operatorType _ _ _) fun w₂ _ _ hgrows _ hxy =>
      .operatorType operator (hab.mono hgrows) hxy

/-! ## All expressions -/

theorem runs_expressionType {node : NodeId} {form : Form} {expected expected' : Option TypeId}
    (hform : c.arena.form? node = some form) (ho : T.Opens c c' node)
    (hplain : Plain c.arena node ∨ Option.Rel w.pairing.Alike expected expected')
    (hexpect : Expect w.pairing expected expected') :
    T.Runs w c c' (expressionType self node expected form) (expressionType self node expected' form)
      fun p => p.Sim (Option.Rel w.pairing.Alike expected expected') := by
  have hchildren := Arena.children_of_form? hform
  have hchild : ∀ m ∈ form.children, T.Opens c c' m := fun m hm => ho.child (hchildren ▸ hm)
  have hinner : ∀ m ∈ form.children, Plain c.arena m ∨
      Option.Rel w.pairing.Alike expected expected' := fun m hm =>
    hplain.imp_left fun hall => hall.child (hchildren ▸ hm)
  have halike : ∀ {x y : Check TypeId}, T.Runs w c c' x y Pairing.Alike →
      T.Runs w c c' x y fun p => p.Sim (Option.Rel w.pairing.Alike expected expected') := fun hx =>
    hx.imp fun _ _ _ _ hp hab => hp.sim hab
  have hknown : ∀ {a : TypeId}, a < TypeTable.predefined.length →
      T.Runs w c c' (Pure.pure a) (Pure.pure a)
        fun p => p.Sim (Option.Rel w.pairing.Alike expected expected') := fun ha =>
    halike (.linked fun hp => .pure (hp.predefined ha))
  unfold expressionType
  split
  · exact halike (.alloc fun hp => hp.makes_literal _)
  · exact halike (.alloc fun hp => hp.makes_literal _)
  · exact hknown (by decide)
  · exact hknown (by decide)
  · exact hknown (by decide)
  · exact halike (.map (.thisType ho (congrArg namesClass hform))
      fun p _ _ _ hp hab => getD_option hab hp.any)
  · exact halike (.superType ho (congrArg namesClass hform))
  · exact halike (h.runs_checkName node)
  · exact h.runs_part (hchild _ (List.mem_singleton_self _)) (hinner _ (List.mem_singleton_self _))
      hexpect id
  · refine h.runs_checkArray hchild ?_ id
    exact hplain.imp_left fun hall e he => hall.child (hchildren ▸ he)
  · refine h.runs_checkObject hchild ?_ id
    exact hplain.imp_left fun hall e he => hall.child (hchildren ▸ he)
  · exact halike (h.runs_checkCall node (hchild _ List.mem_cons_self)
      fun e he => hchild e (List.mem_cons_of_mem _ he))
  · exact halike (h.runs_checkNew node (hchild _ List.mem_cons_self)
      fun e he => hchild e (List.mem_cons_of_mem _ he))
  · exact halike (h.runs_checkPropertyAccess (hchild _ List.mem_cons_self))
  · exact halike (h.runs_checkElementAccess (hchild _ List.mem_cons_self)
      (hchild _ (List.mem_cons_of_mem _ (List.mem_singleton_self _))))
  · exact halike (h.runs_checkPrefix _ (hchild _ (List.mem_singleton_self _)))
  · refine Runs.bind (h.bare (hchild _ (List.mem_singleton_self _))) (fun _ _ =>
      Walk.Moves.bind (.checkTarget _) fun _ => .pure _) fun w' _ _ _ _ _ => ?_
    exact Runs.bind (.checkTarget _) (fun _ _ => .pure _) fun w'' _ _ _ hw'' _ =>
      .pure ((T.linked hw'').sim (T.linked hw'').number)
  · exact Runs.bind (h.bare (hchild _ (List.mem_singleton_self _))) (fun _ _ => .pure _)
      fun w' _ _ _ hw' _ => .pure ((T.linked hw').sim (T.linked hw').string)
  · exact halike (h.runs_checkBinary _ (hchild _ List.mem_cons_self)
      (hchild _ (List.mem_cons_of_mem _ (List.mem_singleton_self _))))
  · rename_i condition whenTrue whenFalse
    have hmem : whenTrue ∈ (Form.conditional condition whenTrue whenFalse).children ∧
        whenFalse ∈ (Form.conditional condition whenTrue whenFalse).children := by
      simp [Form.children]
    refine Runs.bind (h.bare (hchild _ List.mem_cons_self)) (fun _ hc => ?_)
      fun w₁ _ _ hgrows₁ _ _ => ?_
    · exact Walk.Moves.bind ((h.walked hc).expression _ _ _) fun _ =>
        Walk.Moves.bind ((h.walked hc).expression _ _ _) fun _ => .union _
    refine Runs.bind (h.runs_part (hchild _ hmem.1) (hinner _ hmem.1) (hexpect.mono hgrows₁)
      (rel_mono fun _ _ hab => hab.mono hgrows₁)) (fun _ hc => ?_)
      fun w₂ a b hgrows₂ _ hab => ?_
    · exact Walk.Moves.bind ((h.walked hc).expression _ _ _) fun _ => .union _
    have hgrows := hgrows₁.trans hgrows₂
    refine Runs.bind (h.runs_part (hchild _ hmem.2) (hinner _ hmem.2) (hexpect.mono hgrows)
      (rel_mono fun _ _ hab => hab.mono hgrows)) (fun _ _ => .union _)
      fun w₃ x y hgrows₃ _ hxy => ?_
    exact .alloc fun hp => hp.sim_union (.cons (hab.mono hgrows₃) (.cons hxy .nil))
  · rename_i p
    have harrow : ¬ Plain c.arena node := fun hall => by
      have := hall node .refl
      rw [hform] at this
      cases this
    have hex := hplain.resolve_left harrow
    obtain ⟨harrows, hrecording⟩ := ho.even.resolve_left harrow
    exact halike (h.arrow harrows hrecording ho hform hex)
  · rename_i operand type
    refine Runs.bind (h.typeNode (hchild _ (List.mem_cons_of_mem _ (List.mem_singleton_self _))))
      (fun _ hc => ?_) fun w₁ _ _ _ _ htarget => ?_
    · exact Walk.Moves.bind ((h.walked hc).expression _ _ _) fun _ => .pure _
    exact Runs.bind (h.typed (hchild _ List.mem_cons_self) (.some htarget)) (fun _ _ => .pure _)
      fun w₂ _ _ hgrows hw₂ _ => .pure ((T.linked hw₂).sim (htarget.mono hgrows))
  · exact halike .error

theorem runs_expression {node : NodeId} {expected expected' : Option TypeId}
    (ho : T.Opens c c' node)
    (hplain : Plain c.arena node ∨ Option.Rel w.pairing.Alike expected expected')
    (hexpect : Expect w.pairing expected expected') :
    T.Runs w c c' (Checking.expression self node expected) (Checking.expression self node expected')
      fun p => p.Sim (Option.Rel w.pairing.Alike expected expected') := by
  have herror : ∀ {c c' : Context}, T.Runs w c c' (Pure.pure TypeId.error) (Pure.pure TypeId.error)
      fun p => p.Sim (Option.Rel w.pairing.Alike expected expected') := fun {_ _} =>
    Runs.error.imp fun _ _ _ _ hp hab => hp.sim hab
  refine .look (fun _ _ _ => rfl) ?_
  split
  · exact herror
  · refine Runs.bind (Q := fun p => p.Sim (Option.Rel w.pairing.Alike expected expected'))
      (.in_expression ?_) (fun _ _ => Walk.Moves.bind (.record _ _) fun _ => .pure _)
      fun w' a b _ _ hab => ?_
    · split
      · exact herror
      · rename_i form hform
        exact h.runs_expressionType hform ho.inside hplain hexpect
    · exact Runs.bind (.record _ _ _) (fun _ _ => .pure _) fun _ _ _ hgrows _ _ =>
        .pure (hab.mono hgrows)

omit h in
/-- The base class at a place, as the type of an expression. -/
theorem expression_super (self : Rules) {node : NodeId}
    (hsuper : c.arena.form? node = some (.keyword .kwSuper)) (s : State) :
    ∃ t, Checking.expression self node none c s =
      ((if maxExpressionDepth ≤ c.depth then .error else superAt c s, c), t) ∧ SameFindings s t := by
  unfold Checking.expression
  rw [read_bind]
  split
  · exact ⟨s, rfl, .refl s⟩
  · rw [hsuper]
    dsimp only
    have hinside : inExpression (expressionType self node none (.keyword .kwSuper)) c s =
        ((superAt c s, c), s) := by
      show ((superAt { c with depth := c.depth + 1 } s, c), s) = _
      have hthis : thisAt { c with depth := c.depth + 1 } s = thisAt c s := by
        apply thisAt_congr <;> rfl
      unfold superAt
      rw [hthis]
    rw [bind_apply, hinside]
    obtain ⟨hback, hsame⟩ := Runs.notes_record (c := c) node (superAt c s) s
    refine ⟨_, ?_, hsame⟩
    rw [bind_apply, hback]
    rfl

omit h in
theorem constructsOfInstance_error {s : State} (h : s.types.Founded) :
    constructsOfInstance s .error = [] := by
  have hdata : s.types.dataOf .error = .intrinsic .error :=
    TypeTable.dataOf_of_getElem? (h .error (.intrinsic .error) rfl)
  unfold constructsOfInstance TypeTable.shape?
  rw [hdata]
  rfl

omit h in
/-- The constructors of the base class, which depend on the place alone. -/
theorem runs_superSignatures (self : Rules) {r : Rules} (hr : r.expression = Checking.expression self)
    {node : NodeId} (ho : T.Opens c c' node)
    (hsuper : c.arena.form? node = some (.keyword .kwSuper)) :
    T.Runs w c c' (Checking.superSignatures r node) (Checking.superSignatures r node)
      fun p => List.Forall₂ p.SignatureAlike := by
  intro hw hc hat
  have hsuper' : c'.arena.form? node = some (.keyword .kwSuper) := by
    rw [hc.place]
    exact hsuper
  have hdepth : c'.depth = c.depth := by rw [hc.place]; rfl
  obtain ⟨l, hl, hsame⟩ := expression_super self hsuper w.left
  obtain ⟨r', hr', hsame'⟩ := expression_super self hsuper' w.right
  have hconstructs : ∀ {s t : State} (id : TypeId), SameFindings s t →
      constructsOfInstance t id = constructsOfInstance s id := by
    intro s t id h
    unfold constructsOfInstance
    rw [h.types, h.classTypes]
  have hleft : Checking.superSignatures r node c w.left =
      ((constructsOfInstance w.left (if maxExpressionDepth ≤ c.depth then .error
        else superAt c w.left), c), l) := by
    unfold Checking.superSignatures
    rw [hr, bind_apply, hl]
    exact congrArg (fun x => ((x, c), l)) (hconstructs _ hsame)
  have hright : Checking.superSignatures r node c' w.right =
      ((constructsOfInstance w.right (if maxExpressionDepth ≤ c.depth then .error
        else superAt c' w.right), c'), r') := by
    unfold Checking.superSignatures
    rw [hr, bind_apply, hr', hdepth]
    exact congrArg (fun x => ((x, c'), r')) (hconstructs _ hsame')
  rw [hleft, hright]
  refine ⟨rfl, fun _ => ⟨rfl, w.link, ?_, T.noted hw hsame hsame', ?_⟩⟩
  · show w.pairing.Grows ⟨w.link, l.types, r'.types⟩
    rw [hsame.types, hsame'.types]
    exact .refl _
  · show List.Forall₂ (Pairing.SignatureAlike ⟨w.link, l.types, r'.types⟩) _ _
    rw [hsame.types, hsame'.types]
    split
    · have hlinked := T.linked hw
      rw [constructsOfInstance_error (s := w.left) hlinked.left.founded,
        constructsOfInstance_error (s := w.right) hlinked.right.founded]
      exact .nil
    · exact T.supers hw hat (ho.nodes node .refl) (congrArg namesClass hsuper) hc

end Tied

end ScriptAnalysis.Checking
