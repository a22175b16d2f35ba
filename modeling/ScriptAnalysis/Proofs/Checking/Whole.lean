import ScriptAnalysis.Proofs.Checking.InStepDeclarations
import ScriptAnalysis.Proofs.Checking.Widening
import ScriptAnalysis.Proofs.Types.Own

/-!
# A state beside itself

In a whole state nothing that is known refers to a type that is missing. Such a
state is in step with itself, and so it leads to whole states only.

**Results.**
* `State.Whole.inStep`: a whole state is in step with itself.
* `InStep.own`: what is in step with another state is in step with itself.
* `whole_expression`: the type of an expression.
* `whole_after`: between calls the state of a checker is whole.
-/
namespace ScriptAnalysis.Checking

open Tie (Runs)

/-- The state is closed. Arrays and unions stand behind what they are made of,
and members have been made only for types that are there. -/
structure State.Whole (s : State) : Prop extends State.Closed s where
  before : ∀ (id : TypeId) (data : TypeData), s.types.types[id]? = some data →
    ∀ part ∈ data.parts, part < id
  receivers : ∀ a name type, s.apparent.get? (a, name) = some type → a < s.types.size

theorem State.Whole.grounded {s : State} (h : s.Whole) : s.types.Grounded :=
  ⟨h.types, h.before⟩

/-- The objects of a table. -/
def objects (t : TypeTable) (a : TypeId) : Prop :=
  ∃ shape, t.types[a]? = some (.object shape)

/-- A state beside itself, with the objects that stand for themselves. -/
def Sides.own (D : TypeId → Prop) (s : State) : Sides :=
  ⟨fun a b => D a ∧ a = b, s, s⟩

section

variable {κ ν : Type} [DecidableEq κ] {R S : ν → ν → Prop} {t t' : Table κ ν}

theorem Matches.alone (h : Matches R t t') (hRS : ∀ a b, R a b → S a a) : Matches S t t := by
  intro k
  match t.get? k, t'.get? k, h k with
  | _, _, .none => exact .none
  | _, _, .some hab => exact .some (hRS _ _ hab)

theorem matches_self (h : ∀ k v, t.get? k = some v → R v v) : Matches R t t := by
  intro k
  cases hk : t.get? k with
  | none => exact .none
  | some v => exact .some (h k v hk)

/-- Only what the left table refers to is of account. -/
theorem Matches.imp_holds {n : Nat} {mentions : ν → List TypeId} (h : Matches R t t')
    (ht : Holds n mentions t) (hRS : ∀ a b, Below n (mentions a) → R a b → S a b) :
    Matches S t t' := by
  intro k
  have hmentions := ht k
  match t.get? k, t'.get? k, h k, hmentions with
  | _, _, .none, _ => exact .none
  | _, _, .some hab, hmentions => exact .some (hRS _ _ (hmentions _ rfl) hab)

theorem Matches.holds {n : Nat} {mentions : ν → List TypeId} (h : Matches R t t')
    (hR : ∀ a b, R a b → Below n (mentions a)) : Holds n mentions t := by
  intro k v hk
  match t.get? k, t'.get? k, h k, hk with
  | _, _, .some hab, rfl => exact hR _ _ hab

end

section

variable {m m' : Made} {w : Sides} {s : State} {D : TypeId → Prop}

/-- Beside itself, a state covers the members that have been made. -/
theorem covers_self (found : Made) (h : ∀ a name type, found.get? (a, name) = some type →
      (Sides.own D s).pairing.Lost a ∨
        (Sides.own D s).pairing.Alike a a ∧ (Sides.own D s).pairing.Alike type type) :
    Covers (Sides.own D s).pairing found found found ∧
      Covers (Sides.own D s).pairing.swap found found found := by
  constructor
  · intro a name type ha
    rcases h a name type ha with hlost | ⟨hself, htype⟩
    · exact .inl ⟨ha, hlost⟩
    · exact .inr ⟨a, type, hself, ha, htype⟩
  · intro a name type ha
    rcases h a name type ha with hlost | ⟨hself, htype⟩
    · refine .inl ⟨ha, hlost.relink (.refl _) fun i j _ _ hij => ?_⟩
      obtain ⟨hd, rfl⟩ := hij
      exact ⟨_, hd, rfl⟩
    · exact .inr ⟨a, type, hself.swap, ha, htype.swap⟩

/-- The objects that have partners in another state stand for themselves. -/
theorem InStep.own (h : InStep m m' w) (hD : ∀ a, D a ↔ ∃ b, w.link a b) :
    InStep w.left.apparent w.left.apparent (.own D w.left) := by
  have halone : ∀ a b, w.pairing.Alike a b → (Sides.own D w.left).pairing.Alike a a :=
    fun a b hab => hab.alone (fun a b hlink => ⟨(hD a).2 ⟨b, hlink⟩, rfl⟩) (.refl _) (.refl _)
  obtain ⟨hcovers, hcovered⟩ := covers_self (s := w.left) (D := D) w.left.apparent
    fun a name type ha => by
      rcases h.covers a name type ha with ⟨-, hlost⟩ | ⟨b, type', hab, -, htype⟩
      · exact .inl (hlost.relink (.refl _) fun a _ _ _ hab => (hD a).1 hab.1)
      · exact .inr ⟨halone a b hab, halone type type' htype⟩
  exact
    { linked := h.linked.own hD
      values := h.values.alone halone
      aliases := h.aliases.alone halone
      classes := h.classes.alone fun _ _ htypes =>
        ⟨halone _ _ htypes.instances, halone _ _ htypes.constructors⟩
      interfaces := h.interfaces.alone halone
      signatures := h.signatures.alone fun _ _ hs => hs.alone halone
      arrows := h.arrows.alone halone
      contextual := h.contextual.alone halone
      owners := rfl
      covers := hcovers
      covered := hcovered }

/-- A member has been made for a type that is lost, or for one that stands for
itself. -/
theorem InStep.made_own (h : InStep m m' (.own D s)) {a type : TypeId} {name : String}
    (ha : s.apparent.get? (a, name) = some type) : (Sides.own D s).pairing.Lost a ∨
      (Sides.own D s).pairing.Alike a a ∧ (Sides.own D s).pairing.Alike type type := by
  have halone : ∀ {i j}, (Sides.own D s).pairing.Alike i j → (Sides.own D s).pairing.Alike i i :=
    fun hij => hij.alone (fun _ _ hlink => ⟨hlink.1, rfl⟩) (.refl _) (.refl _)
  rcases h.covers a name type ha with ⟨-, hlost⟩ | ⟨b, type', hab, -, htype⟩
  · exact .inl hlost
  · exact .inr ⟨halone hab, halone htype⟩

/-- What is in step with another state is whole. -/
theorem InStep.whole (h : InStep m m' w)
    (hm : ∀ k type, m.get? k = some type → type < w.left.types.size) : w.left.Whole := by
  have hthere : ∀ a b, w.pairing.Alike a b → Below w.left.types.size (single a) := fun a b hab =>
    below_single.2 (.inl (h.linked.lt_left hab))
  refine { types := h.linked.left.toClosed, before := h.linked.left.before, found := ?_, receivers := ?_ }
  · exact
      { values := h.values.holds hthere
        aliases := h.aliases.holds hthere
        classes := h.classes.holds fun types _ htypes => by
          simp only [ClassTypes.mentions, below_cons, below_nil, and_true]
          exact ⟨.inl (h.linked.lt_left htypes.instances), .inl (h.linked.lt_left htypes.constructors)⟩
        interfaces := h.interfaces.holds hthere
        signatures := h.signatures.holds fun _ _ hs => (h.linked.below_signature hs).1
        arrows := h.arrows.holds hthere
        contextual := h.contextual.holds hthere
        apparent := fun ⟨a, name⟩ type ha => by
          rcases h.covers a name type ha with ⟨hbefore, -⟩ | ⟨b, type', -, -, htype⟩
          · exact below_single.2 (.inl (hm _ _ hbefore))
          · exact hthere _ _ htype }
  · intro a name type ha
    rcases h.covers a name type ha with ⟨-, hlost⟩ | ⟨b, -, hab, -, -⟩
    · exact hlost.lt_left
    · exact h.linked.lt_left hab

end

/-- With all objects, what is there is alike to itself. -/
theorem State.Whole.alike_there {s : State} (h : s.Whole) {i : TypeId} (hi : There s.types.size i) :
    (Sides.own (objects s.types) s).pairing.Alike i i :=
  Pairing.alike_there h.grounded (fun _ shape hshape => ⟨shape, hshape⟩) hi

/-- A whole state is in step with itself. -/
theorem State.Whole.inStep {s : State} (h : s.Whole) :
    InStep s.apparent s.apparent (.own (objects s.types) s) := by
  have hD : ∀ (a : TypeId) (shape : Shape), s.types.types[a]? = some (.object shape) →
      objects s.types a := fun _ shape hshape => ⟨shape, hshape⟩
  have hthere : ∀ {i}, There s.types.size i → (Sides.own (objects s.types) s).pairing.Alike i i :=
    h.alike_there
  obtain ⟨hcovers, hcovered⟩ := covers_self (s := s) (D := objects s.types) s.apparent
    fun a name type ha => .inr ⟨hthere (.inl (h.receivers a name type ha)),
      hthere (below_single.1 (h.found.apparent _ _ ha))⟩
  exact
    { linked := Pairing.linked_own h.grounded fun _ => .rfl
      values := matches_self fun k v hk => hthere (below_single.1 (h.found.values k v hk))
      aliases := matches_self fun k v hk => hthere (below_single.1 (h.found.aliases k v hk))
      classes := matches_self fun k v hk => by
        have hboth := h.found.classes k v hk
        simp only [ClassTypes.mentions, below_cons] at hboth
        exact ⟨hthere hboth.1, hthere hboth.2.1⟩
      interfaces := matches_self fun k v hk => hthere (below_single.1 (h.found.interfaces k v hk))
      signatures := matches_self fun k v hk =>
        Pairing.signatureAlike_there h.grounded hD (h.found.signatures k v hk)
      arrows := matches_self fun k v hk => hthere (below_single.1 (h.found.arrows k v hk))
      contextual := matches_self fun k v hk => hthere (below_single.1 (h.found.contextual k v hk))
      owners := rfl
      covers := hcovers
      covered := hcovered }

/-! ## Places -/

/-- A place that refers to types of a whole state only, beside itself. -/
theorem beside_self {p : Pairing} {c : Context} (h : ∀ i ∈ c.mentions, p.Alike i i) :
    Beside p c c where
  place := rfl
  functions := by
    refine List.forall₂_same.2 fun f hf => ?_
    cases f with
    | none => exact .none
    | some i => exact .some (h i (List.mem_append_left _ (List.mem_flatMap.2 ⟨_, hf, by simp⟩)))
  thisTypes := List.forall₂_same.2 fun i hi => h i (List.mem_append_right _ hi)

/-- What is in step with itself leads from a whole state to a whole state. -/
theorem State.Whole.runs {s : State} (hs : s.Whole) {c : Context} {α : Type} {x : Check α}
    {Q : Pairing → α → α → Prop} (hc : Below s.types.size c.mentions)
    (hx : (Checking.inStep s.apparent s.apparent).Runs (.own (objects s.types) s) c c x x Q) :
    (x c s).2.Whole ∧ s.types.size ≤ (x c s).2.types.size ∧
      ∃ link, let w : Sides := ⟨link, (x c s).2, (x c s).2⟩
        w.pairing.Linked ∧ Q w.pairing (x c s).1.1 (x c s).1.1 := by
  have hbeside : Beside (Sides.own (objects s.types) s).pairing c c :=
    beside_self fun i hi => hs.alike_there (hc i hi)
  obtain ⟨-, hrest⟩ := hx hs.inStep hbeside trivial
  obtain ⟨-, link, hgrows, hholds, hq⟩ := hrest trivial
  refine ⟨InStep.whole hholds fun k type hk => ?_, hgrows.left.size, link, hholds.linked, hq⟩
  exact Nat.lt_of_lt_of_le (hs.types.there_iff.1 (below_single.1 (hs.found.apparent k type hk)))
    hgrows.left.size

end ScriptAnalysis.Checking

namespace ScriptAnalysis.Checker

open Checking

variable {k : Checker}

/-- A step of a checker outside of functions and classes. -/
theorem whole_run {α : Type} {x : Rules → Check α} {Q : Pairing → α → α → Prop}
    (hx : ∀ n m w, (inStep m m).Runs w k.here k.here (x (rules n)) (x (rules n)) Q)
    (hs : k.state.Whole) (hplace : k.here.mentions = []) : (k.run x).2.state.Whole := by
  refine (hs.runs ?_ (hx (nestingBound k.here) _ _)).1
  rw [hplace]
  exact below_nil

theorem whole_checkFile (hs : k.state.Whole) (hplace : k.here.mentions = []) (file : FileId) :
    (k.checkFile file).state.Whole := by
  unfold checkFile
  split
  · rename_i source _ _
    let marked : Checker :=
      { k with state := { k.state with checked := k.state.checked.setIfInBounds file true } }
    have hmarked : marked.state.Whole := ⟨⟨hs.types, { hs.found with }⟩, hs.before, hs.receivers⟩
    exact whole_run (k := marked) (fun n m w => InStep.at_top
      (.forM_same (fun _ => InStep.carefree _) fun _ node _ _ =>
        InStep.bind ((stepped_rules n).statement node rfl) fun _ _ _ _ _ _ => .pure trivial))
      hmarked hplace
  · exact hs

theorem whole_call (hs : k.state.Whole) (hplace : k.here.mentions = []) (call : Call) :
    (k.call call).state.Whole := by
  cases call with
  | check file => exact whole_checkFile hs hplace file
  | diagnostics file => exact whole_checkFile hs hplace file
  | typeAt file node =>
    show (k.typeAt file node).2.state.Whole
    rcases k.typeAt_checker file node with h | h
    · rw [h]
      exact hs
    · rw [h]
      exact whole_checkFile hs hplace file
  | signature file node =>
    show (k.functionSignature file node).2.state.Whole
    unfold functionSignature
    split
    · exact hs
    · have hback : (k.checkFile file).here = k.here := (k.checkFile_program file).here
      refine whole_run (x := fun self => atDeclaration file _ (signature self node))
        (fun n m w => InStep.at_declaration fun _ _ hrec =>
          (stepped_rules n).runs_signature (InStep.opens hrec node)) (whole_checkFile hs hplace file) ?_
      rw [hback]
      exact hplace

theorem whole_ofFiles (files : List SourceFile) (options : Checking.Options) :
    (ofFiles files options).state.Whole where
  toClosed := closed_ofFiles files options
  before id data hdata part hpart := by
    replace hdata : TypeTable.initial.types[id]? = some data := hdata
    rw [TypeTable.types_initial, List.getElem?_toArray] at hdata
    have hmem := List.mem_of_getElem? hdata
    simp only [TypeTable.predefined, List.mem_cons, List.not_mem_nil, or_false] at hmem
    rcases hmem with rfl | rfl | rfl | rfl | rfl | rfl | rfl | rfl | rfl | rfl | rfl | rfl <;>
      cases hpart
  receivers _ _ _ h := by cases h

/-- After any calls nothing that a checker knows is missing. -/
theorem whole_after (files : List SourceFile) (options : Checking.Options) (calls : List Call) :
    ((ofFiles files options).after calls).state.Whole := by
  have hall : ∀ k : Checker, k.state.Whole → k.here.mentions = [] →
      (k.after calls).state.Whole := by
    induction calls with
    | nil => exact fun _ hs _ => hs
    | cons call rest ih =>
      intro k hs hplace
      refine ih (k.call call) (whole_call hs hplace call) ?_
      rw [(k.call_program call).here]
      exact hplace
  exact hall _ (whole_ofFiles files options) rfl

end ScriptAnalysis.Checker
