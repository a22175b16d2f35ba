import ScriptAnalysis.Proofs.Checking.ClassTypes
import ScriptAnalysis.Proofs.Types.Assignability
import ScriptAnalysis.Proofs.Types.Distinct

/-!
# The table of a checker

A checker adds types to its table and fills in objects, and does nothing else
to it. All rules promise that (`tableWalk`), so all calls keep it, and the
predefined types are in their places in every state. What holds of tables
that have them (`TypeTable.Founded`) holds of a checker at any time.

**Objects.** They are put together in four ways: a class puts a member in the place of
one of its name (`upsertProperty`), an interface leaves out what is taken (`isTaken`), an
object literal drops the property of the name and adds the new one behind the others, and
a class with interfaces of its name goes on from the shape that it has. Each of them
keeps names distinct (`ClassShapes.Alike`, `Shape.Enlarged`, `Shape.Nameless`). Shapes are
filled in again and again, and what is filled in is made from what is in the table or
bare, so it is no matter who looks at a class or an interface meanwhile.

**Results.**
* `Checking.filled_rules`, `founded_after`: the promise, and what it is for.
* `own_names_distinct`: in every state, no property hides another.
* `literal_misfit_iff`: in every state, which targets tell a literal from its
  primitive.
-/
namespace ScriptAnalysis

namespace Checking

open Walk

/-- Types are added and objects are filled in. This needs nothing from where
a rule is used. -/
def tableWalk : Walk where
  Here _ _ := True
  Step s t := s.types.FilledIn t.types
  Declaring _ _ _ := True
  Entering _ _ _ := True
  refl s := .refl s.types
  trans h h' := h.trans h'
  stay _ _ := trivial
  place _ _ := trivial
  found h := h.types.filledIn
  learned _ h hl := h.trans hl.finds.types.filledIn
  exhausts s := .refl s.types
  declaring _ _ := trivial
  entering _ _ := trivial
  import_ _ _ _ _ := trivial
  class_ _ _ _ _ := trivial
  other _ _ _ _ := trivial
  alias_ _ _ _ _ := trivial

/-! ## Steps

All steps are looked at from a state `start` before them. -/

/-- Since then types were added and objects filled in. -/
def Since (start s : State) : Prop :=
  start.types.FilledIn s.types

/-- On neither side of a class is a name there twice. -/
def ClassShapes.Distinct (shapes : ClassShapes) : Prop :=
  ∀ isStatic, (shapes.side isStatic).Distinct

variable {α β : Type} {c : Context} {x : Check α} {self : Rules} {start : State} {shape : Shape}

theorem since_moves (hx : tableWalk.Moves c x) :
    Leads (Since start) c x fun a s => Since start s ∧ Gives c x a :=
  fun s hs => ⟨(hx s).1, hs.trans ((hx s).2 trivial), s, rfl⟩

theorem since_get {f : State → Check β}
    (h : ∀ s, Leads (Since start) c (f s) fun _ => Since start) :
    Leads (Since start) c ((MonadState.get : Check State) >>= f) fun _ => Since start :=
  fun s hs => h s s hs

theorem since_table {f : TypeTable → Check β}
    (h : ∀ t, start.types.FilledIn t → Leads (Since start) c (f t) fun _ => Since start) :
    Leads (Since start) c (table >>= f) fun _ => Since start :=
  fun s hs => h s.types hs s hs

theorem since_bare (kind : ObjectKind) (name : Option String) (symbol : Option SymbolId) :
    Leads (Since start) c (alloc (TypeTable.allocate (.bare kind name symbol)))
      fun _ => Since start :=
  fun _ hs => ⟨rfl, hs.trans (TypeTable.filledIn_allocate (Shape.distinct_bare _ _ _))⟩

theorem since_setShape (h : start.types.Distinct → shape.Distinct) (id : TypeId) :
    Leads (Since start) c (alloc (TypeTable.setShape id shape)) fun _ => Since start :=
  fun _ hs => ⟨rfl, hs.toKept.trans (TypeTable.change_setShape _ id shape).kept,
    fun hd => (hs.distinct hd).setShape (h hd) id⟩

theorem publishes_since : Publishes tableWalk c (Since start)
    fun shapes => start.types.Distinct → shapes.Distinct where
  moves hx := (since_moves hx).weaken (fun _ hs => hs) fun _ _ hs => hs.1
  publish hd := (since_setShape (fun h => hd h false) _).bind fun _ =>
    since_setShape (fun h => hd h true) _
  alike hd ha h isStatic := ha.distinct isStatic (hd h isStatic)

/-! ## Classes -/

section

variable (h : Walked tableWalk self)

include h

theorem since_buildClass (id : SymbolId) (types : ClassTypes) (p : ClassParts) :
    Leads (Since start) c (buildClass self id types p) fun _ => Since start := by
  have howners : Leads (Since start) c
      (p.members.forM fun member =>
        modify fun s => { s with memberOwners := s.memberOwners.insert (c.site member) id })
      fun _ => Since start :=
    .forM fun _ _ _ hs => ⟨rfl, hs⟩
  refine .read (howners.bind fun _ => .moved (since_table fun t ht => ?_) rfl)
  extract_lets shapes
  have hshapes : start.types.Distinct → shapes.Distinct := by
    rintro hd (_ | _)
    · exact (ht.distinct hd).getD (Shape.distinct_bare _ _ _) types.instanceType
    · exact (ht.distinct hd).getD (Shape.distinct_bare _ _ _) types.constructorType
  generalize { c with thisTypes := types.instanceType :: c.thisTypes } = c
  have hp : Publishes tableWalk c (Since start) fun shapes =>
      start.types.Distinct → shapes.Distinct := publishes_since
  refine (hp.leads_given (h.moves_addBaseClass _ _)).bind fun ⟨s₁, base⟩ => .assume fun hgives => ?_
  have hs₁ := hp.alike hshapes (h.adds_addBaseClass hgives).alike
  refine (hp.leads_sorted h s₁ p.members).bind fun acc => .assume fun hsorted => ?_
  refine hp.leads_passes h hs₁ hsorted fun s₂ hadds => ?_
  have hs₂ := hp.alike hs₁ hadds.alike
  refine (hp.moves (h.moves_constructSignatures _ _ _)).bind fun constructs => hp.publish ?_
  rintro hd (_ | _)
  · exact hs₂ hd false
  · exact hs₂ hd true

theorem since_classTypes (id : SymbolId) :
    Leads (Since start) c (Checking.classTypes self id) fun _ => Since start := by
  refine since_get fun s => ?_
  split
  · exact .pure fun _ hs => hs
  refine .read ?_
  split
  · exact .pure fun _ hs => hs
  rename_i symbol _
  refine (since_bare _ _ _).bind fun instanceType => ?_
  refine (since_bare _ _ _).bind fun constructorType => ?_
  refine Leads.bind (Q := fun _ => Since start) (fun _ hs => ⟨rfl, hs⟩) fun _ => ?_
  split
  · exact .pure fun _ hs => hs
  extract_lets interfaces finish rest
  have hfinish : ∀ done, Leads (Since start) c (finish done) fun _ => Since start :=
    fun _ => .pure fun _ hs => hs
  have hrest : ∀ done, Leads (Since start) c (rest done) fun _ => Since start := by
    intro done
    show Leads (Since start) c (if _ then _ else _) _
    split
    · exact hfinish ()
    · refine since_table fun t ht => ?_
      refine (since_moves (.foldlM h.moves_addInterface _)).bind fun shape => .assume fun hgives => ?_
      refine (since_setShape (fun hd => (h.enlarged_addInterfaces hgives).distinct ?_) _).bind hfinish
      exact (ht.distinct hd).getD (Shape.distinct_bare _ _ _) instanceType
  split
  · exact (Leads.at_declaration fun _ _ _ _ => since_buildClass h _ _ _).bind hrest
  · exact hrest ()

/-! ## Interfaces -/

theorem since_interfaceType (id : SymbolId) (symbol : Symbol) :
    Leads (Since start) c (interfaceType self id symbol) fun _ => Since start := by
  refine since_get fun s => ?_
  split
  · exact .pure fun _ hs => hs
  refine .read ((since_bare _ _ _).bind fun type => ?_)
  refine Leads.bind (Q := fun _ => Since start) (fun _ hs => ⟨rfl, hs⟩) fun _ => ?_
  refine (Leads.foldlM (fun _ (shape : Shape) => shape.Distinct) (fun _ shape d _ hshape => ?_)
    (Shape.distinct_bare _ _ _)).bind fun _ => .pure fun _ hs => hs.1
  refine (since_moves (h.moves_addInterface shape d)).bind fun shape' => .assume fun hgives => ?_
  have hshape' := (h.enlarged_addInterface hgives).distinct hshape
  exact (since_setShape (fun _ => hshape') type).bind fun _ => .pure fun _ hs => ⟨hs, hshape'⟩

omit h

/-- All rules promise that the table is only added to and filled in. -/
theorem filled_rules (n : Nat) : Walked tableWalk (rules n) := by
  induction n with
  | zero => exact walked_noRules _
  | succ n ih =>
    have hclass : ∀ c id, tableWalk.Moves c (Checking.classTypes (rules n) id) := fun c id s =>
      (since_classTypes ih id s (.refl _)).imp_right fun hstep _ => hstep
    have hinterface : ∀ c id symbol, tableWalk.Moves c (interfaceType (rules n) id symbol) :=
      fun c id symbol s => (since_interfaceType ih id symbol s (.refl _)).imp_right
        fun hstep _ => hstep
    exact ih.next hclass fun c id symbol _ => hinterface c id symbol

end

end Checking

open Checking

namespace Checker

theorem filled_after (k : Checker) (calls : List Call) :
    TypeTable.FilledIn k.types (k.after calls).types :=
  step_after filled_rules trivial calls

theorem founded_after (files : List SourceFile) (options : Checking.Options) (calls : List Call) :
    TypeTable.Founded ((ofFiles files options).after calls).types :=
  TypeTable.founded_initial.kept (filled_after (ofFiles files options) calls).toKept

theorem distinct_after (files : List SourceFile) (options : Checking.Options) (calls : List Call) :
    ((ofFiles files options).after calls).types.Distinct :=
  (filled_after (ofFiles files options) calls).distinct TypeTable.distinct_initial

/-- After any calls, for every type: the properties of its own have different names,
whether it belongs to a class, to a class and interfaces of its name, to an interface
with any number of declarations, to a function or to an object literal. So each property
is the one that is found by its name. -/
theorem own_names_distinct (files : List SourceFile) (options : Checking.Options)
    (calls : List Call) (id : TypeId) :
    let t := ((ofFiles files options).after calls).types
    ((t.ownProperties id).map Property.name).Nodup ∧
      ∀ p, (t.shape? id).bind (·.property? p.name) = some p ↔ p ∈ t.ownProperties id := by
  have hdistinct := distinct_after files options calls
  exact ⟨hdistinct.ownProperties id, hdistinct.own_property?_iff id⟩

/-- A class keeps its members in front of those that an interface adds. -/
example :
    (((ofSources [("/p/a.ts", "interface A \x7b x; y \x7d class A \x7b y \x7d".toList)]
      ⟨true, false⟩).after [.check 0]).types.ownProperties 12).map Property.name = ["y", "x"] := by
  rw [String.toList_ofList]
  decide +kernel

/-- In a literal the last property of a name counts, where it stands. -/
example :
    (((ofSources [("/p/a.ts", "(\x7b x: 1, y: 2, x: 3 \x7d);".toList)]
      ⟨true, false⟩).after [.check 0]).types.ownProperties 15).map Property.name = ["y", "x"] := by
  rw [String.toList_ofList]
  decide +kernel

/-- After any calls, for every literal and every type that it does not fit:
its primitive fits if and only if the type has an alternative without
members. -/
theorem literal_misfit_iff (files : List SourceFile) (options : Checking.Options)
    (calls : List Call) {strict : Bool} {l target : TypeId}
    (hl : ((ofFiles files options).after calls).types.isLiteral l = true)
    (hmisfit : ((ofFiles files options).after calls).types.assignable strict l target = false) :
    let t := ((ofFiles files options).after calls).types
    t.assignable strict (t.primitive l) target = true ↔
      ∃ leaf, t.Alternative target leaf ∧ t.EmptyObject leaf :=
  TypeTable.misfit_of_literal (founded_after files options calls) hl hmisfit

/-- A variable that may hold a string or an interface without members. -/
def emptyInterface : Checker :=
  ofSources [("/p/a.ts", "interface I { }\nlet x: string | I = 1;".toList)] ⟨true, false⟩

/-- The literal does not fit the type of the variable. -/
theorem literal_misfit_iff_union :
    let t := (emptyInterface.after [.check 0]).types
    t.assignable true 14 13 = false ∧ (t.assignable true (t.primitive 14) 13 = true ↔
      ∃ leaf, t.Alternative 13 leaf ∧ t.EmptyObject leaf) := by
  intro t
  obtain ⟨hl, hmisfit⟩ : t.isLiteral 14 = true ∧ t.assignable true 14 13 = false := by
    unfold t emptyInterface
    rw [String.toList_ofList]
    decide +kernel
  exact ⟨hmisfit, literal_misfit_iff _ _ [.check 0] hl hmisfit⟩

/-- A number fits the interface, and a literal of it does not. -/
theorem literal_unlike_primitive :
    ∃ l target, (emptyInterface.after [.check 0]).types.isLiteral l = true ∧
      (emptyInterface.after [.check 0]).types.assignable true
        ((emptyInterface.after [.check 0]).types.primitive l) target = true ∧
      (emptyInterface.after [.check 0]).types.assignable true l target = false := by
  refine ⟨14, 12, ?_⟩
  rw [emptyInterface, String.toList_ofList]
  decide +kernel

end Checker

end ScriptAnalysis
