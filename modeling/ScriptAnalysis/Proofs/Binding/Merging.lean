import Mathlib.Data.List.Nodup
import ScriptAnalysis.Binding

/-!
# Declarations that share a name

Whether a declaration may join those before it is decided by the flags that
these have together. So what is let pass depends on the order of the
declarations: two classes in a row at the start are told apart, but a class
behind an interface is not, since the flags do not tell that there was a class
before.

**Results.**
* `Flags.joins_of_stable`: what may join a name whose flags stay the same, and
  from it one lemma for each way to begin.
* `Kinded.agree_iff`: by these, the sequences that are let pass, said by the
  forms of the declarations (`MayShare`).
-/
namespace ScriptAnalysis

/-! ## Flags -/

namespace Flags

/-- What a name can be declared as. -/
def declarable : List Flags :=
  [ofVariable, ofFunction, ofClass, ofInterface, ofTypeAlias, ofParameter, ofAlias]

/-- Each of some declarations may join all before it. -/
def joins : Flags → List Flags → Bool
  | _, [] => true
  | flags, new :: rest => flags.canMerge new && joins (flags.union new) rest

/-- Each of some declarations but the first may join all before it. -/
def agree : List Flags → Bool
  | [] => true
  | first :: rest => joins first rest

theorem joins_append (flags new : Flags) (before : List Flags) :
    joins flags (before ++ [new]) =
      (joins flags before && (before.foldl union flags).canMerge new) := by
  induction before generalizing flags with
  | nil => simp [joins]
  | cons first rest ih => simp [joins, ih, Bool.and_assoc]

theorem union_empty (flags : Flags) : union {} flags = flags := by
  simp [union]

theorem agree_append {before : List Flags} (h : before ≠ []) (new : Flags) :
    agree (before ++ [new]) = (agree before && (before.foldl union {}).canMerge new) := by
  cases before with
  | nil => exact absurd rfl h
  | cons first rest =>
    rw [List.foldl_cons, union_empty]
    exact joins_append first new rest

/-- Flags that stay what they are while such declarations join that may. -/
theorem joins_of_stable {flags : Flags} {allowed : List Flags}
    (hmerge : ∀ k ∈ declarable, flags.canMerge k = true ↔ k ∈ allowed)
    (hstays : ∀ k ∈ allowed, flags.union k = flags) {rest : List Flags}
    (hrest : ∀ k ∈ rest, k ∈ declarable) :
    joins flags rest = true ↔ ∀ k ∈ rest, k ∈ allowed := by
  induction rest with
  | nil => simp [joins]
  | cons k rest ih =>
    obtain ⟨hk, hrest⟩ := List.forall_mem_cons.1 hrest
    rw [joins, Bool.and_eq_true, hmerge k hk, List.forall_mem_cons]
    refine and_congr_right fun hallowed => ?_
    rw [hstays k hallowed]
    exact ih hrest

theorem joins_function {rest : List Flags} (hrest : ∀ k ∈ rest, k ∈ declarable) :
    joins ofFunction rest = true ↔ ∀ k ∈ rest, k ∈ [ofFunction] :=
  joins_of_stable (by decide) (by decide) hrest

/-- Once a name is known as both, classes and interfaces are not told apart. -/
theorem joins_both {rest : List Flags} (hrest : ∀ k ∈ rest, k ∈ declarable) :
    joins (ofClass.union ofInterface) rest = true ↔ ∀ k ∈ rest, k ∈ [ofClass, ofInterface] :=
  joins_of_stable (by decide) (by decide) hrest

theorem joins_interface {rest : List Flags} (hrest : ∀ k ∈ rest, k ∈ declarable) :
    joins ofInterface rest = true ↔ ∀ k ∈ rest, k ∈ [ofClass, ofInterface] := by
  induction rest with
  | nil => simp [joins]
  | cons k rest ih =>
    obtain ⟨hk, hothers⟩ := List.forall_mem_cons.1 hrest
    have hmerge : ∀ k ∈ declarable,
        ofInterface.canMerge k = true ↔ k ∈ [ofClass, ofInterface] := by decide
    rw [joins, Bool.and_eq_true, hmerge k hk, List.forall_mem_cons]
    refine and_congr_right fun hallowed => ?_
    rcases List.mem_pair.1 hallowed with rfl | rfl
    · exact joins_both hothers
    · exact ih hothers

theorem joins_class {rest : List Flags} (hrest : ∀ k ∈ rest, k ∈ declarable) :
    joins ofClass rest = true ↔
      (∀ k ∈ rest, k ∈ [ofClass, ofInterface]) ∧ ∀ k ∈ rest.head?, k = ofInterface := by
  cases rest with
  | nil => simp [joins]
  | cons k rest =>
    obtain ⟨hk, hothers⟩ := List.forall_mem_cons.1 hrest
    have hmerge : ∀ k ∈ declarable, ofClass.canMerge k = true ↔ k = ofInterface := by decide
    rw [joins, Bool.and_eq_true, hmerge k hk, List.forall_mem_cons]
    constructor
    · rintro ⟨rfl, hjoins⟩
      exact ⟨⟨by decide, (joins_both hothers).1 hjoins⟩, fun _ h => (Option.some.inj h).symm⟩
    · rintro ⟨⟨-, hall⟩, hfirst⟩
      obtain rfl := hfirst k rfl
      exact ⟨rfl, (joins_both hothers).2 hall⟩

/-- Nothing joins a name that is known as anything else. -/
theorem joins_other {flags : Flags} (hother : ∀ k ∈ declarable, flags.canMerge k = false)
    {rest : List Flags} (hrest : ∀ k ∈ rest, k ∈ declarable) :
    joins flags rest = true ↔ rest = [] := by
  cases rest with
  | nil => simp [joins]
  | cons k rest => simp [joins, hother k (hrest k List.mem_cons_self)]

end Flags

namespace Binding

/-! ## The kinds of declarations -/

/-- What a node declares its name as. -/
def declaredAs : Form → Option Flags
  | .function .declaration _ => some .ofFunction
  | .classDeclaration _ => some .ofClass
  | .interfaceDeclaration _ => some .ofInterface
  | .typeAlias _ => some .ofTypeAlias
  | .variableDeclaration _ => some .ofVariable
  | .parameter _ => some .ofParameter
  | .importSpecifier _ _ => some .ofAlias
  | _ => none

/-- What is declared at a site. -/
def kindAt? (a : Arena) (d : Site) : Option Flags :=
  (a.form? d.node).bind declaredAs

def IsFunction (a : Arena) (d : Site) : Prop :=
  ∃ p, a.form? d.node = some (.function .declaration p)

def IsClass (a : Arena) (d : Site) : Prop :=
  ∃ p, a.form? d.node = some (.classDeclaration p)

def IsInterface (a : Arena) (d : Site) : Prop :=
  ∃ p, a.form? d.node = some (.interfaceDeclaration p)

/-- Declarations that share a name, and nothing is said about it: at most one,
or functions only, or interfaces only, or classes with interfaces, where the
second class comes behind an interface. -/
inductive MayShare (a : Arena) : List Site → Prop
  | undeclared : MayShare a []
  | single (d : Site) : MayShare a [d]
  | functions {ds : List Site} (h : ∀ d ∈ ds, IsFunction a d) : MayShare a ds
  | interfaces {ds : List Site} (h : ∀ d ∈ ds, IsInterface a d) : MayShare a ds
  | classes {ds : List Site} (h : ∀ d ∈ ds, IsClass a d ∨ IsInterface a d)
      (hclass : ∃ d ∈ ds, IsClass a d) (hinterface : ∃ d ∈ ds, IsInterface a d)
      (hstart : ∀ d e rest, ds = d :: e :: rest → IsClass a d → ¬ IsClass a e) : MayShare a ds

section

variable {a : Arena} {d : Site} {ds : List Site} {k : Flags}

theorem declaredAs_mem {form : Form} (h : declaredAs form = some k) : k ∈ Flags.declarable := by
  unfold declaredAs at h
  split at h
  all_goals
    cases h
    try decide

theorem declaredAs_function {form : Form} :
    declaredAs form = some .ofFunction ↔ ∃ p, form = .function .declaration p := by
  refine ⟨fun h => ?_, fun ⟨p, hp⟩ => hp ▸ rfl⟩
  unfold declaredAs at h
  split at h
  · exact ⟨_, rfl⟩
  all_goals exact absurd h (by decide)

theorem declaredAs_class {form : Form} :
    declaredAs form = some .ofClass ↔ ∃ p, form = .classDeclaration p := by
  refine ⟨fun h => ?_, fun ⟨p, hp⟩ => hp ▸ rfl⟩
  unfold declaredAs at h
  split at h
  case h_2 => exact ⟨_, rfl⟩
  all_goals exact absurd h (by decide)

theorem declaredAs_interface {form : Form} :
    declaredAs form = some .ofInterface ↔ ∃ p, form = .interfaceDeclaration p := by
  refine ⟨fun h => ?_, fun ⟨p, hp⟩ => hp ▸ rfl⟩
  unfold declaredAs at h
  split at h
  case h_3 => exact ⟨_, rfl⟩
  all_goals exact absurd h (by decide)

theorem isClass_of_kindAt? (h : kindAt? a d = some .ofClass) : IsClass a d := by
  obtain ⟨form, hform, hdeclared⟩ := Option.bind_eq_some_iff.1 h
  obtain ⟨p, rfl⟩ := declaredAs_class.1 hdeclared
  exact ⟨p, hform⟩

/-- The kinds of some declarations, as far as they are declarations. -/
def kinds (a : Arena) (ds : List Site) : List Flags :=
  ds.map fun d => (kindAt? a d).getD {}

/-- All of them are declarations. -/
def Kinded (a : Arena) (ds : List Site) : Prop :=
  ∀ d ∈ ds, ∃ k, kindAt? a d = some k

theorem Kinded.mem_kinds (h : Kinded a ds) : ∀ k ∈ kinds a ds, k ∈ Flags.declarable := by
  intro k hk
  obtain ⟨d, hd, rfl⟩ := List.mem_map.1 hk
  obtain ⟨k, hkind⟩ := h d hd
  obtain ⟨form, -, hform⟩ := Option.bind_eq_some_iff.1 hkind
  rw [hkind]
  exact declaredAs_mem hform

/-- A kind of declaration, read off the forms. -/
theorem Kinded.kind_iff (h : Kinded a ds) (hd : d ∈ ds) {P : Form → Prop}
    (hP : ∀ {form}, declaredAs form = some k ↔ P form) :
    (kindAt? a d).getD {} = k ↔ ∃ form, a.form? d.node = some form ∧ P form := by
  obtain ⟨k', hkind⟩ := h d hd
  obtain ⟨form, hform, hdeclared⟩ := Option.bind_eq_some_iff.1 hkind
  rw [hkind, Option.getD_some]
  constructor
  · rintro rfl
    exact ⟨form, hform, hP.1 hdeclared⟩
  · rintro ⟨form', hform', hp⟩
    obtain rfl := Option.some.inj (hform.symm.trans hform')
    exact Option.some.inj (hdeclared.symm.trans (hP.2 hp))

theorem Kinded.isFunction_iff (h : Kinded a ds) (hd : d ∈ ds) :
    (kindAt? a d).getD {} = .ofFunction ↔ IsFunction a d := by
  rw [h.kind_iff hd declaredAs_function]
  unfold IsFunction
  simp

theorem Kinded.isClass_iff (h : Kinded a ds) (hd : d ∈ ds) :
    (kindAt? a d).getD {} = .ofClass ↔ IsClass a d := by
  rw [h.kind_iff hd declaredAs_class]
  unfold IsClass
  simp

theorem Kinded.isInterface_iff (h : Kinded a ds) (hd : d ∈ ds) :
    (kindAt? a d).getD {} = .ofInterface ↔ IsInterface a d := by
  rw [h.kind_iff hd declaredAs_interface]
  unfold IsInterface
  simp

theorem IsClass.not_isFunction (h : IsClass a d) : ¬ IsFunction a d := by
  rintro ⟨p, hp⟩
  obtain ⟨q, hq⟩ := h
  cases hp.symm.trans hq

theorem IsInterface.not_isFunction (h : IsInterface a d) : ¬ IsFunction a d := by
  rintro ⟨p, hp⟩
  obtain ⟨q, hq⟩ := h
  cases hp.symm.trans hq

theorem IsInterface.not_isClass (h : IsInterface a d) : ¬ IsClass a d := by
  rintro ⟨p, hp⟩
  obtain ⟨q, hq⟩ := h
  cases hp.symm.trans hq

theorem mayShare_function (hd : IsFunction a d) :
    MayShare a (d :: ds) ↔ ∀ e ∈ ds, IsFunction a e := by
  constructor
  · rintro (_ | _ | h | h | ⟨h, -, -, -⟩)
    · exact fun e he => by cases he
    · exact fun e he => h e (List.mem_cons_of_mem d he)
    · exact absurd hd (h d List.mem_cons_self).not_isFunction
    · exact absurd hd ((h d List.mem_cons_self).elim IsClass.not_isFunction
        IsInterface.not_isFunction)
  · intro h
    exact .functions (List.forall_mem_cons.2 ⟨hd, h⟩)

theorem mayShare_interface (hd : IsInterface a d) :
    MayShare a (d :: ds) ↔ ∀ e ∈ ds, IsClass a e ∨ IsInterface a e := by
  constructor
  · rintro (_ | _ | h | h | ⟨h, -, -, -⟩)
    · exact fun e he => by cases he
    · exact absurd (h d List.mem_cons_self) hd.not_isFunction
    · exact fun e he => .inr (h e (List.mem_cons_of_mem d he))
    · exact fun e he => h e (List.mem_cons_of_mem d he)
  · intro h
    by_cases hclass : ∃ e ∈ ds, IsClass a e
    · obtain ⟨e, he, hclass⟩ := hclass
      refine .classes (List.forall_mem_cons.2 ⟨.inr hd, h⟩)
        ⟨e, List.mem_cons_of_mem d he, hclass⟩ ⟨d, List.mem_cons_self, hd⟩ ?_
      rintro _ _ _ ⟨⟩ hfirst
      exact absurd hfirst hd.not_isClass
    · refine .interfaces (List.forall_mem_cons.2 ⟨hd, fun e he => ?_⟩)
      exact (h e he).resolve_left fun he' => hclass ⟨e, he, he'⟩

theorem mayShare_class (hd : IsClass a d) :
    MayShare a (d :: ds) ↔
      (∀ e ∈ ds, IsClass a e ∨ IsInterface a e) ∧ ∀ e ∈ ds.head?, IsInterface a e := by
  constructor
  · rintro (_ | _ | h | h | ⟨h, -, -, hstart⟩)
    · exact ⟨fun e he => (by cases he), fun e he => (by cases he)⟩
    · exact absurd (h d List.mem_cons_self) hd.not_isFunction
    · exact absurd hd (h d List.mem_cons_self).not_isClass
    · refine ⟨fun e he => h e (List.mem_cons_of_mem d he), fun e he => ?_⟩
      cases ds with
      | nil => cases he
      | cons e' rest =>
        obtain rfl := Option.some.inj he
        have hsecond := h e' (List.mem_cons_of_mem d List.mem_cons_self)
        exact hsecond.resolve_left (hstart d e' rest rfl hd)
  · rintro ⟨h, hfirst⟩
    cases ds with
    | nil => exact .single d
    | cons e rest =>
      have he : IsInterface a e := hfirst e rfl
      refine .classes (List.forall_mem_cons.2 ⟨.inl hd, h⟩) ⟨d, List.mem_cons_self, hd⟩
        ⟨e, List.mem_cons_of_mem d List.mem_cons_self, he⟩ ?_
      rintro _ _ _ ⟨⟩ -
      exact he.not_isClass

theorem mayShare_other (hfunction : ¬ IsFunction a d) (hclass : ¬ IsClass a d)
    (hinterface : ¬ IsInterface a d) : MayShare a (d :: ds) ↔ ds = [] := by
  constructor
  · rintro (_ | _ | h | h | ⟨h, -, -, -⟩)
    · rfl
    · exact absurd (h d List.mem_cons_self) hfunction
    · exact absurd (h d List.mem_cons_self) hinterface
    · exact ((h d List.mem_cons_self).elim hclass hinterface).elim
  · rintro rfl
    exact .single d

theorem forall_kinds {allowed : List Flags} {P : Site → Prop}
    (hP : ∀ d ∈ ds, (kindAt? a d).getD {} ∈ allowed ↔ P d) :
    (∀ k ∈ kinds a ds, k ∈ allowed) ↔ ∀ d ∈ ds, P d := by
  unfold kinds
  rw [List.forall_mem_map]
  exact forall₂_congr hP

theorem Kinded.forall_mem_both (h : Kinded a ds) :
    (∀ k ∈ kinds a ds, k ∈ [Flags.ofClass, .ofInterface]) ↔
      ∀ d ∈ ds, IsClass a d ∨ IsInterface a d :=
  forall_kinds fun d hd => by rw [List.mem_pair, h.isClass_iff hd, h.isInterface_iff hd]

/-- The declarations that the walk lets pass are those that may share a name. -/
theorem Kinded.agree_iff (h : Kinded a ds) :
    Flags.agree (kinds a ds) = true ↔ MayShare a ds := by
  cases ds with
  | nil => exact ⟨fun _ => .undeclared, fun _ => rfl⟩
  | cons d ds =>
    have hd : d ∈ d :: ds := List.mem_cons_self
    have hrest : Kinded a ds := fun e he => h e (List.mem_cons_of_mem d he)
    have hfunction := h.isFunction_iff hd
    have hclass := h.isClass_iff hd
    have hinterface := h.isInterface_iff hd
    have hkind : (kindAt? a d).getD {} ∈ Flags.declarable := h.mem_kinds _ List.mem_cons_self
    show Flags.joins ((kindAt? a d).getD {}) (kinds a ds) = true ↔ MayShare a (d :: ds)
    by_cases hk : (kindAt? a d).getD {} ∈ [Flags.ofFunction, .ofClass, .ofInterface]
    · simp only [List.mem_cons, List.not_mem_nil, or_false] at hk
      rcases hk with hk | hk | hk
      · rw [hk, Flags.joins_function hrest.mem_kinds, mayShare_function (hfunction.1 hk)]
        exact forall_kinds fun e he => by rw [List.mem_singleton, hrest.isFunction_iff he]
      · rw [hk, Flags.joins_class hrest.mem_kinds, mayShare_class (hclass.1 hk),
          hrest.forall_mem_both]
        refine and_congr_right fun _ => ?_
        cases ds with
        | nil => exact ⟨fun _ e he => (by cases he), fun _ k hk => (by cases hk)⟩
        | cons e rest =>
          have he := hrest.isInterface_iff List.mem_cons_self
          simpa [kinds] using he
      · rw [hk, Flags.joins_interface hrest.mem_kinds, mayShare_interface (hinterface.1 hk)]
        exact hrest.forall_mem_both
    · have hother : ∀ k ∈ Flags.declarable, k ∉ [Flags.ofFunction, .ofClass, .ofInterface] →
          ∀ k' ∈ Flags.declarable, k.canMerge k' = false := by decide
      simp only [List.mem_cons, List.not_mem_nil, or_false, not_or] at hk
      rw [Flags.joins_other (hother _ hkind (by simpa using hk)) hrest.mem_kinds,
        mayShare_other (mt hfunction.2 hk.1) (mt hclass.2 hk.2.1) (mt hinterface.2 hk.2.2)]
      exact List.map_eq_nil_iff

end

end Binding

end ScriptAnalysis
