import ScriptAnalysis.Proofs.Checking.Entering

/-!
# What the types of a class come to

Whoever asks first, whatever members mention which other class: after any
calls to a checker, the types of a class have the members that its
declaration says, each on one side, and a class without a constructor of its
own takes what its base class takes. There are two exceptions. Methods go by
name, so that a static method takes all others of its name along. And a class
that is entered while its base class is put together takes nothing.

**Results.**
* `step_after`: a promise of all rules is one of all calls.
* `Rested`, `Rested.after`: what holds of the classes between calls.
* `sides_of_members`: the names on the two sides of a class.
* `constructs_of_heir`: what `new` takes for a class that extends another.
-/
namespace ScriptAnalysis

open Checking

namespace Checker

/-! ## Calls keep what rules keep -/

theorem SameProgram.here {k k' : Checker} (h : SameProgram k k') : k'.here = k.here := by
  unfold Checker.here
  rw [h.files, h.bindings, h.options, h.standpoint]

section

variable {w : Walk} (hrules : ∀ n, Walked w (rules n)) {k : Checker}
  (hhere : w.Here k.here k.state)

include hrules hhere

theorem step_run {α : Type} {x : Rules → Check α}
    (hx : ∀ self, Walked w self → w.Moves k.here (x self)) : w.Step k.state (k.run x).2.state :=
  (hx _ (hrules _) k.state).2 hhere

theorem step_checkFile (file : FileId) : w.Step k.state (k.checkFile file).state := by
  unfold checkFile
  split
  · rename_i source _ _
    let marked : Checker :=
      { k with state := { k.state with checked := k.state.checked.setIfInBounds file true } }
    have hmark : w.Step k.state marked.state := w.found (.of_eq rfl rfl rfl rfl rfl rfl rfl rfl rfl)
    have hchecked : w.Step marked.state (marked.run fun self =>
        atTop file <| source.statements.forM fun node => do
          let _ ← self.statement node).2.state :=
      step_run (k := marked) hrules (w.stay hhere hmark) fun self h => .at_top (.forM fun node =>
        Walk.Moves.bind (h.statement _ node) fun _ => .pure _)
    exact w.trans hmark hchecked
  · exact w.refl k.state

theorem step_call (call : Call) : w.Step k.state (k.call call).state := by
  cases call with
  | check file => exact step_checkFile hrules hhere file
  | diagnostics file => exact step_checkFile hrules hhere file
  | typeAt file node =>
    show w.Step k.state (k.typeAt file node).2.state
    rcases k.typeAt_checker file node with h | h
    · rw [h]
      exact w.refl k.state
    · rw [h]
      exact step_checkFile hrules hhere file
  | signature file node =>
    show w.Step k.state (k.functionSignature file node).2.state
    unfold functionSignature
    split
    · exact w.refl k.state
    · have hchecked := step_checkFile hrules hhere file
      have hback : (k.checkFile file).here = k.here := (k.checkFile_program file).here
      refine w.trans hchecked (step_run hrules ?_ fun self h => .at_declaration fun c' _ =>
        h.moves_signature node)
      rw [hback]
      exact w.stay hhere hchecked

/-- A promise of all rules is one of all calls. -/
theorem step_after (calls : List Call) : w.Step k.state (k.after calls).state := by
  induction calls generalizing k with
  | nil => exact w.refl k.state
  | cons call rest ih =>
    have hfirst := step_call hrules hhere call
    refine w.trans hfirst (ih ?_)
    rw [(k.call_program call).here]
    exact w.stay hhere hfirst

end

/-! ## Between calls -/

/-- Nothing is being resolved, and all classes that are known are finished. -/
structure Rested (p : Context) (old : SymbolId → Prop) (k : Checker) : Prop where
  here : k.here = p
  resolving : p.resolvingTypes = []
  sound : Sound p old k.state
  finished : ∀ id t, k.state.classTypes.get? id = some t → (p.classOf? id).isSome →
    k.state.types.constructs t.constructorType ≠ []

section

variable {p : Context} {old : SymbolId → Prop} {k : Checker}

theorem Rested.setting (h : Rested p old k)
    (hold : ∀ id, old id → ∃ t, k.state.classTypes.get? id = some t) :
    (classWalk p old).Here k.here k.state where
  program := by rw [h.here]; exact ⟨rfl, rfl⟩
  sound := h.sound
  known id hid := have ⟨t, ht⟩ := hold id hid; ⟨t, ht, h.finished id t ht⟩
  placed id hid := by
    rw [h.here, h.resolving] at hid
    cases hid

/-- Any calls keep that, and what they add is finished. -/
theorem Rested.after (h : Rested p old k)
    (hold : ∀ id, old id → ∃ t, k.state.classTypes.get? id = some t) (calls : List Call) :
    Rested p old (k.after calls) ∧ Keeps k.state (k.after calls).state := by
  have hstep := step_after (fun n => (knows_rules p old n).walked) (h.setting hold) calls
  obtain ⟨hsound, hgrows⟩ := hstep h.sound
  refine ⟨⟨?_, h.resolving, hsound, fun id t hid hclass => ?_⟩, hgrows.toKeeps⟩
  · rw [(k.after_program calls).here]
    exact h.here
  · exact hgrows.finished h.sound hid hclass fun hknown => h.finished id t hknown hclass

/-- From here on the classes that are known now are the old ones. -/
theorem Rested.renew (h : Rested p old k) :
    Rested p (fun id => ∃ t, k.state.classTypes.get? id = some t) k where
  here := h.here
  resolving := h.resolving
  sound := h.sound.renew fun _ ⟨t, hid, _⟩ => ⟨t, hid⟩
  finished := h.finished

end

/-- A new checker knows no classes. -/
theorem rested_ofFiles (files : List SourceFile) (options : Checking.Options) :
    Rested (ofFiles files options).here (fun _ => False) (ofFiles files options) := by
  have hempty : ∀ id t, (ofFiles files options).state.classTypes.get? id ≠ some t := by
    intro id t hid
    rw [show (ofFiles files options).state.classTypes = .empty from rfl, Table.get?_empty] at hid
    cases hid
  refine ⟨rfl, rfl, ⟨?_, fun id t hid => absurd hid (hempty id t), fun type i id hi => ?_,
    fun id t _ _ hid => absurd hid (hempty id t)⟩, fun id t hid => absurd hid (hempty id t)⟩
  · exact TypeTable.founded_initial TypeId.error _ rfl
  · cases (TypeTable.shape?_initial type).symm.trans hi

/-- A new checker of files with these names and texts. -/
def ofSources (sources : List (String × List Char)) (options : Checking.Options) : Checker :=
  ofFiles (sources.map fun s => SourceFile.parse s.1 s.2) options

theorem exhausted_after (sources : List (String × List Char)) (options : Checking.Options)
    (calls : List Call) : ((ofSources sources options).after calls).state.exhausted = false := by
  have hforest : ∀ file ∈ sources.map fun s => SourceFile.parse s.1 s.2,
      file.arena.Forest [] := fun file hfile => by
    obtain ⟨s, -, rfl⟩ := List.mem_map.1 hfile
    exact SourceFile.forest_parse s.1 s.2
  rw [after_eq_afterWithin rfl]
  exact (afterWithin_returns (shaped_ofFiles hforest) (Nat.le_refl _) calls).exhausted

/-! ## Members -/

/-- A property, a parameter property or a method with the name is declared
for the side. -/
def declaresMember (a : Arena) (members : List NodeId) (isStatic : Bool) (name : String) : Bool :=
  members.any fun m =>
    declaresProperty a isStatic name m ||
    (!isStatic && isConstructor a m && hasParameterProperty a name m) ||
    (isMethod a name m && (a.modifiers m).isStatic == isStatic)

/-- The methods of the name are all static, or none is. -/
def AgreeingMethods (a : Arena) (members : List NodeId) (name : String) : Prop :=
  ∀ m ∈ members, ∀ m' ∈ members, isMethod a name m = true → isMethod a name m' = true →
    (a.modifiers m).isStatic = (a.modifiers m').isStatic

/-- If the methods of a name agree, each member counts for its own side. -/
theorem memberOf_eq_declaresMember {a : Arena} {members : List NodeId} {name : String}
    (hagree : AgreeingMethods a members name) (isStatic : Bool) :
    memberOf a members isStatic name = declaresMember a members isStatic name := by
  have hmethods : ((members.find? (isMethod a name)).any
      fun m => (a.modifiers m).isStatic == isStatic) =
      members.any fun m => isMethod a name m && (a.modifiers m).isStatic == isStatic := by
    cases hfind : members.find? (isMethod a name) with
    | none =>
      rw [List.find?_eq_none] at hfind
      refine (List.any_eq_false.2 fun m hm => ?_).symm
      rw [Bool.eq_false_iff.2 (hfind m hm), Bool.false_and]
      exact Bool.false_ne_true
    | some first =>
      have hfirst := List.find?_some hfind
      have hmem := List.mem_of_find?_eq_some hfind
      rw [Option.any_some, Bool.eq_iff_iff, List.any_eq_true]
      constructor
      · exact fun hside => ⟨first, hmem, by rw [hfirst, hside]; rfl⟩
      · rintro ⟨m, hm, htest⟩
        obtain ⟨hmethod, hside⟩ := (Bool.and_eq_true _ _).mp htest
        rwa [hagree first hmem m hm hfirst hmethod]
  unfold memberOf declaresMember
  rw [hmethods, Bool.eq_iff_iff]
  simp only [Bool.or_eq_true, Bool.and_eq_true, List.any_eq_true, List.mem_filter]
  constructor
  · rintro ((⟨m, hm, h⟩ | ⟨hside, m, ⟨hm, hc⟩, h⟩) | ⟨m, hm, h⟩)
    · exact ⟨m, hm, .inl (.inl h)⟩
    · exact ⟨m, hm, .inl (.inr ⟨⟨hside, hc⟩, h⟩)⟩
    · exact ⟨m, hm, .inr h⟩
  · rintro ⟨m, hm, (h | ⟨⟨hside, hc⟩, h⟩) | h⟩
    · exact .inl (.inl ⟨m, hm, h⟩)
    · exact .inl (.inr ⟨hside, m, ⟨hm, hc⟩, h⟩)
    · exact .inr ⟨m, hm, h⟩

/-- The type of a side of a class. -/
def side (t : ClassTypes) (isStatic : Bool) : TypeId :=
  if isStatic then t.constructorType else t.instanceType

/-- The type has a property of its own with the name. -/
def ownsMember (s : State) (type : TypeId) (name : String) : Bool :=
  (s.types.shape? type).any (·.owns name)

/-- After any calls, for every class that is known, for both sides and every
name. On the side of the instances no interface may add to the class.
* The name is a property of the side if and only if a property of the side
  has it, or on the side of the instances a parameter property, or the first
  method of the name is one of the side.
* If the methods of the name are all static or none is, this is the case if
  and only if a member with the name is declared for the side. -/
theorem sides_of_members (sources : List (String × List Char)) (options : Checking.Options)
    (calls : List Call) {b : SymbolId} {d : Site} {k : ClassParts} {t : ClassTypes}
    {isStatic : Bool} {name : String}
    (hclass : (ofSources sources options).here.classOf? b = some (d, k))
    (hknown : ((ofSources sources options).after calls).state.classTypes.get? b = some t)
    (hmerged : isStatic = false → (ofSources sources options).here.isMerged b = false)
    (hname : name ≠ "") :
    let a := ((ofSources sources options).here.sourceFile d.file).arena
    let owned := ownsMember ((ofSources sources options).after calls).state (side t isStatic) name
    owned = memberOf a k.members isStatic name ∧
      (AgreeingMethods a k.members name → owned = declaresMember a k.members isStatic name) := by
  intro a owned
  have howned : owned = memberOf a k.members isStatic name := by
    obtain ⟨hrested, -⟩ := (rested_ofFiles _ options).after (fun _ hold => hold.elim) calls
    have hfinished := hrested.sound.finished b t d k hknown hclass
      (hrested.finished b t hknown (Option.isSome_iff_exists.2 ⟨_, hclass⟩))
    cases isStatic with
    | false => exact hfinished.members (hmerged rfl) name hname
    | true => exact hfinished.statics name hname
  exact ⟨howned, fun hagree => howned.trans (memberOf_eq_declaresMember hagree isStatic)⟩

/-- A class with a static method, a property, and another method of the
name. -/
def mixedMethods : Checker :=
  ofSources [("/p/a.ts", "class A { static m(): void {} p: string; m(): void {} }".toList)]
    ⟨true, false⟩

/-- An object of the class has the property. -/
theorem sides_of_members_property : ∃ d k t,
    mixedMethods.here.classOf? 6 = some (d, k) ∧
    (mixedMethods.after [.check 0]).state.classTypes.get? 6 = some t ∧
    ownsMember (mixedMethods.after [.check 0]).state (side t false) "p" =
      memberOf (mixedMethods.here.sourceFile d.file).arena k.members false "p" := by
  obtain ⟨hclass, hmerged, hknown⟩ : (mixedMethods.here.classOf? 6).isSome = true ∧
      mixedMethods.here.isMerged 6 = false ∧
      ((mixedMethods.after [.check 0]).state.classTypes.get? 6).isSome = true := by
    unfold mixedMethods
    rw [String.toList_ofList]
    decide +kernel
  obtain ⟨⟨d, k⟩, hd⟩ := Option.isSome_iff_exists.1 hclass
  obtain ⟨t, ht⟩ := Option.isSome_iff_exists.1 hknown
  obtain ⟨sources, options, hstart⟩ : ∃ sources options, mixedMethods = ofSources sources options :=
    ⟨_, _, rfl⟩
  rw [hstart] at hd ht hmerged ⊢
  have hname : "p" ≠ "" := by decide
  exact ⟨d, k, t, hd, ht,
    (sides_of_members sources options [.check 0] hd ht (fun _ => hmerged) hname).1⟩

/-- But it does not have the second method, although that is not static. -/
theorem declared_method_missing : ∃ d k t,
    mixedMethods.here.classOf? 6 = some (d, k) ∧ mixedMethods.here.isMerged 6 = false ∧
    (mixedMethods.after [.check 0]).state.classTypes.get? 6 = some t ∧
    declaresMember (mixedMethods.here.sourceFile d.file).arena k.members false "m" = true ∧
    ownsMember (mixedMethods.after [.check 0]).state t.instanceType "m" = false := by
  obtain ⟨hclass, hmerged, hknown⟩ : (mixedMethods.here.classOf? 6).any (fun (d, k) =>
        declaresMember (mixedMethods.here.sourceFile d.file).arena k.members false "m") = true ∧
      mixedMethods.here.isMerged 6 = false ∧
      ((mixedMethods.after [.check 0]).state.classTypes.get? 6).any (fun t =>
        !ownsMember (mixedMethods.after [.check 0]).state t.instanceType "m") = true := by
    unfold mixedMethods
    rw [String.toList_ofList]
    decide +kernel
  obtain ⟨⟨d, k⟩, hd, hdeclares⟩ := (Option.any_eq_true _ _).1 hclass
  obtain ⟨t, ht, howns⟩ := (Option.any_eq_true _ _).1 hknown
  rw [Bool.not_eq_true'] at howns
  exact ⟨d, k, t, hd, hmerged, ht, hdeclares, howns⟩

/-! ## Base classes -/

/-- After any calls, for every class that is known, has no constructor and
names another class behind `extends`: the other class is known, and `new`
takes what it takes for that class and gives instances of the class itself.
The exception is a class that is younger than the one that it extends: then
`new` may take nothing. But this is not so if the other class was known
before some of the calls, and the class itself was not.

Which of the two it is has been decided when the class was asked for first, in
the middle of a call: `new` takes nothing if the other class was in the making
just then, and inherits if it was not. -/
theorem constructs_of_heir (sources : List (String × List Char)) (options : Checking.Options)
    (first rest : List Call) {a b : SymbolId} {d : Site} {k : ClassParts} {t : ClassTypes}
    (hclass : (ofSources sources options).here.classOf? b = some (d, k))
    (hnone : k.members.any (isConstructor ((ofSources sources options).here.sourceFile
      d.file).arena) = false)
    (hextends : Extends (ofSources sources options).here d k a) (hne : a ≠ b)
    (hbase : ((ofSources sources options).here.classOf? a).isSome)
    (hknown : ((ofSources sources options).after (first ++ rest)).state.classTypes.get? b = some t) :
    let p := (ofSources sources options).here
    let before := ((ofSources sources options).after first).state
    let s := ((ofSources sources options).after (first ++ rest)).state
    (∃ base, s.classTypes.get? a = some base ∧
      (Inherits s t base ∨ TakesNothing s t ∧ base.instanceType < t.instanceType ∧
        ((∃ u, before.classTypes.get? a = some u) → ∃ u, before.classTypes.get? b = some u))) ∧
    ∀ (n : Nat) (c : Context) (m : State), InProgram p c → Sound p (fun _ => False) m →
      (∀ id ∈ c.resolvingTypes, ∀ i e, Means p i id e → InTheMaking m e ∨ e = b) →
      m.classTypes.get? b = none →
      let m' := ((rules n).classTypes b c m).2
      m'.exhausted = true ∨ ∃ u base, m'.classTypes.get? b = some u ∧
        m'.classTypes.get? a = some base ∧ (InTheMaking m a → TakesNothing m' u) ∧
        (¬ InTheMaking m a → Inherits m' u base) := by
  intro p before s
  refine ⟨?_, fun n c m hp hm himports hnew =>
    new_of_heir n hp hm himports hnew hclass hnone hextends hne hbase⟩
  have hsplit : (ofSources sources options).after (first ++ rest) =
      ((ofSources sources options).after first).after rest := List.foldl_append
  obtain ⟨hfirst, -⟩ := (rested_ofFiles _ options).after (fun _ hold => hold.elim) first
  obtain ⟨hrested, -⟩ := hfirst.renew.after (fun _ hold => hold) rest
  have hexhausted : s.exhausted = false := exhausted_after sources options (first ++ rest)
  rw [hsplit] at hknown
  have hfinished := hrested.sound.finished b t d k hknown hclass
    (hrested.finished b t hknown (Option.isSome_iff_exists.2 ⟨_, hclass⟩))
  have hheir := hfinished.heir hnone a hextends hne hbase
  have hs : s = (((ofSources sources options).after first).after rest).state := congrArg state hsplit
  rw [hs] at hexhausted ⊢
  rcases hheir with hhit | hheir
  · exact absurd (hexhausted.symm.trans hhit) Bool.false_ne_true
  · exact hheir

/-- A class and one that extends it. -/
def plainHeir : Checker :=
  ofSources [("/p/a.ts", "class A { constructor(n: number) {} }\nclass B extends A { }".toList)]
    ⟨true, false⟩

/-- `new` takes for the second what it takes for the first. -/
theorem constructs_of_heir_plain : ∃ d k t,
    plainHeir.here.classOf? 8 = some (d, k) ∧
    (plainHeir.after [.check 0]).state.classTypes.get? 8 = some t ∧
    ∃ base, (plainHeir.after [.check 0]).state.classTypes.get? 6 = some base ∧
      Inherits (plainHeir.after [.check 0]).state t base := by
  obtain ⟨hclass, hbase, hsymbol, hknown⟩ : (plainHeir.here.classOf? 8).any (fun (d, k) =>
        !k.members.any (isConstructor (plainHeir.here.sourceFile d.file).arena) &&
        plainHeir.here.heritage? d k == some 6) = true ∧
      (plainHeir.here.classOf? 6).isSome = true ∧
      (plainHeir.here.symbol? 6).any (fun symbol =>
        !symbol.flags.alias_ && symbol.flags.class_) = true ∧
      ((plainHeir.after [.check 0]).state.classTypes.get? 8).any (fun t =>
        (plainHeir.after [.check 0]).state.types.constructs t.constructorType !=
          [⟨[], t.instanceType⟩]) = true := by
    unfold plainHeir
    rw [String.toList_ofList]
    decide +kernel
  obtain ⟨⟨d, k⟩, hd, htest⟩ := (Option.any_eq_true _ _).1 hclass
  obtain ⟨t, ht, htakes⟩ := (Option.any_eq_true _ _).1 hknown
  obtain ⟨symbol, hsymbol, hflags⟩ := (Option.any_eq_true _ _).1 hsymbol
  rw [Bool.and_eq_true, Bool.not_eq_true', beq_iff_eq] at htest
  rw [Bool.and_eq_true, Bool.not_eq_true'] at hflags
  have hextends : Extends plainHeir.here d k 6 := ⟨6, 0, htest.2, .class_ hsymbol hflags.1 hflags.2⟩
  have hne : (6 : SymbolId) ≠ 8 := by decide
  have hnone := htest.1
  obtain ⟨sources, options, hstart⟩ : ∃ sources options, plainHeir = ofSources sources options :=
    ⟨_, _, rfl⟩
  rw [hstart] at hd hnone hextends hbase ht htakes ⊢
  obtain ⟨⟨base, hget, hcase⟩, -⟩ :=
    constructs_of_heir sources options [] [.check 0] hd hnone hextends hne hbase ht
  exact ⟨d, k, t, hd, ht, base, hget, hcase.resolve_right fun h => bne_iff_ne.1 htakes h.1⟩

/-- A class whose property is an instance of a class that extends it. -/
def earlyHeir : Checker :=
  ofSources [("/p/a.ts",
    "class A { x: B; constructor(n: number) {} }\nclass B extends A { }".toList)] ⟨true, false⟩

/-- The second class is put together when the first has no construct
signatures yet, and does not inherit them. -/
theorem heir_takes_nothing : ∃ d k t base,
    earlyHeir.here.classOf? 8 = some (d, k) ∧
    k.members.any (isConstructor (earlyHeir.here.sourceFile d.file).arena) = false ∧
    Extends earlyHeir.here d k 6 ∧
    (earlyHeir.after [.check 0]).state.classTypes.get? 6 = some base ∧
    (earlyHeir.after [.check 0]).state.classTypes.get? 8 = some t ∧
    (earlyHeir.after [.check 0]).state.types.constructs t.constructorType ≠
      ((earlyHeir.after [.check 0]).state.types.constructs base.constructorType).map fun signature =>
        { signature with returnType := t.instanceType } := by
  obtain ⟨hclass, hsymbol, hknown⟩ : (earlyHeir.here.classOf? 8).any (fun (d, k) =>
        !k.members.any (isConstructor (earlyHeir.here.sourceFile d.file).arena) &&
        earlyHeir.here.heritage? d k == some 6) = true ∧
      (earlyHeir.here.symbol? 6).any (fun symbol =>
        !symbol.flags.alias_ && symbol.flags.class_) = true ∧
      ((earlyHeir.after [.check 0]).state.classTypes.get? 6).any (fun base =>
        ((earlyHeir.after [.check 0]).state.classTypes.get? 8).any fun t =>
          (earlyHeir.after [.check 0]).state.types.constructs t.constructorType !=
            ((earlyHeir.after [.check 0]).state.types.constructs base.constructorType).map
              fun signature => { signature with returnType := t.instanceType }) = true := by
    unfold earlyHeir
    rw [String.toList_ofList]
    decide +kernel
  obtain ⟨⟨d, k⟩, hd, htest⟩ := (Option.any_eq_true _ _).1 hclass
  obtain ⟨base, hbase, hknown⟩ := (Option.any_eq_true _ _).1 hknown
  obtain ⟨t, ht, hdiffers⟩ := (Option.any_eq_true _ _).1 hknown
  obtain ⟨symbol, hsymbol, hflags⟩ := (Option.any_eq_true _ _).1 hsymbol
  rw [Bool.and_eq_true, Bool.not_eq_true', beq_iff_eq] at htest
  rw [Bool.and_eq_true, Bool.not_eq_true'] at hflags
  exact ⟨d, k, t, base, hd, htest.1, ⟨6, 0, htest.2, .class_ hsymbol hflags.1 hflags.2⟩, hbase, ht,
    bne_iff_ne.1 hdiffers⟩

end Checker

end ScriptAnalysis
