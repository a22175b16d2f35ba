import ScriptAnalysis.Proofs.Checking.Record

/-!
# Steps that only find types

Members, literals, operators and the like are typed without asking any rule.
Such a step adds to the table of types and remembers what it has found; nobody
notices otherwise that it was taken.

**Results.**
* `Idle.memberType`, `Idle.propertyType`, `Idle.operatorType` and the others:
  the steps that are idle.
* `Idle.quiet`: an idle step reports nothing.
-/
namespace ScriptAnalysis.Checking

variable {α β : Type} {c : Context} {x : Check α}

/-- The states agree on the record, on the classes and interfaces that were
looked at and on whether the bound was hit. -/
structure Unnoticed (s s' : State) : Prop extends SameRecord s s' where
  classTypes : s'.classTypes = s.classTypes
  interfaceTypes : s'.interfaceTypes = s.interfaceTypes
  exhausted : s'.exhausted = s.exhausted

theorem Unnoticed.refl (s : State) : Unnoticed s s := ⟨.refl s, rfl, rfl, rfl⟩

theorem Unnoticed.trans {s t u : State} (h : Unnoticed s t) (h' : Unnoticed t u) :
    Unnoticed s u :=
  ⟨h.toSameRecord.trans h'.toSameRecord, h'.classTypes.trans h.classTypes,
    h'.interfaceTypes.trans h.interfaceTypes, h'.exhausted.trans h.exhausted⟩

/-- At `c` the step goes unnoticed and ends at `c` again. -/
def Idle (c : Context) (x : Check α) : Prop :=
  ∀ s, (x c s).1.2 = c ∧ Unnoticed s (x c s).2

theorem Idle.quiet (h : Idle c x) : Quiet c x :=
  .of_same fun s => (h s).imp id Unnoticed.toSameRecord

/-! ## Sequences -/

theorem Idle.pure (a : α) : Idle c (Pure.pure a : Check α) :=
  fun s => ⟨rfl, .refl s⟩

theorem Idle.bind {f : α → Check β} (hx : Idle c x) (hf : ∀ a, Idle c (f a)) :
    Idle c (x >>= f) := by
  intro s
  obtain ⟨hback, hsame⟩ := hx s
  rw [bind_apply, hback]
  exact (hf (x c s).1.1 (x c s).2).imp id hsame.trans

theorem Idle.read {f : Context → Check β} (h : Idle c (f c)) :
    Idle c ((MonadReader.read : Check Context) >>= f) :=
  h

theorem Idle.get {f : State → Check β} (h : ∀ s, Idle c (f s)) :
    Idle c ((MonadState.get : Check State) >>= f) :=
  fun s => h s s

theorem Idle.alloc (y : TypeTable.Alloc α) : Idle c (alloc y) :=
  fun _ => ⟨rfl, ⟨rfl, rfl, rfl⟩, rfl, rfl, rfl⟩

theorem Idle.table : Idle c table :=
  fun s => ⟨rfl, .refl s⟩

theorem Idle.modify {f : State → State} (h : ∀ s, Unnoticed s (f s)) :
    Idle c (modify f : Check PUnit) :=
  fun s => ⟨rfl, h s⟩

theorem Idle.forM {xs : List α} {f : α → Check PUnit} (h : ∀ a, Idle c (f a)) :
    Idle c (xs.forM f) := by
  induction xs with
  | nil => exact .pure _
  | cons a rest ih =>
    show Idle c (f a >>= fun _ => rest.forM f)
    exact (h a).bind fun _ => ih

theorem Idle.mapM {xs : List α} {f : α → Check β} (h : ∀ a, Idle c (f a)) :
    Idle c (xs.mapM f) := by
  induction xs with
  | nil => exact .pure _
  | cons a rest ih =>
    rw [List.mapM_cons]
    exact (h a).bind fun _ => ih.bind fun _ => .pure _

/-! ## The steps -/

theorem Idle.inferredReturn (returned : List TypeId) : Idle c (inferredReturn returned) := by
  unfold Checking.inferredReturn
  split
  · exact .pure _
  · exact Idle.bind (.mapM fun _ => .alloc _) fun _ => .alloc _

theorem Idle.literalType (a : Arena) (literal : NodeId) : Idle c (literalType a literal) := by
  unfold Checking.literalType
  split
  · exact .pure _
  · exact .pure _
  · exact .alloc _
  · exact .alloc _
  · exact .pure _

theorem Idle.publish (s : ClassShapes) : Idle c s.publish :=
  Idle.bind (.alloc _) fun _ => .alloc _

theorem Idle.memberType (id : TypeId) (name : String) : Idle c (memberType id name) := by
  unfold Checking.memberType
  split
  · exact .pure _
  · refine Idle.bind .table fun t => ?_
    split
    · exact .pure _
    · split
      · exact .pure _
      · split
        · refine Idle.get fun s => ?_
          split
          · exact .pure _
          · refine Idle.bind (.alloc _) fun type => ?_
            exact Idle.bind (.modify fun _ => ⟨⟨rfl, rfl, rfl⟩, rfl, rfl, rfl⟩) fun _ => .pure _
        · exact .pure _

theorem Idle.memberTypes (name : String) (ids : List TypeId) :
    Idle c (memberTypes name ids) := by
  induction ids with
  | nil => exact .pure _
  | cons id rest ih =>
    refine Idle.bind (.memberType id name) fun found => ?_
    split
    · exact .pure _
    · refine Idle.bind ih fun others => ?_
      split <;> exact .pure _

theorem Idle.propertyType (id : TypeId) (name : String) : Idle c (propertyType id name) := by
  refine Idle.bind .table fun t => ?_
  split
  · refine Idle.bind (.memberTypes _ _) fun types => ?_
    split
    · exact .pure _
    · exact Idle.bind (.alloc _) fun _ => .pure _
  · exact .memberType id name

theorem Idle.operatorType (operator : TokenKind) (left right : TypeId) :
    Idle c (operatorType operator left right) := by
  unfold Checking.operatorType
  split
  any_goals exact .pure _
  · exact Idle.bind .table fun _ => .pure _
  · exact Idle.bind .table fun _ => .alloc _
  · exact Idle.bind .table fun _ => .alloc _

theorem Idle.takeContext (node : NodeId) (expected : Option TypeId) :
    Idle c (takeContext node expected) := by
  refine Idle.read (Idle.bind .table fun t => ?_)
  split
  · refine .forM fun pair => ?_
    dsimp only
    split
    · exact .pure _
    · exact .modify fun _ => ⟨⟨rfl, rfl, rfl⟩, rfl, rfl, rfl⟩
  · exact .pure _

theorem Idle.keyword (self : Rules) (node : NodeId) (expected : Option TypeId)
    (word : TokenKind) : Idle c (expressionType self node expected (.keyword word)) := by
  cases word with
  | kwThis => exact fun s => ⟨rfl, .refl s⟩
  | kwSuper => exact fun s => ⟨rfl, .refl s⟩
  | _ => exact .pure _

theorem Idle.ownPropertyType (owner : TypeId) (name : String) :
    Idle c (ownPropertyType owner name) :=
  Idle.bind .table fun _ => .pure _

end ScriptAnalysis.Checking
