import ScriptAnalysis.Proofs.Checking.Survey

/-!
# What a step of the checker does to the record

The record of a checker is what it hands out: which files were checked, the
reports of each file and the types of its nodes. The other tables only keep
what was found once.

**Steps.** `Told c least most s s'` relates the states before and after a
step at `c`. Only the part of the own file changes, and only when problems
are recorded there. Of the settled reports at least `least` and at most
`most` are added: two lists, since a step may find that its work was done
before. `Tells`, `Reports` and `Quiet` say this of a whole computation from
every state; `Silent` says that a computation leaves the record alone where
nothing is recorded, wherever it stands. Each says as well that the
computation ends where it has started, so that the next one starts there.

**Results.**
* `Told.trans`: steps in sequence add up; every combinator of the monad
  (`Tells.bind`, `Tells.when`, `Tells.forM`, `Tells.mapM`, `Tells.foldlM`)
  follows.
* `Tells.moved`, `Silent.same_elsewhere`: an excursion. Its way back undoes
  its way there.
* `Tells.span`: the one step that reports. `Reports.report` and
  `Quiet.report` are its two uses.
-/
namespace ScriptAnalysis.Checking

variable {α β γ : Type}

/-- What is reported of a file so far. -/
def State.log (s : State) (file : FileId) : List Diagnostic :=
  s.diagnostics.getD file []

/-- The types of the nodes of a file so far. -/
def State.row (s : State) (file : FileId) : Array (Option TypeId) :=
  s.nodeTypes.getD file #[]

/-- The type of a node is recorded. -/
def State.Typed (s : State) (file : FileId) (node : NodeId) : Prop :=
  ((s.row file).getD node none).isSome

/-- The record is the same in both states. -/
structure SameRecord (s s' : State) : Prop where
  checked : s'.checked = s.checked
  diagnostics : s'.diagnostics = s.diagnostics
  nodeTypes : s'.nodeTypes = s.nodeTypes

theorem SameRecord.refl (s : State) : SameRecord s s := ⟨rfl, rfl, rfl⟩

theorem SameRecord.trans {s t u : State} (h : SameRecord s t) (h' : SameRecord t u) :
    SameRecord s u :=
  ⟨h'.checked.trans h.checked, h'.diagnostics.trans h.diagnostics,
    h'.nodeTypes.trans h.nodeTypes⟩

/-- What a step at `c` does to the record: it changes the part of the own
file only, and this only when recording; it takes no type away; and of the
settled reports it adds at least those of `least` and at most those of `most`. -/
structure Told (c : Context) (least most : List Diagnostic) (s s' : State) : Prop where
  checked : s'.checked = s.checked
  size : s'.diagnostics.size = s.diagnostics.size
  others : ∀ file, file ≠ c.file → s'.diagnostics[file]? = s.diagnostics[file]? ∧
    s'.nodeTypes[file]? = s.nodeTypes[file]?
  silent : c.recording = false →
    s'.diagnostics = s.diagnostics ∧ s'.nodeTypes = s.nodeTypes
  room : (s'.row c.file).size = (s.row c.file).size
  typed : ∀ node, s.Typed c.file node → s'.Typed c.file node
  kept : ∀ d ∈ s.log c.file, d ∈ s'.log c.file
  least : c.file < s.diagnostics.size → ∀ d ∈ least, Settled c d → d ∈ s'.log c.file
  most : ∀ d ∈ s'.log c.file, Settled c d → d ∈ s.log c.file ∨ d ∈ most

theorem SameRecord.told {s s' : State} (h : SameRecord s s') (c : Context) :
    Told c [] [] s s' where
  checked := h.checked
  size := by rw [h.diagnostics]
  others file _ := ⟨by rw [h.diagnostics], by rw [h.nodeTypes]⟩
  silent _ := ⟨h.diagnostics, h.nodeTypes⟩
  room := by unfold State.row; rw [h.nodeTypes]
  typed node hn := by unfold State.Typed State.row; rw [h.nodeTypes]; exact hn
  kept d hd := by unfold State.log; rw [h.diagnostics]; exact hd
  least _ d hd := by cases hd
  most d hd _ := by
    unfold State.log at hd
    rw [h.diagnostics] at hd
    exact .inl hd

theorem Told.trans {c : Context} {l m l' m' : List Diagnostic} {s t u : State}
    (h : Told c l m s t) (h' : Told c l' m' t u) : Told c (l ++ l') (m ++ m') s u where
  checked := h'.checked.trans h.checked
  size := h'.size.trans h.size
  others file hf :=
    ⟨(h'.others file hf).1.trans (h.others file hf).1,
      (h'.others file hf).2.trans (h.others file hf).2⟩
  silent hr :=
    ⟨(h'.silent hr).1.trans (h.silent hr).1, (h'.silent hr).2.trans (h.silent hr).2⟩
  room := h'.room.trans h.room
  typed node hn := h'.typed node (h.typed node hn)
  kept d hd := h'.kept d (h.kept d hd)
  least hf d hd hs := by
    rcases List.mem_append.1 hd with hd | hd
    · exact h'.kept d (h.least hf d hd hs)
    · exact h'.least (by rw [h.size]; exact hf) d hd hs
  most d hd hs := by
    rcases h'.most d hd hs with hd | hd
    · rcases h.most d hd hs with hd | hd
      · exact .inl hd
      · exact .inr (List.mem_append_left _ hd)
    · exact .inr (List.mem_append_right _ hd)

/-- Fewer reports for certain, more as possible. -/
theorem Told.weaken {c : Context} {l m l' m' : List Diagnostic} {s t : State}
    (h : Told c l m s t) (hl : ∀ d ∈ l', Settled c d → d ∈ l)
    (hm : ∀ d ∈ m, Settled c d → d ∈ m') : Told c l' m' s t :=
  { h with
    least := fun hf d hd hs => h.least hf d (hl d hd hs) hs
    most := fun d hd hs => (h.most d hd hs).imp id fun hd => hm d hd hs }

/-! ## Steps -/

/-- A step that leaves the record as it is where nothing is recorded, and
ends where it has started. -/
def Silent (x : Check α) : Prop :=
  ∀ c s, c.recording = false → (x c s).1.2 = c ∧ SameRecord s (x c s).2

/-- At `c` the step adds at least the reports `l` and at most the reports
`m` to the settled ones, and ends at `c` again. -/
def Tells (c : Context) (l m : List Diagnostic) (x : Check α) : Prop :=
  ∀ s, (x c s).1.2 = c ∧ Told c l m s (x c s).2

/-- At `c` the step adds exactly the reports `l` to the settled ones. -/
def Reports (c : Context) (l : List Diagnostic) (x : Check α) : Prop :=
  Tells c l l x

/-- At `c` the step adds no settled report. -/
def Quiet (c : Context) (x : Check α) : Prop :=
  Reports c [] x

/-- A value that the step can give at `c`. -/
def Gives (c : Context) (x : Check α) (a : α) : Prop :=
  ∃ s, (x c s).1.1 = a

variable {c : Context} {l m l' m' : List Diagnostic} {x : Check α}

theorem Silent.of_tells {l m : Context → List Diagnostic} (h : ∀ c, Tells c (l c) (m c) x) :
    Silent x := by
  intro c s hr
  obtain ⟨hback, ht⟩ := h c s
  exact ⟨hback, ht.checked, (ht.silent hr).1, (ht.silent hr).2⟩

theorem Silent.quiet (hx : Silent x) (hr : c.recording = false) : Quiet c x :=
  fun s => (hx c s hr).imp id (·.told c)

theorem Silent.of_same (h : ∀ c s, (x c s).1.2 = c ∧ SameRecord s (x c s).2) : Silent x :=
  fun c s _ => h c s

theorem Quiet.of_same (h : ∀ s, (x c s).1.2 = c ∧ SameRecord s (x c s).2) : Quiet c x :=
  fun s => (h s).imp id (·.told c)

theorem Tells.weaken (h : Tells c l m x) (hl : ∀ d ∈ l', Settled c d → d ∈ l)
    (hm : ∀ d ∈ m, Settled c d → d ∈ m') : Tells c l' m' x :=
  fun s => (h s).imp id (·.weaken hl hm)

theorem Tells.possibly (h : Tells c l m x) : Tells c [] m x :=
  h.weaken (fun _ hd _ => by cases hd) fun _ hd _ => hd

theorem Quiet.possibly (h : Quiet c x) : Tells c [] m x :=
  h.weaken (fun _ hd _ => hd) fun _ hd _ => by cases hd

/-! ### Sequences -/

theorem Silent.pure (a : α) : Silent (Pure.pure a : Check α) :=
  .of_same fun _ s => ⟨rfl, .refl s⟩

theorem Quiet.pure (a : α) : Quiet c (Pure.pure a : Check α) :=
  .of_same fun s => ⟨rfl, .refl s⟩

/-- The next step starts where the one before has ended. -/
theorem bind_apply (x : Check α) (f : α → Check β) (c : Context) (s : State) :
    (x >>= f) c s = f (x c s).1.1 (x c s).1.2 (x c s).2 := rfl

theorem Silent.bind {f : α → Check β} (hx : Silent x) (hf : ∀ a, Silent (f a)) :
    Silent (x >>= f) := by
  intro c s hr
  obtain ⟨hback, hsame⟩ := hx c s hr
  rw [bind_apply, hback]
  exact (hf (x c s).1.1 c (x c s).2 hr).imp id hsame.trans

theorem Tells.bind_gives {f : α → Check β} (hx : Tells c l m x)
    (hf : ∀ a, Gives c x a → Tells c l' m' (f a)) : Tells c (l ++ l') (m ++ m') (x >>= f) := by
  intro s
  obtain ⟨hback, ht⟩ := hx s
  rw [bind_apply, hback]
  exact (hf (x c s).1.1 ⟨s, rfl⟩ (x c s).2).imp id ht.trans

theorem Tells.bind {f : α → Check β} (hx : Tells c l m x) (hf : ∀ a, Tells c l' m' (f a)) :
    Tells c (l ++ l') (m ++ m') (x >>= f) :=
  hx.bind_gives fun a _ => hf a

theorem Tells.bind_possibly {f : α → Check β} (hx : Tells c [] m x)
    (hf : ∀ a, Tells c [] m' (f a)) : Tells c [] (m ++ m') (x >>= f) :=
  Tells.bind hx hf

theorem Quiet.bind {f : α → Check β} (hx : Quiet c x) (hf : ∀ a, Tells c l m (f a)) :
    Tells c l m (x >>= f) :=
  Tells.bind (l := []) (m := []) hx hf

theorem Tells.then_quiet {f : α → Check β} (hx : Tells c l m x) (hf : ∀ a, Quiet c (f a)) :
    Tells c l m (x >>= f) := by
  have h := Tells.bind hx hf
  rwa [List.append_nil, List.append_nil] at h

theorem Tells.pure_bind {a : α} {f : α → Check β} (h : Tells c l m (f a)) :
    Tells c l m (Pure.pure a >>= f) :=
  h

theorem Silent.read {f : Context → Check β} (h : ∀ c, Silent (f c)) :
    Silent ((MonadReader.read : Check Context) >>= f) :=
  fun c s hr => h c c s hr

theorem read_bind (f : Context → Check β) (c : Context) (s : State) :
    ((MonadReader.read : Check Context) >>= f) c s = f c c s :=
  rfl

theorem Tells.read {f : Context → Check β} (h : Tells c l m (f c)) :
    Tells c l m ((MonadReader.read : Check Context) >>= f) :=
  h

theorem Tells.get {f : State → Check β} (h : ∀ s, Tells c l m (f s)) :
    Tells c l m ((MonadState.get : Check State) >>= f) :=
  fun s => h s s

theorem Tells.ite {p : Prop} [Decidable p] {y : Check α} (hx : p → Tells c l m x)
    (hy : ¬ p → Tells c l' m' y) :
    Tells c (if p then l else l') (if p then m else m') (if p then x else y) := by
  split
  · exact hx ‹_›
  · exact hy ‹_›

/-- A step that is taken on a condition, before another one. -/
theorem Tells.when {p : Prop} [Decidable p] {x : Check Unit} {f : Unit → Check β}
    (hx : Tells c l m x) (hf : Tells c l' m' (f ())) : Tells c ((if p then l else []) ++ l')
      ((if p then m else []) ++ m') (if p then x >>= f else f ()) := by
  split
  · exact hx.bind fun _ => hf
  · exact hf

/-! ### Standing elsewhere -/

section

variable {go : Context → Context} {back : Context → Context → Context}

theorem Silent.moved (hx : Silent x) (hback : ∀ c, back c (go c) = c)
    (hgo : ∀ c, c.recording = false → (go c).recording = false) :
    Silent (excursion go back x) := by
  intro c s hr
  obtain ⟨hend, hsame⟩ := hx (go c) s (hgo c hr)
  exact ⟨(congrArg (back c) hend).trans (hback c), hsame⟩

/-- A step somewhere else in the file. -/
theorem Told.move {c c' : Context} {s s' : State} (h : Told c' l m s s')
    (hfiles : c'.files = c.files) (hbindings : c'.bindings = c.bindings) (hfile : c'.file = c.file)
    (hrec : c'.recording = c.recording) : Told c l m s s' := by
  have hsettled : Settled c' = Settled c := by
    unfold Settled InFunctionType
    rw [hfiles, hbindings, hfile]
  obtain ⟨h1, h2, h3, h4, h5, h6, h7, h8, h9⟩ := h
  rw [hfile] at h3 h5 h6 h7 h8 h9
  rw [hrec] at h4
  rw [hsettled] at h8 h9
  exact ⟨h1, h2, h3, h4, h5, h6, h7, h8, h9⟩

/-- An excursion in the file, on which problems are recorded as before. -/
theorem Tells.moved (hx : Tells (go c) l m x) (hback : back c (go c) = c)
    (hfiles : (go c).files = c.files) (hbindings : (go c).bindings = c.bindings)
    (hfile : (go c).file = c.file) (hrec : (go c).recording = c.recording) :
    Tells c l m (excursion go back x) := by
  intro s
  obtain ⟨hend, ht⟩ := hx s
  exact ⟨(congrArg (back c) hend).trans hback, ht.move hfiles hbindings hfile hrec⟩

/-- An excursion of which nothing is recorded leaves the record as it is,
wherever it goes and wherever it has set out. -/
theorem Silent.same_elsewhere (hx : Silent x) (hback : back c (go c) = c)
    (hgo : (go c).recording = false) (s : State) :
    (excursion go back x c s).1.2 = c ∧ SameRecord s (excursion go back x c s).2 := by
  obtain ⟨hend, hsame⟩ := hx (go c) s hgo
  exact ⟨(congrArg (back c) hend).trans hback, hsame⟩

end

theorem Silent.same_atDeclaration (hx : Silent x) (file : FileId) (scope : ScopeId) (s : State) :
    (atDeclaration file scope x c s).1.2 = c ∧
      SameRecord s (atDeclaration file scope x c s).2 := by
  show (excursion _ Context.restore x c s).1.2 = c ∧ _
  exact hx.same_elsewhere rfl rfl s

theorem Silent.quiet_silently (hx : Silent x) : Quiet c (silently x) :=
  .of_same (hx.same_elsewhere rfl rfl)

theorem Silent.quiet_atDeclaration (hx : Silent x) (file : FileId) (scope : ScopeId) :
    Quiet c (atDeclaration file scope x) :=
  .of_same (hx.same_atDeclaration file scope)

theorem Tells.in_scope {scope : ScopeId} (hx : Tells { c with scope := scope } l m x) :
    Tells c l m (inScope scope x) :=
  hx.moved rfl rfl rfl rfl rfl

theorem Tells.in_function {declared : Option TypeId}
    (hx : Tells { c with functions := declared :: c.functions, loops := 0 } l m x) :
    Tells c l m (inFunction declared x) :=
  hx.moved rfl rfl rfl rfl rfl

theorem Tells.in_loop (hx : Tells { c with loops := c.loops + 1 } l m x) :
    Tells c l m (inLoopBody x) :=
  hx.moved rfl rfl rfl rfl rfl

theorem Tells.in_class {instances : TypeId}
    (hx : Tells { c with thisTypes := instances :: c.thisTypes } l m x) :
    Tells c l m (inClass instances x) :=
  hx.moved rfl rfl rfl rfl rfl

theorem Silent.in_class {instances : TypeId} (hx : Silent x) : Silent (inClass instances x) :=
  hx.moved (fun _ => rfl) fun _ hr => hr

theorem Tells.in_expression (hx : Tells { c with depth := c.depth + 1 } l m x) :
    Tells c l m (inExpression x) :=
  hx.moved rfl rfl rfl rfl rfl

theorem Tells.resolving_value {id : SymbolId}
    (hx : Tells { c with resolvingValues := id :: c.resolvingValues } l m x) :
    Tells c l m (resolvingValue id x) :=
  hx.moved (by simp) rfl rfl rfl rfl

theorem Tells.resolving_type {id : SymbolId}
    (hx : Tells { c with resolvingTypes := id :: c.resolvingTypes } l m x) :
    Tells c l m (resolvingType id x) :=
  hx.moved (by simp) rfl rfl rfl rfl

theorem Tells.resolving_signature {site : Site}
    (hx : Tells { c with resolvingSignatures := site :: c.resolvingSignatures } l m x) :
    Tells c l m (resolvingSignature site x) :=
  hx.moved (by simp) rfl rfl rfl rfl

/-! ### Lists -/

theorem Silent.of_quiet (h : ∀ c, Quiet c x) : Silent x :=
  .of_tells h

theorem Silent.forM {xs : List α} {f : α → Check PUnit} (h : ∀ a ∈ xs, Silent (f a)) :
    Silent (xs.forM f) := by
  induction xs with
  | nil => exact .pure _
  | cons a rest ih =>
    show Silent (f a >>= fun _ => rest.forM f)
    exact (h a List.mem_cons_self).bind fun _ => ih fun b hb => h b (List.mem_cons_of_mem _ hb)

theorem Silent.mapM {xs : List α} {f : α → Check β} (h : ∀ a, Silent (f a)) :
    Silent (xs.mapM f) := by
  induction xs with
  | nil => exact .pure _
  | cons a rest ih =>
    rw [List.mapM_cons]
    exact (h a).bind fun _ => ih.bind fun _ => .pure _

theorem Silent.foldlM {xs : List α} {f : β → α → Check β} (h : ∀ b a, Silent (f b a)) (b : β) :
    Silent (xs.foldlM f b) := by
  induction xs generalizing b with
  | nil => exact .pure _
  | cons a rest ih =>
    rw [List.foldlM_cons]
    exact (h b a).bind ih

theorem Tells.forM {xs : List α} {f : α → Check PUnit} {l m : α → List Diagnostic}
    (h : ∀ a ∈ xs, Tells c (l a) (m a) (f a)) :
    Tells c (xs.flatMap l) (xs.flatMap m) (xs.forM f) := by
  induction xs with
  | nil => exact Quiet.pure _
  | cons a rest ih =>
    rw [List.flatMap_cons, List.flatMap_cons]
    show Tells c _ _ (f a >>= fun _ => rest.forM f)
    exact (h a List.mem_cons_self).bind fun _ => ih fun b hb => h b (List.mem_cons_of_mem _ hb)

theorem Tells.mapM {xs : List α} {f : α → Check β} {l m : α → List Diagnostic}
    (h : ∀ a, Tells c (l a) (m a) (f a)) :
    Tells c (xs.flatMap l) (xs.flatMap m) (xs.mapM f) := by
  induction xs with
  | nil => exact Quiet.pure _
  | cons a rest ih =>
    rw [List.mapM_cons, List.flatMap_cons, List.flatMap_cons]
    exact (h a).bind fun _ => ih.then_quiet fun _ => .pure _

theorem Tells.foldlM {xs : List α} {f : β → α → Check β} {l m : α → List Diagnostic}
    (h : ∀ b a, Tells c (l a) (m a) (f b a)) (b : β) :
    Tells c (xs.flatMap l) (xs.flatMap m) (xs.foldlM f b) := by
  induction xs generalizing b with
  | nil => exact Quiet.pure _
  | cons a rest ih =>
    rw [List.foldlM_cons, List.flatMap_cons, List.flatMap_cons]
    exact (h b a).bind ih

theorem flatMap_nothing (xs : List α) : xs.flatMap (fun _ => ([] : List Diagnostic)) = [] :=
  List.flatMap_eq_nil_iff.2 fun _ _ => rfl

theorem Quiet.mapM {xs : List α} {f : α → Check β} (h : ∀ a, Quiet c (f a)) :
    Quiet c (xs.mapM f) := by
  have hall : Reports c (xs.flatMap fun _ => []) (xs.mapM f) := Tells.mapM h
  rwa [flatMap_nothing] at hall

theorem Quiet.foldlM {xs : List α} {f : β → α → Check β} (h : ∀ b a, Quiet c (f b a)) (b : β) :
    Quiet c (xs.foldlM f b) := by
  have hall : Reports c (xs.flatMap fun _ => []) (xs.foldlM f b) := Tells.foldlM h b
  rwa [flatMap_nothing] at hall

theorem Tells.forM_option {o : Option α} {f : α → Check PUnit} {l m : α → List Diagnostic}
    (h : ∀ a, Tells c (l a) (m a) (f a)) :
    Tells c (o.toList.flatMap l) (o.toList.flatMap m) (o.forM f) := by
  cases o with
  | none => exact Quiet.pure _
  | some a =>
    rw [Option.toList_some, List.flatMap_singleton, List.flatMap_singleton]
    exact h a

theorem Quiet.forM_option {o : Option α} {f : α → Check PUnit} (h : ∀ a, Quiet c (f a)) :
    Quiet c (o.forM f) := by
  cases o with
  | none => exact .pure _
  | some a => exact h a

/-! ## The steps that all others are made of -/

/-- The record with the type of one more node. -/
def State.withType (s : State) (file : FileId) (node : NodeId) (type : TypeId) : State :=
  { s with nodeTypes := s.nodeTypes.modify file (·.setIfInBounds node (some type)) }

theorem State.row_withType (s : State) (file : FileId) (node : NodeId) (type : TypeId) :
    (s.withType file node type).row file = (s.row file).setIfInBounds node (some type) := by
  unfold State.row State.withType
  dsimp only
  rw [Array.getD_eq_getD_getElem?, Array.getElem?_modify, if_pos rfl,
    Array.getD_eq_getD_getElem?]
  cases s.nodeTypes[file]? with
  | none => exact (Array.setIfInBounds_empty ..).symm
  | some row => rfl

theorem State.typed_withType (s : State) (file : FileId) (node : NodeId) (type : TypeId)
    (other : NodeId) : (s.withType file node type).Typed file other ↔
      s.Typed file other ∨ other = node ∧ node < (s.row file).size := by
  unfold State.Typed
  rw [State.row_withType, Array.getD_eq_getD_getElem?, Array.getElem?_setIfInBounds,
    Array.getD_eq_getD_getElem?]
  by_cases hnode : node = other
  · subst hnode
    by_cases hlt : node < (s.row file).size <;> simp [hlt]
  · simp [hnode, Ne.symm hnode]

theorem Quiet.alloc (y : TypeTable.Alloc α) : Quiet c (alloc y) :=
  .of_same fun _ => ⟨rfl, rfl, rfl, rfl⟩

theorem Quiet.modify {f : State → State} (h : ∀ s, SameRecord s (f s)) :
    Quiet c (modify f : Check PUnit) :=
  .of_same fun s => ⟨rfl, h s⟩

theorem Quiet.table : Quiet c table :=
  .of_same fun s => ⟨rfl, .refl s⟩

theorem Quiet.display (id : TypeId) : Quiet c (display id) :=
  .of_same fun s => ⟨rfl, .refl s⟩

theorem Quiet.assignable (source target : TypeId) : Quiet c (assignable source target) :=
  .of_same fun s => ⟨rfl, .refl s⟩

theorem record_apply {s : State} (hr : c.recording = true) (node : NodeId) (type : TypeId) :
    record node type c s = (((), c), s.withType c.file node type) := by
  show (if c.recording = true then _ else _ : Check Unit) c s = _
  rw [hr]
  rfl

theorem record_silent {s : State} (hr : c.recording = false) (node : NodeId) (type : TypeId) :
    record node type c s = (((), c), s) := by
  show (if c.recording = true then _ else _ : Check Unit) c s = _
  rw [hr]
  rfl

theorem Quiet.record (node : NodeId) (type : TypeId) : Quiet c (record node type) := by
  intro s
  cases hr : c.recording with
  | false =>
    rw [record_silent hr]
    exact ⟨rfl, (SameRecord.refl s).told c⟩
  | true =>
    rw [record_apply hr]
    refine ⟨rfl, rfl, rfl, fun file hf => ⟨rfl, ?_⟩, fun h => ?_, ?_, fun other hn => ?_,
      fun _ hd => hd, fun _ _ hd => ?_, fun _ hd _ => .inl hd⟩
    · exact (Array.getElem?_modify ..).trans (if_neg (Ne.symm hf))
    · rw [hr] at h; cases h
    · rw [State.row_withType, Array.size_setIfInBounds]
    · exact (State.typed_withType ..).2 (.inl hn)
    · cases hd

theorem Quiet.record? (node : Option NodeId) (type : TypeId) : Quiet c (record? node type) :=
  .forM_option fun _ => .record _ _

/-- One more report of the own file. -/
theorem Told.add (hr : c.recording = true) (d : Diagnostic) (s : State) :
    Told c [d] [d] s { s with diagnostics := s.diagnostics.modify c.file (· ++ [d]) } := by
  have hlog : ({ s with diagnostics := s.diagnostics.modify c.file (· ++ [d]) } : State).log
      c.file = ((s.diagnostics[c.file]?).map (· ++ [d])).getD [] := by
    unfold State.log
    rw [Array.getD_eq_getD_getElem?, Array.getElem?_modify, if_pos rfl]
  have hold : s.log c.file = (s.diagnostics[c.file]?).getD [] := Array.getD_eq_getD_getElem? ..
  refine ⟨rfl, Array.size_modify .., fun file hf => ⟨?_, rfl⟩, fun h => ?_, rfl,
    fun _ hn => hn, fun e he => ?_, fun hf e he _ => ?_, fun e he _ => ?_⟩
  · rw [Array.getElem?_modify, if_neg (Ne.symm hf)]
  · rw [hr] at h; cases h
  · rw [hold] at he
    rw [hlog]
    cases hd : s.diagnostics[c.file]? with
    | none => rw [hd] at he; cases he
    | some log => rw [hd] at he; exact List.mem_append_left _ he
  · rw [hlog, Array.getElem?_eq_getElem hf]
    exact List.mem_append_right _ he
  · rw [hlog] at he
    rw [hold]
    cases hd : s.diagnostics[c.file]? with
    | none => rw [hd] at he; cases he
    | some log => rw [hd] at he; exact List.mem_append.1 he

theorem Tells.span (start length : Nat) (p : Problem) (details : List Message)
    (hl : ∀ d ∈ l, Settled c d →
      c.recording = true ∧ d = p.diagnostic c.source.name start length details)
    (hm : c.recording = true → p.code ∉ typeCodes →
      p.diagnostic c.source.name start length details ∈ m) :
    Tells c l m (reportSpan start length p details) := by
  intro s
  cases hr : c.recording with
  | false =>
    have hsame : reportSpan start length p details c s = (((), c), s) := by
      show (if c.recording = true then _ else _ : Check Unit) c s = _
      rw [hr]
      rfl
    rw [hsame]
    refine ⟨rfl, ?_⟩
    refine ((SameRecord.refl s).told c).weaken (fun d hd hs => ?_) fun d hd => by cases hd
    rw [hr] at hl
    cases (hl d hd hs).1
  | true =>
    have hstep : reportSpan start length p details c s = (((), c), { s with
        diagnostics := s.diagnostics.modify c.file
          (· ++ [p.diagnostic c.source.name start length details]) }) := by
      show (if c.recording = true then _ else _ : Check Unit) c s = _
      rw [hr]
      rfl
    rw [hstep]
    refine ⟨rfl, ?_⟩
    refine (Told.add hr _ s).weaken (fun d hd hs => ?_) fun d hd hs => ?_
    · rw [(hl d hd hs).2]
      exact List.mem_singleton_self _
    · rw [List.mem_singleton] at hd
      subst hd
      exact hm hr hs.1

/-- A report that speaks of types. -/
theorem Quiet.reportWith {p : Problem} (hp : p.code ∈ typeCodes) (node : NodeId)
    (details : List Message) : Quiet c (reportWith node p details) := by
  refine Tells.read ?_
  split
  · exact Quiet.pure _
  · exact Tells.span _ _ _ _ (fun d hd => by cases hd) fun _ h => absurd hp h

theorem Quiet.report {p : Problem} (hp : p.code ∈ typeCodes) (node : NodeId) :
    Quiet c (report node p) :=
  .reportWith hp node []

theorem Reports.span (start length : Nat) (p : Problem) :
    Reports c (Survey.span c.place start length p) (reportSpan start length p []) := by
  refine Tells.span _ _ _ _ (fun d hd _ => ?_) fun hr _ => ?_
  · unfold Survey.span at hd
    split at hd
    · exact ⟨‹_›, List.mem_singleton.1 hd⟩
    · cases hd
  · unfold Survey.span
    rw [if_pos (show c.place.recording = true from hr)]
    exact List.mem_singleton_self _

theorem Reports.report (node : NodeId) (p : Problem) :
    Reports c (Survey.onNode c.place node p) (report node p) := by
  refine Tells.read ?_
  unfold Survey.onNode
  rw [show c.place.arena = c.arena from rfl]
  cases c.arena[node]? with
  | none => exact Quiet.pure _
  | some n => exact Reports.span _ _ _

theorem Reports.reportStart (node : NodeId) (length : Nat) (p : Problem) :
    Reports c (Survey.onStart c.place node length p) (reportStart node length p) := by
  refine Tells.read ?_
  unfold Survey.onStart
  rw [show c.place.arena = c.arena from rfl]
  cases c.arena[node]? with
  | none => exact Quiet.pure _
  | some n => exact Reports.span _ _ _

theorem Quiet.checkAssignable (source target : TypeId) (node : NodeId) :
    Quiet c (checkAssignable source target node) := by
  unfold Checking.checkAssignable
  refine (Quiet.assignable _ _).bind fun fits => ?_
  cases fits with
  | true => exact Quiet.pure _
  | false =>
    refine Quiet.table.bind fun t => .read ?_
    exact Quiet.reportWith (by simp [Problem.code, typeCodes]) _ _

theorem Quiet.exhaust : Quiet c exhaust :=
  .of_same fun _ => ⟨rfl, rfl, rfl, rfl⟩

end ScriptAnalysis.Checking
