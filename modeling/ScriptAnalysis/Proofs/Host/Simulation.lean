import ScriptAnalysis.Program

/-!
# Hosts that cannot be told apart

A program sees of a host only what it answers. `Sim R h k` says that the
hosts `h` and `k` answer alike in states that `R` relates and stay related;
a program brought up to date by either is then the same (`synchronize_sim`).

**Fixed answers.** `Fixed h s` says that from state `s` on the host answers
every question as it does in `s`, whatever else it is asked first. Such a
host is as good as its `Answers`, which are a host without a state
(`synchronize_fixed`).

**Watching.** `recorded` is a host that writes down what it answers. A
program does not notice (`recorded_sim`), and what no question can break
holds after a program was brought up to date (`synchronize_preserves`).
-/
namespace ScriptAnalysis

namespace Host

variable {σ τ : Type}

/-- `h` and `k` answer alike in related states, and stay related. -/
structure Sim (R : σ → τ → Prop) (h : Host σ) (k : Host τ) : Prop where
  roots : ∀ s t, R s t → h.roots s = k.roots t
  isThere : ∀ s t, R s t → h.isThere s = k.isThere t
  fileBound : ∀ s t, R s t → h.fileBound s = k.fileBound t
  version : ∀ s t path, R s t →
    (h.version path s).1 = (k.version path t).1 ∧ R (h.version path s).2 (k.version path t).2
  snapshot : ∀ s t path, R s t →
    (h.snapshot path s).1 = (k.snapshot path t).1 ∧ R (h.snapshot path s).2 (k.snapshot path t).2

/-- Two steps give the same from related states and end in related ones. -/
def Alike {α : Type} (R : σ → τ → Prop) (x : StateM σ α) (y : StateM τ α) : Prop :=
  ∀ s t, R s t → (x s).1 = (y t).1 ∧ R (x s).2 (y t).2

theorem Alike.pure {α : Type} (R : σ → τ → Prop) (a : α) :
    Alike R (Pure.pure a : StateM σ α) (Pure.pure a : StateM τ α) :=
  fun _ _ hr => ⟨rfl, hr⟩

theorem Alike.bind {α β : Type} {R : σ → τ → Prop} {x : StateM σ α} {y : StateM τ α}
    {f : α → StateM σ β} {g : α → StateM τ β} (hx : Alike R x y) (hf : ∀ a, Alike R (f a) (g a)) :
    Alike R (x >>= f) (y >>= g) := by
  intro s t hr
  obtain ⟨h1, h2⟩ := hx s t hr
  show (f (x s).1 (x s).2).1 = (g (y t).1 (y t).2).1 ∧
    R (f (x s).1 (x s).2).2 (g (y t).1 (y t).2).2
  rw [← h1]
  exact hf _ _ _ h2

/-- What is read off related states is the same. -/
theorem Alike.get_bind {α β : Type} {R : σ → τ → Prop} {f : σ → StateM σ β} {g : τ → StateM τ β}
    {u : σ → α} {v : τ → α} {F : α → StateM σ β} {G : α → StateM τ β}
    (hu : ∀ s t, R s t → u s = v t) (hf : ∀ s, f s = F (u s)) (hg : ∀ t, g t = G (v t))
    (h : ∀ a, Alike R (F a) (G a)) :
    Alike R ((get : StateM σ σ) >>= f) ((get : StateM τ τ) >>= g) := by
  intro s t hr
  show (f s s).1 = (g t t).1 ∧ R (f s s).2 (g t t).2
  rw [hf, hg, hu s t hr]
  exact h _ _ _ hr

end Host

namespace Program

open Host

variable {σ τ : Type} {R : σ → τ → Prop} {h : Host σ} {k : Host τ}

theorem sourceAt_sim (hs : Sim R h k) (g : Gathered) (path version : String) :
    Alike R (sourceAt h g path version) (sourceAt k g path version) := by
  unfold sourceAt
  split
  · exact .pure R _
  · refine .bind (fun s t hr => hs.snapshot s t path hr) fun text => ?_
    cases text with
    | none => exact .pure R _
    | some text => exact .pure R _

theorem visit_sim (hs : Sim R h k) (g : Gathered) (path : String) :
    Alike R (visit h g path) (visit k g path) := by
  unfold visit
  refine .bind (fun s t hr => hs.version s t path hr) fun version => ?_
  cases version with
  | none => exact .pure R _
  | some version =>
    refine .bind (sourceAt_sim hs _ path version) fun found => ?_
    cases found with
    | none => exact .pure R _
    | some found =>
      exact .get_bind hs.isThere (F := fun isThere => pure
          ((found.1.imports.filterMap (Path.resolveModule path · isThere)).filter
              (!found.2.seen.contains ·),
            { found.2 with files := found.2.files ++ [(⟨path, version⟩, found.1)] }))
        (G := fun isThere => pure
          ((found.1.imports.filterMap (Path.resolveModule path · isThere)).filter
              (!found.2.seen.contains ·),
            { found.2 with files := found.2.files ++ [(⟨path, version⟩, found.1)] }))
        (fun _ => rfl) (fun _ => rfl) (fun _ => .pure R _)

theorem gather_sim (hs : Sim R h k) (n : Nat) (queue : List String) (g : Gathered) :
    Alike R (gather h n queue g) (gather k n queue g) := by
  induction n generalizing queue g with
  | zero => exact .pure R _
  | succ n ih =>
    unfold gather
    split
    · exact .pure R _
    · exact .bind (visit_sim hs g _) fun r => ih _ r.2

/-- What a program becomes when a walk has found `g`. -/
def settle (p : Program) (g : Gathered) : Bool × Program :=
  let files := g.files.map Prod.fst
  let parsed := g.parsed.filter fun path _ => files.any (·.path == path)
  if p.checker.isSome && files == p.files then (false, { p with parsed := parsed })
  else (true, { p with
    parsed := parsed
    files := files
    checker := some (Checker.ofFiles (g.files.map Prod.snd) p.options.checking) })

/-- A round of synchronization is a walk from the roots and a decision. -/
theorem synchronize_eq (p : Program) (h : Host σ) :
    p.synchronize h = do
      let host ← get
      let roots := (h.roots host).map Path.normalize
      let g ← gather h (roots.length + h.fileBound host + 1) roots ⟨[], [], p.parsed⟩
      return p.settle g := by
  unfold synchronize settle
  refine bind_congr fun host => bind_congr fun g => ?_
  dsimp only
  split <;> rfl

/-- Programs cannot tell hosts apart that answer alike. -/
theorem synchronize_sim (hs : Sim R h k) (p : Program) :
    Alike R (p.synchronize h) (p.synchronize k) := by
  rw [synchronize_eq, synchronize_eq]
  exact .get_bind (u := fun s => ((h.roots s).map Path.normalize, h.fileBound s))
    (v := fun t => ((k.roots t).map Path.normalize, k.fileBound t))
    (F := fun a => do return p.settle (← gather h (a.1.length + a.2 + 1) a.1 ⟨[], [], p.parsed⟩))
    (G := fun a => do return p.settle (← gather k (a.1.length + a.2 + 1) a.1 ⟨[], [], p.parsed⟩))
    (fun s t hr => by rw [hs.roots s t hr, hs.fileBound s t hr]) (fun _ => rfl) (fun _ => rfl)
    (fun _ => .bind (gather_sim hs _ _ _) fun _ => .pure R _)

end Program

/-! ## Fixed answers -/

/-- All that a host can be asked, with what it answers. -/
structure Answers where
  roots : List String
  version : String → Option String
  snapshot : String → Option (List Char)
  isThere : String → Bool
  fileBound : Nat

/-- Answers are a host that has no state. -/
def Answers.host (a : Answers) : Host Unit where
  roots _ := a.roots
  version path := return a.version path
  snapshot path := return a.snapshot path
  isThere _ := a.isThere
  fileBound _ := a.fileBound

namespace Host

variable {σ : Type}

/-- What a host answers in a state. -/
def answers (h : Host σ) (s : σ) : Answers where
  roots := h.roots s
  version path := (h.version path s).1
  snapshot path := (h.snapshot path s).1
  isThere := h.isThere s
  fileBound := h.fileBound s

/-- The questions that may change the state of a host. -/
inductive Question where
  | version (path : String)
  | snapshot (path : String)

/-- The state of a host after it was asked some questions. -/
def after (h : Host σ) : List Question → σ → σ
  | [], s => s
  | .version path :: rest, s => h.after rest (h.version path s).2
  | .snapshot path :: rest, s => h.after rest (h.snapshot path s).2

theorem after_append (h : Host σ) (a b : List Question) (s : σ) :
    h.after (a ++ b) s = h.after b (h.after a s) := by
  induction a generalizing s with
  | nil => rfl
  | cons q rest ih => cases q <;> exact ih _

/-- Whatever a host is asked from `s` on, it answers as in `s`. -/
def Fixed (h : Host σ) (s : σ) : Prop :=
  ∀ qs, h.answers (h.after qs s) = h.answers s

/-- A host with fixed answers behaves as its answers. -/
theorem Fixed.sim {h : Host σ} {s : σ} (hf : h.Fixed s) :
    Sim (fun t _ => ∃ qs, t = h.after qs s) h (h.answers s).host where
  roots := by rintro _ _ ⟨qs, rfl⟩; exact congrArg Answers.roots (hf qs)
  isThere := by rintro _ _ ⟨qs, rfl⟩; exact congrArg Answers.isThere (hf qs)
  fileBound := by rintro _ _ ⟨qs, rfl⟩; exact congrArg Answers.fileBound (hf qs)
  version := by
    rintro _ _ path ⟨qs, rfl⟩
    refine ⟨congrFun (congrArg Answers.version (hf qs)) path, qs ++ [.version path], ?_⟩
    rw [after_append]; rfl
  snapshot := by
    rintro _ _ path ⟨qs, rfl⟩
    refine ⟨congrFun (congrArg Answers.snapshot (hf qs)) path, qs ++ [.snapshot path], ?_⟩
    rw [after_append]; rfl

end Host

/-- A program sees of a host with fixed answers these answers only. -/
theorem Program.synchronize_fixed {σ : Type} {h : Host σ} {s : σ} (hf : h.Fixed s)
    (p : Program) : (p.synchronize h s).1 = (p.synchronize (h.answers s).host ()).1 :=
  (synchronize_sim hf.sim p s () ⟨[], rfl⟩).1

/-! ## Watching a host -/

/-- What a host was asked and what it answered. -/
inductive Answer where
  | version (path : String) (given : Option String)
  | snapshot (path : String) (text : Option (List Char))
  deriving DecidableEq, Repr

/-- The same host, with all that it answers written down. -/
def Host.recorded {σ : Type} (h : Host σ) : Host (σ × List Answer) where
  roots s := h.roots s.1
  version path s := ((h.version path s.1).1, (h.version path s.1).2,
    s.2 ++ [.version path (h.version path s.1).1])
  snapshot path s := ((h.snapshot path s.1).1, (h.snapshot path s.1).2,
    s.2 ++ [.snapshot path (h.snapshot path s.1).1])
  isThere s := h.isThere s.1
  fileBound s := h.fileBound s.1

/-- Writing down what a host answers does not change it. -/
theorem Host.recorded_sim {σ : Type} (h : Host σ) : Sim (fun s t => s.1 = t) h.recorded h where
  roots := by rintro s _ rfl; rfl
  isThere := by rintro s _ rfl; rfl
  fileBound := by rintro s _ rfl; rfl
  version := by rintro s _ path rfl; exact ⟨rfl, rfl⟩
  snapshot := by rintro s _ path rfl; exact ⟨rfl, rfl⟩

/-- What no question to a host can break, a program brought up to date does
not break either. -/
theorem Program.synchronize_preserves {σ : Type} {h : Host σ} {I : σ → Prop}
    (hversion : ∀ s path, I s → I (h.version path s).2)
    (hsnapshot : ∀ s path, I s → I (h.snapshot path s).2) (p : Program) {s : σ} (hs : I s) :
    I (p.synchronize h s).2 := by
  have sim : Host.Sim (fun s t => I s ∧ s = t) h h :=
    { roots := by rintro s _ ⟨-, rfl⟩; rfl
      isThere := by rintro s _ ⟨-, rfl⟩; rfl
      fileBound := by rintro s _ ⟨-, rfl⟩; rfl
      version := by rintro s _ path ⟨hi, rfl⟩; exact ⟨rfl, hversion s path hi, rfl⟩
      snapshot := by rintro s _ path ⟨hi, rfl⟩; exact ⟨rfl, hsnapshot s path hi, rfl⟩ }
  exact (synchronize_sim sim p s s ⟨hs, rfl⟩).2.1

end ScriptAnalysis
