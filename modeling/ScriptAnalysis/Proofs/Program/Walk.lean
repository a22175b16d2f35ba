import ScriptAnalysis.Proofs.Host.Simulation

/-!
# Walks over the files of a host

A walk asks a host about one path after the other: first for the version,
and then, when no parse of that version is remembered, for the text.

**Steps.** `Visited h g path s r` lists what a visit can do; everything else
about a walk is read off it. What every visit keeps, a walk keeps
(`gather_invariant`).

**Steady hosts.** Many hosts change when they are asked, but not in what
they answer to a walk: `Steady h`. A program sees of such a host its answers
at the start only, and it answers the same afterwards
(`synchronize_steady`).
-/
namespace ScriptAnalysis

namespace Program

/-! ## Steps -/

section

variable {σ : Type} {h : Host σ} {g : Gathered} {path : String} {s : σ}

/-- The paths that the imports of a file mean, those apart that have been
seen. -/
def importsOf (isThere : String → Bool) (seen : List String) (path : String)
    (source : SourceFile) : List String :=
  (source.imports.filterMap (Path.resolveModule path · isThere)).filter (!seen.contains ·)

/-- What a visit of a path can do: the path has no version; a parse of its
version is remembered; its text cannot be read; or it is parsed. -/
inductive Visited (h : Host σ) (g : Gathered) (path : String) (s : σ) :
    (List String × Gathered) × σ → Prop
  | absent (hversion : (h.version path s).1 = none) :
      Visited h g path s (([], { g with seen := path :: g.seen }), (h.version path s).2)
  | remembered {version : String} {file : ParsedFile}
      (hversion : (h.version path s).1 = some version)
      (hfile : (g.parsed.get? path).filter (·.version == version) = some file) :
      Visited h g path s
        ((importsOf (h.isThere (h.version path s).2) (path :: g.seen) path file.source,
          ⟨path :: g.seen, g.files ++ [(⟨path, version⟩, file.source)], g.parsed⟩),
          (h.version path s).2)
  | unreadable {version : String} (hversion : (h.version path s).1 = some version)
      (hfile : (g.parsed.get? path).filter (·.version == version) = none)
      (htext : (h.snapshot path (h.version path s).2).1 = none) :
      Visited h g path s (([], { g with seen := path :: g.seen }),
        (h.snapshot path (h.version path s).2).2)
  | parsed {version : String} {text : List Char} (hversion : (h.version path s).1 = some version)
      (hfile : (g.parsed.get? path).filter (·.version == version) = none)
      (htext : (h.snapshot path (h.version path s).2).1 = some text) :
      Visited h g path s
        ((importsOf (h.isThere (h.snapshot path (h.version path s).2).2) (path :: g.seen) path
            (.parse path text),
          ⟨path :: g.seen, g.files ++ [(⟨path, version⟩, .parse path text)],
            g.parsed.insert path ⟨version, .parse path text⟩⟩),
          (h.snapshot path (h.version path s).2).2)

theorem run_bind {α β : Type} (x : StateM σ α) (f : α → StateM σ β) (s : σ) :
    (x >>= f) s = f (x s).1 (x s).2 :=
  rfl

theorem sourceAt_eq (h : Host σ) (g : Gathered) (path version : String) (s : σ) :
    sourceAt h g path version s =
      match (g.parsed.get? path).filter (·.version == version) with
      | some file => (some (file.source, g), s)
      | none => ((h.snapshot path s).1.map fun text =>
          (.parse path text, { g with parsed := g.parsed.insert path ⟨version, .parse path text⟩ }),
          (h.snapshot path s).2) := by
  unfold sourceAt
  cases (g.parsed.get? path).filter (·.version == version) with
  | some file => rfl
  | none =>
    dsimp only
    rw [run_bind]
    cases (h.snapshot path s).1 <;> rfl

theorem visit_eq (h : Host σ) (g : Gathered) (path : String) (s : σ) :
    visit h g path s =
      match (h.version path s).1 with
      | none => (([], { g with seen := path :: g.seen }), (h.version path s).2)
      | some version =>
        let found := sourceAt h { g with seen := path :: g.seen } path version (h.version path s).2
        match found.1 with
        | none => (([], { g with seen := path :: g.seen }), found.2)
        | some (source, g) =>
          ((importsOf (h.isThere found.2) g.seen path source,
            { g with files := g.files ++ [(⟨path, version⟩, source)] }), found.2) := by
  show (match (h.version path s).1 with | none => _ | some version => _ : StateM σ _)
    (h.version path s).2 = _
  cases (h.version path s).1 with
  | none => rfl
  | some version =>
    show (match (sourceAt h { g with seen := path :: g.seen } path version
        (h.version path s).2).1 with
      | none => _
      | some (source, g) => _ : StateM σ _)
        (sourceAt h { g with seen := path :: g.seen } path version (h.version path s).2).2 = _
    dsimp only
    cases (sourceAt h { g with seen := path :: g.seen } path version (h.version path s).2).1 <;>
      rfl

/-- A visit does one of these things. -/
theorem visit_cases (h : Host σ) (g : Gathered) (path : String) (s : σ) :
    Visited h g path s (visit h g path s) := by
  rw [visit_eq]
  cases hversion : (h.version path s).1 with
  | none => exact .absent hversion
  | some version =>
    dsimp only
    rw [sourceAt_eq]
    dsimp only
    cases hfile : (g.parsed.get? path).filter (·.version == version) with
    | some file => exact .remembered hversion hfile
    | none =>
      cases htext : (h.snapshot path (h.version path s).2).1 with
      | none => exact .unreadable hversion hfile htext
      | some text => exact .parsed hversion hfile htext

theorem not_seen_of_dropWhile {seen queue rest : List String}
    (hq : queue.dropWhile (seen.contains ·) = path :: rest) : path ∉ seen := by
  have hhead := List.head?_dropWhile_not (seen.contains ·) queue
  rw [hq] at hhead
  simpa using hhead

/-- What every visit of a new path keeps, a walk keeps. -/
theorem gather_invariant {I : Gathered → σ → Prop}
    (hstep : ∀ g path s r, path ∉ g.seen → Visited h g path s r → I g s → I r.1.2 r.2)
    (n : Nat) (queue : List String) (g : Gathered) (s : σ) (hi : I g s) :
    I (gather h n queue g s).1 (gather h n queue g s).2 := by
  induction n generalizing queue g s with
  | zero => exact hi
  | succ n ih =>
    unfold gather
    cases hq : queue.dropWhile (g.seen.contains ·) with
    | nil => exact hi
    | cons path rest =>
      exact ih _ _ _ (hstep g path s _ (not_seen_of_dropWhile hq) (visit_cases h g path s) hi)

end

end Program

/-! ## Steady hosts -/

/-- The answers differ in nothing but the version of a path. -/
structure Answers.SameBut (path : String) (a b : Answers) : Prop where
  roots : b.roots = a.roots
  snapshot : b.snapshot = a.snapshot
  isThere : b.isThere = a.isThere
  fileBound : b.fileBound = a.fileBound
  version : ∀ q, q ≠ path → b.version q = a.version q

/-- Asked for a version, and then perhaps for the text, a host answers every
question as before. -/
def Host.Steady {σ : Type} (h : Host σ) : Prop :=
  ∀ s path, h.answers (h.version path s).2 = h.answers s ∧
    h.answers (h.snapshot path (h.version path s).2).2 = h.answers s

namespace Program

variable {σ : Type} {h : Host σ}

theorem visit_steady (hs : h.Steady) (g : Gathered) (path : String) (s : σ) :
    (visit h g path s).1 = (visit (h.answers s).host g path ()).1 ∧
      h.answers (visit h g path s).2 = h.answers s := by
  obtain ⟨hversion, hsnapshot⟩ := hs s path
  have htext : (h.snapshot path (h.version path s).2).1 = (h.snapshot path s).1 :=
    congrFun (congrArg Answers.snapshot hversion) path
  have hthere : h.isThere (h.version path s).2 = h.isThere s :=
    congrArg Answers.isThere hversion
  have hthere' : h.isThere (h.snapshot path (h.version path s).2).2 = h.isThere s :=
    congrArg Answers.isThere hsnapshot
  rw [visit_eq h, visit_eq (h.answers s).host,
    show ((h.answers s).host.version path ()).1 = (h.version path s).1 from rfl]
  cases (h.version path s).1 with
  | none => exact ⟨rfl, hversion⟩
  | some version =>
    dsimp only
    rw [sourceAt_eq h, sourceAt_eq (h.answers s).host]
    dsimp only
    cases (g.parsed.get? path).filter (·.version == version) with
    | some file => exact ⟨by dsimp only; rw [hthere]; rfl, hversion⟩
    | none =>
      dsimp only
      rw [htext, show ((h.answers s).host.snapshot path ()).1 = (h.snapshot path s).1 from rfl]
      cases (h.snapshot path s).1 with
      | none => exact ⟨rfl, hsnapshot⟩
      | some text => exact ⟨by dsimp only [Option.map_some]; rw [hthere']; rfl, hsnapshot⟩

theorem gather_steady (hs : h.Steady) (n : Nat) (queue : List String) (g : Gathered) (s : σ) :
    (gather h n queue g s).1 = (gather (h.answers s).host n queue g ()).1 ∧
      h.answers (gather h n queue g s).2 = h.answers s := by
  induction n generalizing queue g s with
  | zero => exact ⟨rfl, rfl⟩
  | succ n ih =>
    unfold gather
    cases queue.dropWhile (g.seen.contains ·) with
    | nil => exact ⟨rfl, rfl⟩
    | cons path rest =>
      obtain ⟨hfound, hsame⟩ := visit_steady hs g path s
      obtain ⟨hrest, hlast⟩ := ih (rest ++ (visit h g path s).1.1) (visit h g path s).1.2
        (visit h g path s).2
      rw [hsame] at hrest hlast
      refine ⟨hrest.trans ?_, hlast⟩
      rw [hfound]
      rfl

/-- A program sees of a steady host its answers at the start only, and the
host answers the same afterwards. -/
theorem synchronize_steady (hs : h.Steady) (p : Program) (s : σ) :
    (p.synchronize h s).1 = (p.synchronize (h.answers s).host ()).1 ∧
      h.answers (p.synchronize h s).2 = h.answers s := by
  obtain ⟨hfound, hsame⟩ := gather_steady hs
    (((h.roots s).map Path.normalize).length + h.fileBound s + 1)
    ((h.roots s).map Path.normalize) ⟨[], [], p.parsed⟩ s
  rw [synchronize_eq, synchronize_eq]
  exact ⟨congrArg p.settle hfound, hsame⟩

end Program

end ScriptAnalysis
