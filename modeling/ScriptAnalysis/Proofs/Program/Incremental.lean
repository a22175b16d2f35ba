import ScriptAnalysis.Host.Memory
import ScriptAnalysis.Proofs.Program.Walk

/-!
# Keeping a program up to date is as good as making it anew

A program parses a file again only when its version has changed, forgets
the parses of files that have left it, and keeps its checker when no file
has changed. Here: none of that can be seen in its files.

**Runs.** `Run o last p` holds of the programs `p` with options `o` that come
out of any number of rounds of synchronization, the last one against the
host of `last`, with any questions asked in between. Each round is against
a host with fixed answers (`Round`), and a host may hand out an old version
of a file of the program only for the text that it was handed out for
before (`Round.Honest`).

**Invariant.** `UpToDate a p`: the checker holds the parses of exactly the
files of the program, as the answers `a` of the last host give them, and
what is kept of earlier parses are these too.

**Results.**
* `gather_agree`: walks that differ only in what they remember of earlier
  walks find the same files with the same parses.
* `Run.standsAt`: the invariant holds after every round of a run.
* `synchronize_eq_fresh`: after every round the files, their versions, their
  order and their parses are those of a new program after one round against
  the same host; and a round that says that nothing has changed is right.
-/
namespace ScriptAnalysis

/-- The parse of a file, if there is a text to parse. -/
def Answers.source? (a : Answers) (path : String) : Option SourceFile :=
  (a.snapshot path).map (SourceFile.parse path)

theorem Table.lookup_filter_key {κ ν : Type} [DecidableEq κ] (q : κ → Bool) (k : κ)
    (l : List (κ × ν)) :
    Table.lookup k (l.filter fun e => q e.1) = if q k then Table.lookup k l else none := by
  induction l with
  | nil => simp [Table.lookup]
  | cons e rest ih =>
    obtain ⟨a, b⟩ := e
    by_cases ha : a = k
    · subst ha
      by_cases hq : q a <;> simp_all [Table.lookup]
    · by_cases hq : q a <;> simp_all [Table.lookup]

/-- A table that keeps some keys answers for these as before. -/
theorem Table.get?_filter_key {κ ν : Type} [DecidableEq κ] (t : Table κ ν) (q : κ → Bool) (k : κ) :
    (t.filter fun k _ => q k).get? k = if q k then t.get? k else none :=
  Table.lookup_filter_key q k t.entries

namespace Program

/-! ## What a walk finds -/

/-- The file at a path, if there is one. -/
def fileAt (a : Answers) (path : String) : List (FileVersion × SourceFile) :=
  match a.version path, a.source? path with
  | some version, some source => [(⟨path, version⟩, source)]
  | _, _ => []

/-- The paths that the imports of the file at a path mean, those apart that
have been seen. -/
def importsAt (a : Answers) (seen : List String) (path : String) : List String :=
  (fileAt a path).flatMap fun e =>
    (e.2.imports.filterMap (Path.resolveModule path · a.isThere)).filter (!seen.contains ·)

/-- What is remembered is right: a parse that would be used again is the
parse of the present text, and the files found so far are those that the
answers give. -/
structure Valid (a : Answers) (g : Gathered) : Prop where
  sound : ∀ path f, g.parsed.get? path = some f → a.version path = some f.version →
    a.source? path = some f.source
  found : ∀ e ∈ g.files, e.1.path ∈ g.seen ∧ a.version e.1.path = some e.1.version ∧
    a.source? e.1.path = some e.2 ∧ g.parsed.get? e.1.path = some ⟨e.1.version, e.2⟩

theorem valid_start (a : Answers) (parsed : Table String ParsedFile)
    (h : ∀ path f, parsed.get? path = some f → a.version path = some f.version →
      a.source? path = some f.source) : Valid a ⟨[], [], parsed⟩ :=
  ⟨h, by simp⟩

theorem valid_seen {a : Answers} {g : Gathered} (hv : Valid a g) (path : String) :
    Valid a { g with seen := path :: g.seen } :=
  ⟨hv.sound, fun e he => ⟨List.mem_cons_of_mem _ (hv.found e he).1, (hv.found e he).2⟩⟩

/-- Without a state, a step after another takes its answer only. -/
theorem bind_unit {α β : Type} (x : StateM Unit α) (f : α → StateM Unit β) :
    ((x >>= f) ()).1 = (f (x ()).1 ()).1 := rfl

/-- A parse is taken from what is remembered when the version is known, and
is made otherwise. -/
theorem sourceAt_host (a : Answers) (g : Gathered) (path version : String) :
    (sourceAt a.host g path version ()).1 =
      match (g.parsed.get? path).filter (·.version == version) with
      | some file => some (file.source, g)
      | none => (a.source? path).map fun source =>
          (source, { g with parsed := g.parsed.insert path ⟨version, source⟩ }) := by
  rw [sourceAt_eq, show (a.host.snapshot path ()).1 = a.snapshot path from rfl]
  unfold Answers.source?
  cases (g.parsed.get? path).filter (·.version == version) with
  | some file => rfl
  | none => cases a.snapshot path <;> rfl

/-- Looking up a parse gives the parse of the present text. What is
remembered afterwards is that parse and all that was remembered before. -/
theorem sourceAt_valid {a : Answers} {g : Gathered} (hv : Valid a g) {path version : String}
    (hver : a.version path = some version) {source : SourceFile}
    (hsrc : a.source? path = some source) :
    ∃ parsed, (sourceAt a.host g path version ()).1 = some (source, { g with parsed := parsed }) ∧
      ∀ q, parsed.get? q = if path = q then some ⟨version, source⟩ else g.parsed.get? q := by
  rw [sourceAt_host]
  split
  · rename_i f hc
    obtain ⟨hget, hf⟩ := Option.filter_eq_some_iff.1 hc
    have hfv : f.version = version := by simpa using hf
    have hfs := hv.sound path f hget (by rw [hver, hfv])
    rw [hsrc, Option.some.injEq] at hfs
    refine ⟨g.parsed, by rw [hfs], fun q => ?_⟩
    split
    · rename_i hq
      rw [← hq, hget, hfs, ← hfv]
    · rfl
  · exact ⟨_, by rw [hsrc]; rfl, fun q => Table.get?_insert _ _ _ _⟩

theorem sourceAt_none {a : Answers} {g : Gathered} (hv : Valid a g) {path version : String}
    (hver : a.version path = some version) (hsrc : a.source? path = none) :
    (sourceAt a.host g path version ()).1 = none := by
  rw [sourceAt_host]
  split
  · rename_i f hc
    obtain ⟨hget, hf⟩ := Option.filter_eq_some_iff.1 hc
    have hfv : f.version = version := by simpa using hf
    rw [hv.sound path f hget (by rw [hver, hfv])] at hsrc
    cases hsrc
  · rw [hsrc]; rfl

theorem visit_host (a : Answers) (g : Gathered) (path : String) :
    (visit a.host g path ()).1 =
      match a.version path with
      | none => ([], { g with seen := path :: g.seen })
      | some version =>
        match (sourceAt a.host { g with seen := path :: g.seen } path version ()).1 with
        | none => ([], { g with seen := path :: g.seen })
        | some (source, g) =>
          ((source.imports.filterMap (Path.resolveModule path · a.isThere)).filter
              (!g.seen.contains ·),
            { g with files := g.files ++ [(⟨path, version⟩, source)] }) := by
  rw [visit_eq, show (a.host.version path ()).1 = a.version path from rfl]
  cases a.version path with
  | none => rfl
  | some version =>
    dsimp only
    cases (sourceAt a.host { g with seen := path :: g.seen } path version ()).1 <;> rfl

/-- A visit adds the file at the path, if there is one, and finds its
imports, whatever is remembered. -/
theorem visit_valid {a : Answers} {g : Gathered} (hv : Valid a g) {path : String}
    (hp : path ∉ g.seen) :
    ∃ parsed, (visit a.host g path ()).1 = (importsAt a (path :: g.seen) path,
        ⟨path :: g.seen, g.files ++ fileAt a path, parsed⟩) ∧
      Valid a ⟨path :: g.seen, g.files ++ fileAt a path, parsed⟩ := by
  have hseen := valid_seen hv path
  rw [visit_host]
  unfold importsAt fileAt
  cases hver : a.version path with
  | none => exact ⟨g.parsed, by simp, by simpa using hseen⟩
  | some version =>
    cases hsrc : a.source? path with
    | none =>
      dsimp only
      rw [sourceAt_none hseen hver hsrc]
      exact ⟨g.parsed, by simp, by simpa using hseen⟩
    | some source =>
      obtain ⟨parsed, hat, hget⟩ := sourceAt_valid hseen hver hsrc
      dsimp only
      rw [hat]
      refine ⟨parsed, by simp, ?_, ?_⟩
      · intro q f hq hfv
        rw [hget] at hq
        split at hq
        · rename_i hpq
          cases hq; rw [← hpq, hsrc]
        · exact hv.sound q f hq hfv
      · intro e he
        rcases List.mem_append.1 he with he | he
        · obtain ⟨h1, h2, h3, h4⟩ := hv.found e he
          -- a file found before is at another path, since this one is new
          have hne : path ≠ e.1.path := fun h => hp (h ▸ h1)
          exact ⟨List.mem_cons_of_mem _ h1, h2, h3, by rw [hget, if_neg hne]; exact h4⟩
        · rw [List.mem_singleton] at he
          subst he
          exact ⟨List.mem_cons_self, hver, hsrc, by rw [hget, if_pos rfl]⟩

/-- Walks that differ only in what they remember find the same files with
the same parses. -/
theorem gather_agree {a : Answers} (n : Nat) (queue : List String) {g g' : Gathered}
    (hv : Valid a g) (hv' : Valid a g') (hseen : g.seen = g'.seen) (hfiles : g.files = g'.files) :
    Valid a (gather a.host n queue g ()).1 ∧ Valid a (gather a.host n queue g' ()).1 ∧
      (gather a.host n queue g ()).1.files = (gather a.host n queue g' ()).1.files := by
  induction n generalizing queue g g' with
  | zero => exact ⟨hv, hv', hfiles⟩
  | succ n ih =>
    unfold gather
    rw [← hseen]
    cases hq : queue.dropWhile (g.seen.contains ·) with
    | nil => exact ⟨hv, hv', hfiles⟩
    | cons path rest =>
      have hp : path ∉ g.seen := not_seen_of_dropWhile hq
      obtain ⟨parsed, hr, hn⟩ := visit_valid hv hp
      obtain ⟨parsed', hr', hn'⟩ := visit_valid hv' (hseen ▸ hp)
      dsimp only
      rw [bind_unit, bind_unit, hr, hr', ← hseen]
      exact ih _ hn (hseen ▸ hn') rfl (by rw [hfiles])

/-! ## Programs that are up to date -/

/-- The program holds the files that the answers give: its checker their
parses in order, and its memory their parses and nothing else. -/
structure UpToDate (a : Answers) (p : Program) : Prop where
  checked : ∃ k, p.checker = some k ∧
    k.files.toList.map some = p.files.map fun f => a.source? f.path
  kept : ∀ path f, p.parsed.get? path = some f →
    ⟨path, f.version⟩ ∈ p.files ∧ a.source? path = some f.source
  complete : ∀ f ∈ p.files, ∃ source, p.parsed.get? f.path = some ⟨f.version, source⟩

theorem sourceFile?_congr {p q : Program}
    (h : p.checker.map Checker.files = q.checker.map Checker.files) (path : String) :
    p.sourceFile? path = q.sourceFile? path := by
  unfold sourceFile? find?
  cases hp : p.checker with
  | none => cases hq : q.checker <;> simp_all
  | some k =>
    cases hq : q.checker with
    | none => simp_all
    | some l =>
      rw [hp, hq, Option.map_some, Option.map_some, Option.some.injEq] at h
      simp only [Option.bind_eq_bind, Option.bind_some, Checker.fileId?, h, Option.pure_def]
      cases Binding.lastIndex? (l.files.toList.map SourceFile.name) (Path.normalize path) with
      | none => rfl
      | some id => simp [h]

/-- Programs with the same files, up to date with the same answers, hold the
same parses. -/
theorem UpToDate.same {a : Answers} {p q : Program} (hp : UpToDate a p) (hq : UpToDate a q)
    (hf : p.files = q.files) : (∀ path, p.sourceFile? path = q.sourceFile? path) ∧
      ∀ path, p.parsed.get? path = q.parsed.get? path := by
  have half : ∀ {p q : Program}, UpToDate a p → UpToDate a q → p.files = q.files → ∀ path f,
      p.parsed.get? path = some f → q.parsed.get? path = some f := by
    intro p q hp hq hf path f hget
    obtain ⟨hmem, hsrc⟩ := hp.kept path f hget
    obtain ⟨source, hget'⟩ := hq.complete _ (hf ▸ hmem)
    have hsrc' := (hq.kept _ _ hget').2
    rw [hsrc, Option.some.injEq] at hsrc'
    dsimp only at hget' hsrc'
    rw [hget', ← hsrc']
  constructor
  · obtain ⟨k, hk, hks⟩ := hp.checked
    obtain ⟨l, hl, hls⟩ := hq.checked
    have hkl : k.files.toList.map some = l.files.toList.map some := by rw [hks, hls, hf]
    have hkl' : k.files = l.files :=
      Array.toList_inj.1 (List.map_inj_right (fun _ _ => Option.some.inj) |>.1 hkl)
    exact sourceFile?_congr (by rw [hk, hl, Option.map_some, Option.map_some, hkl'])
  · intro path
    exact Option.ext fun f => ⟨half hp hq hf path f, half hq hp hf.symm path f⟩

/-- Only the texts of the program's own files matter. -/
theorem UpToDate.of_same_sources {a b : Answers} {p : Program} (hp : UpToDate a p)
    (h : ∀ f ∈ p.files, b.source? f.path = a.source? f.path) : UpToDate b p where
  checked := by
    obtain ⟨k, hk, hks⟩ := hp.checked
    exact ⟨k, hk, hks.trans (List.map_congr_left fun f hf => (h f hf).symm)⟩
  kept path f hget := by
    obtain ⟨hmem, hsrc⟩ := hp.kept path f hget
    exact ⟨hmem, (h _ hmem).trans hsrc⟩
  complete := hp.complete

theorem files_settle (p : Program) (g : Gathered) :
    (p.settle g).2.files = g.files.map Prod.fst := by
  unfold settle; dsimp only
  split
  · rename_i h
    simp only [Bool.and_eq_true, beq_iff_eq] at h
    exact h.2.symm
  · rfl

/-- Only the files of the program stay parsed. -/
theorem parsed_settle (p : Program) (g : Gathered) (path : String) :
    (p.settle g).2.parsed.get? path =
      if (g.files.map Prod.fst).any (·.path == path) then g.parsed.get? path else none := by
  unfold settle; dsimp only
  split <;> exact Table.get?_filter_key _ _ _

/-- What is made of a valid walk is up to date, if the checker that is kept
when no file has changed was. -/
theorem settle_upToDate {a : Answers} {p : Program} {g : Gathered} (hv : Valid a g)
    (hsame : p.checker.isSome → g.files.map Prod.fst = p.files → UpToDate a p) :
    UpToDate a (p.settle g).2 ∧ (p.settle g).2.files = g.files.map Prod.fst := by
  refine ⟨⟨?_, ?_, ?_⟩, files_settle p g⟩
  · rw [files_settle]
    unfold settle; dsimp only
    split
    · rename_i h
      simp only [Bool.and_eq_true, beq_iff_eq] at h
      rw [h.2]
      exact (hsame h.1 h.2).checked
    · refine ⟨_, rfl, ?_⟩
      simp only [Checker.ofFiles, List.toList_toArray, List.map_map]
      exact List.map_congr_left fun e he => (hv.found e he).2.2.1.symm
  · intro path f hget
    rw [parsed_settle] at hget
    split at hget
    · rename_i hany
      obtain ⟨_, hmem, hpath⟩ := List.any_eq_true.1 hany
      obtain ⟨e, he, rfl⟩ := List.mem_map.1 hmem
      obtain ⟨-, -, hsrc, hmine⟩ := hv.found e he
      rw [beq_iff_eq] at hpath
      rw [hpath, hget, Option.some.injEq] at hmine
      rw [files_settle, hmine, ← hpath]
      exact ⟨hmem, hsrc⟩
    · cases hget
  · intro f hf
    rw [files_settle] at hf
    obtain ⟨e, he, rfl⟩ := List.mem_map.1 hf
    refine ⟨e.2, ?_⟩
    rw [parsed_settle, if_pos (List.any_eq_true.2 ⟨e.1, hf, by simp⟩)]
    exact (hv.found e he).2.2.2

/-! ## Questions -/

theorem checkFile_files (k : Checker) (file : FileId) : (k.checkFile file).files = k.files := by
  unfold Checker.checkFile
  split <;> rfl

theorem typeAt_files (k : Checker) (file : FileId) (node : NodeId) :
    (k.typeAt file node).2.files = k.files := by
  unfold Checker.typeAt
  split
  · rfl
  · dsimp only
    split <;> exact checkFile_files k file

theorem functionSignature_files (k : Checker) (file : FileId) (node : NodeId) :
    (k.functionSignature file node).2.files = k.files := by
  unfold Checker.functionSignature
  split
  · rfl
  · exact checkFile_files k file

/-- A question may teach the checker something about its files. -/
inductive Asked : Program → Program → Prop
  | diagnostics (p : Program) (path : String) : Asked p (p.diagnostics path).2
  | typeAt (p : Program) (path : String) (node : NodeId) : Asked p (p.typeAt path node).2
  | signatureOf (p : Program) (path : String) (node : NodeId) : Asked p (p.signatureOf path node).2

theorem checker_of_find? {p : Program} {path : String} {k : Checker} {id : FileId}
    (h : p.find? path = some (k, id)) : p.checker = some k := by
  unfold find? at h
  cases hc : p.checker with
  | none => rw [hc] at h; cases h
  | some l =>
    rw [hc] at h
    simp only [Option.bind_eq_bind, Option.bind_some, Option.bind_eq_some_iff] at h
    obtain ⟨_, _, heq⟩ := h
    cases heq; rfl

/-- A question changes nothing but what the checker knows. -/
theorem Asked.same {p q : Program} (h : Asked p q) : q.files = p.files ∧ q.parsed = p.parsed ∧
    q.checker.map Checker.files = p.checker.map Checker.files := by
  cases h with
  | diagnostics path =>
    unfold Program.diagnostics
    split
    · rename_i k id source hk _
      split
      · refine ⟨rfl, rfl, ?_⟩
        rw [checker_of_find? hk]
        exact congrArg some (checkFile_files k id)
      · exact ⟨rfl, rfl, rfl⟩
    · exact ⟨rfl, rfl, rfl⟩
  | typeAt path node =>
    unfold Program.typeAt
    split
    · exact ⟨rfl, rfl, rfl⟩
    · rename_i k id hk
      refine ⟨rfl, rfl, ?_⟩
      rw [checker_of_find? hk]
      exact congrArg some (typeAt_files k id node)
  | signatureOf path node =>
    unfold Program.signatureOf
    split
    · exact ⟨rfl, rfl, rfl⟩
    · rename_i k id hk
      refine ⟨rfl, rfl, ?_⟩
      rw [checker_of_find? hk]
      exact congrArg some (functionSignature_files k id node)

theorem UpToDate.asked {a : Answers} {p q : Program} (hp : UpToDate a p) (h : Asked p q) :
    UpToDate a q := by
  obtain ⟨hf, hparsed, hk⟩ := h.same
  obtain ⟨k, hpk, hks⟩ := hp.checked
  rw [hpk, Option.map_some] at hk
  obtain ⟨l, hql, hl⟩ := Option.map_eq_some_iff.1 hk
  exact ⟨⟨l, hql, by rw [hl, hf]; exact hks⟩, by rw [hf, hparsed]; exact hp.kept,
    by rw [hf, hparsed]; exact hp.complete⟩

end Program

/-! ## Rounds and runs -/

/-- A host in a state from which on its answers are fixed. -/
structure Round where
  {σ : Type}
  host : Host σ
  state : σ
  fixed : host.Fixed state

namespace Round

def answers (r : Round) : Answers := r.host.answers r.state

/-- After the round `last`, which left the program `p`: a file of the program
that comes with the version it had comes with the text it had, or as before
without one. -/
def Honest (last : Option Round) (p : Program) (next : Round) : Prop :=
  ∀ r ∈ last, ∀ f ∈ p.files, next.answers.version f.path = some f.version →
    next.answers.snapshot f.path = r.answers.snapshot f.path

end Round

namespace Program

/-- Whether a round checks a program anew, and what it makes of it. -/
def synced (p : Program) (r : Round) : Bool × Program :=
  (p.synchronize r.host r.state).1

/-- The programs that some rounds of synchronization lead to, with the last
of these rounds. Questions may be asked at any time. -/
inductive Run (o : CompilerOptions) : Option Round → Program → Prop
  | start : Run o none (ofOptions o)
  | ask {last : Option Round} {p q : Program} : Run o last p → Asked p q → Run o last q
  | round {last : Option Round} {p : Program} (next : Round) : Run o last p →
      Round.Honest last p next → Run o (some next) (p.synced next).2

/-- The walk of a round. -/
def found (a : Answers) (parsed : Table String ParsedFile) : Gathered :=
  let roots := a.roots.map Path.normalize
  (gather a.host (roots.length + a.fileBound + 1) roots ⟨[], [], parsed⟩ ()).1

theorem synced_eq (p : Program) (r : Round) : p.synced r = p.settle (found r.answers p.parsed) := by
  unfold synced
  rw [synchronize_fixed r.fixed, synchronize_eq]
  rfl

/-- Where a program stands after the round `last`: up to date with it. A
program that has had no round has no checker and remembers nothing. -/
def StandsAt (p : Program) : Option Round → Prop
  | none => p.checker = none ∧ p.parsed = .empty
  | some r => UpToDate r.answers p

section

variable {last : Option Round} {p : Program} {next : Round}

/-- An honest host lets a program use again what it remembers. -/
theorem StandsAt.valid (hp : p.StandsAt last) (hh : Round.Honest last p next) :
    Valid next.answers ⟨[], [], p.parsed⟩ := by
  apply valid_start
  intro path f hget hver
  cases last with
  | none =>
    rw [hp.2] at hget
    cases hget
  | some r =>
    obtain ⟨hmem, hsrc⟩ := UpToDate.kept hp path f hget
    have hsnap := hh r rfl _ hmem hver
    rw [Answers.source?, hsnap]
    exact hsrc

theorem found_valid (hp : p.StandsAt last) (hh : Round.Honest last p next) :
    Valid next.answers (found next.answers p.parsed) :=
  (gather_agree _ _ (hp.valid hh) (hp.valid hh) rfl rfl).1

/-- When a round finds the files of the program in their old versions, the
program was up to date before. -/
theorem StandsAt.unchanged (hp : p.StandsAt last) (hh : Round.Honest last p next)
    (hk : p.checker.isSome) (hf : (found next.answers p.parsed).files.map Prod.fst = p.files) :
    UpToDate next.answers p := by
  cases last with
  | none => rw [hp.1] at hk; cases hk
  | some r =>
    refine UpToDate.of_same_sources hp fun f hmem => ?_
    rw [← hf] at hmem
    obtain ⟨e, he, rfl⟩ := List.mem_map.1 hmem
    have hver := ((found_valid hp hh).found e he).2.1
    have hsnap := hh r rfl e.1 (hf ▸ hmem) hver
    rw [Answers.source?, hsnap]
    rfl

/-- A round brings a program up to date and gives it the files that its walk
has found. -/
theorem StandsAt.synced (hp : p.StandsAt last) (hh : Round.Honest last p next) :
    UpToDate next.answers (p.synced next).2 ∧
      (p.synced next).2.files = (found next.answers p.parsed).files.map Prod.fst := by
  rw [synced_eq]
  exact settle_upToDate (found_valid hp hh) (hp.unchanged hh)

theorem synced_false (h : (p.synced next).1 = false) :
    p.checker.isSome ∧ (found next.answers p.parsed).files.map Prod.fst = p.files := by
  rw [synced_eq] at h
  unfold settle at h
  dsimp only at h
  split at h
  · rename_i hc
    simpa using hc
  · cases h

end

/-- Every run stands where its last round left it. -/
theorem Run.standsAt {o : CompilerOptions} {last : Option Round} {p : Program}
    (h : Run o last p) : p.StandsAt last := by
  induction h with
  | start => exact ⟨rfl, rfl⟩
  | @ask last p q _ hq ih =>
    cases last with
    | none =>
      obtain ⟨-, hparsed, hk⟩ := hq.same
      rw [ih.1] at hk
      exact ⟨by simpa using hk, hparsed.trans ih.2⟩
    | some r => exact UpToDate.asked ih hq
  | round next _ hh ih => exact (ih.synced hh).1

/-- After every round of a run the files with their versions, in their
order, and the parses of all paths are those of a new program after one
round against the same host. A round that says that nothing had to be
checked anew leaves all of these as they were. -/
theorem synchronize_eq_fresh {o : CompilerOptions} {last : Option Round} {p : Program}
    (hr : Run o last p) (next : Round) (hh : Round.Honest last p next) :
    (p.synced next).2.files = ((ofOptions o).synced next).2.files ∧
    (∀ path, (p.synced next).2.sourceFile? path = ((ofOptions o).synced next).2.sourceFile? path) ∧
    (∀ path, (p.synced next).2.parsed.get? path = ((ofOptions o).synced next).2.parsed.get? path) ∧
    ((p.synced next).1 = false → (p.synced next).2.files = p.files ∧
      (∀ path, (p.synced next).2.sourceFile? path = p.sourceFile? path) ∧
      ∀ path, (p.synced next).2.parsed.get? path = p.parsed.get? path) := by
  have hp := hr.standsAt
  have hfresh : (ofOptions o).StandsAt none := ⟨rfl, rfl⟩
  have hno : Round.Honest none (ofOptions o) next := by rintro _ ⟨⟩
  obtain ⟨hu, hfiles⟩ := hp.synced hh
  obtain ⟨hu', hfiles'⟩ := hfresh.synced hno
  have hsame : (p.synced next).2.files = ((ofOptions o).synced next).2.files := by
    rw [hfiles, hfiles']
    exact congrArg _ (gather_agree _ _ (hp.valid hh) (hfresh.valid hno) rfl rfl).2.2
  obtain ⟨hsrc, hparsed⟩ := hu.same hu' hsame
  refine ⟨hsame, hsrc, hparsed, fun hfalse => ?_⟩
  obtain ⟨hk, hf⟩ := synced_false hfalse
  have hold : (p.synced next).2.files = p.files := hfiles.trans hf
  exact ⟨hold, hu.same (hp.unchanged hh hk hf) hold⟩

end Program

/-! ## A file that vanishes and comes back -/

theorem MemoryFiles.snapshot_eq (m : MemoryFiles) (path : String) :
    MemoryFiles.host.snapshot path m = match m.files.get? path with
      | none => (none, m)
      | some file => (some file.text, { m with reads := m.reads + 1 }) := by
  show (match m.files.get? path with | none => _ | some file => _ : StateM MemoryFiles _) m = _
  cases m.files.get? path <;> rfl

theorem MemoryFiles.snapshot_state (m : MemoryFiles) (path : String) :
    ∃ n, (MemoryFiles.host.snapshot path m).2 = { m with reads := n } := by
  rw [MemoryFiles.snapshot_eq]
  cases m.files.get? path with
  | none => exact ⟨m.reads, rfl⟩
  | some file => exact ⟨m.reads + 1, rfl⟩

theorem MemoryFiles.after_state (qs : List Host.Question) (m : MemoryFiles) :
    ∃ n, MemoryFiles.host.after qs m = { m with reads := n } := by
  induction qs generalizing m with
  | nil => exact ⟨m.reads, rfl⟩
  | cons q rest ih =>
    cases q with
    | version path => exact ih m
    | snapshot path =>
      obtain ⟨n, hn⟩ := MemoryFiles.snapshot_state m path
      obtain ⟨n', hn'⟩ := ih { m with reads := n }
      exact ⟨n', by rw [← hn']; exact congrArg (MemoryFiles.host.after rest) hn⟩

theorem MemoryFiles.snapshot_answer (m : MemoryFiles) (path : String) :
    (MemoryFiles.host.snapshot path m).1 = (m.files.get? path).map MemoryFile.text := by
  rw [MemoryFiles.snapshot_eq]
  cases m.files.get? path <;> rfl

/-- Files in memory answer alike however often they are read. -/
theorem MemoryFiles.host_fixed (m : MemoryFiles) : MemoryFiles.host.Fixed m := by
  intro qs
  obtain ⟨n, hn⟩ := MemoryFiles.after_state qs m
  rw [hn]
  unfold Host.answers
  congr 1
  funext path
  rw [MemoryFiles.snapshot_answer, MemoryFiles.snapshot_answer]

/-- A round against files in memory. -/
def Round.ofMemory (m : MemoryFiles) : Round := ⟨MemoryFiles.host, m, m.host_fixed⟩

/-- One script as the only root: with a text, or absent. -/
def Round.script (text : Option (List Char)) : Round :=
  let root := MemoryFiles.empty.addRoot "/a.ts"
  match text with
  | none => .ofMemory root
  | some text => .ofMemory (root.write "/a.ts" (some "0") text).2

theorem Round.script_none_snapshot (path : String) :
    (Round.script none).answers.snapshot path = none :=
  MemoryFiles.snapshot_answer _ path

/-- A program whose only script was there and then vanished. -/
def Program.bereft : Program :=
  (((Program.ofOptions default).synced (.script (some ['x']))).2.synced (.script none)).2

theorem Program.bereft_run : Run default (some (.script none)) bereft := by
  refine .round _ (.round _ .start (by rintro _ ⟨⟩)) ?_
  rintro _ _ f _ hver
  cases hver

/-- A script that comes back with its old version and another text is parsed
again: it was not in the program meanwhile, so the host is honest. -/
theorem Program.synchronize_eq_fresh_returning :
    Run default (some (.script none)) bereft ∧
    Round.Honest (some (.script none)) bereft (.script (some ['y'])) ∧
    (bereft.synced (.script (some ['y']))).2.files =
      ((ofOptions default).synced (.script (some ['y']))).2.files := by
  have hh : Round.Honest (some (.script none)) bereft (.script (some ['y'])) := by
    intro r hr f hf _
    cases hr
    -- a file of the program would have a parse, but there was no text
    obtain ⟨source, hget⟩ := UpToDate.complete bereft_run.standsAt f hf
    have hsrc := (UpToDate.kept bereft_run.standsAt _ _ hget).2
    rw [Answers.source?, Round.script_none_snapshot] at hsrc
    cases hsrc
  exact ⟨bereft_run, hh, (synchronize_eq_fresh bereft_run _ hh).1⟩

end ScriptAnalysis
