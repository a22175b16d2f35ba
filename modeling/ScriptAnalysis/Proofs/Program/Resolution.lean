import Mathlib.Order.Bounds.Basic
import ScriptAnalysis.Proofs.Program.Closure

/-!
# What imports mean to a program

An import is resolved three times: by the walk over the files, which asks
the host what is there, and by the binder and the checker, which look among
the files of the program. Here: they agree.

**Hosts.** `Answers.Definite`: what is there is what has a version and a
text, and no more of it can be imported than the host says. A program uses
what it remembers of a file whose version has not changed, so its host must
not hand out such a version without a text (`Program.Readable`). Without
that condition a file that has gone stays in the program
(`Program.replaced_root`); honest hosts satisfy it (`Run.readable`), and what
is read from these are the present texts (`Run.reads`).

**Invariant.** `Remembers p`: the checker holds the parses that the program
remembers of its files, through any rounds with any hosts (`Reached`).

**Result.** `Program.imports_resolved`: after a round no file is twice in
the list, the list is the least set that has the roots that are there and
what the imports of its files mean, and binder and checker resolve these
imports as the walk did.
-/
namespace ScriptAnalysis

/-! ## Hosts -/

/-- What is there is what has a version and a text, and of what imports may
mean no more is there than the host says. -/
structure Answers.Definite (a : Answers) : Prop where
  there : ∀ path, a.isThere path = true ↔ a.version path ≠ none ∧ a.snapshot path ≠ none
  bounded : ∃ files : List String, files.length ≤ a.fileBound ∧
    ∀ file specifier, ∀ path ∈ Path.moduleCandidates file specifier, a.isThere path = true →
      path ∈ files

/-- Files in memory are there by their paths. -/
theorem MemoryFiles.definite (m : MemoryFiles) : (Round.ofMemory m).answers.Definite where
  there path := by
    show (m.files.get? path).isSome = true ↔ (m.files.get? path).map _ ≠ none ∧
      (MemoryFiles.host.snapshot path m).1 ≠ none
    rw [MemoryFiles.snapshot_answer]
    cases m.files.get? path <;> simp
  bounded := by
    refine ⟨m.files.keys, Nat.le_of_eq (List.length_map _), fun _ _ path _ hthere => ?_⟩
    obtain ⟨file, hfile⟩ := Option.isSome_iff_exists.1 hthere
    exact List.mem_map.2 ⟨(path, file), Table.mem_of_lookup hfile, rfl⟩

/-- A round against given answers. -/
def Round.ofAnswers (a : Answers) : Round :=
  ⟨a.host, (), fun _ => rfl⟩

/-- If everything of the one sort is of the other, and the first of the
other sort is of both, it is the first of both. -/
theorem find?_agree {α : Type} {p q : α → Bool} {l : List α} (hpq : ∀ c, p c = true → q c = true)
    (hfirst : ∀ c, l.find? q = some c → p c = true) : l.find? p = l.find? q := by
  induction l with
  | nil => rfl
  | cons c rest ih =>
    rw [List.find?_cons] at hfirst
    rw [List.find?_cons, List.find?_cons]
    cases hq : q c with
    | true =>
      rw [hq] at hfirst
      rw [hfirst c rfl]
    | false =>
      rw [hq] at hfirst
      rw [Bool.eq_false_iff.2 fun hp => Bool.false_ne_true (hq ▸ hpq c hp)]
      exact ih hfirst

namespace Program

variable {a : Answers} {p q : Program} {g : Gathered} {path : String}

/-! ## What a program remembers -/

/-- The parses that a walk remembers are those of its files, under their own
paths. -/
structure Retained (g : Gathered) : Prop where
  named : ∀ path f, g.parsed.get? path = some f → f.source.name = path
  held : ∀ e ∈ g.files, e.1.path ∈ g.seen ∧ g.parsed.get? e.1.path = some ⟨e.1.version, e.2⟩

theorem Retained.see (h : Retained g) (path : String) :
    Retained { g with seen := path :: g.seen } :=
  ⟨h.named, fun e he => (h.held e he).imp (List.mem_cons_of_mem _) id⟩

theorem Retained.add {version : String} {source : SourceFile} (h : Retained g)
    (hget : g.parsed.get? path = some ⟨version, source⟩) :
    Retained ⟨path :: g.seen, g.files ++ [(⟨path, version⟩, source)], g.parsed⟩ where
  named := h.named
  held e he := by
    rcases List.mem_append.1 he with he | he
    · exact (h.held e he).imp (List.mem_cons_of_mem _) id
    · rw [List.mem_singleton.1 he]
      exact ⟨List.mem_cons_self, hget⟩

/-- A new parse of a path that is new to the walk replaces none of its
files'. -/
theorem Retained.parse (h : Retained g) (hp : path ∉ g.seen) (version : String)
    (text : List Char) :
    Retained { g with parsed := g.parsed.insert path ⟨version, .parse path text⟩ } where
  named q f hf := by
    rw [Table.get?_insert] at hf
    split at hf
    · rename_i hq
      cases hf
      exact hq
    · exact h.named q f hf
  held e he := by
    obtain ⟨hseen, hget⟩ := h.held e he
    have hne : path ≠ e.1.path := fun heq => hp (heq ▸ hseen)
    exact ⟨hseen, by rw [Table.get?_insert, if_neg hne, hget]⟩

theorem Visited.retained {σ : Type} {h : Host σ} {s : σ} {r : (List String × Gathered) × σ}
    (hr : Visited h g path s r) (hp : path ∉ g.seen) (hg : Retained g) : Retained r.1.2 := by
  cases hr with
  | absent _ => exact hg.see path
  | unreadable _ _ _ => exact hg.see path
  | @remembered version file _ hfile =>
    obtain ⟨hget, hversion⟩ := Option.filter_eq_some_iff.1 hfile
    refine hg.add (hget.trans (congrArg some ?_))
    rw [← eq_of_beq hversion]
  | @parsed version text _ _ _ =>
    refine (hg.parse hp version text).add ?_
    rw [Table.get?_insert, if_pos rfl]

/-- The checker holds what the program remembers of its files. -/
structure Remembers (p : Program) : Prop where
  named : ∀ path f, p.parsed.get? path = some f → f.source.name = path
  held : ∀ k, p.checker = some k → k.files.toList.map some = p.files.map fun f =>
    ((p.parsed.get? f.path).filter (·.version == f.version)).map ParsedFile.source

theorem Remembers.retained (h : Remembers p) (a : Answers) : Retained (found a p.parsed) :=
  gather_invariant (h := a.host) (I := fun g _ => Retained g)
    (fun _ _ _ _ hp hr hg => hr.retained hp hg) _ _ _ _ ⟨h.named, fun e he => by cases he⟩

/-- After a round the checker holds what the walk has found: a checker that
is kept has the parses that were remembered, and so has the walk. -/
theorem Remembers.checker (h : Remembers p) (a : Answers) :
    ∃ k, (p.settle (found a p.parsed)).2.checker = some k ∧
      k.files.toList = (found a p.parsed).files.map Prod.snd := by
  unfold Program.settle
  dsimp only
  split
  · rename_i hsame
    obtain ⟨hchecked, hfiles⟩ := Bool.and_eq_true_iff.1 hsame
    obtain ⟨k, hk⟩ := Option.isSome_iff_exists.1 hchecked
    refine ⟨k, hk, ?_⟩
    have hheld := h.held k hk
    rw [← eq_of_beq hfiles, List.map_map] at hheld
    have hsome : ∀ e ∈ (found a p.parsed).files,
        ((p.parsed.get? e.1.path).filter (·.version == e.1.version)).map ParsedFile.source =
          some e.2 := fun e he => by
      have hmem : ((p.parsed.get? e.1.path).filter (·.version == e.1.version)).map
          ParsedFile.source ∈ k.files.toList.map some := by
        rw [hheld]
        exact List.mem_map.2 ⟨e, he, rfl⟩
      obtain ⟨source, -, hsource⟩ := List.mem_map.1 hmem
      obtain ⟨file, hfile, rfl⟩ := Option.map_eq_some_iff.1 hsource.symm
      have hfound := look_found he
      rw [look_remembered (version_of_look hfound) hfile] at hfound
      rw [hfile]
      exact congrArg (Option.map Prod.snd) hfound
    refine List.map_inj_right (fun _ _ => Option.some.inj) |>.1 (hheld.trans ?_)
    rw [List.map_map]
    exact List.map_congr_left hsome
  · exact ⟨_, rfl, List.toList_toArray ..⟩

theorem Remembers.settle (h : Remembers p) (a : Answers) :
    Remembers (p.settle (found a p.parsed)).2 where
  named path f hf := by
    rw [parsed_settle] at hf
    split at hf
    · exact (h.retained a).named path f hf
    · cases hf
  held k hk := by
    obtain ⟨k', hk', hfiles⟩ := h.checker a
    rw [hk] at hk'
    cases hk'
    rw [hfiles, files_settle, List.map_map, List.map_map]
    refine List.map_congr_left fun e he => ?_
    have hany : ((found a p.parsed).files.map Prod.fst).any (·.path == e.1.path) = true :=
      List.any_eq_true.2 ⟨e.1, List.mem_map_of_mem he, beq_self_eq_true _⟩
    show some e.2 = (((p.settle (found a p.parsed)).2.parsed.get? e.1.path).filter
      (·.version == e.1.version)).map ParsedFile.source
    rw [parsed_settle, hany, if_pos rfl, ((h.retained a).held e he).2]
    simp

theorem Remembers.asked (h : Remembers p) (hq : Asked p q) : Remembers q := by
  obtain ⟨hfiles, hparsed, hk⟩ := hq.same
  refine ⟨by rw [hparsed]; exact h.named, fun l hl => ?_⟩
  rw [hl, Option.map_some] at hk
  obtain ⟨k, hpk, hkl⟩ := Option.map_eq_some_iff.1 hk.symm
  rw [hfiles, hparsed, ← hkl]
  exact h.held k hpk

/-- The programs that any rounds against any hosts lead to, with questions
at any time. -/
inductive Reached (o : CompilerOptions) : Program → Prop
  | start : Reached o (ofOptions o)
  | ask {p q : Program} : Reached o p → Asked p q → Reached o q
  | round {p : Program} (r : Round) : Reached o p → Reached o (p.synced r).2

theorem Reached.remembers {o : CompilerOptions} (h : Reached o p) : Remembers p := by
  induction h with
  | start => exact ⟨fun _ _ hf => (by cases hf), fun _ hk => (by cases hk)⟩
  | ask _ hq ih => exact ih.asked hq
  | round r _ ih =>
    rw [synced_eq]
    exact ih.settle r.answers

/-! ## What is read -/

/-- What a program takes for the file at a path: what it remembers, if the
version is still the same, or else the parse of the text. -/
def reads (p : Program) (a : Answers) (path : String) : Option SourceFile :=
  (look a p.parsed path).map Prod.snd

/-- No version that the program remembers comes without a text. -/
def Readable (p : Program) (a : Answers) : Prop :=
  ∀ path f, p.parsed.get? path = some f → a.version path = some f.version → a.snapshot path ≠ none

/-- Honest hosts give a text for what they gave one before. -/
theorem Run.readable {o : CompilerOptions} {last : Option Round} (h : Run o last p) {next : Round}
    (hh : Round.Honest last p next) : p.Readable next.answers := by
  intro path f hget hver hnone
  have hsource := (h.standsAt.valid hh).sound path f hget hver
  rw [Answers.source?, hnone] at hsource
  cases hsource

/-- What a program reads from honest hosts are the present texts. -/
theorem Run.reads {o : CompilerOptions} {last : Option Round} (h : Run o last p) {next : Round}
    (hh : Round.Honest last p next) {version : String}
    (hv : next.answers.version path = some version) :
    p.reads next.answers path = next.answers.source? path := by
  unfold Program.reads
  cases hfile : (p.parsed.get? path).filter (·.version == version) with
  | some file =>
    obtain ⟨hget, hversion⟩ := Option.filter_eq_some_iff.1 hfile
    rw [look_remembered hv hfile,
      (h.standsAt.valid hh).sound path file hget (by rw [hv, eq_of_beq hversion])]
    rfl
  | none =>
    rw [look_new hv hfile, Option.map_map]
    exact Option.map_id' ..

/-- There is something to see at the paths that are there. -/
theorem isSome_look (hd : a.Definite) (hr : p.Readable a) :
    (look a p.parsed path).isSome ↔ a.isThere path = true := by
  rw [hd.there]
  cases hv : a.version path with
  | none => simp [look_of_none hv]
  | some version =>
    cases hfile : (p.parsed.get? path).filter (·.version == version) with
    | some file =>
      obtain ⟨hget, hversion⟩ := Option.filter_eq_some_iff.1 hfile
      have htext := hr path file hget (by rw [hv, eq_of_beq hversion])
      simp [look_remembered hv hfile, htext]
    | none =>
      rw [look_new hv hfile, Answers.source?]
      cases a.snapshot path <;> simp

theorem mem_targets {t : String} : t ∈ targets a p.parsed path ↔
    ∃ source, p.reads a path = some source ∧
      ∃ specifier ∈ source.imports, Path.resolveModule path specifier a.isThere = some t := by
  unfold targets reads
  cases look a p.parsed path <;> simp

/-! ## Resolution -/

/-- The set has the roots that are there, and what the imports of its files
mean. -/
def Closed (p : Program) (a : Answers) (paths : Set String) : Prop :=
  (∀ root ∈ a.roots, a.isThere (Path.normalize root) = true → Path.normalize root ∈ paths) ∧
  ∀ path ∈ paths, ∀ source, p.reads a path = some source → ∀ specifier ∈ source.imports,
    ∀ target, Path.resolveModule path specifier a.isThere = some target → target ∈ paths

/-- The program `q`, made by `p` of the answers `a`, has the files that
imports lead to, and finds among them what its imports mean: by the list of
names that the binder uses, and by the search of the checker. -/
structure Resolved (p : Program) (a : Answers) (q : Program) : Prop where
  once : q.fileNames.Nodup
  least : IsLeast {paths | p.Closed a paths} {path | path ∈ q.fileNames}
  agree : ∃ k, q.checker = some k ∧ k.files.toList.map SourceFile.name = q.fileNames ∧
    (∀ source ∈ k.files.toList, p.reads a source.name = some source) ∧
    ∀ source ∈ k.files.toList, ∀ specifier ∈ source.imports,
      Path.resolveModule source.name specifier (k.files.toList.map SourceFile.name).contains =
        Path.resolveModule source.name specifier a.isThere ∧
      Path.resolveModule source.name specifier (fun path => k.files.toList.any (·.name == path)) =
        Path.resolveModule source.name specifier a.isThere

theorem fileNames_settle (p : Program) (g : Gathered) :
    (p.settle g).2.fileNames = g.files.map fun e => e.1.path := by
  unfold fileNames
  rw [files_settle, List.map_map]
  rfl

/-- A walk has been to its roots, and to what its files import. -/
theorem found_closed (hd : a.Definite) (p : Program) :
    (∀ root ∈ a.roots, Path.normalize root ∈ (found a p.parsed).seen) ∧
      ∀ path ∈ (found a p.parsed).seen, ∀ t ∈ targets a p.parsed path,
        t ∈ (found a p.parsed).seen := by
  obtain ⟨files, hlength, hfiles⟩ := hd.bounded
  have htargets : ∀ path, ∀ t ∈ targets a p.parsed path,
      t ∈ a.roots.map Path.normalize ++ files := fun path t ht => by
    obtain ⟨source, -, specifier, -, hresolve⟩ := mem_targets.1 ht
    exact List.mem_append_right _ (hfiles path specifier t (List.mem_of_find?_eq_some hresolve)
      (List.find?_some hresolve))
  have hbound : ((a.roots.map Path.normalize ++ files).filter (· ∉ ([] : List String))).length <
      (a.roots.map Path.normalize).length + a.fileBound + 1 := by
    have hle := List.length_filter_le (· ∉ ([] : List String)) (a.roots.map Path.normalize ++ files)
    rw [List.length_append] at hle
    omega
  obtain ⟨hroots, hclosed⟩ := gather_closed _ (surveyed_start a p.parsed)
    (fun q hq => List.mem_append_left _ hq) htargets hbound fun q hq => by cases hq
  exact ⟨fun root hroot => hroots _ (List.mem_map_of_mem hroot), hclosed⟩

section

variable (hd : a.Definite) (hr : p.Readable a)

include hd hr

theorem mem_fileNames : path ∈ (p.settle (found a p.parsed)).2.fileNames ↔
    path ∈ (found a p.parsed).seen ∧ a.isThere path = true := by
  rw [fileNames_settle, (found_surveyed a p.parsed).mem_paths, isSome_look hd hr]

theorem closed_fileNames :
    p.Closed a {path | path ∈ (p.settle (found a p.parsed)).2.fileNames} := by
  obtain ⟨hroots, htargets⟩ := found_closed hd p
  refine ⟨fun root hroot hthere => ?_,
    fun path hpath source hsource specifier hspecifier target htarget => ?_⟩
  · exact (mem_fileNames hd hr).2 ⟨hroots root hroot, hthere⟩
  · refine (mem_fileNames hd hr).2 ⟨?_, List.find?_some htarget⟩
    exact htargets path ((mem_fileNames hd hr).1 hpath).1 target
      (mem_targets.2 ⟨source, hsource, specifier, hspecifier, htarget⟩)

theorem least_fileNames : IsLeast {paths | p.Closed a paths}
    {path | path ∈ (p.settle (found a p.parsed)).2.fileNames} := by
  refine ⟨closed_fileNames hd hr, fun paths hpaths path hpath => ?_⟩
  obtain ⟨hseen, hthere⟩ := (mem_fileNames hd hr).1 hpath
  refine gather_within (S := (· ∈ paths)) _ (surveyed_start a p.parsed) (fun q hq t ht => ?_)
    (fun q hq hlook => ?_) (fun q hq => by cases hq) path hseen ((isSome_look hd hr).2 hthere)
  · obtain ⟨source, hsource, specifier, hspecifier, htarget⟩ := mem_targets.1 ht
    exact hpaths.2 q hq source hsource specifier hspecifier t htarget
  · obtain ⟨root, hroot, rfl⟩ := List.mem_map.1 hq
    exact hpaths.1 root hroot ((isSome_look hd hr).1 hlook)

/-- Among the files of the program an import means what it means by what is
there. -/
theorem resolve_fileNames {source : SourceFile} {specifier : String}
    (hpath : path ∈ (p.settle (found a p.parsed)).2.fileNames)
    (hsource : p.reads a path = some source) (hspecifier : specifier ∈ source.imports) :
    Path.resolveModule path specifier (p.settle (found a p.parsed)).2.fileNames.contains =
      Path.resolveModule path specifier a.isThere := by
  refine find?_agree (fun c hc => ?_) fun c hc => ?_
  · exact ((mem_fileNames hd hr).1 (List.contains_iff_mem.1 hc)).2
  · exact List.contains_iff_mem.2
      ((closed_fileNames hd hr).2 path hpath source hsource specifier hspecifier c hc)

end

/-- The checker has the files of the program under their names, as they are
read. -/
theorem Remembers.sources (h : Remembers p) (a : Answers) :
    ∃ k, (p.settle (found a p.parsed)).2.checker = some k ∧
      k.files.toList.map SourceFile.name = (p.settle (found a p.parsed)).2.fileNames ∧
      ∀ source ∈ k.files.toList, p.reads a source.name = some source := by
  obtain ⟨k, hk, hsources⟩ := h.checker a
  have hretained := h.retained a
  have hname : ∀ e ∈ (found a p.parsed).files, e.2.name = e.1.path := fun e he =>
    hretained.named _ _ (hretained.held e he).2
  refine ⟨k, hk, ?_, fun source hsource => ?_⟩
  · rw [hsources, fileNames_settle, List.map_map]
    exact List.map_congr_left hname
  · rw [hsources] at hsource
    obtain ⟨e, he, rfl⟩ := List.mem_map.1 hsource
    rw [reads, hname e he, look_found he]
    rfl

/-- The checker looks for a name among the files as the binder does in the
list of names. -/
theorem any_name_eq_contains (files : List SourceFile) :
    (fun path => files.any (·.name == path)) = (files.map SourceFile.name).contains := by
  funext path
  rw [Bool.eq_iff_iff, List.any_eq_true, List.contains_iff_mem, List.mem_map]
  simp only [beq_iff_eq]

/-- A program that was brought up to date by any rounds with any hosts, and
that reads nothing it has no text for, is brought up to date with answers
that do not change: no file is twice in its list; the list is the least set
that has the roots that are there and what imports mean by what is there;
and each import of its files means the same to the binder and the checker,
who look for it among the files of the program. -/
theorem imports_resolved {o : CompilerOptions} {p : Program} (h : Reached o p) (r : Round)
    (hd : r.answers.Definite) (hr : p.Readable r.answers) :
    Resolved p r.answers (p.synced r).2 := by
  rw [synced_eq]
  obtain ⟨k, hk, hnames, hreads⟩ := h.remembers.sources r.answers
  refine ⟨?_, least_fileNames hd hr, k, hk, hnames, hreads,
    fun source hsource specifier hspecifier => ?_⟩
  · rw [fileNames_settle]
    exact (found_surveyed r.answers p.parsed).nodup_paths
  · rw [any_name_eq_contains, hnames, and_self]
    refine resolve_fileNames hd hr ?_ (hreads source hsource) hspecifier
    rw [← hnames]
    exact List.mem_map_of_mem hsource

/-! ### A cycle -/

/-- Two scripts that import each other, one of them a root, and a third one
that is not there. -/
def cycle : Round :=
  .ofMemory ((((MemoryFiles.empty.addRoot "/p/a.ts").addRoot "/p/../c.ts").write "/p/a.ts" none
    "import { b } from \"./b\";".toList).2.write "/p/b/index.ts" none
    "import { a } from \"../a\"; import { c } from \"../../c\";".toList).2

theorem imports_resolved_cycle :
    cycle.answers.Definite ∧ Readable (ofOptions default) cycle.answers ∧
    ((ofOptions default).synced cycle).2.fileNames = ["/p/a.ts", "/p/b/index.ts"] ∧
    IsLeast {paths | Closed (ofOptions default) cycle.answers paths}
      {path | path ∈ ["/p/a.ts", "/p/b/index.ts"]} := by
  have hd : cycle.answers.Definite := MemoryFiles.definite _
  have hr : Readable (ofOptions default) cycle.answers := fun path f hf => by cases hf
  have hfiles : ((ofOptions default).synced cycle).2.fileNames = ["/p/a.ts", "/p/b/index.ts"] := by
    unfold cycle
    repeat rw [String.toList_ofList]
    decide +kernel
  have hleast := (imports_resolved .start cycle hd hr).least
  rw [hfiles] at hleast
  exact ⟨hd, hr, hfiles, hleast⟩

/-! ### A root that is replaced -/

/-- The texts of two scripts, one of which imports the other. -/
def importing : List Char := "import { x } from \"./b\";".toList

@[inherit_doc importing]
def imported : List Char := "export const x = 1;".toList

/-- The two scripts; both are roots. -/
def whole : Answers where
  roots := ["/a.ts", "/b.ts"]
  version path := if path = "/a.ts" ∨ path = "/b.ts" then some "0" else none
  snapshot path :=
    if path = "/a.ts" then some importing else if path = "/b.ts" then some imported else none
  isThere path := path == "/a.ts" || path == "/b.ts"
  fileBound := 2

/-- Something without a text has taken the place of a script, and has its
version. -/
def replaced : Answers :=
  { whole with
    snapshot := fun path => if path = "/a.ts" then some importing else none
    isThere := (· == "/a.ts")
    fileBound := 1 }

theorem replaced_definite : replaced.Definite where
  there path := by
    show (path == "/a.ts") = true ↔
      (if path = "/a.ts" ∨ path = "/b.ts" then some "0" else none) ≠ none ∧
        (if path = "/a.ts" then some importing else none) ≠ none
    rw [beq_iff_eq]
    by_cases hpath : path = "/a.ts"
    · rw [if_pos (.inl hpath), if_pos hpath]
      exact ⟨fun _ => ⟨Option.some_ne_none _, Option.some_ne_none _⟩, fun _ => hpath⟩
    · rw [if_neg hpath]
      exact ⟨fun h => absurd h hpath, fun h => absurd rfl h.2⟩
  bounded := ⟨["/a.ts"], Nat.le_refl _, fun _ _ _ _ hthere =>
    List.mem_singleton.2 (eq_of_beq hthere)⟩

/-- The program of the two scripts. -/
def twoScripts : Program :=
  ((ofOptions default).synced (.ofAnswers whole)).2

/-- A root that has gone stays in the program with the parse that is
remembered for its version, and imports are resolved to it. -/
theorem replaced_root :
    Reached default twoScripts ∧ replaced.Definite ∧
    (twoScripts.synced (.ofAnswers replaced)).2.fileNames = ["/a.ts", "/b.ts"] ∧
    ¬ Resolved twoScripts replaced (twoScripts.synced (.ofAnswers replaced)).2 := by
  have hfiles : (twoScripts.synced (.ofAnswers replaced)).2.fileNames = ["/a.ts", "/b.ts"] := by
    unfold twoScripts replaced whole importing imported
    repeat rw [String.toList_ofList]
    decide +kernel
  refine ⟨.round _ .start, replaced_definite, hfiles, fun hresolved => ?_⟩
  -- only the one script is there, so it is closed alone
  have hclosed : Closed twoScripts replaced {"/a.ts"} :=
    ⟨fun root _ hthere => eq_of_beq hthere, fun _ _ _ _ _ _ target htarget =>
      eq_of_beq (show replaced.isThere target = true from List.find?_some htarget)⟩
  have hmem : "/b.ts" ∈ ({"/a.ts"} : Set String) := by
    refine hresolved.least.2 hclosed ?_
    rw [hfiles]
    exact List.mem_cons_of_mem _ List.mem_cons_self
  exact absurd (Set.mem_singleton_iff.1 hmem) (by decide)

end Program

end ScriptAnalysis
