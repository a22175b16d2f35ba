import Mathlib.Data.List.Perm.Subperm
import ScriptAnalysis.Config.File

/-!
# Configurations with their bases

A configuration may name a base, which may name a base in turn. `met? fs
start n` is the path that this chain comes to after `n` bases. Two paths
mean one file when they have the same `identity`.

**Loading (`Loads`, the recursion without its bound).** A file that is being
read already ends the chain with an error; so does one that cannot be read.
Otherwise a file without a base speaks for itself, and one with a base takes
from it what it does not say.

**Settings.** A `Setting` is one thing that a configuration can set: an
option, or one of the lists of files. Merging keeps what the nearer file says
of each (`said_orElse`).

**Results.**
* `loads_loadFrom`: as many steps as there are files are enough, since the
  files whose base is being read are all different.
* `Loads.along`: what loading comes to from any place of the chain.
* `load_follows_bases`: loading ends; it fails for a cycle exactly when the
  chain comes back to a file; else each setting is that of the first file of
  the chain which has it.
-/
namespace ScriptAnalysis

namespace ConfigFile

/-! ## The chain -/

/-- The file that a path means: its path without detours. A path that leads
nowhere means itself. -/
def identity (fs : FileSystem) (path : String) : String :=
  (fs.canonical? path).getD path

/-- What the file at a path says, when it can be read and is a configuration. -/
def said? (fs : FileSystem) (path : String) : Option ConfigFile :=
  match fs.read path with
  | .ok cs => (parse cs).toOption
  | .error _ => none

/-- The path of the base that the file at a path names. -/
def above? (fs : FileSystem) (path : String) : Option String :=
  (said? fs path).bind fun c => c.base.map (basePath path)

/-- The path that the chain from `start` comes to after `n` bases. -/
def met? (fs : FileSystem) (start : String) : Nat → Option String
  | 0 => some start
  | n + 1 => (met? fs start n).bind (above? fs)

/-- The chain comes to one file twice. -/
def ComesBack (fs : FileSystem) (start : String) : Prop :=
  ∃ i j p q, i < j ∧ met? fs start i = some p ∧ met? fs start j = some q ∧
    identity fs p = identity fs q

/-- Every file can be read, and is a configuration, when the chain comes to it
for the first time. -/
def Legible (fs : FileSystem) (start : String) : Prop :=
  ∀ n p, met? fs start n = some p →
    (∀ i q, i < n → met? fs start i = some q → identity fs q ≠ identity fs p) →
    ∃ c, said? fs p = some c

/-! ## Settings -/

/-- One thing that a configuration can set. -/
inductive Setting where
  | strict
  | noImplicitAny
  | noEmit
  | sourceMap
  | outDir
  | typeRoots
  | included
  | excluded
  | files
  deriving DecidableEq, Repr

namespace Setting

/-- What a setting can be set to. -/
def Value : Setting → Type
  | strict | noImplicitAny | noEmit | sourceMap => Bool
  | outDir => String
  | typeRoots | included | excluded | files => List String

/-- What a configuration says of a setting. -/
def said : (s : Setting) → ConfigFile → Option s.Value
  | strict, c => c.options.bind (·.strict)
  | noImplicitAny, c => c.options.bind (·.noImplicitAny)
  | noEmit, c => c.options.bind (·.noEmit)
  | sourceMap, c => c.options.bind (·.sourceMap)
  | outDir, c => c.options.bind (·.outDir)
  | typeRoots, c => c.options.bind (·.typeRoots)
  | included, c => c.included
  | excluded, c => c.excluded
  | files, c => c.files

/-- An option that the nearer options decide is decided by the nearer file,
also when one of the two has no options at all. -/
theorem options_orElse {α : Type} (pick : ConfigOptions → Option α)
    (hpick : ∀ o base, pick (o.orElse base) = (pick o <|> pick base)) (c base : ConfigFile) :
    (c.orElse base).options.bind pick = (c.options.bind pick <|> base.options.bind pick) := by
  unfold orElse
  cases c.options with
  | none => cases base.options <;> rfl
  | some o =>
    cases base.options with
    | none => cases hpicked : pick o <;> simp [hpicked]
    | some b => exact hpick o b

/-- Of each setting the nearer file decides, and the base only where that is
silent. -/
theorem said_orElse (s : Setting) (c base : ConfigFile) :
    s.said (c.orElse base) = (s.said c <|> s.said base) := by
  cases s
  case included | excluded | files => rfl
  all_goals exact options_orElse _ (fun _ _ => rfl) c base

end Setting

/-! ## Loading -/

/-- Loading from a path ends with a result, while the bases of `visited` are
being read. -/
inductive Loads (fs : FileSystem) :
    List String → String → Except ConfigError ConfigFile → Prop
  | again {visited path} (hin : identity fs path ∈ visited) :
      Loads fs visited path (.error (.cycle (identity fs path)))
  | unreadable {visited path fault} (hnew : identity fs path ∉ visited)
      (hread : fs.read path = .error fault) :
      Loads fs visited path (.error (.unreadable path fault))
  | malformed {visited path cs e} (hnew : identity fs path ∉ visited)
      (hread : fs.read path = .ok cs) (hparse : parse cs = .error e) :
      Loads fs visited path (.error (.malformed path e))
  | alone {visited path cs c} (hnew : identity fs path ∉ visited)
      (hread : fs.read path = .ok cs) (hparse : parse cs = .ok c) (hbase : c.base = none) :
      Loads fs visited path (.ok c)
  | based {visited path cs c base r} (hnew : identity fs path ∉ visited)
      (hread : fs.read path = .ok cs) (hparse : parse cs = .ok c) (hbase : c.base = some base)
      (hrest : Loads fs (identity fs path :: visited) (basePath path base) r) :
      Loads fs visited path (r.map c.orElse)

/-- No more than one result. -/
theorem Loads.unique {fs : FileSystem} {visited : List String} {path : String}
    {r r' : Except ConfigError ConfigFile} (h : Loads fs visited path r)
    (h' : Loads fs visited path r') : r = r' := by
  induction h generalizing r' with
  | again hin => cases h' <;> first | rfl | contradiction
  | unreadable hnew hread => cases h' <;> simp_all
  | malformed hnew hread hparse => cases h' <;> simp_all
  | alone hnew hread hparse hbase => cases h' <;> simp_all
  | based hnew hread hparse hbase hrest ih =>
    cases h' with
    | again hin => exact absurd hin hnew
    | unreadable _ hread' => simp_all
    | malformed _ hread' hparse' => simp_all
    | alone _ hread' hparse' hbase' => simp_all
    | based _ hread' hparse' hbase' hrest' =>
      cases hread.symm.trans hread'
      cases hparse.symm.trans hparse'
      cases hbase.symm.trans hbase'
      rw [ih hrest']

/-- One turn of the recursion, with its bound. -/
theorem loadFrom_succ (fs : FileSystem) (n : Nat) (visited : List String) (path : String) :
    loadFrom fs (n + 1) visited path =
      if identity fs path ∈ visited then .error (.cycle (identity fs path)) else
      match fs.read path with
      | .error fault => .error (.unreadable path fault)
      | .ok cs =>
        match parse cs with
        | .error e => .error (.malformed path e)
        | .ok c =>
          match c.base with
          | none => .ok c
          | some base =>
            (loadFrom fs n (identity fs path :: visited) (basePath path base)).map c.orElse := by
  conv_lhs => unfold loadFrom
  unfold identity
  by_cases hin : (fs.canonical? path).getD path ∈ visited
  · simp only [hin, if_true, List.contains_iff_mem]
    rfl
  · simp only [hin, if_false, List.contains_iff_mem]
    cases fs.read path with
    | error fault => rfl
    | ok cs =>
      cases hparse : parse cs with
      | error e =>
        simp [hparse, Except.mapError, bind, Except.bind]
      | ok c =>
        cases hbase : c.base with
        | none => simp [hparse, hbase, Except.mapError, bind, Except.bind, pure, Except.pure]
        | some base =>
          simp only [hparse, hbase, Except.mapError, bind, Except.bind, pure, Except.pure]
          cases loadFrom fs n (_ :: visited) (basePath path base) <;> rfl

/-- What can be read is at one of the places of the file system. -/
theorem identity_mem_places {fs : FileSystem} {path : String} {cs : List Char}
    (h : fs.read path = .ok cs) :
    identity fs path ∈ fs.entries.keys.map FileSystem.pathOf := by
  unfold FileSystem.read FileSystem.lookup at h
  unfold identity FileSystem.canonical?
  cases hplace : fs.resolve path with
  | error fault => rw [hplace] at h; cases h
  | ok p =>
    rw [hplace] at h
    cases hentry : fs.entry? p with
    | none =>
      simp only [bind, Except.bind, hentry] at h
      cases h
    | some e =>
      have hkey : p ∈ fs.entries.keys := List.mem_map_of_mem (f := Prod.fst)
        (Table.mem_of_lookup hentry)
      exact List.mem_map_of_mem hkey

/-- The files whose base is being read are different files of the system, so
a bound that exceeds what is left of them is never reached. -/
theorem loads_loadFrom {fs : FileSystem} (n : Nat) {visited : List String} (path : String)
    (hdiff : visited.Nodup) (hplaces : visited ⊆ fs.entries.keys.map FileSystem.pathOf)
    (hn : fs.size < n + visited.length) :
    Loads fs visited path (loadFrom fs n visited path) := by
  induction n generalizing visited path with
  | zero =>
    have hle : visited.length ≤ fs.size := by
      have := (hdiff.subperm hplaces).length_le
      simpa [FileSystem.size, Table.size, Table.keys] using this
    omega
  | succ n ih =>
    rw [loadFrom_succ]
    split
    · rename_i hin
      exact .again hin
    rename_i hnew
    split
    · rename_i hread
      exact .unreadable hnew hread
    rename_i cs hread
    split
    · rename_i hparse
      exact .malformed hnew hread hparse
    rename_i c hparse
    split
    · rename_i hbase
      exact .alone hnew hread hparse hbase
    · rename_i base hbase
      refine .based hnew hread hparse hbase (ih _ (List.nodup_cons.2 ⟨hnew, hdiff⟩)
        (List.cons_subset.2 ⟨identity_mem_places hread, hplaces⟩) ?_)
      simp only [List.length_cons]
      omega

/-- Loading has the result that the recursion without a bound has. -/
theorem loads_load (fs : FileSystem) (path : String) : Loads fs [] path (load fs path) :=
  loads_loadFrom _ path List.nodup_nil (List.nil_subset _) (by simp)

/-! ## Along the chain -/

section

variable {fs : FileSystem} {start : String}

theorem met?_eq_none_of_le {n m : Nat} (h : met? fs start n = none) (hle : n ≤ m) :
    met? fs start m = none := by
  induction hle with
  | refl => exact h
  | step _ ih => simp [met?, ih]

theorem said?_eq_some {path : String} {cs : List Char} {c : ConfigFile}
    (hread : fs.read path = .ok cs) (hparse : parse cs = .ok c) : said? fs path = some c := by
  simp [said?, hread, hparse, Except.toOption]

/-- Loading stands at the file that the chain comes to after `k` bases;
those before, all different, are the ones whose base is being read. -/
structure StandsAt (fs : FileSystem) (start : String) (k : Nat) (visited : List String)
    (path : String) : Prop where
  here : met? fs start k = some path
  seen : ∀ x, x ∈ visited ↔ ∃ i q, i < k ∧ met? fs start i = some q ∧ identity fs q = x
  apart : ∀ i j p q, i < j → j < k → met? fs start i = some p → met? fs start j = some q →
    identity fs p ≠ identity fs q

namespace StandsAt

variable {k : Nat} {visited : List String} {path : String}

theorem atStart : StandsAt fs start 0 [] start where
  here := rfl
  seen _ := by simp
  apart _ _ _ _ _ hj := by omega

theorem unlike (h : StandsAt fs start k visited path) (hnew : identity fs path ∉ visited)
    (i : Nat) (q : String) (hi : i < k) (hq : met? fs start i = some q) :
    identity fs q ≠ identity fs path :=
  fun heq => hnew ((h.seen _).2 ⟨i, q, hi, hq, heq⟩)

theorem apart_succ (h : StandsAt fs start k visited path) (hnew : identity fs path ∉ visited)
    (i j : Nat) (p q : String) (hij : i < j) (hj : j < k + 1) (hp : met? fs start i = some p)
    (hq : met? fs start j = some q) : identity fs p ≠ identity fs q := by
  by_cases hk : j = k
  · subst hk
    cases hq.symm.trans h.here
    exact h.unlike hnew i p hij hp
  · exact h.apart i j p q hij (by omega) hp hq

/-- From a file that is new the chain goes on to its base. -/
theorem next {c : ConfigFile} {base : String} (h : StandsAt fs start k visited path)
    (hnew : identity fs path ∉ visited) (hsaid : said? fs path = some c)
    (hbase : c.base = some base) :
    StandsAt fs start (k + 1) (identity fs path :: visited) (basePath path base) where
  here := by simp [met?, h.here, above?, hsaid, hbase]
  seen x := by
    simp only [List.mem_cons, h.seen]
    constructor
    · rintro (rfl | ⟨i, q, hi, hq, rfl⟩)
      · exact ⟨k, path, by omega, h.here, rfl⟩
      · exact ⟨i, q, by omega, hq, rfl⟩
    · rintro ⟨i, q, hi, hq, rfl⟩
      by_cases hk : i = k
      · subst hk
        cases hq.symm.trans h.here
        exact .inl rfl
      · exact .inr ⟨i, q, by omega, hq, rfl⟩
  apart := h.apart_succ hnew

/-- A chain that ends at a new file does not come back. -/
theorem not_comesBack (h : StandsAt fs start k visited path) (hnew : identity fs path ∉ visited)
    (hend : met? fs start (k + 1) = none) : ¬ ComesBack fs start := by
  rintro ⟨i, j, p, q, hij, hp, hq, heq⟩
  have hj : j < k + 1 := by
    by_contra hle
    cases (met?_eq_none_of_le hend (by omega)).symm.trans hq
  exact h.apart_succ hnew i j p q hij hj hp hq heq

end StandsAt

/-- What loading comes to at the `k`-th file of a chain: a cycle, if the
chain comes back; else every setting as the rest of the chain has it first. -/
inductive Outcome (fs : FileSystem) (start : String) (k : Nat) :
    Except ConfigError ConfigFile → Prop
  | cycle {place} (hback : ComesBack fs start) : Outcome fs start k (.error (.cycle place))
  | merged {c} {files : List ConfigFile} (hback : ¬ ComesBack fs start)
      (hfiles : ∀ n, files[n]? = (met? fs start (k + n)).bind (said? fs))
      (hsaid : ∀ s : Setting, s.said c = files.findSome? s.said) : Outcome fs start k (.ok c)

/-- A file with a base adds itself in front of what the base comes to. -/
theorem Outcome.based {k : Nat} {path : String} {c : ConfigFile}
    {r : Except ConfigError ConfigFile} (hhere : met? fs start k = some path)
    (hc : said? fs path = some c) (h : Outcome fs start (k + 1) r) :
    Outcome fs start k (r.map c.orElse) := by
  cases h with
  | cycle hback => exact .cycle hback
  | @merged d files hback hfiles hsaid =>
    refine @Outcome.merged _ _ _ _ (c :: files) hback ?_ ?_
    · rintro (_ | n)
      · simp [hhere, hc]
      · rw [List.getElem?_cons_succ, hfiles n]
        congr 2
        omega
    · intro s
      rw [Setting.said_orElse, hsaid s, List.findSome?_cons]
      cases s.said c <;> rfl

/-- Loading from a place of a legible chain comes to what the chain from
there comes to. The induction is on the steps of loading. -/
theorem Loads.along (hlegible : Legible fs start) {visited : List String} {path : String}
    {r : Except ConfigError ConfigFile} (h : Loads fs visited path r) {k : Nat}
    (hat : StandsAt fs start k visited path) : Outcome fs start k r := by
  induction h generalizing k with
  | again hin =>
    obtain ⟨i, q, hi, hq, heq⟩ := (hat.seen _).1 hin
    exact .cycle ⟨i, k, q, _, hi, hq, hat.here, heq⟩
  | unreadable hnew hread =>
    obtain ⟨c, hc⟩ := hlegible k _ hat.here (hat.unlike hnew)
    simp [said?, hread] at hc
  | malformed hnew hread hparse =>
    obtain ⟨c, hc⟩ := hlegible k _ hat.here (hat.unlike hnew)
    simp [said?, hread, hparse, Except.toOption] at hc
  | @alone _ path _ c hnew hread hparse hbase =>
    have hc := said?_eq_some hread hparse
    have hend : met? fs start (k + 1) = none := by simp [met?, hat.here, above?, hc, hbase]
    refine @Outcome.merged _ _ _ _ [c] (hat.not_comesBack hnew hend) ?_ ?_
    · rintro (_ | n)
      · simp [hat.here, hc]
      · simp [met?_eq_none_of_le hend (m := k + (n + 1)) (by omega)]
    · intro s
      rw [List.findSome?_cons]
      cases s.said c <;> rfl
  | based hnew hread hparse hbase _ ih =>
    have hc := said?_eq_some hread hparse
    exact (ih (hat.next hnew hc hbase)).based hat.here hc

/-- Loading ends from every path. When all files that the chain of bases
comes to can be read and are configurations, it fails for a cycle exactly if
the chain comes to a file twice; if not, it gives of every setting what the
first file of the chain says that says anything of it. -/
theorem load_follows_bases (fs : FileSystem) (start : String) :
    (∀ r, Loads fs [] start r ↔ load fs start = r) ∧
    (Legible fs start →
      ((∃ place, load fs start = .error (.cycle place)) ↔ ComesBack fs start) ∧
      (¬ ComesBack fs start → ∃ c, ∃ files : List ConfigFile, load fs start = .ok c ∧
        (∀ n, files[n]? = (met? fs start n).bind (said? fs)) ∧
        ∀ s : Setting, s.said c = files.findSome? s.said)) := by
  refine ⟨fun r => ⟨fun h => (loads_load fs start).unique h, fun h => h ▸ loads_load fs start⟩,
    ?_⟩
  intro hlegible
  have hout := (loads_load fs start).along hlegible .atStart
  generalize load fs start = r at hout
  cases hout with
  | cycle hback => exact ⟨⟨fun _ => hback, fun _ => ⟨_, rfl⟩⟩, fun hno => absurd hback hno⟩
  | @merged c files hback hfiles hsaid =>
    refine ⟨⟨?_, fun h => absurd h hback⟩, fun _ => ?_⟩
    · rintro ⟨place, h⟩
      cases h
    · exact ⟨c, files, rfl, fun n => by simpa using hfiles n, hsaid⟩

end

/-- Two configurations, the second the base of the first, and one that is its
own base. -/
def layered : FileSystem where
  entries := ⟨[([], .directory 0), (["p"], .directory 0),
    (["p", "a.json"], .file
      (some "\x7b\"extends\":\"b\",\"compilerOptions\":\x7b\"strict\":true\x7d\x7d".toList) 0),
    (["p", "b.json"], .file
      (some ("\x7b\"compilerOptions\":\x7b\"strict\":false,\"noEmit\":true\x7d," ++
        "\"files\":[]\x7d").toList) 0),
    (["p", "own.json"], .file (some "\x7b\"extends\":\"/p/own.json\"\x7d".toList) 0)]⟩

/-- What the first file says. -/
def nearer : ConfigFile :=
  { ConfigFile.unset with
    base := some "b", options := some { ConfigOptions.unset with strict := some true } }

/-- What its base says. -/
def farther : ConfigFile :=
  { ConfigFile.unset with
    options := some { ConfigOptions.unset with strict := some false, noEmit := some true }
    files := some [] }

/-- What two of the files say, and where the names of bases lead. -/
theorem layered_read :
    said? layered "/p/a.json" = some nearer ∧ said? layered "/p/b.json" = some farther ∧
    basePath "/p/a.json" "b" = "/p/b.json" ∧
    basePath "/p/own.json" "/p/own.json" = "/p/own.json" := by
  unfold layered
  rw [String.toList_append]
  repeat rw [String.toList_ofList]
  decide +kernel

theorem said?_own : said? layered "/p/own.json" =
    some { ConfigFile.unset with base := some "/p/own.json" } := by
  unfold layered
  rw [String.toList_append]
  repeat rw [String.toList_ofList]
  decide +kernel

theorem legible_layered : Legible layered "/p/a.json" := by
  obtain ⟨hnearer, hfarther, hbase, -⟩ := layered_read
  have hnext : met? layered "/p/a.json" 1 = some "/p/b.json" := by
    simp [met?, above?, hnearer, nearer, hbase]
  have hend : met? layered "/p/a.json" 2 = none := by
    rw [met?, hnext]
    simp [above?, hfarther, farther, unset]
  rintro (_ | _ | n) p hp -
  · cases hp
    exact ⟨_, hnearer⟩
  · cases hnext.symm.trans hp
    exact ⟨_, hfarther⟩
  · cases (met?_eq_none_of_le hend (by omega : 2 ≤ n + 1 + 1)).symm.trans hp

theorem met?_own (n : Nat) : met? layered "/p/own.json" n = some "/p/own.json" := by
  induction n with
  | zero => rfl
  | succ n ih => simp [met?, ih, above?, said?_own, layered_read.2.2.2]

/-- What the two files come to. -/
def merged : ConfigFile where
  base := none
  options := some { ConfigOptions.unset with strict := some true, noEmit := some true }
  included := none
  excluded := none
  files := some []

/-- The options of the two files are merged one by one; the file that is its
own base is a cycle. -/
theorem load_follows_bases_layered :
    Legible layered "/p/a.json" ∧ ¬ ComesBack layered "/p/a.json" ∧
    load layered "/p/a.json" = .ok merged ∧
    (∃ files : List ConfigFile,
      (∀ n, files[n]? = (met? layered "/p/a.json" n).bind (said? layered)) ∧
      ∀ s : Setting, s.said merged = files.findSome? s.said) ∧
    Legible layered "/p/own.json" ∧ ∃ place, load layered "/p/own.json" = .error (.cycle place) := by
  have hload : load layered "/p/a.json" = .ok merged := by
    have h : (load layered "/p/a.json").toOption = some merged := by
      unfold layered
      rw [String.toList_append]
      repeat rw [String.toList_ofList]
      decide +kernel
    cases hr : load layered "/p/a.json" with
    | error e => rw [hr] at h; cases h
    | ok c => rw [hr] at h; cases h; rfl
  obtain ⟨hcycle, hmerged⟩ := (load_follows_bases layered "/p/a.json").2 legible_layered
  have hno : ¬ ComesBack layered "/p/a.json" := by
    rw [← hcycle]
    rintro ⟨place, h⟩
    cases hload.symm.trans h
  obtain ⟨c, files, hc, hfiles, hsaid⟩ := hmerged hno
  cases hload.symm.trans hc
  have hown : Legible layered "/p/own.json" := by
    intro n p hp _
    cases (met?_own n).symm.trans hp
    exact ⟨_, said?_own⟩
  exact ⟨legible_layered, hno, hload, ⟨files, hfiles, hsaid⟩, hown,
    ((load_follows_bases layered "/p/own.json").2 hown).1.2
      ⟨0, 1, _, _, by decide, met?_own 0, met?_own 1, rfl⟩⟩

end ConfigFile

end ScriptAnalysis
