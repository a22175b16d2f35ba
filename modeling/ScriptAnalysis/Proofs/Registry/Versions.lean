import ScriptAnalysis.Analysis.Analyzer
import ScriptAnalysis.Proofs.Host.Simulation
import ScriptAnalysis.Proofs.Path.Canonical

/-!
# Versions are keys

A program parses a file again only when its version has changed, so a
version must never stand for two texts. Three places touch a version and
the time on record for it: a request raises the version and leaves the
time, an answer raises it when the file is younger than the time, and a
successful analysis sets the time and leaves the version.

**Runs.** A `Session` is an analyzer over a file system; its actions are
requests and edits of the files, and its `log` holds every answer of the
registry with the file system it was given for. Edits may write, delete and
make again, but a path changes its contents only together with its time,
which becomes a later one (`FileSystem.Before`).

**Invariant.** `Keyed`: times on record are times that the path has had;
an answer that equals the version on record was given for the contents of
that time; library texts that were given are kept. While a request is
served, `Fresh` holds of its file too: answers that equal the version on
record were given for the present contents, so the time of the analysis can
be put on record.

**Results.**
* `Keyed.version`, `Keyed.snapshot`, `Keyed.ensureTracked`,
  `Keyed.markAnalyzed`, `Keyed.edit`: the invariant, operation by operation.
* `Keyed.request`: a request keeps the invariant and loses no version.
* `versions_are_keys`: versions never fall and are never lost, equal versions
  of a file outside the libraries were given for equal contents, and the
  text of a library file stays what it was.
-/
namespace ScriptAnalysis

/-- The text of a file, if there is a file and it is a text. -/
def FileSystem.contents? (fs : FileSystem) (path : String) : Option (List Char) :=
  (fs.read path).toOption

/-- Between the two file systems a path changes its contents only together
with its time, which becomes a later one. -/
def FileSystem.Before (fs fs' : FileSystem) : Prop :=
  ∀ path t t', fs.modified path = .ok t → fs'.modified path = .ok t' →
    fs.contents? path ≠ fs'.contents? path → t < t'

namespace Analyzer

/-- The answers that the registry gives while a request is served. -/
def answers (fs : FileSystem) (file : String) (a : Analyzer Program) : List Answer :=
  match Registry.modified fs (a.resolvePath file) with
  | .error _ => []
  | .ok time => (a.frontend.synchronize (Registry.host fs).recorded
      ((a.registry.ensureTracked (a.resolvePath file) time).2, [])).2.2

/-! ## What a request does to the registry -/

section

variable {φ α β : Type}

/-- Every run of a step, failed or not, takes the registry along `Q`. -/
def Leads (Q : Registry → Registry → Prop) (x : Step φ α) : Prop :=
  ∀ a, Q a.registry (x a).2.registry

theorem step_bind (x : Step φ α) (f : α → Step φ β) (a : Analyzer φ) :
    (x >>= f) a = match x a with
      | (.ok v, a) => f v a
      | (.error e, a) => (.error e, a) := by
  show (StateT.bind x (ExceptT.bindCont f) : StateM _ _) a = _
  unfold StateT.bind
  rcases x a with ⟨_ | _, _⟩ <;> rfl

theorem Leads.bind_after_eq {Q : Registry → Registry → Prop} {x : Step φ α} {f : α → Step φ β}
    (hx : Leads Eq x) (hq : ∀ r, Q r r) (hf : ∀ v, Leads Q (f v)) : Leads Q (x >>= f) := by
  intro a
  rw [step_bind, hx a]
  rcases x a with ⟨e | v, b⟩
  · exact hq _
  · exact hf v b

theorem Leads.bind_eq {Q : Registry → Registry → Prop} {x : Step φ α} {f : α → Step φ β}
    (hx : Leads Q x) (hf : ∀ v, Leads Eq (f v)) : Leads Q (x >>= f) := by
  intro a
  have h := hx a
  rw [step_bind]
  rcases hxa : x a with ⟨e | v, b⟩ <;> rw [hxa] at h
  · exact h
  · dsimp only
    rw [← hf v b]
    exact h

theorem leads_ask (x : StateM φ α) : Leads Eq (ask x) :=
  fun _ => rfl

/-- A step that looks at the analyzer goes on with it. -/
theorem step_get (f : Analyzer φ → Step φ α) (a : Analyzer φ) : (get >>= f) a = f a a :=
  rfl

theorem leads_output (F : Frontend φ) (path : String) : Leads Eq (output F path) := by
  intro a
  unfold output
  rw [step_get]
  cases F.emit a.frontend path with
  | none => rfl
  | some o =>
    obtain ⟨skipped, artifacts⟩ := o
    cases skipped
    · rcases artifacts with _ | ⟨artifact, _ | _⟩ <;> rfl
    · rfl

/-- The part of an analysis behind the round of synchronization. -/
def report (F : Frontend φ) (path : String) (time : Nat) : Step φ Response := do
  match F.source? (← get).frontend path with
  | none => throw (.noSource path)
  | some source =>
    match ← ask (F.diagnostics path) with
    | [] =>
      let text ← output F path
      modify fun a => { a with registry := a.registry.markAnalyzed path time }
      let (exports, rejections) ← ask (Exports.extract F source)
      let dependencies ← ask (Dependencies.collect F source (← get).rootType)
      return .success
        { fileName := Path.baseName path
          name := Path.stem path
          path := path
          source := text
          diagnostics := rejections.map Rejection.message
          exports := exports
          dependencies := dependencies }
    | ds => return .failure (formatAll F (← get).frontend source ds)

end

theorem analyze_eq (fs : FileSystem) (file : String) (a : Analyzer Program) :
    (analyze Program.frontend fs file) a =
      match Registry.modified fs (a.resolvePath file) with
      | .error e => (.error (.unknownTime e), a)
      | .ok time =>
        let path := a.resolvePath file
        let synced := a.frontend.synchronize (Registry.host fs)
          (a.registry.ensureTracked path time).2
        report Program.frontend path time
          { a with registry := synced.2, frontend := synced.1.2 } := by
  show (match Registry.modified fs (a.resolvePath file) with
    | .error e => _
    | .ok time => _ : Step _ _) a = _
  cases Registry.modified fs (a.resolvePath file) with
  | error e => rfl
  | ok time => rfl

/-- Behind the round of synchronization the registry stays as it is, but
for the time of a successful analysis. -/
theorem report_registry {φ : Type} (F : Frontend φ) (path : String) (time : Nat) :
    Leads (fun r r' => r' = r ∨ r' = r.markAnalyzed path time) (report F path time) := by
  have hrefl : ∀ r : Registry, r = r ∨ r = r.markAnalyzed path time := fun _ => .inl rfl
  refine .bind_after_eq (fun _ => rfl) hrefl fun a => ?_
  cases F.source? a.frontend path with
  | none => exact fun _ => .inl rfl
  | some source =>
    refine .bind_after_eq (leads_ask _) hrefl fun ds => ?_
    cases ds with
    | nil =>
      refine .bind_after_eq (leads_output F path) hrefl fun text => ?_
      refine .bind_eq (fun _ => .inr rfl) fun _ => ?_
      refine .bind_after_eq (leads_ask _) (fun _ => rfl) fun _ => ?_
      refine .bind_after_eq (fun _ => rfl) (fun _ => rfl) fun _ => ?_
      exact .bind_after_eq (leads_ask _) (fun _ => rfl) fun _ _ => rfl
    | cons d ds => exact fun _ => .inl rfl

end Analyzer

/-! ## Growth -/

namespace Registry

/-- No version is lost or becomes smaller. -/
def Grows (r r' : Registry) : Prop :=
  ∀ path e, r.versions.get? path = some e →
    ∃ e', r'.versions.get? path = some e' ∧ e.version ≤ e'.version

theorem Grows.refl (r : Registry) : Grows r r := fun _ e h => ⟨e, h, Nat.le_refl _⟩

theorem Grows.trans {r s t : Registry} (h : Grows r s) (h' : Grows s t) : Grows r t := by
  intro path e he
  obtain ⟨e', he', hle⟩ := h path e he
  obtain ⟨e'', he'', hle'⟩ := h' path e' he'
  exact ⟨e'', he'', Nat.le_trans hle hle'⟩

/-- Putting a version on record that is not smaller than the old one. -/
theorem Grows.insert {r r' : Registry} {path : String} {v : ScriptVersion}
    (hr : r'.versions = r.versions.insert path v)
    (hv : ∀ e, r.versions.get? path = some e → e.version ≤ v.version) : Grows r r' := by
  intro q e he
  rw [hr, Table.get?_insert]
  by_cases hq : path = q
  · subst hq
    exact ⟨v, if_pos rfl, hv e he⟩
  · exact ⟨e, by rw [if_neg hq, he], Nat.le_refl _⟩

/-- What an answer makes of the version on record: it is put on record, is
renewed, or stays. -/
inductive Renewed (time : Nat) : Option ScriptVersion → ScriptVersion → Prop
  | new : Renewed time none ⟨0, time⟩
  | later (e : ScriptVersion) : e.modified < time → Renewed time (some e) ⟨e.version + 1, time⟩
  | kept (e : ScriptVersion) : time ≤ e.modified → Renewed time (some e) e

theorem Renewed.time_le {time : Nat} {old : Option ScriptVersion} {e : ScriptVersion}
    (h : Renewed time old e) : time ≤ e.modified := by
  cases h with
  | new => exact Nat.le_refl _
  | later _ _ => exact Nat.le_refl _
  | kept _ h => exact h

theorem Renewed.version_le {time : Nat} {old e : ScriptVersion}
    (h : Renewed time (some old) e) : old.version ≤ e.version := by
  cases h with
  | later _ _ => exact Nat.le_succ _
  | kept _ _ => exact Nat.le_refl _

theorem Renewed.eq_of_version {time : Nat} {old e : ScriptVersion}
    (h : Renewed time (some old) e) (heq : old.version = e.version) : old = e := by
  cases h with
  | later _ _ => simp at heq
  | kept _ _ => rfl

theorem scriptVersion_eq (fs : FileSystem) (path : String) (r : Registry) :
    scriptVersion fs path r =
      if r.libraries.contains path then
        (some (toString (((r.versions.get? path).map ScriptVersion.version).getD 0)), r)
      else ((refresh fs path r).1.map toString, (refresh fs path r).2) := by
  show (if r.libraries.contains path = true then _ else _ : StateM Registry _) r = _
  split <;> rfl

theorem refresh_eq (fs : FileSystem) (path : String) (r : Registry) :
    refresh fs path r = match fs.modified path with
      | .error _ => (none, r)
      | .ok time =>
        let v : ScriptVersion := match r.versions.get? path with
          | some v => if v.modified < time then ⟨v.version + 1, time⟩ else v
          | none => ⟨0, time⟩
        (some v.version, { r with versions := r.versions.insert path v }) := by
  unfold refresh
  cases fs.modified path <;> rfl

/-- An answer about a file that is not kept goes by the time of the file. -/
theorem scriptVersion_spec {r : Registry} {path : String}
    (hk : r.libraries.contains path = false) (fs : FileSystem) :
    match fs.modified path with
    | .error _ => scriptVersion fs path r = (none, r)
    | .ok time => ∃ e, Renewed time (r.versions.get? path) e ∧
        scriptVersion fs path r =
          (some (toString e.version), { r with versions := r.versions.insert path e }) := by
  rw [scriptVersion_eq, hk, refresh_eq]
  cases fs.modified path with
  | error e => rfl
  | ok time =>
    cases r.versions.get? path with
    | none => exact ⟨⟨0, time⟩, .new, rfl⟩
    | some e =>
      by_cases ht : e.modified < time
      · exact ⟨_, .later e ht, by simp [ht]⟩
      · exact ⟨_, .kept e (Nat.le_of_not_lt ht), by simp [ht]⟩

theorem scriptVersion_kept {r : Registry} {path : String}
    (hk : r.libraries.contains path = true) (fs : FileSystem) :
    ∃ v, scriptVersion fs path r = (some v, r) := by
  rw [scriptVersion_eq, hk]
  exact ⟨_, rfl⟩

theorem snapshot_eq (fs : FileSystem) (path : String) (r : Registry) :
    snapshot fs path r = match r.libraries.get? path with
      | some text => (some text, r)
      | none => match fs.read path with
        | .error _ => (none, r)
        | .ok text => (some text,
            if Path.isLibrary path then { r with libraries := r.libraries.insert path text }
            else r) := by
  show (match r.libraries.get? path with
    | some text => _
    | none => _ : StateM Registry _) r = _
  cases r.libraries.get? path with
  | some text => rfl
  | none =>
    dsimp only
    cases fs.read path with
    | error e => rfl
    | ok text => cases Path.isLibrary path <;> rfl

/-- A text comes from what is kept, or from the file and is then kept if it
belongs to a library. -/
theorem snapshot_spec (r : Registry) (path : String) (fs : FileSystem) :
    (∃ text, r.libraries.get? path = some text ∧ snapshot fs path r = (some text, r)) ∨
    (r.libraries.get? path = none ∧ snapshot fs path r = (none, r)) ∨
    ∃ text, r.libraries.get? path = none ∧ snapshot fs path r = (some text,
      if Path.isLibrary path then { r with libraries := r.libraries.insert path text } else r) := by
  rw [snapshot_eq]
  cases r.libraries.get? path with
  | some text => exact .inl ⟨text, rfl, rfl⟩
  | none =>
    cases fs.read path with
    | error e => exact .inr (.inl ⟨rfl, rfl⟩)
    | ok text => exact .inr (.inr ⟨text, rfl, rfl⟩)

/-! ## Versions as keys -/

/-- Wherever the path had this time, it had the contents that it has in
`fs`. -/
def Stands (past : List FileSystem) (path : String) (time : Nat) (fs : FileSystem) : Prop :=
  ∀ fs' ∈ past, fs'.modified path = .ok time → fs'.contents? path = fs.contents? path

/-- What an answer of the past still says about the registry. A version
that is on record unchanged stands for the contents it was given for, and
the text of a library is kept. -/
def Known (past : List FileSystem) (r : Registry) (x : FileSystem × Answer) : Prop :=
  match x.2 with
  | .version path (some v) => Path.isLibrary path = false →
      ∃ e n, r.versions.get? path = some e ∧ v = toString n ∧ n ≤ e.version ∧
        (n = e.version → Stands past path e.modified x.1)
  | .version path none => Path.isLibrary path = false → x.1.contents? path = none
  | .snapshot path (some text) => Path.isLibrary path = true → r.libraries.get? path = some text
  | .snapshot _ none => True

/-- Equal versions of a file that belongs to no library were given for equal
contents, and a text of a library is given again. -/
def Agree (x y : FileSystem × Answer) : Prop :=
  (∀ path v, Path.isLibrary path = false → x.2 = .version path v → y.2 = .version path v →
    x.1.contents? path = y.1.contents? path) ∧
  ∀ path text later, Path.isLibrary path = true → x.2 = .snapshot path (some text) →
    y.2 = .snapshot path later → later = some text

/-- The registry after the answers `log`, given while the file systems of
`past` were there. -/
structure Keyed (past : List FileSystem) (log : List (FileSystem × Answer)) (r : Registry) :
    Prop where
  kept : ∀ path, r.libraries.contains path = true → Path.isLibrary path = true
  dated : ∀ path e, r.versions.get? path = some e →
    ∃ fs ∈ past, fs.modified path = .ok e.modified
  known : ∀ x ∈ log, Known past r x
  agree : log.Pairwise Agree

/-- All answers about the path that are equal to the version on record were
given for its present contents. -/
def Fresh (now : FileSystem) (path : String) (log : List (FileSystem × Answer)) (r : Registry) :
    Prop :=
  ∀ fs e, Path.isLibrary path = false → r.versions.get? path = some e →
    (fs, .version path (some (toString e.version))) ∈ log → fs.contents? path = now.contents? path

theorem toString_inj {m n : Nat} (h : toString m = toString n) : m = n := by
  have h' : Nat.toDigits 10 m = Nat.toDigits 10 n := by
    rw [← Nat.toList_repr, ← Nat.toList_repr]
    exact congrArg String.toList h
  rw [← Nat.ofDigitChars_toDigits (n := m) (b := 10) (by decide) (by decide), h',
    Nat.ofDigitChars_toDigits (by decide) (by decide)]

section

variable {past : List FileSystem} {log : List (FileSystem × Answer)} {now : FileSystem}
  {r : Registry} {path : String}

/-- A time that is not earlier than the present one belongs to the present
contents. -/
theorem stands_of_le (hpast : ∀ fs ∈ past, fs = now ∨ fs.Before now) {t time : Nat}
    (hnow : now.modified path = .ok t) (hle : t ≤ time) : Stands past path time now := by
  intro fs hfs htime
  rcases hpast fs hfs with rfl | hb
  · rfl
  · by_cases hc : fs.contents? path = now.contents? path
    · exact hc
    · have := hb path time t htime hnow hc
      omega

theorem contents?_of_error {e : Fault} (h : now.modified path = .error e) :
    now.contents? path = none := by
  unfold FileSystem.modified at h
  unfold FileSystem.contents? FileSystem.read
  cases hl : now.lookup path with
  | error e => rfl
  | ok x => rw [hl] at h; cases h

/-- An edit that gives changed paths later times. -/
theorem Keyed.edit (hk : Keyed past log r) {new : FileSystem} (hnew : ∀ fs ∈ past, fs.Before new) :
    Keyed (past ++ [new]) log r where
  kept := hk.kept
  dated path e he := by
    obtain ⟨fs, hfs, ht⟩ := hk.dated path e he
    exact ⟨fs, List.mem_append_left _ hfs, ht⟩
  agree := hk.agree
  known x hx := by
    have h := hk.known x hx
    obtain ⟨fs, answer⟩ := x
    cases answer with
    | snapshot path text => cases text <;> exact h
    | version path v =>
      cases v with
      | none => exact h
      | some v =>
        intro hl
        obtain ⟨e, n, he, hv, hle, hst⟩ := h hl
        refine ⟨e, n, he, hv, hle, fun hn fs' hfs' ht => ?_⟩
        rcases List.mem_append.1 hfs' with hfs' | hfs'
        · exact hst hn fs' hfs' ht
        · rw [List.mem_singleton] at hfs'
          subst hfs'
          -- the time on record is one that the path had before the edit
          obtain ⟨old, hold, hot⟩ := hk.dated path e he
          rw [← hst hn old hold hot]
          by_cases hc : old.contents? path = fs'.contents? path
          · exact hc.symm
          · exact absurd (hnew old hold path _ _ hot ht hc) (Nat.lt_irrefl _)

/-- A version that is put on record leaves the old answers as they are, if
it is greater than the old one or stands for the same contents. -/
theorem Known.put {r' : Registry} {v : ScriptVersion} {x : FileSystem × Answer}
    (h : Known past r x) (hv : r'.versions = r.versions.insert path v)
    (hl : r'.libraries = r.libraries)
    (hle : ∀ e, r.versions.get? path = some e → e.version ≤ v.version)
    (hst : ∀ e, Path.isLibrary path = false → r.versions.get? path = some e →
      e.version = v.version → x.2 = .version path (some (toString v.version)) →
      Stands past path e.modified x.1 → Stands past path v.modified x.1) : Known past r' x := by
  obtain ⟨fs, answer⟩ := x
  cases answer with
  | snapshot q text =>
    cases text with
    | none => trivial
    | some text => intro hlib; rw [hl]; exact h hlib
  | version q given =>
    cases given with
    | none => exact h
    | some given =>
      intro hlib
      obtain ⟨e, n, he, hn, hne, hs⟩ := h hlib
      rw [hv, Table.get?_insert]
      by_cases hq : path = q
      · subst hq
        have hev := hle e he
        refine ⟨v, n, if_pos rfl, hn, Nat.le_trans hne hev, fun hnv => ?_⟩
        have heq : n = e.version := by omega
        exact hst e hlib he (by omega) (by rw [← hnv, ← hn]) (hs heq)
      · exact ⟨e, n, by rw [if_neg hq, he], hn, hne, hs⟩

theorem Keyed.append {r' : Registry} {y : FileSystem × Answer} (hk : Keyed past log r)
    (hkept : ∀ path, r'.libraries.contains path = true → Path.isLibrary path = true)
    (hdated : ∀ path e, r'.versions.get? path = some e →
      ∃ fs ∈ past, fs.modified path = .ok e.modified)
    (hold : ∀ x ∈ log, Known past r' x) (hy : Known past r' y) (hagree : ∀ x ∈ log, Agree x y) :
    Keyed past (log ++ [y]) r' where
  kept := hkept
  dated := hdated
  known x hx := by
    rcases List.mem_append.1 hx with hx | hx
    · exact hold x hx
    · rw [List.mem_singleton] at hx
      subst hx
      exact hy
  agree := by
    refine List.pairwise_append.2 ⟨hk.agree, List.pairwise_singleton _ _, fun x hx z hz => ?_⟩
    rw [List.mem_singleton] at hz
    subst hz
    exact hagree x hx

theorem dated_insert {r' : Registry} {v : ScriptVersion}
    (hd : ∀ path e, r.versions.get? path = some e → ∃ fs ∈ past, fs.modified path = .ok e.modified)
    (hr : r'.versions = r.versions.insert path v)
    (hv : ∃ fs ∈ past, fs.modified path = .ok v.modified) :
    ∀ path e, r'.versions.get? path = some e → ∃ fs ∈ past, fs.modified path = .ok e.modified := by
  intro q e he
  rw [hr, Table.get?_insert] at he
  by_cases hq : path = q
  · subst hq
    rw [if_pos rfl] at he
    cases he
    exact hv
  · rw [if_neg hq] at he
    exact hd q e he

/-- The time of a renewed version is one that the path has had. -/
theorem Renewed.dated {time : Nat} {e : ScriptVersion} (hk : Keyed past log r) (hnow : now ∈ past)
    (ht : now.modified path = .ok time) (h : Renewed time (r.versions.get? path) e) :
    ∃ fs ∈ past, fs.modified path = .ok e.modified := by
  generalize ho : r.versions.get? path = old at h
  cases h with
  | new => exact ⟨now, hnow, ht⟩
  | later _ _ => exact ⟨now, hnow, ht⟩
  | kept e _ => exact hk.dated path e ho

theorem agree_version {x : FileSystem × Answer} {v : Option String}
    (h : Path.isLibrary path = false → x.2 = .version path v →
      x.1.contents? path = now.contents? path) : Agree x (now, .version path v) := by
  refine ⟨fun q w hq hx hy => ?_, fun q text later _ _ hy => by cases hy⟩
  cases hy
  exact h hq hx

theorem agree_snapshot {x : FileSystem × Answer} {answer : Option (List Char)}
    (h : ∀ text, Path.isLibrary path = true → x.2 = .snapshot path (some text) →
      answer = some text) : Agree x (now, .snapshot path answer) := by
  refine ⟨fun q w _ _ hy => (by cases hy), fun q text later hq hx hy => ?_⟩
  cases hy
  exact h text hq hx

/-- Answers about a file that is there, with the version that is on record
then. -/
theorem Keyed.renewed (hk : Keyed past log r) (hnow : now ∈ past)
    (hpast : ∀ fs ∈ past, fs = now ∨ fs.Before now) {time : Nat} {e : ScriptVersion}
    (ht : now.modified path = .ok time) (hren : Renewed time (r.versions.get? path) e) :
    Keyed past (log ++ [(now, .version path (some (toString e.version)))])
      { r with versions := r.versions.insert path e } := by
  have hstands := stands_of_le hpast ht hren.time_le
  have hle : ∀ old, r.versions.get? path = some old → old.version ≤ e.version := by
    intro old hold
    rw [hold] at hren
    exact hren.version_le
  have hsame : ∀ old, r.versions.get? path = some old → old.version = e.version → old = e := by
    intro old hold heq
    rw [hold] at hren
    exact hren.eq_of_version heq
  refine hk.append hk.kept (dated_insert hk.dated rfl (hren.dated hk hnow ht)) ?_ ?_ ?_
  · intro x hx
    refine (hk.known x hx).put rfl rfl hle fun old _ hold heq _ hs => ?_
    rw [← hsame old hold heq]
    exact hs
  · intro _
    exact ⟨e, e.version, by rw [Table.get?_insert, if_pos rfl], rfl, Nat.le_refl _,
      fun _ => hstands⟩
  · intro x hx
    refine agree_version fun hq hxq => ?_
    have h := hk.known x hx
    rw [Known, hxq] at h
    obtain ⟨old, n, hold, hn, hne, hs⟩ := h hq
    have hne' : n = e.version := (toString_inj hn).symm
    have hold' : old = e := hsame old hold (by have := hle old hold; omega)
    subst hold'
    -- the time on record belongs both to the old and to the present contents
    obtain ⟨fs, hfs, hfst⟩ := hk.dated path old hold
    rw [← hs hne' fs hfs hfst, hstands fs hfs hfst]

/-- Asking for a version. -/
theorem Keyed.version (hk : Keyed past log r) (hnow : now ∈ past)
    (hpast : ∀ fs ∈ past, fs = now ∨ fs.Before now) (path : String) :
    Keyed past (log ++ [(now, .version path (scriptVersion now path r).1)])
      (scriptVersion now path r).2 := by
  cases hc : r.libraries.contains path with
  | true =>
    obtain ⟨v, hv⟩ := scriptVersion_kept hc now
    have hlib := hk.kept path hc
    rw [hv]
    refine hk.append hk.kept hk.dated hk.known (fun h => ?_) fun x _ => agree_version fun h => ?_
    · rw [hlib] at h; cases h
    · rw [hlib] at h; cases h
  | false =>
    have hspec := scriptVersion_spec hc now
    cases ht : now.modified path with
    | error fault =>
      rw [ht] at hspec
      rw [hspec]
      have hnone := contents?_of_error ht
      refine hk.append hk.kept hk.dated hk.known (fun _ => hnone) fun x hx => ?_
      refine agree_version fun hq hxq => ?_
      have h := hk.known x hx
      rw [Known, hxq] at h
      rw [h hq, hnone]
    | ok time =>
      rw [ht] at hspec
      obtain ⟨e, hren, hspec⟩ := hspec
      rw [hspec]
      exact hk.renewed hnow hpast ht hren

/-- An answer about another path, or about a library, leaves the version of
a path as it is. -/
theorem scriptVersion_other {fs : FileSystem} {q : String} (hq : q ≠ path) :
    (scriptVersion fs q r).2.versions.get? path = r.versions.get? path := by
  cases hc : r.libraries.contains q with
  | true =>
    obtain ⟨v, hv⟩ := scriptVersion_kept hc fs
    rw [hv]
  | false =>
    have hspec := scriptVersion_spec hc fs
    cases ht : fs.modified q with
    | error fault => rw [ht] at hspec; rw [hspec]
    | ok time =>
      rw [ht] at hspec
      obtain ⟨e, -, hspec⟩ := hspec
      rw [hspec, Table.get?_insert, if_neg hq]

/-- A new answer is about the present contents, so all answers equal to it
are. -/
theorem Fresh.version (hf : Fresh now path log r) {q : String}
    (hk : Keyed past log r)
    (hk' : Keyed past (log ++ [(now, .version q (scriptVersion now q r).1)])
      (scriptVersion now q r).2) :
    Fresh now path (log ++ [(now, .version q (scriptVersion now q r).1)])
      (scriptVersion now q r).2 := by
  intro fs e hlib he hmem
  by_cases hq : q = path
  · subst hq
    have hc : r.libraries.contains q = false := by
      cases hc : r.libraries.contains q with
      | false => rfl
      | true => rw [hk.kept q hc] at hlib; cases hlib
    have hspec := scriptVersion_spec hc now
    rcases List.mem_append.1 hmem with hmem | hmem
    · cases ht : now.modified q with
      | error fault =>
        rw [ht] at hspec
        rw [hspec] at he
        exact hf fs e hlib he hmem
      | ok time =>
        rw [ht] at hspec
        obtain ⟨e', -, hspec⟩ := hspec
        rw [hspec, Table.get?_insert, if_pos rfl, Option.some.injEq] at he
        subst he
        have hagree := (List.pairwise_append.1 hk'.agree).2.2 _ hmem _ (List.mem_singleton_self _)
        exact hagree.1 q (some (toString e'.version)) hlib rfl (by rw [hspec])
    · rw [List.mem_singleton] at hmem
      rw [(Prod.mk.inj hmem).1]
  · rw [scriptVersion_other hq] at he
    rcases List.mem_append.1 hmem with hmem | hmem
    · exact hf fs e hlib he hmem
    · rw [List.mem_singleton] at hmem
      have := (Prod.mk.inj hmem).2
      injection this with hqp
      exact absurd hqp.symm hq

/-- The text of a library that is read for the first time is kept. -/
theorem Keyed.keep (hk : Keyed past log r) (hlib : Path.isLibrary path = true)
    (hget : r.libraries.get? path = none) (text : List Char) :
    Keyed past log { r with libraries := r.libraries.insert path text } where
  kept q hq := by
    rw [Table.contains, Table.get?_insert] at hq
    by_cases hpq : path = q
    · rw [← hpq]; exact hlib
    · rw [if_neg hpq] at hq
      exact hk.kept q hq
  dated := hk.dated
  known x hx := by
    have h := hk.known x hx
    obtain ⟨fs, answer⟩ := x
    cases answer with
    | version q v => cases v <;> exact h
    | snapshot q t =>
      cases t with
      | none => trivial
      | some t =>
        intro hq
        have hqt := h hq
        have hpq : path ≠ q := by
          rintro rfl
          rw [hget] at hqt; cases hqt
        rw [Table.get?_insert, if_neg hpq]
        exact hqt
  agree := hk.agree

/-- Asking for a text. -/
theorem Keyed.snapshot (hk : Keyed past log r) (now : FileSystem) (path : String) :
    Keyed past (log ++ [(now, .snapshot path (Registry.snapshot now path r).1)])
      (Registry.snapshot now path r).2 := by
  -- a text that was given before is kept, so the new answer agrees with it
  have hagree : ∀ answer, (∀ text, r.libraries.get? path = some text → answer = some text) →
      ∀ x ∈ log, Agree x (now, .snapshot path answer) := by
    intro answer hans x hx
    refine agree_snapshot fun text hq hxq => ?_
    have h := hk.known x hx
    rw [Known, hxq] at h
    exact hans text (h hq)
  rcases snapshot_spec r path now with ⟨text, hget, hs⟩ | ⟨hget, hs⟩ | ⟨text, hget, hs⟩ <;> rw [hs]
  · refine hk.append hk.kept hk.dated hk.known (fun _ => hget) (hagree _ fun t ht => ?_)
    rw [← hget, ht]
  · refine hk.append hk.kept hk.dated hk.known trivial (hagree _ fun t ht => ?_)
    rw [hget] at ht; cases ht
  · have hans : ∀ t, r.libraries.get? path = some t → some text = some t := by
      intro t ht
      rw [hget] at ht; cases ht
    cases hlib : Path.isLibrary path with
    | false =>
      refine hk.append hk.kept hk.dated hk.known (fun h => ?_) (hagree _ hans)
      rw [hlib] at h; cases h
    | true =>
      have hkeep := hk.keep hlib hget text
      refine hkeep.append hkeep.kept hkeep.dated hkeep.known (fun _ => ?_) (hagree _ hans)
      rw [if_pos rfl, Table.get?_insert, if_pos rfl]

/-! ### The two ends of a request -/

/-- The version that a file gets when it is asked for. -/
def nextVersion (r : Registry) (path : String) (time : Nat) : ScriptVersion :=
  match r.versions.get? path with
  | some v => { v with version := v.version + 1 }
  | none => ⟨0, time⟩

theorem ensureTracked_versions (hn : Path.normalize path = path) (time : Nat) :
    (r.ensureTracked path time).2.versions = r.versions.insert path (r.nextVersion path time) := by
  unfold ensureTracked nextVersion
  rewrite [hn]
  rfl

theorem nextVersion_version {time : Nat} {e : ScriptVersion} (he : r.versions.get? path = some e) :
    (r.nextVersion path time).version = e.version + 1 := by
  unfold nextVersion
  rw [he]

/-- A file that is asked for gets a new version, which no answer was given
for yet. -/
theorem Keyed.ensureTracked (hk : Keyed past log r) (hnow : now ∈ past)
    (hn : Path.normalize path = path) {time : Nat} (ht : now.modified path = .ok time) :
    Keyed past log (r.ensureTracked path time).2 ∧
      Fresh now path log (r.ensureTracked path time).2 := by
  have hv := ensureTracked_versions (r := r) hn time
  have hdate : ∃ fs ∈ past, fs.modified path = .ok (r.nextVersion path time).modified := by
    unfold nextVersion
    cases he : r.versions.get? path with
    | none => exact ⟨now, hnow, ht⟩
    | some e => exact hk.dated path e he
  refine ⟨⟨hk.kept, dated_insert hk.dated hv hdate, fun x hx => ?_, hk.agree⟩, ?_⟩
  · refine (hk.known x hx).put hv rfl (fun e he => ?_) fun e _ he heq => ?_
    · rw [nextVersion_version he]; omega
    · rw [nextVersion_version he] at heq; omega
  · intro fs e hlib he hmem
    obtain ⟨old, n, hold, hn, hle, -⟩ := hk.known _ hmem hlib
    rw [hv, Table.get?_insert, if_pos rfl, Option.some.injEq] at he
    have hgreater : (r.nextVersion path time).version = old.version + 1 := nextVersion_version hold
    have := toString_inj hn
    rw [← he] at this
    omega

theorem ensureTracked_grows (hn : Path.normalize path = path) (time : Nat) :
    Grows r (r.ensureTracked path time).2 :=
  .insert (ensureTracked_versions hn time) fun e he => by rw [nextVersion_version he]; omega

/-- The time of an analysis can be put on record when all answers that are
equal to the version on record were given for the present contents. -/
theorem Keyed.markAnalyzed (hk : Keyed past log r) (hf : Fresh now path log r) (hnow : now ∈ past)
    (hpast : ∀ fs ∈ past, fs = now ∨ fs.Before now) (hn : Path.normalize path = path) {time : Nat}
    (ht : now.modified path = .ok time) : Keyed past log (r.markAnalyzed path time) := by
  unfold Registry.markAnalyzed
  rw [hn]
  dsimp only
  cases he : r.versions.get? path with
  | none => exact hk
  | some e =>
    refine ⟨hk.kept, dated_insert hk.dated rfl ⟨now, hnow, ht⟩, fun x hx => ?_, hk.agree⟩
    refine (hk.known x hx).put rfl rfl (fun e' he' => ?_) fun e' hlib he' _ hxp _ fs hfs hfst => ?_
    · rw [he] at he'; cases he'; exact Nat.le_refl _
    · have hnowc := stands_of_le hpast ht (Nat.le_refl time) fs hfs hfst
      obtain ⟨fs', answer⟩ := x
      cases hxp
      rw [hnowc, hf fs' e hlib he hx]

theorem markAnalyzed_grows (path : String) (time : Nat) : Grows r (r.markAnalyzed path time) := by
  unfold Registry.markAnalyzed
  dsimp only
  split
  · rename_i e he
    exact .insert rfl fun e' he' => by rw [he] at he'; cases he'; exact Nat.le_refl _
  · exact .refl r

theorem scriptVersion_grows (fs : FileSystem) (path : String) :
    Grows r (scriptVersion fs path r).2 := by
  cases hc : r.libraries.contains path with
  | true =>
    obtain ⟨v, hv⟩ := scriptVersion_kept hc fs
    rw [hv]
    exact .refl r
  | false =>
    have hspec := scriptVersion_spec hc fs
    cases ht : fs.modified path with
    | error fault => rw [ht] at hspec; rw [hspec]; exact .refl r
    | ok time =>
      rw [ht] at hspec
      obtain ⟨e, hren, hspec⟩ := hspec
      rw [hspec]
      exact .insert rfl fun old hold => by rw [hold] at hren; exact hren.version_le

theorem snapshot_versions (fs : FileSystem) (path : String) :
    (Registry.snapshot fs path r).2.versions = r.versions := by
  rcases snapshot_spec r path fs with ⟨_, _, hs⟩ | ⟨_, hs⟩ | ⟨_, _, hs⟩ <;> rw [hs]
  cases Path.isLibrary path <;> rfl

end

end Registry

/-! ## Requests -/

theorem Analyzer.normalize_resolvePath {φ : Type} (a : Analyzer φ) (file : String) :
    Path.normalize (a.resolvePath file) = a.resolvePath file := by
  unfold Analyzer.resolvePath
  split <;> exact Path.normalize_normalize _

theorem Registry.modified_ok {fs : FileSystem} {path : String} {time : Nat}
    (h : Registry.modified fs path = .ok time) : fs.modified path = .ok time := by
  unfold Registry.modified at h
  cases hm : fs.modified path with
  | error e => rw [hm] at h; cases h
  | ok t => rw [hm] at h; cases h; rfl

/-- What holds at every moment of a round of synchronization in the file
system `now`, for a request of `path` that found the registry as `start`. -/
structure Registry.Serving (past : List FileSystem) (now : FileSystem) (path : String)
    (log : List (FileSystem × Answer)) (start : Registry) (s : Registry × List Answer) : Prop where
  keyed : Keyed past (log ++ s.2.map (now, ·)) s.1
  fresh : Fresh now path (log ++ s.2.map (now, ·)) s.1
  grows : Grows start s.1

namespace Registry

variable {past : List FileSystem} {log : List (FileSystem × Answer)} {now : FileSystem}
  {path : String} {start : Registry} {s : Registry × List Answer}

theorem Serving.version (h : Serving past now path log start s) (hnow : now ∈ past)
    (hpast : ∀ fs ∈ past, fs = now ∨ fs.Before now) (q : String) :
    Serving past now path log start (((Registry.host now).recorded.version q s).2) := by
  have hlog : log ++ ((Registry.host now).recorded.version q s).2.2.map (now, ·) =
      (log ++ s.2.map (now, ·)) ++ [(now, .version q (scriptVersion now q s.1).1)] := by
    simp [Host.recorded, host]
  have hkeyed := h.keyed.version hnow hpast q
  refine ⟨by rw [hlog]; exact hkeyed, ?_, h.grows.trans (scriptVersion_grows now q)⟩
  rw [hlog]
  exact h.fresh.version h.keyed hkeyed

theorem Serving.snapshot (h : Serving past now path log start s) (q : String) :
    Serving past now path log start (((Registry.host now).recorded.snapshot q s).2) := by
  have hlog : log ++ ((Registry.host now).recorded.snapshot q s).2.2.map (now, ·) =
      (log ++ s.2.map (now, ·)) ++ [(now, .snapshot q (Registry.snapshot now q s.1).1)] := by
    simp [Host.recorded, host]
  have hv : ((Registry.host now).recorded.snapshot q s).2.1.versions = s.1.versions :=
    snapshot_versions now q
  refine ⟨by rw [hlog]; exact h.keyed.snapshot now q, ?_, ?_⟩
  · rw [hlog]
    intro fs e hlib he hmem
    rw [hv] at he
    rcases List.mem_append.1 hmem with hmem | hmem
    · exact h.fresh fs e hlib he hmem
    · rw [List.mem_singleton] at hmem
      cases (Prod.mk.inj hmem).2
  · intro q e he
    rw [hv]
    exact h.grows q e he

/-- A request keeps the versions keys and loses none of them. -/
theorem Keyed.request (a : Analyzer Program) (hk : Keyed past log a.registry) (hnow : now ∈ past)
    (hpast : ∀ fs ∈ past, fs = now ∨ fs.Before now) (file : String) :
    Keyed past (log ++ (a.answers now file).map (now, ·))
        (Analyzer.analyze Program.frontend now file a).2.registry ∧
      Grows a.registry (Analyzer.analyze Program.frontend now file a).2.registry := by
  rw [Analyzer.analyze_eq]
  unfold Analyzer.answers
  cases hm : Registry.modified now (a.resolvePath file) with
  | error e =>
    dsimp only
    rw [List.map_nil, List.append_nil]
    exact ⟨hk, .refl _⟩
  | ok time =>
    have hn := a.normalize_resolvePath file
    have ht := modified_ok hm
    obtain ⟨hk1, hf1⟩ := hk.ensureTracked hnow hn ht
    have hg1 := ensureTracked_grows (r := a.registry) hn time
    have hserve : Serving past now (a.resolvePath file) log a.registry
        (a.frontend.synchronize (Registry.host now).recorded
          ((a.registry.ensureTracked (a.resolvePath file) time).2, [])).2 := by
      refine Program.synchronize_preserves (fun s q hs => hs.version hnow hpast q)
        (fun s q hs => hs.snapshot q) a.frontend ⟨?_, ?_, hg1⟩
      · simpa using hk1
      · simpa using hf1
    have hplain := (Program.synchronize_sim (Registry.host now).recorded_sim a.frontend
      ((a.registry.ensureTracked (a.resolvePath file) time).2, []) _ rfl).2
    obtain ⟨hk2, hf2, hg2⟩ := hserve
    rw [hplain] at hk2 hf2 hg2
    dsimp only
    rcases Analyzer.report_registry Program.frontend (a.resolvePath file) time _ with h | h
    · rw [h]
      exact ⟨hk2, hg2⟩
    · rw [h]
      exact ⟨hk2.markAnalyzed hf2 hnow hpast hn ht, hg2.trans (markAnalyzed_grows _ _)⟩

end Registry

/-! ## Runs -/

/-- What can happen: the files change in any way, or a file is asked for. -/
inductive Action where
  | edit (fs : FileSystem)
  | request (file : String)

/-- An analyzer over a file system. `log` holds the answers that its registry
has given so far, each with the file system it was given for. -/
structure Session where
  fs : FileSystem
  analyzer : Analyzer Program
  log : List (FileSystem × Answer)

namespace Session

/-- A new analyzer. -/
def start (fs : FileSystem) (declarations : List String) (o : CompilerOptions)
    (rootType projectDir : String) : Session where
  fs := fs
  analyzer := .ofProject (.ofDeclarations declarations) (.ofOptions o) rootType projectDir
  log := []

def step (s : Session) : Action → Session
  | .edit fs => { s with fs := fs }
  | .request file => { s with
    analyzer := (Analyzer.analyze Program.frontend s.fs file s.analyzer).2
    log := s.log ++ (s.analyzer.answers s.fs file).map (s.fs, ·) }

theorem step_request (s : Session) (file : String) : s.step (.request file) = { s with
    analyzer := (Analyzer.analyze Program.frontend s.fs file s.analyzer).2
    log := s.log ++ (s.analyzer.answers s.fs file).map (s.fs, ·) } :=
  rfl

def run (s : Session) (actions : List Action) : Session := actions.foldl step s

/-- The version on record for a path. -/
def version? (s : Session) (path : String) : Option Nat :=
  (s.analyzer.registry.versions.get? path).map ScriptVersion.version

end Session

/-- The file systems that the actions bring. -/
def Action.systems : List Action → List FileSystem
  | [] => []
  | .edit fs :: rest => fs :: systems rest
  | .request _ :: rest => systems rest

namespace Session

open Registry

/-- The registry of a session keeps its versions keys, and the file systems
still to come only bring later times. -/
def Ready (s : Session) (past : List FileSystem) (actions : List Action) : Prop :=
  Keyed (past ++ [s.fs]) s.log s.analyzer.registry ∧
    (past ++ s.fs :: Action.systems actions).Pairwise FileSystem.Before

theorem Ready.step {s : Session} {past : List FileSystem} {action : Action} {rest : List Action}
    (h : s.Ready past (action :: rest)) : (∃ past', (s.step action).Ready past' rest) ∧
      Grows s.analyzer.registry (s.step action).analyzer.registry := by
  obtain ⟨hk, hp⟩ := h
  cases action with
  | edit fs =>
    have hp' : ((past ++ [s.fs]) ++ fs :: Action.systems rest).Pairwise FileSystem.Before := by
      simpa [Action.systems] using hp
    refine ⟨⟨past ++ [s.fs], hk.edit fun old hold => ?_, hp'⟩, .refl _⟩
    exact (List.pairwise_append.1 hp').2.2 old hold fs List.mem_cons_self
  | request file =>
    have hpast : ∀ fs ∈ past ++ [s.fs], fs = s.fs ∨ fs.Before s.fs := by
      intro fs hfs
      rcases List.mem_append.1 hfs with hfs | hfs
      · exact .inr ((List.pairwise_append.1 hp).2.2 fs hfs s.fs List.mem_cons_self)
      · exact .inl (List.mem_singleton.1 hfs)
    obtain ⟨hk', hg⟩ := hk.request s.analyzer (List.mem_append_right _ (by simp)) hpast file
    rw [step_request]
    unfold Ready
    dsimp only
    exact ⟨⟨past, hk', hp⟩, hg⟩

theorem Ready.run {s : Session} {past : List FileSystem} (actions rest : List Action)
    (h : s.Ready past (actions ++ rest)) :
    (∃ past', (s.run actions).Ready past' rest) ∧
      Grows s.analyzer.registry (s.run actions).analyzer.registry := by
  induction actions generalizing s past with
  | nil => exact ⟨⟨past, h⟩, .refl _⟩
  | cons action actions ih =>
    obtain ⟨⟨past', h'⟩, hg⟩ := h.step
    obtain ⟨hr, hg'⟩ := ih h'
    exact ⟨hr, hg.trans hg'⟩

theorem start_ready (fs : FileSystem) (declarations : List String) (o : CompilerOptions)
    (rootType projectDir : String) {actions : List Action}
    (h : (fs :: Action.systems actions).Pairwise FileSystem.Before) :
    (start fs declarations o rootType projectDir).Ready [] actions := by
  refine ⟨⟨?_, ?_, by simp [start], List.Pairwise.nil⟩, h⟩
  · intro path hc; cases hc
  · intro path e he; cases he

/-- In every run in which a path changes its contents only together with its
time, which becomes a later one:
* a version on record is never lost and never becomes smaller;
* of a file that belongs to no library, equal versions were given for equal
  contents;
* of a file of a library, a text once given is given ever after. -/
theorem versions_are_keys (fs : FileSystem) (declarations : List String) (o : CompilerOptions)
    (rootType projectDir : String) (actions : List Action)
    (h : (fs :: Action.systems actions).Pairwise FileSystem.Before) :
    let s := start fs declarations o rootType projectDir
    (∀ k path v, (s.run (actions.take k)).version? path = some v →
      ∃ v', (s.run actions).version? path = some v' ∧ v ≤ v') ∧
    (∀ path, Path.isLibrary path = false → ∀ x ∈ (s.run actions).log, ∀ y ∈ (s.run actions).log,
      ∀ v, x.2 = .version path v → y.2 = .version path v →
        x.1.contents? path = y.1.contents? path) ∧
    (∀ path, Path.isLibrary path = true → ∀ before x after,
      (s.run actions).log = before ++ x :: after → ∀ y ∈ after, ∀ text later,
        x.2 = .snapshot path (some text) → y.2 = .snapshot path later → later = some text) := by
  intro s
  have hready : s.Ready [] actions := start_ready fs declarations o rootType projectDir h
  obtain ⟨⟨past, hk, -⟩, -⟩ := Ready.run actions [] (by rw [List.append_nil]; exact hready)
  refine ⟨?_, ?_, ?_⟩
  · intro k path v hv
    -- the run goes on from where its first `k` actions have led
    obtain ⟨⟨past', hr⟩, -⟩ := Ready.run (actions.take k) (actions.drop k)
      (by rw [List.take_append_drop]; exact hready)
    have hg := (Ready.run (actions.drop k) [] (by rw [List.append_nil]; exact hr)).2
    have hrun : (s.run (actions.take k)).run (actions.drop k) = s.run actions := by
      unfold run
      rw [← List.foldl_append, List.take_append_drop]
    rw [hrun] at hg
    obtain ⟨e, he, rfl⟩ := Option.map_eq_some_iff.1 hv
    obtain ⟨e', he', hle⟩ := hg path e he
    exact ⟨e'.version, by rw [version?, he', Option.map_some], hle⟩
  · intro path hlib x hx y hy v hxv hyv
    -- answers agree in both directions, the order in the log does not matter
    have hall := List.Pairwise.forall_of_forall_of_flip
      (R := fun x y => x.2 = .version path v → y.2 = .version path v →
        x.1.contents? path = y.1.contents? path)
      (fun x _ _ _ => rfl) (hk.agree.imp fun h => h.1 path v hlib)
      (hk.agree.imp fun h hy hx => (h.1 path v hlib hx hy).symm)
    exact hall hx hy hxv hyv
  · intro path hlib before x after hlog y hy text later hx hly
    have hagree := hk.agree
    rw [hlog, List.pairwise_append, List.pairwise_cons] at hagree
    exact (hagree.2.1.1 y hy).2 path text later hlib hx hly

end Session

/-! ## A script that is deleted and made again -/

namespace FileSystem

/-- Where a segment of a path leads does not depend on what is there. -/
theorem step_unique {fs fs' : FileSystem} {p q q' : Place} {segment : List Char}
    (h : fs.step p segment = .ok q) (h' : fs'.step p segment = .ok q') : q = q' := by
  have hwhere : ∀ {fs : FileSystem} {q}, fs.step p segment = .ok q →
      q = if segment = [] ∨ segment = ['.'] then p
        else if segment = ['.', '.'] then p.dropLast else p ++ [String.ofList segment] := by
    intro fs q h
    unfold step at h
    cases he : fs.entry? p with
    | none => rw [he] at h; cases h
    | some e =>
      rw [he] at h
      cases e with
      | file _ _ => cases h
      | directory _ =>
        dsimp only at h
        by_cases hstay : segment = [] ∨ segment = ['.']
        · rw [if_pos hstay] at h ⊢
          cases h
          rfl
        · rw [if_neg hstay] at h ⊢
          by_cases hup : segment = ['.', '.']
          · rw [if_pos hup] at h ⊢
            cases h
            rfl
          · rw [if_neg hup] at h ⊢
            split at h
            · cases h
            · split at h <;> cases h
              rfl
  rw [hwhere h, hwhere h']

theorem steps_unique {fs fs' : FileSystem} (segments : List (List Char)) {p q q' : Place}
    (h : segments.foldlM fs.step p = .ok q) (h' : segments.foldlM fs'.step p = .ok q') :
    q = q' := by
  induction segments generalizing p with
  | nil => cases h; cases h'; rfl
  | cons segment rest ih =>
    rw [List.foldlM_cons] at h h'
    cases hs : fs.step p segment with
    | error e => rw [hs] at h; cases h
    | ok r =>
      cases hs' : fs'.step p segment with
      | error e => rw [hs'] at h'; cases h'
      | ok r' =>
        rw [hs] at h
        rw [hs', ← step_unique hs hs'] at h'
        exact ih h h'

/-- A path means the same place wherever it means one. -/
theorem resolve_unique {fs fs' : FileSystem} {path : String} {p p' : Place}
    (h : fs.resolve path = .ok p) (h' : fs'.resolve path = .ok p') : p = p' := by
  unfold resolve at h h'
  dsimp only at h h'
  split at h
  · cases h
  · rename_i hnull
    rw [if_neg hnull] at h'
    split at h
    · rename_i hroot
      rw [if_pos hroot] at h'
      exact steps_unique _ h h'
    · cases h

theorem lookup_ok {fs : FileSystem} {path : String} {e : Entry} (h : fs.lookup path = .ok e) :
    ∃ p, fs.resolve path = .ok p ∧ fs.entry? p = some e := by
  unfold lookup at h
  cases hr : fs.resolve path with
  | error _ => rw [hr] at h; cases h
  | ok p =>
    refine ⟨p, rfl, ?_⟩
    rw [hr] at h
    cases he : fs.entry? p with
    | none => simp only [bind, Except.bind, he] at h; cases h
    | some e' => simp only [bind, Except.bind, he] at h; cases h; rfl

/-- It is enough to compare what is at the same places. -/
theorem before_of_entries {fs fs' : FileSystem}
    (h : ∀ x ∈ fs.entries.entries, ∀ y ∈ fs'.entries.entries,
      x.1 = y.1 → x.2 ≠ y.2 → x.2.modified < y.2.modified) : fs.Before fs' := by
  intro path t t' ht ht' hne
  unfold modified at ht ht'
  cases hl : fs.lookup path with
  | error _ => rw [hl] at ht; cases ht
  | ok e =>
    cases hl' : fs'.lookup path with
    | error _ => rw [hl'] at ht'; cases ht'
    | ok e' =>
      rw [hl] at ht
      rw [hl'] at ht'
      cases ht
      cases ht'
      obtain ⟨p, hp, he⟩ := lookup_ok hl
      obtain ⟨p', hp', he'⟩ := lookup_ok hl'
      have hpp := resolve_unique hp hp'
      subst hpp
      refine h (p, e) (Table.mem_of_lookup he) (p, e') (Table.mem_of_lookup he') rfl ?_
      rintro rfl
      exact hne (by unfold contents? read; rw [hl, hl'])

end FileSystem

namespace Session

/-- A directory with one script, or without it. -/
def oneScript : Option (List Char × Nat) → FileSystem
  | none => ⟨⟨[([], .directory 0)]⟩⟩
  | some (text, time) => ⟨⟨[([], .directory 0), (["a.ts"], .file (some text) time)]⟩⟩

/-- The script is asked for, deleted, asked for in vain, made again with
another text and asked for twice. -/
def recreation : List Action :=
  [.request "/a.ts", .edit (oneScript none), .request "/a.ts",
    .edit (oneScript (some (['y'], 2))), .request "/a.ts", .request "/a.ts"]

theorem versions_are_keys_recreated :
    (oneScript (some (['x'], 1)) :: Action.systems recreation).Pairwise FileSystem.Before ∧
    ∀ x ∈ ((start (oneScript (some (['x'], 1))) [] default "" "/").run recreation).log,
    ∀ y ∈ ((start (oneScript (some (['x'], 1))) [] default "" "/").run recreation).log,
      ∀ v, x.2 = .version "/a.ts" v → y.2 = .version "/a.ts" v →
        x.1.contents? "/a.ts" = y.1.contents? "/a.ts" := by
  have h : (oneScript (some (['x'], 1)) :: Action.systems recreation).Pairwise
      FileSystem.Before := by
    simp only [recreation, Action.systems, List.pairwise_cons, List.forall_mem_cons,
      List.not_mem_nil, false_implies, implies_true, List.Pairwise.nil, and_true]
    refine ⟨⟨?_, ?_⟩, ?_⟩ <;> exact FileSystem.before_of_entries (by decide)
  exact ⟨h, (versions_are_keys _ _ _ _ _ _ h).2.1 "/a.ts" (by decide)⟩

end Session

end ScriptAnalysis
