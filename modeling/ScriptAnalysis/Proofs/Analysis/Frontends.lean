import ScriptAnalysis.Proofs.Program.Incremental
import ScriptAnalysis.Proofs.Registry.Versions

/-!
# What an analysis asks of a frontend

An analysis sees of a frontend what it answers. `Frontend.Respects F R` says
that `F` answers alike in states that `R` relates and leaves them related;
every step of an analysis then does so too, error or not (`Together`).

**Results.**
* `Analyzer.report_together`: what is reported of a file is the same.
* `Program.frontend_respects_view`: a program answers by its checker and
  options alone.
* `Program.frontend_respects_asked`: what no question can break holds of the
  program after a report.
-/
namespace ScriptAnalysis

/-- Steps that are alike for every member of a list are alike for the list. -/
theorem Host.Alike.mapM {σ τ α β : Type} {R : σ → τ → Prop} {f : α → StateM σ β}
    {g : α → StateM τ β} (h : ∀ x, Alike R (f x) (g x)) (l : List α) :
    Alike R (l.mapM f) (l.mapM g) := by
  induction l with
  | nil => exact .pure R []
  | cons x rest ih =>
    rw [List.mapM_cons, List.mapM_cons]
    exact .bind (h x) fun y => .bind ih fun ys => .pure R (y :: ys)

/-- What depends on nothing that tells related states apart is alike. -/
theorem Host.Alike.read {σ β : Type} {R : σ → σ → Prop} {f : σ → StateM σ β}
    (hsame : ∀ s t, R s t → f s = f t) (h : ∀ s, Alike R (f s) (f s)) :
    Alike R ((get : StateM σ σ) >>= f) (get >>= f) := by
  intro s t hr
  show (f s s).1 = (f t t).1 ∧ R (f s s).2 (f t t).2
  rw [hsame s t hr]
  exact h t s t hr

/-- In related states a frontend answers alike, and the states stay related. -/
structure Frontend.Respects {φ : Type} (F : Frontend φ) (R : φ → φ → Prop) : Prop where
  source? : ∀ s t, R s t → F.source? s = F.source? t
  emit : ∀ s t, R s t → F.emit s = F.emit t
  display : ∀ s t, R s t → F.display s = F.display t
  bases : ∀ s t, R s t → F.bases s = F.bases t
  isLiteral : ∀ s t, R s t → F.isLiteral s = F.isLiteral t
  calls : ∀ s t, R s t → F.calls s = F.calls t
  constructs : ∀ s t, R s t → F.constructs s = F.constructs t
  diagnostics : ∀ path, Host.Alike R (F.diagnostics path) (F.diagnostics path)
  signature : ∀ path node, Host.Alike R (F.signature path node) (F.signature path node)
  typeAt : ∀ path node, Host.Alike R (F.typeAt path node) (F.typeAt path node)

section

open Host

variable {φ : Type} {F : Frontend φ} {R : φ → φ → Prop}

theorem Exports.displayOf_congr (hF : F.Respects R) {s t : φ} (hr : R s t) (type : Option TypeId) :
    displayOf F s type = displayOf F t type := by
  unfold displayOf
  rw [hF.display s t hr]

theorem Exports.parameter_alike (hF : F.Respects R) (f : SourceFile) (node : NodeId)
    (inferred : Option TypeId) :
    Alike R (parameter F f node inferred) (parameter F f node inferred) := by
  unfold parameter
  cases f.arena.parameterOf? node with
  | none => exact .pure R _
  | some p =>
    dsimp only
    cases p.ascription with
    | none =>
      refine .bind (.pure R none) fun written => ?_
      exact .read (fun s t hr => by rw [displayOf_congr hF hr]) fun s => .pure R _
    | some type =>
      refine .bind (hF.typeAt f.name type) fun written => ?_
      exact .read (fun s t hr => by rw [displayOf_congr hF hr]) fun s => .pure R _

theorem Exports.describe_alike (hF : F.Respects R) (f : SourceFile) (g : Function) :
    Alike R (describe F f g) (describe F f g) := by
  refine .bind (hF.signature f.name g.node) fun signature => ?_
  refine .read (fun s t hr => by rw [displayOf_congr hF hr]) fun s => ?_
  dsimp only
  split
  · exact .pure R _
  · exact .bind (.mapM (fun (node, _) => parameter_alike hF f node _) _) fun _ => .pure R _

theorem Exports.extract_alike (hF : F.Respects R) (f : SourceFile) :
    Alike R (extract F f) (extract F f) :=
  .bind (.mapM (describe_alike hF f) _) fun _ => .pure R _

namespace Dependencies

theorem search_congr {s t : φ} (hd : F.display s = F.display t) (hb : F.bases s = F.bases t)
    (root : String) (depth : Nat) : search F s root depth = search F t root depth := by
  induction depth with
  | zero => rfl
  | succ depth ih =>
    funext type visited
    unfold search
    rw [hd, hb, ih]

/-- What is made of a type depends on what the frontend tells of types. -/
theorem note_congr {s t : φ} (hdisplay : F.display s = F.display t) (hbases : F.bases s = F.bases t)
    (hliteral : F.isLiteral s = F.isLiteral t) (hcalls : F.calls s = F.calls t)
    (hconstructs : F.constructs s = F.constructs t) (root : String) (type : TypeId)
    (found : Findings) : found.note F s root type = found.note F t root type := by
  unfold Findings.note Findings.classify trackedType? derivesFromRoot
  rw [hliteral, hcalls, hconstructs, search_congr hdisplay hbases, hdisplay]

theorem visit_alike (hF : F.Respects R) (f : SourceFile) (root : String) (found : Findings)
    (node : NodeId) : Alike R (visit F f root found node) (visit F f root found node) := by
  refine .bind (hF.typeAt f.name node) fun type => ?_
  cases type with
  | none => exact .pure R _
  | some type =>
    refine .read (fun s t hr => ?_) fun _ => .pure R _
    rw [note_congr (hF.display s t hr) (hF.bases s t hr) (hF.isLiteral s t hr) (hF.calls s t hr)
      (hF.constructs s t hr)]

theorem walk_alike (hF : F.Respects R) (f : SourceFile) (root : String) (steps : Nat)
    (stack : List NodeId) (found : Findings) :
    Alike R (walk F f root steps stack found) (walk F f root steps stack found) := by
  induction steps generalizing stack found with
  | zero => cases stack <;> exact .pure R _
  | succ steps ih =>
    cases stack with
    | nil => exact .pure R _
    | cons node stack => exact .bind (visit_alike hF f root found node) fun found => ih _ found

theorem collect_alike (hF : F.Respects R) (f : SourceFile) (root : String) :
    Alike R (collect F f root) (collect F f root) :=
  .bind (walk_alike hF f root _ _ _) fun _ => .pure R _

end Dependencies

namespace Analyzer

/-- The frontends of two analyzers with these settings are related. -/
structure Related (R : φ → φ → Prop) (rootType projectDir : String) (a b : Analyzer φ) : Prop where
  frontend : R a.frontend b.frontend
  rootType : a.rootType = rootType ∧ b.rootType = rootType
  projectDir : a.projectDir = projectDir ∧ b.projectDir = projectDir

variable {rootType projectDir : String} {α β : Type}

/-- A step of related analyzers gives the same, failed or not, and leaves
them related. -/
def Together (R : φ → φ → Prop) (rootType projectDir : String) (x : Step φ α) : Prop :=
  ∀ a b, Related R rootType projectDir a b →
    (x a).1 = (x b).1 ∧ Related R rootType projectDir (x a).2 (x b).2

theorem Together.pure (v : α) : Together R rootType projectDir (pure v : Step φ α) :=
  fun _ _ hr => ⟨rfl, hr⟩

theorem Together.throw (e : AnalysisError) :
    Together R rootType projectDir (throw e : Step φ α) :=
  fun _ _ hr => ⟨rfl, hr⟩

theorem Together.bind {x : Step φ α} {f : α → Step φ β} (hx : Together R rootType projectDir x)
    (hf : ∀ v, Together R rootType projectDir (f v)) :
    Together R rootType projectDir (x >>= f) := by
  intro a b hr
  obtain ⟨hsame, hnext⟩ := hx a b hr
  rw [step_bind, step_bind]
  rcases hxa : x a with ⟨result, a'⟩
  rcases hxb : x b with ⟨result', b'⟩
  rw [hxa, hxb] at hsame hnext
  cases hsame
  cases result with
  | error e => exact ⟨rfl, hnext⟩
  | ok v => exact hf v _ _ hnext

theorem Together.read {f : Analyzer φ → Step φ β}
    (hsame : ∀ a b, Related R rootType projectDir a b → f a = f b)
    (h : ∀ a, Together R rootType projectDir (f a)) :
    Together R rootType projectDir (get >>= f) := by
  intro a b hr
  show (f a a).1 = (f b b).1 ∧ Related R rootType projectDir (f a a).2 (f b b).2
  rw [hsame a b hr]
  exact h b a b hr

theorem Together.ask {x : StateM φ α} (hx : Alike R x x) :
    Together R rootType projectDir (ask x) := by
  intro a b hr
  obtain ⟨hsame, hnext⟩ := hx _ _ hr.frontend
  exact ⟨congrArg Except.ok hsame, hnext, hr.rootType, hr.projectDir⟩

theorem single_together (artifacts : List Artifact) :
    Together R rootType projectDir (match artifacts with
      | [artifact] => pure artifact.text
      | artifacts => throw (.outputCount artifacts.length) : Step φ String) := by
  split
  · exact .pure _
  · exact .throw _

theorem output_together (hF : F.Respects R) (path : String) :
    Together R rootType projectDir (output F path) := by
  refine .read (fun a b hr => by rw [hF.emit _ _ hr.frontend]) fun a => ?_
  cases F.emit a.frontend path with
  | none => exact .throw _
  | some o =>
    dsimp only
    split
    · exact .bind (.throw _) fun _ => single_together _
    · exact single_together _

/-- What is reported of a file depends on the answers of the frontend. -/
theorem report_together (hF : F.Respects R) (path : String) (time : Nat) :
    Together R rootType projectDir (report F path time) := by
  refine .read (fun a b hr => by rw [hF.source? _ _ hr.frontend]) fun a => ?_
  cases F.source? a.frontend path with
  | none => exact .throw _
  | some source =>
    refine .bind (.ask (hF.diagnostics path)) fun ds => ?_
    cases ds with
    | nil =>
      refine .bind (output_together hF path) fun text => ?_
      refine .bind (fun a b hr => ⟨rfl, hr.frontend, hr.rootType, hr.projectDir⟩) fun _ => ?_
      refine .bind (.ask (Exports.extract_alike hF source)) fun found => ?_
      refine .read (fun a b hr => by rw [hr.rootType.1, hr.rootType.2]) fun a => ?_
      exact .bind (.ask (Dependencies.collect_alike hF source _)) fun _ => .pure _
    | cons d ds =>
      refine .read (fun a b hr => ?_) fun _ => .pure _
      unfold formatAll
      rw [hF.source? _ _ hr.frontend]

end Analyzer

end

/-! ## Programs as frontends -/

namespace Program

/-- The programs have the same checker and options; their memories may
differ. -/
def SameView (p q : Program) : Prop :=
  ∃ parsed files, q = { p with parsed := parsed, files := files }

/-- A program has the view of another when it has its checker and options. -/
theorem SameView.of_checker {p q : Program} (hk : q.checker = p.checker)
    (ho : q.options = p.options) : SameView p q := by
  refine ⟨q.parsed, q.files, ?_⟩
  rw [← hk, ← ho]

/-- What no question can break holds in both of two equal programs. -/
theorem frontend_respects_asked {I : Program → Prop} (h : ∀ p q, Asked p q → I p → I q) :
    frontend.Respects fun p q => p = q ∧ I p where
  source? := by rintro p _ ⟨rfl, -⟩; rfl
  emit := by rintro p _ ⟨rfl, -⟩; rfl
  display := by rintro p _ ⟨rfl, -⟩; rfl
  bases := by rintro p _ ⟨rfl, -⟩; rfl
  isLiteral := by rintro p _ ⟨rfl, -⟩; rfl
  calls := by rintro p _ ⟨rfl, -⟩; rfl
  constructs := by rintro p _ ⟨rfl, -⟩; rfl
  diagnostics := by rintro path p _ ⟨rfl, hi⟩; exact ⟨rfl, rfl, h _ _ (.diagnostics p path) hi⟩
  signature := by
    rintro path node p _ ⟨rfl, hi⟩
    exact ⟨rfl, rfl, h _ _ (.signatureOf p path node) hi⟩
  typeAt := by rintro path node p _ ⟨rfl, hi⟩; exact ⟨rfl, rfl, h _ _ (.typeAt p path node) hi⟩

/-- Programs with the same checker and options answer every question alike. -/
theorem frontend_respects_view : frontend.Respects SameView where
  source? := by rintro p _ ⟨parsed, files, rfl⟩; rfl
  emit := by rintro p _ ⟨parsed, files, rfl⟩; rfl
  display := by rintro p _ ⟨parsed, files, rfl⟩; rfl
  bases := by rintro p _ ⟨parsed, files, rfl⟩; rfl
  isLiteral := by rintro p _ ⟨parsed, files, rfl⟩; rfl
  calls := by rintro p _ ⟨parsed, files, rfl⟩; rfl
  constructs := by rintro p _ ⟨parsed, files, rfl⟩; rfl
  diagnostics := by
    rintro path p _ ⟨parsed, files, rfl⟩
    show (Program.diagnostics _ path).1 = (Program.diagnostics _ path).1 ∧
      SameView (Program.diagnostics _ path).2 (Program.diagnostics _ path).2
    unfold Program.diagnostics
    rw [show find? { p with parsed := parsed, files := files } path = p.find? path from rfl,
      show sourceFile? { p with parsed := parsed, files := files } path = p.sourceFile? path
        from rfl]
    split
    · split
      · exact ⟨rfl, parsed, files, rfl⟩
      · exact ⟨rfl, parsed, files, rfl⟩
    · exact ⟨rfl, parsed, files, rfl⟩
  signature := by
    rintro path node p _ ⟨parsed, files, rfl⟩
    show (Program.signatureOf _ path node).1 = (Program.signatureOf _ path node).1 ∧
      SameView (Program.signatureOf _ path node).2 (Program.signatureOf _ path node).2
    unfold Program.signatureOf
    rw [show find? { p with parsed := parsed, files := files } path = p.find? path from rfl]
    cases p.find? path <;> exact ⟨rfl, parsed, files, rfl⟩
  typeAt := by
    rintro path node p _ ⟨parsed, files, rfl⟩
    show (Program.typeAt _ path node).1.toOption = (Program.typeAt _ path node).1.toOption ∧
      SameView (Program.typeAt _ path node).2 (Program.typeAt _ path node).2
    unfold Program.typeAt
    rw [show find? { p with parsed := parsed, files := files } path = p.find? path from rfl]
    cases p.find? path <;> exact ⟨rfl, parsed, files, rfl⟩

end Program

end ScriptAnalysis
