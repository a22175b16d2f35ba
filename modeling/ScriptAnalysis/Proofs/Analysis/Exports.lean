import ScriptAnalysis.Analysis.Exports
import ScriptAnalysis.Proofs.Text.Cuts

/-!
# Which exported functions are rejected

A function whose result has alternatives cannot be taken over. Whether it
has is read off the shown form of its type: the mark between the members of
a union is looked for in the whole text, at whatever depth it stands.

**Specification.** `Judged F f s gs rs t`: from what the frontend knows in
`s`, the functions `gs` are judged one after the other. A function with the
mark in the text of its result gives a rejection, any other one a
description.

**Results.**
* `Exports.extract_judged`: what is extracted is what is judged.
* `Mentions.shown`: the mark is shown for every union, and for every type in
  which one is mentioned.
* `rejected_iff_mark_shown`: the three together, with the types that are
  rejected although they are no unions.
* `array_of_union_rejected`: one such function.
-/
namespace ScriptAnalysis

/-! ## Types that show the mark -/

/-- The text has the mark that stands between the members of a union. -/
def MarkShown (text : String) : Prop :=
  TypeDescriptor.separator <:+: text.toList

theorem MarkShown.of_append_left {a : String} (h : MarkShown a) (b : String) :
    MarkShown (a ++ b) := by
  unfold MarkShown
  rw [String.toList_append]
  exact h.trans (List.prefix_append _ _).isInfix

theorem MarkShown.of_append_right {b : String} (h : MarkShown b) (a : String) :
    MarkShown (a ++ b) := by
  unfold MarkShown
  rw [String.toList_append]
  exact h.trans (List.suffix_append _ _).isInfix

theorem markShown_join {texts : List String} {text : String} (hmem : text ∈ texts)
    (h : MarkShown text) : MarkShown (String.join texts) := by
  unfold MarkShown
  rw [String.toList_join, List.flatMap_def]
  exact h.trans (List.infix_of_mem_flatten (List.mem_map_of_mem hmem))

theorem markShown_intercalate {texts : List String} {text : String} (hmem : text ∈ texts)
    (h : MarkShown text) (sep : String) : MarkShown (String.intercalate sep texts) := by
  unfold MarkShown at h ⊢
  rw [String.toList_intercalate]
  induction texts with
  | nil => cases hmem
  | cons first rest ih =>
    cases rest with
    | nil =>
      rw [List.mem_singleton] at hmem
      subst hmem
      rw [List.map_singleton, List.intercalate_singleton]
      exact h
    | cons second later =>
      rw [List.map_cons, List.map_cons, List.intercalate_cons_cons, List.append_assoc]
      rcases List.mem_cons.1 hmem with rfl | hmem
      · exact h.trans (List.prefix_append _ _).isInfix
      · have hrest := ih hmem
        rw [List.map_cons] at hrest
        exact hrest.trans ((List.suffix_append _ _).trans (List.suffix_append _ _)).isInfix

/-- Between two members stands the mark. -/
theorem markShown_of_two (first second : String) (later : List String) :
    MarkShown (String.intercalate " | " (first :: second :: later)) := by
  unfold MarkShown
  rw [String.toList_intercalate, List.map_cons, List.map_cons, List.intercalate_cons_cons,
    List.append_assoc]
  exact ⟨first.toList, _, List.append_assoc _ _ _⟩

/-- A union of several members is mentioned in what is shown of a type with
`depth` levels. -/
inductive Mentions (t : TypeTable) : Nat → TypeId → Prop
  | union {depth : Nat} {id : TypeId} {members : List TypeId}
      (hdata : t.dataOf id = .union members) (htwo : 2 ≤ members.length) :
      Mentions t (depth + 1) id
  | array {depth : Nat} {id element : TypeId} (hdata : t.dataOf id = .array element)
      (h : Mentions t depth element) : Mentions t (depth + 1) id
  | parameter {depth : Nat} {id : TypeId} {shape : Shape} {signature : Signature}
      {parameter : Parameter} (hdata : t.dataOf id = .object shape) (hname : shape.name = none)
      (hcall : signature ∈ shape.calls) (hparameter : parameter ∈ signature.parameters)
      (h : Mentions t depth parameter.type) : Mentions t (depth + 1) id
  | result {depth : Nat} {id : TypeId} {shape : Shape} {signature : Signature}
      (hdata : t.dataOf id = .object shape) (hname : shape.name = none)
      (hcall : signature ∈ shape.calls) (h : Mentions t depth signature.returnType) :
      Mentions t (depth + 1) id
  | property {depth : Nat} {id : TypeId} {shape : Shape} {property : Property}
      (hdata : t.dataOf id = .object shape) (hname : shape.name = none)
      (hproperty : property ∈ shape.properties) (h : Mentions t depth property.type) :
      Mentions t (depth + 1) id

section Shown

variable {inner : TypeId → String} {shape : Shape} {signature : Signature}

theorem markShown_parameter {parameter : Parameter} (hmem : parameter ∈ signature.parameters)
    (h : MarkShown (inner parameter.type)) (arrow : String) :
    MarkShown (TypeTable.displaySignature inner arrow signature) := by
  refine .of_append_left (.of_append_left (.of_append_left (.of_append_right ?_ _) _) _) _
  exact markShown_intercalate (List.mem_map_of_mem hmem) (h.of_append_right _) _

theorem markShown_result (h : MarkShown (inner signature.returnType)) (arrow : String) :
    MarkShown (TypeTable.displaySignature inner arrow signature) :=
  h.of_append_right _

/-- What a call signature shows is shown of the object. -/
theorem markShown_call (hname : shape.name = none) (hmem : signature ∈ shape.calls)
    (h : ∀ arrow, MarkShown (TypeTable.displaySignature inner arrow signature)) :
    MarkShown (TypeTable.displayShape inner shape) := by
  unfold TypeTable.displayShape TypeTable.displayMembers
  rw [hname]
  dsimp only
  split
  · rename_i only hcalls _
    rw [hcalls, List.mem_singleton] at hmem
    exact hmem ▸ h _
  · rename_i hcalls
    rw [hcalls] at hmem
    cases hmem
  · refine .of_append_left (.of_append_left (.of_append_right ?_ _) _) _
    exact markShown_join (List.mem_map_of_mem hmem) ((h _).of_append_left _)

theorem markShown_property {property : Property} (hname : shape.name = none)
    (hmem : property ∈ shape.properties) (h : MarkShown (inner property.type)) :
    MarkShown (TypeTable.displayShape inner shape) := by
  unfold TypeTable.displayShape TypeTable.displayMembers
  rw [hname]
  dsimp only
  split
  · rename_i hproperties _ _
    rw [hproperties] at hmem
    cases hmem
  · rename_i hproperties _
    rw [hproperties] at hmem
    cases hmem
  · refine .of_append_left (.of_append_right ?_ _) _
    exact markShown_join (List.mem_map_of_mem hmem) ((h.of_append_right _).of_append_left _)

end Shown

/-- A type in which a union is mentioned shows the mark. -/
theorem Mentions.shown {t : TypeTable} {depth : Nat} {id : TypeId} (h : Mentions t depth id) :
    MarkShown (t.displayWithin depth id) := by
  induction h with
  | @union depth id members hdata htwo =>
    obtain ⟨first, second, later, rfl⟩ : ∃ a b rest, members = a :: b :: rest := by
      match members, htwo with
      | a :: b :: rest, _ => exact ⟨a, b, rest, rfl⟩
    rw [TypeTable.displayWithin, hdata]
    exact markShown_of_two _ _ _
  | array hdata _ ih =>
    rw [TypeTable.displayWithin, hdata]
    dsimp only
    split
    · exact .of_append_left (.of_append_left (ih.of_append_right _) _) _
    · exact ih.of_append_left _
  | parameter hdata hname hcall hparameter _ ih =>
    rw [TypeTable.displayWithin, hdata]
    exact markShown_call hname hcall (markShown_parameter hparameter ih)
  | result hdata hname hcall _ ih =>
    rw [TypeTable.displayWithin, hdata]
    exact markShown_call hname hcall (markShown_result ih)
  | property hdata hname hproperty _ ih =>
    rw [TypeTable.displayWithin, hdata]
    exact markShown_property hname hproperty ih

section NoUnions

variable {t : TypeTable} {id : TypeId}

theorem not_markShown_intrinsic {kind : Intrinsic} (h : t.dataOf id = .intrinsic kind) :
    ¬ MarkShown (t.display id) := by
  have hshown : t.display id = kind.text := by
    show t.displayWithin (8 + 1) id = _
    rw [TypeTable.displayWithin, h]
  intro hmark
  rw [hshown] at hmark
  have hbar : '|' ∈ kind.text.toList := hmark.subset (by decide)
  revert hbar
  cases kind <;> decide

/-- A string literal type shows the mark if its own text does. -/
theorem markShown_string_iff {text : String} (h : t.dataOf id = .literal (.string text)) :
    MarkShown (t.display id) ↔ MarkShown text := by
  have hshown : (t.display id).toList = [] ++ '"' :: (text.toList ++ '"' :: []) := by
    show (t.displayWithin (8 + 1) id).toList = _
    rw [TypeTable.displayWithin, h]
    simp [LiteralValue.text, String.toList_append]
  have hquote : '"' ∉ TypeDescriptor.separator := by decide
  have hnone : ¬ TypeDescriptor.separator <:+: [] := by decide
  unfold MarkShown
  rw [hshown, Text.infix_append_cons hquote, Text.infix_append_cons hquote]
  simp [hnone]

/-- An array type shows the mark if its elements do. -/
theorem markShown_array_iff {element : TypeId} (h : t.dataOf id = .array element) :
    MarkShown (t.display id) ↔
      MarkShown (t.displayWithin (TypeTable.displayDepth - 1) element) := by
  have hbracket : '[' ∉ TypeDescriptor.separator := by decide
  have hopen : '(' ∉ TypeDescriptor.separator := by decide
  have hclose : ')' ∉ TypeDescriptor.separator := by decide
  have hnone : ¬ TypeDescriptor.separator <:+: [] := by decide
  have hmark : ¬ TypeDescriptor.separator <:+: [']'] := by decide
  have hmarks : ¬ TypeDescriptor.separator <:+: ['[', ']'] := by decide
  show MarkShown (t.displayWithin (8 + 1) id) ↔ MarkShown (t.displayWithin 8 element)
  rw [TypeTable.displayWithin, h]
  unfold MarkShown
  dsimp only
  split
  · have htext : ("(" ++ t.displayWithin 8 element ++ ")" ++ "[]").toList =
        [] ++ '(' :: ((t.displayWithin 8 element).toList ++ ')' :: ['[', ']']) := by
      simp [String.toList_append]
    rw [htext, Text.infix_append_cons hopen, Text.infix_append_cons hclose]
    simp [hnone, hmarks]
  · have htext : (t.displayWithin 8 element ++ "[]").toList =
        (t.displayWithin 8 element).toList ++ '[' :: [']'] := by
      simp [String.toList_append]
    rw [htext, Text.infix_append_cons hbracket]
    simp [hmark]

end NoUnions

/-! ## Judging functions -/

namespace Exports

variable {φ : Type}

/-- Whether a statement is an exported function with a name and a body. -/
def isExported (f : SourceFile) (node : NodeId) : Bool :=
  match f.arena.form? node with
  | some (.function .declaration p) => p.name.isSome && p.body.isSome && p.modifiers.exported
  | _ => false

theorem map_node_functions (f : SourceFile) :
    (functions f).map Function.node = f.statements.filter (isExported f) := by
  have hone (node : NodeId) :
      (ofStatement? f node).map Function.node = if isExported f node then some node else none := by
    unfold ofStatement? isExported
    cases f.arena.form? node with
    | none => rfl
    | some form =>
      cases form with
      | function kind p =>
        cases kind with
        | declaration =>
          obtain ⟨⟨exported, _⟩, name, _, _, body⟩ := p
          cases name <;> cases body <;> cases exported <;> rfl
        | _ => rfl
      | _ => rfl
  unfold functions
  rw [List.map_filterMap]
  simp only [hone]
  rw [← List.filterMap_eq_filter]
  rfl

/-- The text of what a function returns. -/
def resultText (F : Frontend φ) (s : φ) (signature : Option Signature) : String :=
  displayOf F s (signature.map Signature.returnType)

/-- Where the name of a function stands, counted from one. -/
def place (f : SourceFile) (g : Function) : Nat × Nat :=
  let position := f.position (((f.arena[g.name]?).map Node.pos).getD 0)
  (position.line + 1, position.character + 1)

/-- Describes the parameters of a function with a signature. -/
def parametersOf (F : Frontend φ) (f : SourceFile) (g : Function) (signature : Option Signature) :
    StateM φ (List ParameterDescriptor) :=
  g.parts.parameters.zipIdx.mapM fun (e : NodeId × Nat) =>
    parameter F f e.1 ((((signature.map Signature.parameters).getD [])[e.2]?).map Parameter.type)

/-- From what the frontend knows in the first state, the functions are
judged one after the other: a function with the mark in the text of its
result is rejected, any other one is described. -/
inductive Judged (F : Frontend φ) (f : SourceFile) :
    φ → List Function → List (Except Rejection FunctionDescriptor) → φ → Prop
  | done (s : φ) : Judged F f s [] [] s
  | rejected {s t u : φ} {g : Function} {gs : List Function}
      {rs : List (Except Rejection FunctionDescriptor)} {signature : Option Signature}
      (hsignature : F.signature f.name g.node s = (signature, t))
      (hmark : MarkShown (resultText F t signature)) (rest : Judged F f t gs rs u) :
      Judged F f s (g :: gs)
        (.error ⟨f.name, (place f g).1, (place f g).2, f.nodeText g.name,
          resultText F t signature⟩ :: rs) u
  | described {s t t' u : φ} {g : Function} {gs : List Function}
      {rs : List (Except Rejection FunctionDescriptor)} {signature : Option Signature}
      {parameters : List ParameterDescriptor}
      (hsignature : F.signature f.name g.node s = (signature, t))
      (hmark : ¬ MarkShown (resultText F t signature))
      (hparameters : parametersOf F f g signature t = (parameters, t'))
      (rest : Judged F f t' gs rs u) :
      Judged F f s (g :: gs)
        (.ok ⟨f.nodeText g.name, parameters,
          [TypeDescriptor.ofMember (resultText F t signature).toList],
          (place f g).1, (place f g).2⟩ :: rs) u

/-- A function is judged by the text of its result. -/
theorem describe_eq (F : Frontend φ) (f : SourceFile) (g : Function) (s : φ) :
    describe F f g s =
      let signature := (F.signature f.name g.node s).1
      let t := (F.signature f.name g.node s).2
      (match TypeDescriptor.ofDisplay (resultText F t signature) with
        | _ :: _ :: _ => Pure.pure (.error ⟨f.name, (place f g).1, (place f g).2,
            f.nodeText g.name, resultText F t signature⟩)
        | returnTypes => do
          let parameters ← parametersOf F f g signature
          Pure.pure (.ok ⟨f.nodeText g.name, parameters, returnTypes, (place f g).1,
            (place f g).2⟩) : StateM φ _) t := rfl

theorem judged_cons (F : Frontend φ) (f : SourceFile) (g : Function) (s u : φ)
    {gs : List Function} {rs : List (Except Rejection FunctionDescriptor)}
    (rest : Judged F f (describe F f g s).2 gs rs u) :
    Judged F f s (g :: gs) ((describe F f g s).1 :: rs) u := by
  rw [describe_eq] at rest ⊢
  dsimp only at rest ⊢
  by_cases hmark : MarkShown (resultText F (F.signature f.name g.node s).2
      (F.signature f.name g.node s).1)
  · obtain ⟨a, b, more, hsplit⟩ := Text.splitOn_of_present (by decide) hmark
    have hmany : TypeDescriptor.ofDisplay (resultText F (F.signature f.name g.node s).2
        (F.signature f.name g.node s).1) =
          .ofMember a :: .ofMember b :: more.map .ofMember := by
      unfold TypeDescriptor.ofDisplay
      rw [hsplit]
      rfl
    rw [hmany] at rest ⊢
    exact .rejected rfl hmark rest
  · have hone : TypeDescriptor.ofDisplay (resultText F (F.signature f.name g.node s).2
        (F.signature f.name g.node s).1) =
          [.ofMember (resultText F (F.signature f.name g.node s).2
            (F.signature f.name g.node s).1).toList] := by
      unfold TypeDescriptor.ofDisplay
      rw [Text.splitOn_of_absent hmark]
      rfl
    rw [hone] at rest ⊢
    exact .described rfl hmark rfl rest

theorem judged_mapM (F : Frontend φ) (f : SourceFile) (gs : List Function) (s : φ) :
    Judged F f s gs (gs.mapM (describe F f) s).1 (gs.mapM (describe F f) s).2 := by
  induction gs generalizing s with
  | nil => exact .done s
  | cons g gs ih =>
    rw [List.mapM_cons]
    exact judged_cons F f g s _ (ih (describe F f g s).2)

/-- What is extracted is what is judged: the descriptions and the
rejections, both in the order of the source. -/
theorem extract_judged (F : Frontend φ) (f : SourceFile) (s : φ) :
    ∃ results t, Judged F f s (functions f) results t ∧
      extract F f s = ((results.filterMap Except.toOption,
        results.filterMap fun
          | .error r => some r
          | .ok _ => none), t) :=
  ⟨_, _, judged_mapM F f (functions f) s, rfl⟩

/-- An exported function is rejected exactly if the text of its result has
the mark of a union. It has for every union of several members, and for
types that are no unions too: those in which a union is mentioned, and
string literals with the mark in them. -/
theorem rejected_iff_mark_shown (F : Frontend φ) (f : SourceFile) (s : φ) :
    (functions f).map Function.node = f.statements.filter (isExported f) ∧
    (∃ results t, Judged F f s (functions f) results t ∧
      extract F f s = ((results.filterMap Except.toOption,
        results.filterMap fun
          | .error r => some r
          | .ok _ => none), t)) ∧
    (∀ p k signature, Program.checker p = some k →
      resultText Program.frontend p (some signature) = k.types.display signature.returnType) ∧
    (∀ t id, Mentions t TypeTable.displayDepth id → MarkShown (t.display id)) ∧
    (∀ t id kind, TypeTable.dataOf t id = .intrinsic kind → ¬ MarkShown (t.display id)) ∧
    (∀ t id text, TypeTable.dataOf t id = .literal (.string text) →
      (MarkShown (t.display id) ↔ MarkShown text)) ∧
    (∀ t id element, TypeTable.dataOf t id = .array element →
      (MarkShown (t.display id) ↔
        MarkShown (t.displayWithin (TypeTable.displayDepth - 1) element))) := by
  refine ⟨map_node_functions f, extract_judged F f s, fun p k signature hk => ?_,
    fun t id h => h.shown, fun t id kind => not_markShown_intrinsic,
    fun t id text => markShown_string_iff, fun t id element => markShown_array_iff⟩
  show ((p.checker.map (·.types.display signature.returnType)).getD "any") = _
  rw [hk]
  rfl

/-- A program of some files of which nothing has been asked. -/
def freshProgram (files : List SourceFile) (options : CompilerOptions) : Program :=
  { Program.ofOptions options with
    checker := some (Checker.ofFiles files options.checking) }

/-- A function that returns an array. -/
def arrayFile : SourceFile :=
  SourceFile.parse "/p/a.ts"
    "export function f(): (number | string)[] \x7b return []; \x7d\n".toList

/-- Whether the type that a function is found to return is an array type. -/
def returnsArray (p : Program) (path : String) (g : Function) : Bool :=
  match (p.signatureOf path g.node).1.map fun signature =>
      (p.signatureOf path g.node).2.types.dataOf signature.returnType with
  | some (.array _) => true
  | _ => false

theorem arrayFile_rejected :
    ((freshProgram [arrayFile] default).diagnostics "/p/a.ts").1 = [] ∧
    (functions arrayFile).map (fun g => (arrayFile.nodeText g.name,
      returnsArray ((freshProgram [arrayFile] default).diagnostics "/p/a.ts").2 "/p/a.ts" g)) =
        [("f", true)] ∧
    (extract Program.frontend arrayFile
      ((freshProgram [arrayFile] default).diagnostics "/p/a.ts").2).1.2 =
        [⟨"/p/a.ts", 1, 17, "f", "(Number | String)[]"⟩] := by
  rw [arrayFile, String.toList_ofList]
  decide +kernel

/-- A function may be rejected although its result is no union: an array of
unions is none. -/
theorem array_of_union_rejected :
    ¬ ∀ (files : List SourceFile) (options : CompilerOptions), ∀ f ∈ files,
      ∀ p, (freshProgram files options).diagnostics f.name = ([], p) →
      ∀ g ∈ functions f, ∀ signature q, p.signatureOf f.name g.node = (some signature, q) →
        ((∃ r ∈ (extract Program.frontend f p).1.2, r.name = f.nodeText g.name) ↔
          ∃ members, q.types.dataOf signature.returnType = .union members ∧
            2 ≤ members.length) := by
  intro h
  have hfile := h [arrayFile] default arrayFile (List.mem_singleton_self _)
  rw [show arrayFile.name = "/p/a.ts" from SourceFile.name_parse _ _] at hfile
  obtain ⟨hclean, hfunctions, hrejected⟩ := arrayFile_rejected
  rcases hasked : (freshProgram [arrayFile] default).diagnostics "/p/a.ts" with ⟨ds, p⟩
  rw [hasked] at hclean hfunctions hrejected hfile
  have hmem : ("f", true) ∈ (functions arrayFile).map (fun g =>
      (arrayFile.nodeText g.name, returnsArray p "/p/a.ts" g)) := by
    rw [hfunctions]
    exact List.mem_singleton_self _
  obtain ⟨g, hg, hboth⟩ := List.mem_map.1 hmem
  obtain ⟨hname, harray⟩ := Prod.mk.inj hboth
  unfold returnsArray at harray
  rcases hsignature : p.signatureOf "/p/a.ts" g.node with ⟨_ | signature, q⟩
  · rw [hsignature] at harray
    cases harray
  · rw [hsignature] at harray
    have hsaid : ∃ r ∈ (extract Program.frontend arrayFile p).1.2,
        r.name = arrayFile.nodeText g.name := by
      rw [hrejected, hname]
      exact ⟨_, List.mem_singleton_self _, rfl⟩
    obtain ⟨members, hunion, -⟩ :=
      (hfile p (congrArg (·, p) hclean) g hg signature q hsignature).1 hsaid
    have hdata : (match some (q.types.dataOf signature.returnType) with
      | some (.array _) => true
      | _ => false) = true := harray
    rw [hunion] at hdata
    cases hdata

end Exports

end ScriptAnalysis
