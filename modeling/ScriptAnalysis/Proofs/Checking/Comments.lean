import ScriptAnalysis.Proofs.Checking.Texts
import ScriptAnalysis.Proofs.Parsing.Agreement

/-!
# Comments and what the checker reports

Scanner, parser, binder and checker together: the problems of names and types in
a file stay the same, at the same places, when every comment in it is replaced
by as many spaces. The tokens are the same, so the tree is, and the checker
works on the tree.

The one exception is where the checker goes back to the text. It takes a method
of an interface for optional when a question mark follows its name behind
nothing but white space, although the parser lets comments stand there as well
(`SourceFile.hidesMark`). There the comment is no trivia: `hidden_mark_missed`.

**Results.**
* `Checker.semanticDiagnostics_reworded`: a program with other texts but the same
  marks has the same reports.
* `SourceFile.parse_blankComments`: the tree without the comments, and that all
  of its nodes stop outside of comments.
* `Checker.semanticDiagnostics_blankComments`: comments are trivia in files of
  which no mark is hidden.
-/
namespace ScriptAnalysis

/-! ## Programs with other texts -/

namespace Checking

variable {w : SourceFile → SourceFile}

theorem nestingBound_reworded (c : Context) : nestingBound (c.reworded w) = nestingBound c := by
  unfold nestingBound
  rw [Context.bindings_reworded]
  show 16 * ((c.files.map _).foldl _ 0 + _ + 2) ^ 2 = _
  rw [Array.foldl_map]
  rfl

end Checking

namespace Checker

open Checking

variable {w : SourceFile → SourceFile}

/-- The checker with the text of `w f` for each file `f`. -/
def reworded (k : Checker) (w : SourceFile → SourceFile) : Checker :=
  { k with files := k.files.map fun f => f.withTextOf (w f) }

theorem ofFiles_reworded (files : List SourceFile) (options : Checking.Options) :
    ofFiles (files.map fun f => f.withTextOf (w f)) options =
      (ofFiles files options).reworded w := by
  have harenas : (files.map fun f => f.withTextOf (w f)).map
      (fun f => Array.replicate f.arena.size (none : Option TypeId)) =
      files.map fun f => Array.replicate f.arena.size none := by
    rw [List.map_map]
    rfl
  unfold ofFiles reworded
  rw [Binding.bindProgram_withTextOf, harenas, List.length_map, ← List.map_toArray]

theorem run_reworded {α : Type} {k : Checker} {x : Rules → Check α} (hmarks : SameMarks w k.here)
    (hx : ∀ n, Blind w k.here (x (rules n))) :
    (k.reworded w).run x = ((k.run x).1, (k.run x).2.reworded w) := by
  have hbound : nestingBound (k.reworded w).here = nestingBound k.here :=
    nestingBound_reworded k.here
  obtain ⟨hback, hsame⟩ := hx (nestingBound k.here) hmarks k.state
  unfold run
  dsimp only
  rw [hbound, show (k.reworded w).here = k.here.reworded w from rfl,
    show (k.reworded w).state = k.state from rfl, hsame, hback]
  rfl

theorem checkFile_reworded {k : Checker} (hmarks : SameMarks w k.here) (file : FileId) :
    (k.reworded w).checkFile file = (k.checkFile file).reworded w := by
  unfold checkFile
  rw [show (k.reworded w).files[file]? = (k.files[file]?).map fun f => f.withTextOf (w f) from
    Array.getElem?_map .., show (k.reworded w).state = k.state from rfl]
  cases k.files[file]? with
  | none => rfl
  | some source =>
    cases k.state.checked[file]? with
    | none => rfl
    | some checked =>
      cases checked with
      | true => rfl
      | false =>
        let opened : Checker := { k with
          state := { k.state with checked := k.state.checked.setIfInBounds file true } }
        have hwalk : ∀ n, Blind w opened.here (atTop file <| source.statements.forM fun node => do
            let _ ← (rules n).statement node) := by
          intro n
          refine .at_top (.forM fun node _ => ?_)
          exact ((rules_sightless w n).statement _ node).bind fun _ => .pure _
        exact congrArg Prod.snd (run_reworded (k := opened) hmarks hwalk)

/-- The texts of the files matter only for the marks behind the names of
methods. -/
theorem semanticDiagnostics_reworded {k : Checker} (hmarks : SameMarks w k.here)
    (file : FileId) :
    ((k.reworded w).semanticDiagnostics file).1 = (k.semanticDiagnostics file).1 := by
  unfold semanticDiagnostics
  rw [checkFile_reworded hmarks]
  rfl

end Checker

/-! ## Marks behind comments -/

namespace Lexer

open Text

theorem white_spec {c : Char} (hc : isWhite c = true) (cs : List Char) :
    opensComment (c :: cs) = false ∧ ¬(c = '"' ∨ c = '\'') := by
  have hne : c ≠ '/' ∧ c ≠ '"' ∧ c ≠ '\'' := by
    refine ⟨?_, ?_, ?_⟩ <;> rintro rfl <;> revert hc <;> decide
  refine ⟨opensComment_of_ne hne.1 cs, ?_⟩
  rintro (h | h)
  · exact hne.2.1 h
  · exact hne.2.2 h

/-- Where no comment starts behind some white space, the next character is the
same without the comments of the text. -/
theorem head?_dropWhile_blankFrom {cs : List Char}
    (h : opensComment (cs.dropWhile isWhite) = false) :
    ((blankFrom .code cs).dropWhile isWhite).head? = (cs.dropWhile isWhite).head? := by
  induction cs with
  | nil => rw [blankFrom_nil]
  | cons c cs ih =>
    cases hwhite : isWhite c with
    | true =>
      rw [List.dropWhile_cons_of_pos hwhite] at h ⊢
      obtain ⟨hopens, hquote⟩ := white_spec hwhite cs
      rw [blankFrom_plain hopens hquote, List.dropWhile_cons_of_pos hwhite]
      exact ih h
    | false =>
      have hwhite : ¬isWhite c = true := by simp [hwhite]
      rw [List.dropWhile_cons_of_neg hwhite] at h ⊢
      rw [blankFrom_code h, List.dropWhile_cons_of_neg hwhite]
      rfl

/-- Behind byte offset `n` of a text there are a comment and a question
mark, with nothing else but white space and comments before the mark. -/
def markBehindComment (text : List Char) (n : Nat) : Bool :=
  match dropBytes? n text with
  | none => false
  | some rest => opensComment (rest.dropWhile isWhite) &&
      ((blankComments rest).dropWhile isWhite).head? == some '?'

end Lexer

namespace SourceFile

open Checking Lexer Text

/-- Some method of an interface has a comment between its name and its
question mark. -/
def hidesMark (f : SourceFile) : Bool :=
  f.arena.any fun n =>
    match n.form with
    | .function .methodSignature p =>
      (p.name.bind (f.arena[·]?)).any fun name => markBehindComment f.text name.stop
    | _ => false

/-- Blanks for the comments of a text leave its syntax tree as it is. -/
theorem parse_blankComments (name : String) {text : List Char}
    (hscan : (scan text).errors = []) :
    parse name (blankComments text) =
      (parse name text).withTextOf (parse name (blankComments text)) ∧
    ∀ n ∈ (parse name text).arena.toList, Outside text n.stop := by
  have hblanked := scan_blanked hscan
  have hplaced : ∀ t ∈ (scan text).tokens, Parsing.Placed (Outside text) t := fun t ht =>
    ⟨(hblanked.outside t ht).1, (hblanked.outside t ht).2, fun hname =>
      scan_spelled text t ht (isWord_of_isName hname)⟩
  have hzero : Outside text 0 := ⟨text, by rw [dropBytes?], by rw [dropBytes?]; rfl⟩
  obtain ⟨hroot, halike⟩ := Parsing.parseTokens_alike hblanked.same hplaced hzero
  refine ⟨?_, halike.sound.stops⟩
  have harena := halike.arena
  have hmodule : (Parsing.parseTokens (scan (blankComments text)).tokens).2.moduleSyntax =
      (Parsing.parseTokens (scan text).tokens).2.moduleSyntax := by
    rw [halike.same]
  unfold withTextOf parse
  dsimp only
  rw [hroot, harena, hmodule]

/-- Whether a method is optional can be seen without the comments, unless its
mark stands behind one. -/
theorem isOptionalMethod_blankComments {f g : SourceFile} {node : NodeId} {p : FunctionParts}
    (htext : g.text = blankComments f.text)
    (hplaces : ∀ n ∈ f.arena.toList, Outside f.text n.stop) (hmarks : f.hidesMark = false)
    (hform : f.arena.form? node = some (.function .methodSignature p)) :
    isOptionalMethod (f.withTextOf g) node = isOptionalMethod f node := by
  have hparts : f.arena.functionOf? node = some p := by
    unfold Arena.functionOf?
    rw [hform]
  unfold isOptionalMethod
  rw [show (f.withTextOf g).arena = f.arena from rfl,
    show (f.withTextOf g).text = blankComments f.text from htext, hparts, Option.bind_some]
  cases hname : p.name.bind (f.arena[·]?) with
  | none => rfl
  | some name =>
    dsimp only
    obtain ⟨id, -, hid⟩ := Option.bind_eq_some_iff.1 hname
    have hmem : name ∈ f.arena.toList := Array.mem_toList_iff.2 (Array.mem_of_getElem? hid)
    obtain ⟨rest, hbefore, hafter⟩ := hplaces name hmem
    rw [hbefore, hafter]
    obtain ⟨n, hn, hnode⟩ := Option.map_eq_some_iff.1 hform
    have hmark : markBehindComment f.text name.stop = false := by
      have hall := Array.any_eq_false'.1 hmarks n (Array.mem_of_getElem? hn)
      rw [hnode] at hall
      simpa [hname] using hall
    unfold markBehindComment at hmark
    rw [hbefore] at hmark
    dsimp only at hmark ⊢
    cases hopens : opensComment (rest.dropWhile isWhite) with
    | false => rw [head?_dropWhile_blankFrom hopens]
    | true =>
      -- a comment starts with a slash, so that the method has no mark
      rw [hopens, Bool.true_and] at hmark
      rw [show blankFrom .code rest = blankComments rest from rfl, hmark]
      obtain ⟨tail, htail | htail⟩ := opensComment_iff.1 hopens
      · rw [htail]
        rfl
      · rw [htail]
        rfl

end SourceFile

namespace Checker

open Checking

/-- In a program of one file only its own marks matter. -/
theorem sameMarks_single {f g : SourceFile} (options : Checking.Options)
    (h : ∀ node p, f.arena.form? node = some (.function .methodSignature p) →
      isOptionalMethod (f.withTextOf g) node = isOptionalMethod f node) :
    SameMarks (fun _ => g) (ofFiles [f] options).here := by
  intro file node p hform
  rw [Context.sourceFile_reworded]
  have hfile : (ofFiles [f] options).here.sourceFile file = [f].toArray.getD file default := rfl
  have hlookup : (ofFiles [f] options).here.files[file]? = [f].toArray[file]? := rfl
  rw [hfile, Array.getD_eq_getD_getElem?] at hform ⊢
  rw [hlookup]
  cases file with
  | zero => exact h node p hform
  | succ file =>
    rw [List.getElem?_toArray, List.getElem?_cons_succ, List.getElem?_nil] at hform ⊢
    rfl

/-- **Comments are trivia.** In a file that is scanned without errors and has
no comment in front of the question mark of a method, the same is reported
with blanks for the comments. -/
theorem semanticDiagnostics_blankComments (name : String) (text : List Char)
    (options : Checking.Options) (hscan : (Lexer.scan text).errors = [])
    (hmarks : (SourceFile.parse name text).hidesMark = false) :
    ((ofFiles [SourceFile.parse name (Lexer.blankComments text)] options).semanticDiagnostics 0).1 =
      ((ofFiles [SourceFile.parse name text] options).semanticDiagnostics 0).1 := by
  obtain ⟨htree, hplaces⟩ := SourceFile.parse_blankComments name hscan
  have hreworded : ofFiles [SourceFile.parse name (Lexer.blankComments text)] options =
      (ofFiles [SourceFile.parse name text] options).reworded
        fun _ => SourceFile.parse name (Lexer.blankComments text) := by
    rw [← ofFiles_reworded, List.map_singleton, ← htree]
  rw [hreworded]
  refine semanticDiagnostics_reworded (sameMarks_single options fun node p hform => ?_) 0
  exact SourceFile.isOptionalMethod_blankComments rfl hplaces hmarks hform

/-- A method with a mark in front of a comment. -/
def commentedMethod : List Char :=
  "interface I \x7b m? /* c */ (): void \x7d // d\nlet x: I = \x7b\x7d;\n".toList

theorem semanticDiagnostics_blankComments_method :
    (Lexer.scan commentedMethod).errors = [] ∧
    (SourceFile.parse "/p/a.ts" commentedMethod).hidesMark = false ∧
    ((ofFiles [SourceFile.parse "/p/a.ts" (Lexer.blankComments commentedMethod)]
      ⟨true, false⟩).semanticDiagnostics 0).1 =
      ((ofFiles [SourceFile.parse "/p/a.ts" commentedMethod]
        ⟨true, false⟩).semanticDiagnostics 0).1 := by
  have hscan : (Lexer.scan commentedMethod).errors = [] := by
    unfold commentedMethod
    rw [String.toList_ofList]
    decide +kernel
  have hmarks : (SourceFile.parse "/p/a.ts" commentedMethod).hidesMark = false := by
    unfold commentedMethod
    rw [String.toList_ofList]
    decide +kernel
  exact ⟨hscan, hmarks, semanticDiagnostics_blankComments _ _ _ hscan hmarks⟩

/-- A method whose mark stands behind a comment. -/
def hiddenMark : List Char :=
  "interface I \x7b m /* c */ ?(): void \x7d\nlet x: I = \x7b\x7d;\n".toList

/-- Behind a comment the mark is missed, and the method has to be there. -/
theorem hidden_mark_missed :
    ¬ ∀ (name : String) (text : List Char) (options : Checking.Options),
      (Lexer.scan text).errors = [] →
      ((ofFiles [SourceFile.parse name (Lexer.blankComments text)]
        options).semanticDiagnostics 0).1 =
        ((ofFiles [SourceFile.parse name text] options).semanticDiagnostics 0).1 := by
  intro h
  have hscan : (Lexer.scan hiddenMark).errors = [] := by
    unfold hiddenMark
    rw [String.toList_ofList]
    decide +kernel
  have hcodes : ((ofFiles [SourceFile.parse "/p/a.ts" hiddenMark]
        ⟨true, false⟩).semanticDiagnostics 0).1.map Diagnostic.code = [2322] ∧
      ((ofFiles [SourceFile.parse "/p/a.ts" (Lexer.blankComments hiddenMark)]
        ⟨true, false⟩).semanticDiagnostics 0).1.map Diagnostic.code = [] := by
    unfold hiddenMark
    rw [String.toList_ofList]
    decide +kernel
  rw [h "/p/a.ts" hiddenMark ⟨true, false⟩ hscan, hcodes.1] at hcodes
  exact absurd hcodes.2 (List.cons_ne_nil _ _)

end Checker

end ScriptAnalysis
