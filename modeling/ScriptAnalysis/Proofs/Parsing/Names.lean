import ScriptAnalysis.Proofs.Parsing.Traced
import ScriptAnalysis.Proofs.Token.Found

/-!
# The text of names

An identifier holds its text, and it covers a part of the file. The text comes from the
token, where this is a name and no keyword, or else from the table of the keywords; or
it is empty, where a name is missing. Here it is shown that this is always what stands
in the part of the file that the identifier covers.

**Tokens.** A keyword is found by its spelling, so a word in the text is spelled as its
token says (`slice_of_isWord`).

**Nodes.** Only two steps of the parser make identifiers: one out of the word at hand,
which it covers, and one that covers nothing (`Trace.spelled`).

**Result.** `SourceFile.nodeText_of_nameOf?`.
-/
namespace ScriptAnalysis

namespace Lexer

open Text

/-! ## Words -/

/-- A word has the spelling of its token. -/
theorem wordToken_text (word : List Char) :
    (wordToken word).2.getD (wordToken word).1.text = String.ofList word := by
  unfold wordToken
  split
  · rename_i k hk
    have htext := List.find?_some hk
    exact eq_of_beq htext
  · rfl

theorem isWord_of_mark? {cs : List Char} {k : TokenKind} (h : mark? cs = some k) :
    k.isWord = false := by
  have hmarks : ∀ k ∈ TokenKind.marks, k.isWord = false := by decide
  exact hmarks k (List.mem_of_find?_eq_some h)

/-- What is recognised as a word is as wide as its spelling, which it starts with. -/
theorem lexeme_of_isWord {c : Char} {cs : List Char} (h : (lexeme c cs).kind.isWord = true) :
    ∃ word rest, c :: cs = word ++ rest ∧ (lexeme c cs).width = size word ∧
      (lexeme c cs).value.getD (lexeme c cs).kind.text = String.ofList word := by
  unfold lexeme at h ⊢
  split at h
  · cases h
  · rename_i hquote
    rw [if_neg hquote]
    split at h
    · cases h
    · rename_i hnumber
      rw [if_neg hnumber]
      split at h
      · rename_i hname
        rw [if_pos hname]
        exact ⟨_, _, (List.takeWhile_append_dropWhile (p := isNamePart)).symm, rfl,
          wordToken_text _⟩
      · rename_i hname
        rw [if_neg hname]
        split at h
        · rename_i hmark
          rw [isWord_of_mark? hmark] at h
          cases h
        · cases h

/-- A word stands in the text as its token spells it. -/
theorem slice_of_isWord {text : List Char} {t : Token} (ht : t ∈ (scan text).tokens)
    (hword : t.kind.isWord = true) :
    slice text t.start t.stop = (t.value.getD t.kind.text).toList := by
  have hkind : t.kind ≠ .endOfFile := by
    intro hend
    rw [hend] at hword
    cases hword
  obtain ⟨front, c, cs, rfl, hstart, hstop, hk, hvalue⟩ := scan_lexeme ht hkind
  obtain ⟨word, rest, htext, hwidth, hspelled⟩ := lexeme_of_isWord (hk ▸ hword)
  have hcut := slice?_size front word rest
  rw [← htext, ← hwidth, ← hstart, ← hstop] at hcut
  rw [slice, hcut, hvalue, hk, hspelled, String.toList_ofList]
  rfl

theorem slice_empty (text : List Char) (n : Nat) : slice text n n = [] := by
  unfold slice slice?
  rw [if_pos (Nat.le_refl n), Nat.sub_self]
  cases dropBytes? n text with
  | none => rfl
  | some rest => simp [takeBytes?]

end Lexer

theorem Arena.nameOf?_eq_some_iff {a : Arena} {i : NodeId} {name : String} :
    a.nameOf? i = some name ↔ a.form? i = some (.identifier name) := by
  unfold nameOf?
  split
  · rename_i text hform
    rw [hform, Option.some.injEq, Option.some.injEq, Form.identifier.injEq]
  · rename_i hform
    exact ⟨nofun, fun h => absurd h (hform name)⟩

/-- If it is an identifier, its text is what it covers. -/
def Node.Spelled (text : List Char) (n : Node) : Prop :=
  ∀ name, n.form = .identifier name → Text.slice text n.pos n.stop = name.toList

namespace Parsing

/-! ## Identifiers -/

section

variable {text : List Char} {s t : State} {form : Form} {pos stop : Nat}

theorem spelled_of_isFree (h : form.isFree = true) : Node.Spelled text ⟨form, pos, stop⟩ := by
  rintro name ⟨⟩
  cases h

theorem spelled_of_operand? (h : form.operand?.isSome = true) :
    Node.Spelled text ⟨form, pos, stop⟩ := by
  rintro name ⟨⟩
  cases h

theorem spelled_of_body? {body : Option NodeId} (h : form.body? = some body) :
    Node.Spelled text ⟨form, pos, stop⟩ := by
  rintro name ⟨⟩
  cases h

/-- The steps of the parser make only identifiers that have the text that they cover. -/
theorem Trace.spelled (h : Trace s t) (hs : Seated (Lexer.scan text).tokens s)
    (hnodes : ∀ n ∈ s.arena, n.Spelled text) : ∀ n ∈ t.arena, n.Spelled text := by
  have hT := sequence_scan text
  have hpush : ∀ {s : State} {form : Form} {pos stop : Nat}, (∀ n ∈ s.arena, n.Spelled text) →
      Node.Spelled text ⟨form, pos, stop⟩ → ∀ n ∈ (s.push form pos stop).arena, n.Spelled text :=
    fun hnodes hnode n hn => (Array.mem_push.1 hn).elim (hnodes n) fun heq => heq ▸ hnode
  have hadvance : ∀ {s : State}, (∀ n ∈ s.arena, n.Spelled text) →
      ∀ n ∈ s.advance.arena, n.Spelled text := fun hnodes => by rwa [advance_arena]
  induction h with
  | refl | note | exhaust => exact hnodes
  | trans first _ ih ih' => exact ih' (first.seated hT hs) (ih hs hnodes)
  | pass _ | skip _ => exact hadvance hnodes
  | report s p => rwa [report_arena]
  | word hnext =>
    refine hpush (hadvance hnodes) fun name hname => ?_
    cases hname
    exact Lexer.slice_of_isWord (hs.tokenAt_mem hT) hnext
  | missing _ pos =>
    refine hpush hnodes fun name hname => ?_
    cases hname
    exact Lexer.slice_empty text pos
  | node _ hfree => exact hpush hnodes (spelled_of_isFree hfree)
  | operator _ _ htakes _ _ ih =>
    exact hpush (ih (hs.advance hT) (hadvance hnodes)) (spelled_of_operand? htakes)
  | closed hbody => exact hpush hnodes (spelled_of_body? hbody)
  | otherwise _ _ _ _ _ _ _ ih =>
    exact hpush (ih (hs.advance hT) (hadvance hnodes)) fun _ hname => by cases hname
  | nested _ ih => exact ih (hs.same rfl rfl rfl) hnodes
  | abandoned attempt _ =>
    rw [rewind_arena attempt.forward.toGrows]
    exact hnodes

end

end Parsing

namespace SourceFile

open Parsing

/-- What the binder and the checker take for a name is the text that its node covers. -/
theorem nodeText_of_nameOf? {name : String} {text : List Char} {i : NodeId} {t : String}
    (h : (parse name text).arena.nameOf? i = some t) : (parse name text).nodeText i = t := by
  have hspelled := (trace_parseTokens (Lexer.scan text).tokens).spelled
    (seated_start _) fun _ hn => absurd hn (Array.not_mem_empty _)
  obtain ⟨n, hi, hform⟩ := Option.map_eq_some_iff.1 (Arena.nameOf?_eq_some_iff.1 h)
  have hslice := hspelled n (Array.mem_of_getElem? hi) t hform
  unfold nodeText
  rw [hi]
  show String.ofList (Text.slice text n.pos n.stop) = t
  rw [hslice, String.ofList_toList]

end SourceFile

end ScriptAnalysis
