import Mathlib.Data.List.Forall2
import Mathlib.Data.List.ReduceOption
import ScriptAnalysis.Server

/-!
# Lines and their answers

The input of a server is a stream of bytes that arrives in pieces. A piece
may end anywhere: inside a character, between the two bytes of a line break,
or several lines later.

**Specification.** `Cut bytes lines tail`: the lines are what line feeds end
in the bytes, and the tail is what follows the last line feed. It does not
say how they are found.

**Invariant.** The bytes that a buffer keeps hold no line feed
(`pushAll_eq`), and the answers that a server keeps are texts of responses
(`ResponseCache.Rendered`), which stand on one line
(`Response.render_one_line`).

**Results.**
* `LineBuffer.received_eq`: what a buffer gives depends on the stream only.
* `Answered`, `converse_answered`: the lines of a stream are answered in
  order, whenever their bytes arrive.
* `any_pieces_same_lines`: both together.
-/
namespace ScriptAnalysis

/-! ## Lines of a stream -/

namespace LineBuffer

/-- The bytes are `lines`, each with a line feed at its end, and then
`tail`; there are no other line feeds. -/
structure Cut (bytes : List UInt8) (lines : List (List UInt8)) (tail : List UInt8) : Prop where
  joined : bytes = lines.flatMap (· ++ [lineFeed]) ++ tail
  lines : ∀ line ∈ lines, lineFeed ∉ line
  tail : lineFeed ∉ tail

/-- What the bytes of a line spell. -/
def spelled (bytes : List UInt8) : String :=
  String.ofList (Utf8.decodeLossy bytes)

/-- Pushes pieces one after the other. -/
def pushAll (b : LineBuffer) : List (List UInt8) → List String × LineBuffer
  | [] => ([], b)
  | piece :: rest =>
    let (lines, b) := b.push piece
    let (later, b) := b.pushAll rest
    (lines ++ later, b)

/-- The lines of an input that arrives in pieces, up to its end. -/
def received (pieces : List (List UInt8)) : List String :=
  let (lines, b) := empty.pushAll pieces
  lines ++ b.finish.1.toList

theorem cut_split (bytes : List UInt8) : Cut bytes (split bytes).1 (split bytes).2 := by
  induction bytes with
  | nil => exact ⟨rfl, fun _ h => (by cases h), fun h => by cases h⟩
  | cons b rest ih =>
    obtain ⟨hjoined, hlines, htail⟩ := ih
    by_cases hb : b = lineFeed
    · have hs : split (b :: rest) = ([] :: (split rest).1, (split rest).2) := by
        simp [split, hb]
      rw [hs]
      refine ⟨?_, fun line hmem => ?_, htail⟩
      · rw [hb, List.flatMap_cons, List.append_assoc, ← hjoined]
        rfl
      · rcases List.mem_cons.1 hmem with rfl | hmem
        · exact List.not_mem_nil
        · exact hlines line hmem
    · rcases hr : (split rest).1 with _ | ⟨first, later⟩
      · have hs : split (b :: rest) = ([], b :: (split rest).2) := by
          simp [split, hb, hr]
        rw [hr] at hjoined
        rw [hs]
        refine ⟨?_, fun line hmem => (by cases hmem), fun hmem => ?_⟩
        · exact congrArg (b :: ·) hjoined
        · rcases List.mem_cons.1 hmem with h | h
          · exact hb h.symm
          · exact htail h
      · have hs : split (b :: rest) = ((b :: first) :: later, (split rest).2) := by
          simp [split, hb, hr]
        rw [hr] at hjoined hlines
        rw [hs]
        refine ⟨congrArg (b :: ·) hjoined, fun line hmem h => ?_, htail⟩
        rcases List.mem_cons.1 hmem with rfl | hmem
        · rcases List.mem_cons.1 h with h | h
          · exact hb h.symm
          · exact hlines first List.mem_cons_self h
        · exact hlines line (List.mem_cons_of_mem _ hmem) h

/-- Bytes without a line feed belong to the first line of what follows. -/
theorem split_open {front : List UInt8} (h : lineFeed ∉ front) (bytes : List UInt8) :
    split (front ++ bytes) = match split bytes with
      | ([], tail) => ([], front ++ tail)
      | (line :: later, tail) => ((front ++ line) :: later, tail) := by
  induction front with
  | nil => rcases hs : split bytes with ⟨_ | ⟨line, later⟩, tail⟩ <;> exact hs
  | cons b rest ih =>
    have hb : b ≠ lineFeed := fun e => h (e ▸ List.mem_cons_self)
    have hrest := ih fun hmem => h (List.mem_cons_of_mem _ hmem)
    rcases hs : split bytes with ⟨_ | ⟨line, later⟩, tail⟩ <;>
      simp [split, hb, hrest, hs]

/-- A piece is cut as if it stood behind what is pending. -/
theorem push_eq {b : LineBuffer} (h : lineFeed ∉ b.pending) (piece : List UInt8) :
    b.push piece = ((split (b.pending ++ piece)).1.map lineText,
      ⟨(split (b.pending ++ piece)).2⟩) := by
  unfold push
  rw [split_open h]
  rcases split piece with ⟨_ | ⟨line, later⟩, tail⟩ <;> rfl

/-- Pieces are cut as if they were one. -/
theorem pushAll_eq {b : LineBuffer} (h : lineFeed ∉ b.pending) (pieces : List (List UInt8)) :
    b.pushAll pieces = ((split (b.pending ++ pieces.flatten)).1.map lineText,
      ⟨(split (b.pending ++ pieces.flatten)).2⟩) := by
  induction pieces generalizing b with
  | nil =>
    rw [List.flatten_nil, split_open h]
    simp [split, pushAll]
  | cons piece rest ih =>
    have hnext : lineFeed ∉ (split (b.pending ++ piece)).2 := (cut_split _).tail
    rw [List.flatten_cons, ← List.append_assoc, split_append, pushAll, push_eq h]
    dsimp only
    rw [ih hnext, List.map_append]

/-- The lines of a whole stream: those that a line feed ends, and the tail
if it is not empty. -/
def linesOf (bytes : List UInt8) : List String :=
  ((split bytes).1 ++ [(split bytes).2].filter (· ≠ [])).map lineText

/-- The lines that end in a first piece come first. -/
theorem linesOf_append (a b : List UInt8) :
    linesOf (a ++ b) = (split a).1.map lineText ++ linesOf ((split a).2 ++ b) := by
  unfold linesOf
  rw [split_append, List.append_assoc, List.map_append]

theorem finish_toList (tail : List UInt8) :
    (LineBuffer.finish ⟨tail⟩).1.toList = ([tail].filter (· ≠ [])).map lineText := by
  cases tail <;> rfl

theorem linesOf_open {tail : List UInt8} (h : lineFeed ∉ tail) :
    linesOf (tail ++ []) = (LineBuffer.finish ⟨tail⟩).1.toList := by
  unfold linesOf
  rw [split_open h, finish_toList]
  simp [split]

theorem received_eq (pieces : List (List UInt8)) : received pieces = linesOf pieces.flatten := by
  unfold received linesOf
  rw [pushAll_eq (b := empty) List.not_mem_nil]
  dsimp only
  rw [finish_toList, List.map_append]
  rfl

theorem lineText_return (bytes : List UInt8) :
    lineText (bytes ++ [carriageReturn]) = spelled bytes := by
  unfold lineText spelled
  rw [List.getLast?_concat, if_pos rfl, List.dropLast_concat]

theorem lineText_plain {bytes : List UInt8} (h : bytes.getLast? ≠ some carriageReturn) :
    lineText bytes = spelled bytes := by
  unfold lineText spelled
  rw [if_neg h]

end LineBuffer

/-! ## Texts on one line -/

namespace Json

/-- The text of the value has no line feed. -/
def OneLine (v : Json) : Prop :=
  '\n' ∉ v.render.toList

theorem hexDigit_ne : ∀ n, n < 16 → '\n' ≠ hexDigit n := by decide

theorem escapeChar_ne (c : Char) : '\n' ∉ escapeChar c := by
  unfold escapeChar
  split
  case h_8 hfeed _ _ _ _ =>
    split
    · simp only [List.mem_cons, List.not_mem_nil, or_false, not_or]
      exact ⟨by decide, by decide, by decide, by decide, hexDigit_ne _ (by omega),
        hexDigit_ne _ (Nat.mod_lt _ (by decide))⟩
    · rw [List.mem_singleton]
      exact fun h => hfeed h.symm
  all_goals decide

theorem quote_one_line (s : String) : '\n' ∉ (quote s).toList := by
  unfold quote
  simp only [String.toList_append, String.toList_ofList, List.mem_append, List.mem_flatMap,
    not_or, not_exists, not_and]
  exact ⟨⟨by decide, fun c _ => escapeChar_ne c⟩, by decide⟩

theorem oneLine_string (s : String) : (Json.string s).OneLine :=
  quote_one_line s

theorem oneLine_bool (b : Bool) : (Json.bool b).OneLine := by
  unfold OneLine
  cases b <;> decide

theorem oneLine_ofNat (n : Nat) : (ofNat n).OneLine := by
  show '\n' ∉ (toString n).toList
  rw [Nat.toString_eq_repr, Nat.repr_eq_ofList_toDigits, String.toList_ofList]
  intro h
  exact absurd (Nat.isDigit_of_mem_toDigits (by decide) (by decide) h) (by decide)

theorem oneLine_array {vs : List Json} (h : ∀ v ∈ vs, v.OneLine) : (array vs).OneLine := by
  have hall : '\n' ∉ (renderElements vs).toList := by
    induction vs with
    | nil => decide
    | cons v rest ih =>
      have hv := h v List.mem_cons_self
      have hrest := ih fun w hw => h w (List.mem_cons_of_mem _ hw)
      cases rest with
      | nil => exact hv
      | cons w later =>
        unfold renderElements
        simp only [String.toList_append, List.mem_append, not_or]
        exact ⟨⟨hv, by decide⟩, hrest⟩
  unfold OneLine render
  simp only [String.toList_append, List.mem_append, not_or]
  exact ⟨⟨by decide, hall⟩, by decide⟩

theorem oneLine_object {ms : List (String × Json)} (h : ∀ m ∈ ms, m.2.OneLine) :
    (object ms).OneLine := by
  have hall : '\n' ∉ (renderMembers ms).toList := by
    induction ms with
    | nil => decide
    | cons m rest ih =>
      have hm := h m List.mem_cons_self
      have hrest := ih fun w hw => h w (List.mem_cons_of_mem _ hw)
      cases rest with
      | nil =>
        unfold renderMembers
        simp only [String.toList_append, List.mem_append, not_or]
        exact ⟨⟨quote_one_line _, by decide⟩, hm⟩
      | cons w later =>
        unfold renderMembers
        simp only [String.toList_append, List.mem_append, not_or]
        exact ⟨⟨⟨⟨quote_one_line _, by decide⟩, hm⟩, by decide⟩, hrest⟩
  unfold OneLine render
  simp only [String.toList_append, List.mem_append, not_or]
  exact ⟨⟨by decide, hall⟩, by decide⟩

theorem oneLine_map {α : Type} {f : α → Json} (h : ∀ a, (f a).OneLine) (as : List α) :
    (array (as.map f)).OneLine := by
  refine oneLine_array fun v hv => ?_
  obtain ⟨a, -, rfl⟩ := List.mem_map.1 hv
  exact h a

end Json

section Responses

open Json

theorem TypeDescriptor.oneLine (d : TypeDescriptor) : d.toJson.OneLine := by
  refine oneLine_object ?_
  simp [oneLine_string, oneLine_ofNat]

theorem ParameterDescriptor.oneLine (p : ParameterDescriptor) : p.toJson.OneLine := by
  refine oneLine_object ?_
  simp [oneLine_string, oneLine_bool, oneLine_map TypeDescriptor.oneLine]

theorem FunctionDescriptor.oneLine (f : FunctionDescriptor) : f.toJson.OneLine := by
  refine oneLine_object ?_
  simp [oneLine_string, oneLine_ofNat, oneLine_map TypeDescriptor.oneLine,
    oneLine_map ParameterDescriptor.oneLine]

/-- A response is written on one line, whatever it tells. -/
theorem Response.render_one_line (r : Response) : '\n' ∉ r.render.toList := by
  have hstrings (ss : List String) : (strings ss).OneLine := oneLine_map oneLine_string ss
  cases r with
  | failure diagnostics =>
    refine oneLine_object ?_
    simp [hstrings]
  | success a =>
    refine oneLine_object ?_
    simp [oneLine_string, hstrings, oneLine_map FunctionDescriptor.oneLine]

end Responses

/-! ## Answers -/

/-- Every answer that is kept is the text of a response. -/
def ResponseCache.Rendered (c : ResponseCache) : Prop :=
  ∀ e ∈ c.entries.entries, ∃ r : Response, e.2.response = r.render

namespace ResponseCache

theorem Rendered.evict {c : ResponseCache} (h : c.Rendered) (now : Nat) :
    (c.evict now).Rendered :=
  fun e he => h e (List.mem_filter.1 he).1

theorem Rendered.find {c : ResponseCache} (h : c.Rendered) {now : Nat} {key text : String}
    (hf : (c.find now key).1 = some text) : ∃ r : Response, text = r.render := by
  obtain ⟨e, he, rfl⟩ := Option.map_eq_some_iff.1 hf
  exact h.evict now (key, e) (Table.mem_of_lookup he)

theorem Rendered.insert {c : ResponseCache} (h : c.Rendered) (now : Nat) (key : String)
    (r : Response) : (c.insert now key r.render).Rendered := by
  intro e he
  rcases Table.mem_of_mem_put he with rfl | he
  · exact ⟨r, rfl⟩
  · exact h.evict now e he

end ResponseCache

namespace Server

variable {φ : Type}

/-- Every run of a step keeps texts of responses only and leaves the line
that is being received alone; what it gives satisfies `P`. -/
def Keeps {α : Type} (P : α → Prop) (x : Step φ α) : Prop :=
  ∀ s, s.cache.Rendered → (x s).2.cache.Rendered ∧ (x s).2.lines = s.lines ∧
    ∀ a, (x s).1 = .ok a → P a

section

variable {α β : Type} {P : α → Prop} {Q : β → Prop}

theorem Keeps.pure {a : α} (h : P a) : Keeps P (Pure.pure a : Step φ α) :=
  fun _ hs => ⟨hs, rfl, fun _ e => Except.ok.inj e ▸ h⟩

theorem Keeps.bind {x : Step φ α} {f : α → Step φ β} (hx : Keeps P x)
    (hf : ∀ a, P a → Keeps Q (f a)) : Keeps Q (x >>= f) := by
  intro s hs
  obtain ⟨hcache, hlines, hgives⟩ := hx s hs
  have hstep : (x >>= f) s = match x s with
      | (.ok a, t) => f a t
      | (.error e, t) => (.error e, t) := by
    show (StateT.bind x (ExceptT.bindCont f) : StateM _ _) s = _
    unfold StateT.bind
    rcases x s with ⟨_ | _, _⟩ <;> rfl
  rw [hstep]
  rcases hxs : x s with ⟨e | a, t⟩ <;> rw [hxs] at hcache hlines hgives
  · exact ⟨hcache, hlines, fun _ h => by cases h⟩
  · obtain ⟨hcache', hlines', hgives'⟩ := hf a (hgives a rfl) t hcache
    exact ⟨hcache', hlines'.trans hlines, hgives'⟩

end

/-- The text is that of a response. -/
def IsResponse (text : String) : Prop :=
  ∃ r : Response, text = r.render

theorem keeps_kept (now : Nat) (file : String) :
    Keeps (fun found => ∀ text, found = some text → IsResponse text) (kept now file : Step φ _) :=
  fun _ hs => ⟨hs.evict now, rfl, fun _ e _ h => hs.find (Except.ok.inj e ▸ h)⟩

theorem keeps_keep (now : Nat) (file : String) (r : Response) :
    Keeps (fun _ => True) (keep now file r.render : Step φ Unit) :=
  fun _ hs => ⟨hs.insert now file r, rfl, fun _ _ => trivial⟩

theorem keeps_analyze (F : Frontend φ) (fs : FileSystem) (file : String) :
    Keeps (fun _ => True) (analyze F fs file) :=
  fun _ hs => ⟨hs, rfl, fun _ _ => trivial⟩

theorem keeps_answer (F : Frontend φ) (fs : FileSystem) (now : Nat) (request : Request) :
    Keeps IsResponse (answer F fs now request) := by
  refine (keeps_kept now request.file).bind fun found hfound => ?_
  cases found with
  | some text => exact .pure (hfound text rfl)
  | none =>
    refine (keeps_analyze F fs request.file).bind fun result _ => ?_
    match result with
    | .ok response =>
      exact (keeps_keep now request.file response).bind fun _ _ => .pure ⟨response, rfl⟩
    | .error (.unknownTime e) => exact .pure ⟨unreadableFile e, rfl⟩
    | .error (.notSynchronized _) | .error (.noSource _) | .error (.noOutput _)
    | .error (.outputSkipped _) | .error (.outputCount _) =>
      exact fun _ hs => ⟨hs, rfl, fun _ e => by cases e⟩

/-- A blank line has no answer, any other line has a response. -/
def AnswerTo (line : String) : Option String → Prop
  | none => line.toList.all Text.isWhite = true
  | some text => line.toList.all Text.isWhite = false ∧ IsResponse text

theorem keeps_handleLine (F : Frontend φ) (fs : FileSystem) (now : Nat) (line : String) :
    Keeps (AnswerTo line) (handleLine F fs now line) := by
  unfold handleLine
  cases hblank : line.toList.all Text.isWhite with
  | true => exact .pure hblank
  | false =>
    rw [if_neg Bool.false_ne_true]
    have hcount : Keeps (fun _ => True)
        (modify fun s => { s with handled := s.handled + 1 } : Step φ PUnit) :=
      fun _ hs => ⟨hs, rfl, fun _ _ => trivial⟩
    refine hcount.bind fun _ _ => ?_
    match Request.parse line with
    | .error e => exact .pure ⟨hblank, malformedRequest e, rfl⟩
    | .ok request =>
      exact (keeps_answer F fs now request).bind fun text htext => .pure ⟨hblank, htext⟩

/-- From `s` on the lines are taken in order, each with the files and at the
time of its own, and none of them ends the service. Bytes may arrive before
any of them. -/
inductive Answered (F : Frontend φ) :
    Server φ → List String → List (Option String) → Server φ → Prop
  | done (s : Server φ) : Answered F s [] [] s
  | arrive {s s' : Server φ} {lines : List String} {answers : List (Option String)}
      (buffer : LineBuffer) (h : Answered F { s with lines := buffer } lines answers s') :
      Answered F s lines answers s'
  | line {s t s' : Server φ} {line : String} {lines : List String} {answer : Option String}
      {answers : List (Option String)} (fs : FileSystem) (now : Nat)
      (h : handleLine F fs now line s = (.ok answer, t)) (rest : Answered F t lines answers s') :
      Answered F s (line :: lines) (answer :: answers) s'

theorem Answered.append {F : Frontend φ} {s t u : Server φ} {lines later : List String}
    {answers others : List (Option String)} (h : Answered F s lines answers t)
    (h' : Answered F t later others u) : Answered F s (lines ++ later) (answers ++ others) u := by
  induction h with
  | done s => exact h'
  | arrive buffer _ ih => exact .arrive buffer (ih h')
  | line fs now hline _ ih => exact .line fs now hline (ih h')

theorem Answered.answerTo {F : Frontend φ} {s s' : Server φ} {lines : List String}
    {answers : List (Option String)} (h : Answered F s lines answers s')
    (hs : s.cache.Rendered) : List.Forall₂ AnswerTo lines answers := by
  induction h with
  | done s => exact .nil
  | arrive buffer _ ih => exact ih hs
  | @line s t _ line _ answer _ fs now hline _ ih =>
    obtain ⟨hcache, -, hgives⟩ := keeps_handleLine F fs now line s hs
    rw [hline] at hcache hgives
    exact .cons (hgives answer rfl) (ih hcache)

theorem handleAll_step (F : Frontend φ) (fs : FileSystem) (now : Nat) (line : String)
    (rest : List String) (s : Server φ) :
    handleAll F fs now (line :: rest) s = (match (handleLine F fs now line s).1 with
      | .error e => Pure.pure ⟨[], some e⟩
      | .ok answer => do
        let w ← handleAll F fs now rest
        Pure.pure { w with lines := answer.toList ++ w.lines } : StateM _ _)
      (handleLine F fs now line s).2 :=
  rfl

/-- One line, then the lines behind it. -/
theorem handleAll_cons (F : Frontend φ) (fs : FileSystem) (now : Nat) (line : String)
    (rest : List String) (s : Server φ) :
    handleAll F fs now (line :: rest) s = match handleLine F fs now line s with
      | (.error e, t) => (⟨[], some e⟩, t)
      | (.ok answer, t) =>
        ({ (handleAll F fs now rest t).1 with
          lines := answer.toList ++ (handleAll F fs now rest t).1.lines },
          (handleAll F fs now rest t).2) := by
  rw [handleAll_step]
  rcases handleLine F fs now line s with ⟨_ | _, _⟩ <;> rfl

theorem handleAll_answered (F : Frontend φ) (fs : FileSystem) (now : Nat) (lines : List String)
    (s : Server φ) (hs : s.cache.Rendered) (hok : (handleAll F fs now lines s).1.fatal = none) :
    ∃ answers t, handleAll F fs now lines s = (⟨answers.reduceOption, none⟩, t) ∧
      Answered F s lines answers t ∧ t.cache.Rendered ∧ t.lines = s.lines := by
  induction lines generalizing s with
  | nil => exact ⟨[], s, rfl, .done s, hs, rfl⟩
  | cons line rest ih =>
    obtain ⟨hcache, hlines, -⟩ := keeps_handleLine F fs now line s hs
    rw [handleAll_cons] at hok ⊢
    rcases hline : handleLine F fs now line s with ⟨e | answer, t⟩ <;>
      rw [hline] at hok hcache hlines
    · cases hok
    · obtain ⟨answers, u, hrest, hanswered, hcache', hlines'⟩ := ih t hcache hok
      refine ⟨answer :: answers, u, ?_, .line fs now hline hanswered, hcache',
        hlines'.trans hlines⟩
      dsimp only
      rw [hrest]
      cases answer <;> rfl

/-- A piece leads to answers for the lines that it completes. -/
theorem feed_answered (F : Frontend φ) (fs : FileSystem) (now : Nat) (piece : List UInt8)
    (s : Server φ) (hs : s.cache.Rendered) (hp : LineBuffer.lineFeed ∉ s.lines.pending)
    (hok : (feed F fs now piece s).1.fatal = none) :
    ∃ answers t, feed F fs now piece s = (⟨answers.reduceOption, none⟩, t) ∧
      Answered F s ((LineBuffer.split (s.lines.pending ++ piece)).1.map LineBuffer.lineText)
        answers t ∧ t.cache.Rendered ∧
      t.lines.pending = (LineBuffer.split (s.lines.pending ++ piece)).2 := by
  have hfeed : feed F fs now piece s =
      handleAll F fs now (s.lines.push piece).1 { s with lines := (s.lines.push piece).2 } := rfl
  rw [hfeed, LineBuffer.push_eq hp] at hok ⊢
  obtain ⟨answers, t, hall, hanswered, hcache, hlines⟩ :=
    handleAll_answered F fs now _
      { s with lines := ⟨(LineBuffer.split (s.lines.pending ++ piece)).2⟩ } hs hok
  exact ⟨answers, t, hall, .arrive _ hanswered, hcache, by rw [hlines]⟩

/-- A piece of the input, with the files and the time at which it arrives. -/
structure Arrival where
  fs : FileSystem
  now : Nat
  piece : List UInt8

/-- Takes pieces as they arrive, then the end of the input, up to an
error. -/
def converse (F : Frontend φ) (fs : FileSystem) (now : Nat) :
    List Arrival → StateM (Server φ) Written
  | [] => finish F fs now
  | a :: rest => do
    let first ← feed F a.fs a.now a.piece
    match first.fatal with
    | some _ => return first
    | none =>
      let later ← converse F fs now rest
      return { later with lines := first.lines ++ later.lines }

/-- The lines of a stream are answered in order, each as soon as it is
complete. -/
theorem converse_answered (F : Frontend φ) (fs : FileSystem) (now : Nat) (arrivals : List Arrival)
    (s : Server φ) (hs : s.cache.Rendered) (hp : LineBuffer.lineFeed ∉ s.lines.pending)
    (hok : (converse F fs now arrivals s).1.fatal = none) :
    ∃ answers t, (converse F fs now arrivals s).1 = ⟨answers.reduceOption, none⟩ ∧
      Answered F s (LineBuffer.linesOf (s.lines.pending ++ arrivals.flatMap Arrival.piece))
        answers t := by
  induction arrivals generalizing s with
  | nil =>
    have hlast : converse F fs now [] s =
        handleAll F fs now (s.lines.finish).1.toList { s with lines := .empty } := rfl
    rw [hlast] at hok ⊢
    obtain ⟨answers, t, hall, hanswered, -, -⟩ :=
      handleAll_answered F fs now _ { s with lines := .empty } hs hok
    refine ⟨answers, t, by rw [hall], .arrive .empty ?_⟩
    rw [List.flatMap_nil, LineBuffer.linesOf_open hp]
    exact hanswered
  | cons a rest ih =>
    have hstep : converse F fs now (a :: rest) s =
        (match (feed F a.fs a.now a.piece s).1.fatal with
          | some _ => Pure.pure (feed F a.fs a.now a.piece s).1
          | none => do
            let later ← converse F fs now rest
            Pure.pure { later with
              lines := (feed F a.fs a.now a.piece s).1.lines ++ later.lines } : StateM _ _)
          (feed F a.fs a.now a.piece s).2 := rfl
    rw [hstep] at hok ⊢
    cases hfatal : (feed F a.fs a.now a.piece s).1.fatal with
    | some e =>
      rw [hfatal] at hok
      exact absurd (hfatal.symm.trans hok) (by simp)
    | none =>
      obtain ⟨answers, t, hfeed, hanswered, hcache, hpending⟩ :=
        feed_answered F a.fs a.now a.piece s hs hp hfatal
      have hopen : LineBuffer.lineFeed ∉ t.lines.pending := by
        rw [hpending]
        exact (LineBuffer.cut_split _).tail
      rw [hfeed] at hok ⊢
      obtain ⟨others, u, hlater, hothers⟩ := ih t hcache hopen hok
      refine ⟨answers ++ others, u, ?_, ?_⟩
      · show Written.mk (answers.reduceOption ++ (converse F fs now rest t).1.lines)
          (converse F fs now rest t).1.fatal = _
        rw [hlater, List.reduceOption_append]
      · rw [List.flatMap_cons, ← List.append_assoc, LineBuffer.linesOf_append, ← hpending]
        exact hanswered.append hothers

/-! ## Main result -/

/-- The answers that are given are responses on one line. -/
theorem one_line_of_answerTo {lines : List String} {answers : List (Option String)}
    (h : List.Forall₂ AnswerTo lines answers) {text : String}
    (hmem : text ∈ answers.reduceOption) : '\n' ∉ text.toList := by
  induction h with
  | nil => cases hmem
  | @cons line answer _ _ hanswer _ ih =>
    cases answer with
    | none => exact ih hmem
    | some first =>
      rcases List.mem_cons.1 hmem with rfl | hmem
      · obtain ⟨-, r, rfl⟩ := hanswer
        exact r.render_one_line
      · exact ih hmem

theorem text_written (answers : List String) :
    (Written.mk answers none).text.toList = answers.flatMap fun text => text.toList ++ ['\n'] := by
  unfold Written.text
  rw [String.toList_join, List.flatMap_map]
  simp only [String.toList_append]
  rfl

/-- However a stream is cut into pieces, the lines that are received are its
pieces between line feeds and its tail, each decoded as a whole and without
the carriage return of its line break; and whenever the pieces arrive, a
service that does not end writes one response on a line of its own for each
line that is not blank, in the order of the lines. -/
theorem any_pieces_same_lines (F : Frontend φ) (analyzer : Analyzer φ) (ttl : Nat)
    (arrivals : List Arrival) (fs : FileSystem) (now : Nat) :
    let pieces := arrivals.map Arrival.piece
    let received := LineBuffer.received pieces
    let written := (converse F fs now arrivals (ofAnalyzer analyzer ttl)).1
    (∃ lines tail, LineBuffer.Cut pieces.flatten lines tail ∧
      received = (lines ++ [tail].filter (· ≠ [])).map LineBuffer.lineText) ∧
    (∀ bytes, LineBuffer.lineText (bytes ++ [LineBuffer.carriageReturn]) =
      LineBuffer.spelled bytes) ∧
    (∀ bytes, bytes.getLast? ≠ some LineBuffer.carriageReturn →
      LineBuffer.lineText bytes = LineBuffer.spelled bytes) ∧
    (∀ others : List (List UInt8), others.flatten = pieces.flatten →
      LineBuffer.received others = received) ∧
    (written.fatal = none → ∃ answers s,
      Answered F (ofAnalyzer analyzer ttl) received answers s ∧
      List.Forall₂ AnswerTo received answers ∧
      written.text.toList = answers.reduceOption.flatMap (fun text => text.toList ++ ['\n']) ∧
      ∀ text ∈ answers.reduceOption, '\n' ∉ text.toList) := by
  intro pieces received written
  have hreceived : received = LineBuffer.linesOf pieces.flatten := LineBuffer.received_eq pieces
  refine ⟨⟨_, _, LineBuffer.cut_split pieces.flatten, hreceived⟩, LineBuffer.lineText_return,
    fun _ => LineBuffer.lineText_plain, fun others h => ?_, fun hok => ?_⟩
  · rw [LineBuffer.received_eq, h, hreceived]
  · have hstart : (ofAnalyzer analyzer ttl).cache.Rendered := fun e he => by cases he
    obtain ⟨answers, s, hwritten, hanswered⟩ :=
      converse_answered F fs now arrivals (ofAnalyzer analyzer ttl) hstart List.not_mem_nil hok
    have hsame : LineBuffer.linesOf ((ofAnalyzer analyzer ttl).lines.pending ++
        arrivals.flatMap Arrival.piece) = received := by
      rw [hreceived]
      rfl
    rw [hsame] at hanswered
    have hall := hanswered.answerTo hstart
    refine ⟨answers, s, hanswered, hall, ?_, fun text => one_line_of_answerTo hall⟩
    show (converse F fs now arrivals (ofAnalyzer analyzer ttl)).1.text.toList = _
    rw [hwritten, text_written]

/-- A line whose only character is cut in two, as is its line break; a blank
line; and the front of a request. -/
def cutCharacter : List Arrival :=
  [⟨.empty, 0, [0xC3]⟩, ⟨.empty, 5, [0xA9, 0x0D]⟩, ⟨.empty, 9, [0x0A, 0x20, 0x0A, 0x7B]⟩]

theorem any_pieces_same_lines_cut_character :
    let written := (converse Program.frontend .empty 10 cutCharacter (ofAnalyzer default 1000)).1
    written.fatal = none ∧
    LineBuffer.received (cutCharacter.map Arrival.piece) = ["é", " ", "\x7b"] ∧
    ∃ answers, List.Forall₂ AnswerTo ["é", " ", "\x7b"] answers ∧
      written.text.toList = answers.reduceOption.flatMap (fun text => text.toList ++ ['\n']) := by
  have hfatal : (converse Program.frontend .empty 10 cutCharacter
      (ofAnalyzer default 1000)).1.fatal = none := by
    decide +kernel
  have hlines : LineBuffer.received (cutCharacter.map Arrival.piece) = ["é", " ", "\x7b"] := by
    decide +kernel
  obtain ⟨-, -, -, -, hwritten⟩ :=
    any_pieces_same_lines Program.frontend default 1000 cutCharacter .empty 10
  obtain ⟨answers, -, -, hall, htext, -⟩ := hwritten hfatal
  rw [hlines] at hall
  exact ⟨hfatal, hlines, answers, hall, htext⟩

end Server

end ScriptAnalysis
