import Mathlib.Data.List.Forall2
import ScriptAnalysis.Analysis.TypeDescriptor
import ScriptAnalysis.Types.Display
import ScriptAnalysis.Proofs.Text.Cuts
import ScriptAnalysis.Proofs.Types.Unions

/-!
# Descriptors read back types

A type is shown as a text, and the descriptors of its members are read off that
text by looking for marks. Types whose names are identifiers have no marks but
those of their arrays, so that nothing is mistaken; what is nested too deeply
is shown by dots, from which no name comes back.

**Specification.** `Layers` takes the arrays off a type until one without parts
is left. A type is `Describable` if its members, at least one, are such types
in arrays. A descriptor `Describes` a member if it has the name of its innermost
type and its number of arrays.

**Results.**
* `toList_displayWithin`: the text of a type in arrays, to any depth.
* `splitOn_display`: the texts of the members are found again.
* `describes_iff`: the descriptors of a type describe its members, in order, if
  and only if none of them is nested more than eight levels deep.
-/
namespace ScriptAnalysis

open Text

/-- A name that the scanner reads as one word. -/
def IsIdentifier (name : String) : Prop :=
  ∃ c cs, name.toList = c :: cs ∧ isNameStart c = true ∧ ∀ d ∈ cs, isNamePart d = true

namespace TypeTable

/-- A type without parts: one that needs no structure, or the instances of a
class or an interface. -/
inductive Leaf (t : TypeTable) (id : TypeId) : Prop
  | intrinsic (kind : Intrinsic) (data : t.dataOf id = .intrinsic kind)
  | declared (shape : Shape) (name : String) (data : t.dataOf id = .object shape)
      (kind : shape.kind = .instance_ ∨ shape.kind = .interface) (named : shape.name = some name)
      (spelled : IsIdentifier name)

/-- A type is a number of arrays around a type without parts. -/
inductive Layers (t : TypeTable) : TypeId → TypeId → Nat → Prop
  | leaf {id : TypeId} (leaf : Leaf t id) : Layers t id id 0
  | array {id element inner : TypeId} {levels : Nat} (data : t.dataOf id = .array element)
      (layers : Layers t element inner levels) : Layers t id inner (levels + 1)

/-- Every member of a type is a type without parts in arrays. -/
structure Describable (t : TypeTable) (id : TypeId) : Prop where
  some : t.unionMembers id ≠ []
  members : ∀ m ∈ t.unionMembers id, ∃ inner levels, Layers t m inner levels

/-- A descriptor has the name of the innermost type and the number of arrays
around it. -/
def Describes (t : TypeTable) (id : TypeId) (d : TypeDescriptor) : Prop :=
  ∃ inner, Layers t id inner d.dimensions ∧ d.name = t.display inner

/-- Members of a union stand one level deeper than a type by itself. -/
def memberDepth (t : TypeTable) (id : TypeId) : Nat :=
  match t.dataOf id with
  | .union _ => 1
  | _ => 0

variable {t : TypeTable} {id inner : TypeId} {levels depth : Nat}

theorem Leaf.not_array {element : TypeId} (h : Leaf t id) : t.dataOf id ≠ .array element := by
  intro hdata
  cases h with
  | intrinsic kind hleaf =>
    rw [hdata] at hleaf
    cases hleaf
  | declared shape name hleaf =>
    rw [hdata] at hleaf
    cases hleaf

/-- A type has one innermost type and one number of arrays around it. -/
theorem Layers.unique {inner' : TypeId} {levels' : Nat} (h : Layers t id inner levels)
    (h' : Layers t id inner' levels') : inner = inner' ∧ levels = levels' := by
  induction h generalizing levels' with
  | leaf hleaf =>
    cases h' with
    | leaf => exact ⟨rfl, rfl⟩
    | array hdata => exact absurd hdata hleaf.not_array
  | array hdata _ ih =>
    cases h' with
    | leaf hleaf => exact absurd hdata hleaf.not_array
    | array hdata' hlayers =>
      rw [hdata] at hdata'
      cases hdata'
      obtain ⟨rfl, rfl⟩ := ih hlayers
      exact ⟨rfl, rfl⟩

/-! ## Texts without marks -/

/-- The characters that marks and dots are made of. -/
def markCharacters : List Char :=
  [' ', '|', '[', ']', '.']

/-- A text in which no mark begins. -/
def Unmarked (cs : List Char) : Prop :=
  ∀ c ∈ cs, c ∉ markCharacters

theorem unmarked_intrinsic (kind : Intrinsic) : Unmarked kind.text.toList := by
  cases kind <;> exact Text.forall_mem_of_all (by decide +kernel)

theorem unmarked_identifier {name : String} (h : IsIdentifier name) : Unmarked name.toList := by
  obtain ⟨c, cs, hname, hstart, hrest⟩ := h
  have hparts : ∀ d ∈ name.toList, isNamePart d = true := by
    intro d hd
    rw [hname] at hd
    rcases List.mem_cons.1 hd with rfl | hd
    · unfold isNameStart at hstart
      simp [isNamePart, hstart]
    · exact hrest d hd
  have hmarks : ∀ d ∈ markCharacters, isNamePart d = false :=
    Text.forall_mem_of_all (by decide +kernel)
  intro d hd hmark
  have hpart := hparts d hd
  rw [hmarks d hmark] at hpart
  cases hpart

/-- A type without parts is shown in the same way at any depth. -/
theorem Leaf.displayWithin_succ (h : Leaf t id) (depth : Nat) :
    t.displayWithin (depth + 1) id = t.display id := by
  cases h with
  | intrinsic kind hdata => simp only [display, displayDepth, displayWithin, hdata]
  | declared shape name hdata hkind hnamed =>
    simp only [display, displayDepth, displayWithin, hdata, displayShape, hnamed]

theorem Leaf.unmarked (h : Leaf t id) : Unmarked (t.display id).toList := by
  cases h with
  | intrinsic kind hdata =>
    simp only [display, displayDepth, displayWithin, hdata]
    exact unmarked_intrinsic kind
  | declared shape name hdata hkind hnamed hspelled =>
    have hinstance : shape.kind ≠ .constructor := by
      rcases hkind with h | h <;> rw [h] <;> decide
    simp only [display, displayDepth, displayWithin, hdata, displayShape, hnamed, hinstance,
      if_false]
    exact unmarked_identifier hspelled

theorem Layers.leaf_inner (h : Layers t id inner levels) : Leaf t inner := by
  induction h with
  | leaf hleaf => exact hleaf
  | array _ _ ih => exact ih

/-- Neither a type without parts nor an array stands in parentheses. -/
theorem Layers.needsParens (h : Layers t id inner levels) : t.needsParens id = false := by
  cases h with
  | leaf hleaf =>
    cases hleaf with
    | intrinsic kind hdata => simp only [TypeTable.needsParens, hdata]
    | declared shape name hdata hkind hnamed =>
      simp only [TypeTable.needsParens, hdata, hnamed, Option.isNone_some, Bool.false_and]
  | array hdata => simp only [TypeTable.needsParens, hdata]

/-! ## Types in arrays -/

/-- The marks of a number of arrays. -/
def marks : Nat → List Char
  | 0 => []
  | n + 1 => TypeDescriptor.arrayMark ++ marks n

theorem marks_concat (n : Nat) : marks n ++ TypeDescriptor.arrayMark = marks (n + 1) := by
  induction n with
  | zero => rfl
  | succ n ih => rw [marks, List.append_assoc, ih, ← marks]

/-- What is shown in place of the innermost type of a number of arrays. -/
def shownName (t : TypeTable) (inner : TypeId) (levels depth : Nat) : List Char :=
  if levels < depth then (t.display inner).toList else "...".toList

theorem shownName_zero (t : TypeTable) (inner : TypeId) (levels : Nat) :
    t.shownName inner levels 0 = "...".toList :=
  if_neg (Nat.not_lt_zero levels)

/-- A type in arrays is shown by its name and the marks, as far as the depth
goes. -/
theorem toList_displayWithin (h : Layers t id inner levels) (depth : Nat) :
    (t.displayWithin depth id).toList =
      t.shownName inner levels depth ++ marks (min levels depth) := by
  induction h generalizing depth with
  | leaf hleaf =>
    cases depth with
    | zero =>
      rw [shownName_zero, Nat.min_zero, marks, List.append_nil]
      rfl
    | succ depth =>
      rw [hleaf.displayWithin_succ, shownName, if_pos (Nat.succ_pos depth), Nat.zero_min, marks,
        List.append_nil]
  | @array id element inner levels hdata helement ih =>
    cases depth with
    | zero =>
      rw [shownName_zero, Nat.min_zero, marks, List.append_nil]
      rfl
    | succ depth =>
      have hname : t.shownName inner (levels + 1) (depth + 1) = t.shownName inner levels depth := by
        simp only [shownName, Nat.add_lt_add_iff_right]
      have hcount : min (levels + 1) (depth + 1) = min levels depth + 1 := by omega
      have hshown : (t.displayWithin (depth + 1) id).toList =
          (t.displayWithin depth element).toList ++ TypeDescriptor.arrayMark := by
        simp only [displayWithin, hdata, helement.needsParens, Bool.false_eq_true, if_false,
          String.toList_append]
        rfl
      rw [hshown, ih, hname, hcount, List.append_assoc, marks_concat]

theorem not_mem_marks {c : Char} (hc : c ∉ TypeDescriptor.arrayMark) (n : Nat) : c ∉ marks n := by
  induction n with
  | zero => exact List.not_mem_nil
  | succ n ih =>
    intro h
    rcases List.mem_append.1 h with h | h
    · exact hc h
    · exact ih h

theorem not_mem_shownName {c : Char} (hinner : Leaf t inner) (hc : c ∈ markCharacters)
    (hdot : c ≠ '.') (levels depth : Nat) : c ∉ t.shownName inner levels depth := by
  unfold shownName
  split
  · exact fun h => hinner.unmarked c h hc
  · intro h
    have hdots : ∀ d ∈ "...".toList, d = '.' := Text.forall_mem_of_all (by decide)
    exact hdot (hdots c h)

theorem splitOn_marks (n : Nat) :
    splitOn TypeDescriptor.arrayMark (marks n) = List.replicate (n + 1) [] := by
  induction n with
  | zero => rfl
  | succ n ih => rw [marks, splitOn_mark_append (by decide), ih]; rfl

theorem intercalate_replicate_nil (name : List Char) (n : Nat) :
    List.intercalate [] (name :: List.replicate n []) = name := by
  induction n generalizing name with
  | zero => exact List.intercalate_singleton
  | succ n ih =>
    rw [List.replicate_succ, List.intercalate_cons_cons, ih [], List.append_nil, List.append_nil]

/-- The marks behind a name are counted and taken away. -/
theorem ofMember_marks {name : List Char} (h : '[' ∉ name) (n : Nat) :
    TypeDescriptor.ofMember (name ++ marks n) = ⟨String.ofList name, n⟩ := by
  have hsplit : splitOn TypeDescriptor.arrayMark (name ++ marks n) =
      name :: List.replicate n [] := by
    obtain ⟨w, ws, hmarks, hall⟩ := splitOn_append_of_not_mem h [']'] (marks n)
    change splitOn TypeDescriptor.arrayMark (marks n) = _ at hmarks
    rw [splitOn_marks, List.replicate_succ] at hmarks
    cases hmarks
    rwa [List.append_nil] at hall
  have hname : replace TypeDescriptor.arrayMark [] (name ++ marks n) = name := by
    rw [replace_eq_intercalate, hsplit, intercalate_replicate_nil]
  have hcount : occurrences TypeDescriptor.arrayMark (name ++ marks n) = n := by
    rw [occurrences, hsplit, List.length_cons, List.length_replicate, Nat.add_sub_cancel]
  rw [TypeDescriptor.ofMember, hname, hcount]

/-! ## Members -/

/-- The members of a describable type are shown without blanks. -/
theorem Describable.blank_not_mem (h : t.Describable id) (depth : Nat) :
    ∀ m ∈ t.unionMembers id, ' ' ∉ (t.displayWithin depth m).toList := by
  intro m hm hblank
  obtain ⟨inner, levels, hlayers⟩ := h.members m hm
  rw [toList_displayWithin hlayers] at hblank
  rcases List.mem_append.1 hblank with hblank | hblank
  · exact not_mem_shownName hlayers.leaf_inner (by decide) (by decide) levels depth hblank
  · exact not_mem_marks (by decide) _ hblank

/-- A type is taken apart where the members were put together. -/
theorem splitOn_display (h : t.Describable id) :
    splitOn TypeDescriptor.separator (t.display id).toList =
      (t.unionMembers id).map fun m =>
        (t.displayWithin (displayDepth - t.memberDepth id) m).toList := by
  have hseparator : TypeDescriptor.separator = ' ' :: "| ".toList := by decide
  cases hdata : t.dataOf id with
  | union members =>
    have hmembers : t.unionMembers id = members := by rw [unionMembers, hdata]
    have hdepth : t.memberDepth id = 1 := by rw [memberDepth, hdata]
    have hblank := h.blank_not_mem 8
    have hsome := h.some
    rw [hmembers] at hblank hsome ⊢
    have hshown : (t.display id).toList = TypeDescriptor.separator.intercalate
        (members.map fun m => (t.displayWithin 8 m).toList) := by
      simp only [display, displayDepth, displayWithin, hdata, String.toList_intercalate,
        List.map_map]
      rfl
    rw [hshown, hdepth, hseparator]
    apply splitOn_intercalate
    · simpa using hsome
    · simpa using hblank
  | _ =>
    have hmembers : t.unionMembers id = [id] := by rw [unionMembers, hdata]
    have hdepth : t.memberDepth id = 0 := by rw [memberDepth, hdata]
    have hblank := h.blank_not_mem 9 id (by rw [hmembers]; exact List.mem_singleton_self id)
    rw [hmembers, hdepth, hseparator]
    exact splitOn_of_absent fun hin => hblank (hin.subset List.mem_cons_self)

/-- What is read off the text of a member: its name and its arrays, as far as
they are shown. -/
theorem ofMember_displayWithin (h : Layers t id inner levels) (depth : Nat) :
    TypeDescriptor.ofMember (t.displayWithin depth id).toList =
      ⟨String.ofList (t.shownName inner levels depth), min levels depth⟩ := by
  have hname := not_mem_shownName h.leaf_inner (c := '[') (by decide) (by decide) levels depth
  rw [toList_displayWithin h, ofMember_marks hname]

/-- The descriptor that is read off the text of a member describes it if and
only if the innermost type is shown. -/
theorem describes_ofMember_iff (h : Layers t id inner levels) (depth : Nat) :
    t.Describes id (TypeDescriptor.ofMember (t.displayWithin depth id).toList) ↔
      levels < depth := by
  rw [ofMember_displayWithin h]
  unfold Describes shownName
  constructor
  · rintro ⟨other, hother, hname⟩
    apply Nat.lt_of_not_le
    intro hdeep
    -- dots are no name
    rw [if_neg (Nat.not_lt.2 hdeep)] at hname
    have hdots : '.' ∈ (t.display other).toList := by
      rw [← hname]
      show '.' ∈ (String.ofList "...".toList).toList
      decide
    exact hother.leaf_inner.unmarked '.' hdots (by decide)
  · intro hshown
    refine ⟨inner, ?_, ?_⟩
    · rwa [Nat.min_eq_left (Nat.le_of_lt hshown)]
    · rw [if_pos hshown, String.ofList_toList]

/-- The descriptors that are read off the text of a type describe its members,
in order, if and only if no member is nested more than eight levels deep. -/
theorem describes_iff (t : TypeTable) (id : TypeId) (h : t.Describable id) :
    List.Forall₂ t.Describes (t.unionMembers id) (TypeDescriptor.ofDisplay (t.display id)) ↔
      ∀ m ∈ t.unionMembers id, ∀ inner levels, Layers t m inner levels →
        t.memberDepth id + levels ≤ 8 := by
  have hdepth : t.memberDepth id ≤ 1 := by
    unfold memberDepth
    split <;> omega
  rw [TypeDescriptor.ofDisplay, splitOn_display h, List.map_map, List.forall₂_map_right_iff,
    List.forall₂_same]
  constructor
  · intro hdescribes m hm inner levels hlayers
    have hshown := (describes_ofMember_iff hlayers _).1 (hdescribes m hm)
    rw [displayDepth] at hshown
    omega
  · intro hshallow m hm
    obtain ⟨inner, levels, hlayers⟩ := h.members m hm
    have hlevels := hshallow m hm inner levels hlayers
    apply (describes_ofMember_iff hlayers _).2
    rw [displayDepth]
    omega

/-- A table with a class, arrays of arrays of its instances, and these beside
primitives. -/
def actors : TypeTable :=
  (InUse.new.after [.allocate (.bare .instance_ (some "Actor") none), .array 12, .array 13,
    .union [.string, 14, .number]]).table

/-- The union is read back from its text. -/
theorem describes_iff_actors :
    actors.Describable 15 ∧ actors.display 15 = "String | Actor[][] | Number" ∧
    List.Forall₂ actors.Describes [.string, 14, .number]
      [⟨"String", 0⟩, ⟨"Actor", 2⟩, ⟨"Number", 0⟩] := by
  have hmembers : actors.unionMembers 15 = [.string, 14, .number] := by decide +kernel
  have hstring : Layers actors .string .string 0 :=
    .leaf (.intrinsic .string (by decide +kernel))
  have hnumber : Layers actors .number .number 0 :=
    .leaf (.intrinsic .number (by decide +kernel))
  have hactor : Leaf actors 12 :=
    .declared (.bare .instance_ (some "Actor") none) "Actor" (by decide +kernel) (.inl rfl) rfl
      ⟨'A', "ctor".toList, rfl, by decide +kernel, Text.forall_mem_of_all (by decide +kernel)⟩
  have harrays : Layers actors 14 12 2 :=
    @Layers.array actors 14 13 12 1 (by decide +kernel)
      (.array (by decide +kernel) (.leaf hactor))
  have hdescribable : actors.Describable 15 := by
    constructor
    · rw [hmembers]
      exact List.cons_ne_nil _ _
    · rw [hmembers]
      simp only [List.forall_mem_cons]
      exact ⟨⟨_, _, hstring⟩, ⟨_, _, harrays⟩, ⟨_, _, hnumber⟩, by simp⟩
  have hread : TypeDescriptor.ofDisplay (actors.display 15) =
      [⟨"String", 0⟩, ⟨"Actor", 2⟩, ⟨"Number", 0⟩] := by decide +kernel
  have hdescribes := (describes_iff actors 15 hdescribable).2 (by
    have hdepth : actors.memberDepth 15 = 1 := by decide +kernel
    rw [hmembers, hdepth]
    simp only [List.forall_mem_cons]
    refine ⟨fun _ _ h => ?_, fun _ _ h => ?_, fun _ _ h => ?_, by simp⟩
    · have := (hstring.unique h).2
      omega
    · have := (harrays.unique h).2
      omega
    · have := (hnumber.unique h).2
      omega)
  rw [hmembers, hread] at hdescribes
  exact ⟨hdescribable, by decide +kernel, hdescribes⟩

end TypeTable

end ScriptAnalysis
