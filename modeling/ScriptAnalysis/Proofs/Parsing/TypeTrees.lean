import ScriptAnalysis.Proofs.Parsing.Reading

/-!
# Types as trees and as words

`TypeTree` are the types that one can write down, as trees and not as nodes of an
arena. `TypeTree.words` spells a tree. Some trees cannot be spelled: `A | B[]` is
no array. In a canonical tree the operands of arrays and unions are neither
unions nor functions, so that there is nothing to mistake (`TypeTree.canonical`);
`TypeTree.explicit` puts in the parentheses that are missing.

`TypeTree.Shows` says that a node of an arena is a tree, and `TypeTree.levels`
how deep the rules for types nest while it is read.
-/
namespace ScriptAnalysis

/-! ## Words that are types -/

/-- The words that are types by themselves. -/
def TokenKind.typeWords : List TokenKind :=
  [kwNumber, kwString, kwBoolean, kwVoid, kwAny, kwUnknown, kwNever, kwUndefined, kwNull]

/-- A word that is a type by itself. -/
abbrev TypeWord := { k : TokenKind // k ∈ TokenKind.typeWords }

/-- A word that can be the name of a parameter. -/
abbrev BindingName := { w : Word // w.kind.isName = true }

/-- A word that can be the name of a type. -/
abbrev TypeName := { w : Word // w.kind.isName = true ∧ w.kind ∉ TokenKind.typeWords }

/-- A literal that is a type. -/
inductive TypeLiteral where
  | truth (value : Bool)
  | number (text : String)
  | string (text : String)
  deriving DecidableEq, Repr

namespace TypeLiteral

def word : TypeLiteral → Word
  | truth true => .ofKind .kwTrue
  | truth false => .ofKind .kwFalse
  | number text => ⟨.number, some text⟩
  | string text => ⟨.string, some text⟩

def form : TypeLiteral → Form
  | truth true => .keyword .kwTrue
  | truth false => .keyword .kwFalse
  | number text => .numericLiteral text
  | string text => .stringLiteral text

end TypeLiteral

/-! ## Trees -/

mutual

/-- A type. A union has at least two members. -/
inductive TypeTree where
  | keyword (word : TypeWord)
  | literal (value : TypeLiteral)
  | reference (name : TypeName)
  | array (element : TypeTree)
  | union (first second : TypeTree) (more : List TypeTree)
  | parenthesized (inner : TypeTree)
  | function (parameters : List ParameterTree) (result : TypeTree)

/-- A parameter of a function type, with or without a type of its own. -/
inductive ParameterTree where
  | plain (name : BindingName) (optional : Bool)
  | typed (name : BindingName) (optional : Bool) (type : TypeTree)

end

/-- A question mark behind the name of a parameter that may be left out. -/
def Word.optionalMark (optional : Bool) : List Word :=
  if optional then [.ofKind .question] else []

mutual

/-- The words of a type in their order. -/
def TypeTree.words : TypeTree → List Word
  | .keyword word => [.ofKind word.1]
  | .literal value => [value.word]
  | .reference name => [name.1]
  | .array element => element.words ++ [.ofKind .openBracket, .ofKind .closeBracket]
  | .union first second more =>
    first.words ++ .ofKind .bar :: second.words ++ TypeTree.wordsOfMembers more
  | .parenthesized inner => .ofKind .openParen :: inner.words ++ [.ofKind .closeParen]
  | .function parameters result =>
    .ofKind .openParen :: TypeTree.wordsOfParameters parameters ++
      .ofKind .closeParen :: .ofKind .arrow :: result.words

/-- Further members, each behind a bar. -/
def TypeTree.wordsOfMembers : List TypeTree → List Word
  | [] => []
  | member :: members => .ofKind .bar :: member.words ++ TypeTree.wordsOfMembers members

def TypeTree.wordsOfParameters : List ParameterTree → List Word
  | [] => []
  | parameter :: parameters => parameter.words ++ TypeTree.wordsOfMoreParameters parameters

/-- Further parameters, each behind a comma. -/
def TypeTree.wordsOfMoreParameters : List ParameterTree → List Word
  | [] => []
  | parameter :: parameters =>
    .ofKind .comma :: parameter.words ++ TypeTree.wordsOfMoreParameters parameters

def ParameterTree.words : ParameterTree → List Word
  | .plain name optional => name.1 :: Word.optionalMark optional
  | .typed name optional type =>
    name.1 :: Word.optionalMark optional ++ .ofKind .colon :: type.words

end

namespace TypeTree

/-- Can stand in front of brackets and beside a bar. -/
def isOperand : TypeTree → Bool
  | .union _ _ _ => false
  | .function _ _ => false
  | _ => true

/-- In parentheses, if it is no operand. -/
def guarded (t : TypeTree) : TypeTree :=
  if t.isOperand then t else .parenthesized t

end TypeTree

mutual

/-- The operands of arrays and unions are operands. -/
def TypeTree.canonical : TypeTree → Bool
  | .keyword _ | .literal _ | .reference _ => true
  | .array element => element.isOperand && element.canonical
  | .union first second more => first.isOperand && first.canonical &&
    (second.isOperand && second.canonical) && TypeTree.canonicalMembers more
  | .parenthesized inner => inner.canonical
  | .function parameters result => TypeTree.canonicalParameters parameters && result.canonical

def TypeTree.canonicalMembers : List TypeTree → Bool
  | [] => true
  | member :: members =>
    member.isOperand && member.canonical && TypeTree.canonicalMembers members

def TypeTree.canonicalParameters : List ParameterTree → Bool
  | [] => true
  | parameter :: parameters => parameter.canonical && TypeTree.canonicalParameters parameters

def ParameterTree.canonical : ParameterTree → Bool
  | .plain _ _ => true
  | .typed _ _ type => type.canonical

end

mutual

/-- The tree with parentheses where its words need them. -/
def TypeTree.explicit : TypeTree → TypeTree
  | .keyword word => .keyword word
  | .literal value => .literal value
  | .reference name => .reference name
  | .array element => .array element.explicit.guarded
  | .union first second more => .union first.explicit.guarded second.explicit.guarded
    (TypeTree.explicitMembers more)
  | .parenthesized inner => .parenthesized inner.explicit
  | .function parameters result =>
    .function (TypeTree.explicitParameters parameters) result.explicit

def TypeTree.explicitMembers : List TypeTree → List TypeTree
  | [] => []
  | member :: members => member.explicit.guarded :: TypeTree.explicitMembers members

def TypeTree.explicitParameters : List ParameterTree → List ParameterTree
  | [] => []
  | parameter :: parameters => parameter.explicit :: TypeTree.explicitParameters parameters

def ParameterTree.explicit : ParameterTree → ParameterTree
  | .plain name optional => .plain name optional
  | .typed name optional type => .typed name optional type.explicit

end

mutual

/-- How deep types nest, the whole one included. Parentheses and the parts of a
function are types of their own; members and elements are not. -/
def TypeTree.levels : TypeTree → Nat
  | .keyword _ | .literal _ | .reference _ => 1
  | .array element => element.levels
  | .union first second more =>
    max first.levels (max second.levels (TypeTree.levelsOfMembers more))
  | .parenthesized inner => inner.levels + 1
  | .function parameters result =>
    max (TypeTree.levelsOfParameters parameters) result.levels + 1

def TypeTree.levelsOfMembers : List TypeTree → Nat
  | [] => 0
  | member :: members => max member.levels (TypeTree.levelsOfMembers members)

def TypeTree.levelsOfParameters : List ParameterTree → Nat
  | [] => 0
  | parameter :: parameters => max parameter.levels (TypeTree.levelsOfParameters parameters)

def ParameterTree.levels : ParameterTree → Nat
  | .plain _ _ => 0
  | .typed _ _ type => type.levels

end

/-! ## Trees in an arena -/

mutual

/-- The node is the tree. -/
def TypeTree.Shows (a : Arena) : TypeTree → NodeId → Prop
  | .keyword word, i => a.form? i = some (.keyword word.1)
  | .literal value, i => ∃ j, a.form? i = some (.literalType j) ∧ a.form? j = some value.form
  | .reference name, i => ∃ j, a.form? i = some (.typeReference j) ∧
    a.form? j = some (.identifier name.1.text)
  | .array element, i => ∃ j, a.form? i = some (.arrayType j) ∧ element.Shows a j
  | .union first second more, i => ∃ j k ks, a.form? i = some (.unionType (j :: k :: ks)) ∧
    first.Shows a j ∧ second.Shows a k ∧ TypeTree.ShowsMembers a more ks
  | .parenthesized inner, i => ∃ j, a.form? i = some (.parenthesizedType j) ∧ inner.Shows a j
  | .function parameters result, i => ∃ js k, a.form? i = some (.function .functionType
      { modifiers := .none, name := none, parameters := js, returnType := some k, body := none }) ∧
    TypeTree.ShowsParameters a parameters js ∧ result.Shows a k

def TypeTree.ShowsMembers (a : Arena) : List TypeTree → List NodeId → Prop
  | [], ids => ids = []
  | member :: members, ids => ∃ i is, ids = i :: is ∧ member.Shows a i ∧
    TypeTree.ShowsMembers a members is

def TypeTree.ShowsParameters (a : Arena) : List ParameterTree → List NodeId → Prop
  | [], ids => ids = []
  | parameter :: parameters, ids => ∃ i is, ids = i :: is ∧ parameter.Shows a i ∧
    TypeTree.ShowsParameters a parameters is

def ParameterTree.Shows (a : Arena) : ParameterTree → NodeId → Prop
  | .plain name optional, i => ∃ j, a.form? i = some (.parameter
      { modifiers := .none, name := j, optional, ascription := none, initializer := none }) ∧
    a.form? j = some (.identifier name.1.text)
  | .typed name optional type, i => ∃ j k, a.form? i = some (.parameter
      { modifiers := .none, name := j, optional, ascription := some k, initializer := none }) ∧
    a.form? j = some (.identifier name.1.text) ∧ type.Shows a k

end

mutual

/-- Further nodes do not change a tree. -/
theorem TypeTree.Shows.grow {a a' : Arena} (h : a.toList <+: a'.toList) :
    ∀ {t : TypeTree} {i : NodeId}, t.Shows a i → t.Shows a' i
  | .keyword _, _, hi => Arena.form?_grow h hi
  | .literal _, _, ⟨j, hi, hj⟩ => ⟨j, Arena.form?_grow h hi, Arena.form?_grow h hj⟩
  | .reference _, _, ⟨j, hi, hj⟩ => ⟨j, Arena.form?_grow h hi, Arena.form?_grow h hj⟩
  | .array _, _, ⟨j, hi, hj⟩ => ⟨j, Arena.form?_grow h hi, TypeTree.Shows.grow h hj⟩
  | .union _ _ _, _, ⟨j, k, ks, hi, hj, hk, hks⟩ => ⟨j, k, ks, Arena.form?_grow h hi,
    TypeTree.Shows.grow h hj, TypeTree.Shows.grow h hk, TypeTree.ShowsMembers.grow h hks⟩
  | .parenthesized _, _, ⟨j, hi, hj⟩ => ⟨j, Arena.form?_grow h hi, TypeTree.Shows.grow h hj⟩
  | .function _ _, _, ⟨js, k, hi, hjs, hk⟩ => ⟨js, k, Arena.form?_grow h hi,
    TypeTree.ShowsParameters.grow h hjs, TypeTree.Shows.grow h hk⟩

theorem TypeTree.ShowsMembers.grow {a a' : Arena} (h : a.toList <+: a'.toList) :
    ∀ {ts : List TypeTree} {is : List NodeId},
      TypeTree.ShowsMembers a ts is → TypeTree.ShowsMembers a' ts is
  | [], _, his => his
  | _ :: _, _, ⟨i, is, his, hi, hmore⟩ =>
    ⟨i, is, his, TypeTree.Shows.grow h hi, TypeTree.ShowsMembers.grow h hmore⟩

theorem TypeTree.ShowsParameters.grow {a a' : Arena} (h : a.toList <+: a'.toList) :
    ∀ {ps : List ParameterTree} {is : List NodeId},
      TypeTree.ShowsParameters a ps is → TypeTree.ShowsParameters a' ps is
  | [], _, his => his
  | _ :: _, _, ⟨i, is, his, hi, hmore⟩ =>
    ⟨i, is, his, ParameterTree.Shows.grow h hi, TypeTree.ShowsParameters.grow h hmore⟩

theorem ParameterTree.Shows.grow {a a' : Arena} (h : a.toList <+: a'.toList) :
    ∀ {p : ParameterTree} {i : NodeId}, p.Shows a i → p.Shows a' i
  | .plain _ _, _, ⟨j, hi, hj⟩ => ⟨j, Arena.form?_grow h hi, Arena.form?_grow h hj⟩
  | .typed _ _ _, _, ⟨j, k, hi, hj, hk⟩ =>
    ⟨j, k, Arena.form?_grow h hi, Arena.form?_grow h hj, TypeTree.Shows.grow h hk⟩

end

/-! ## Parentheses -/

namespace TypeTree

theorem guarded_of_isOperand {t : TypeTree} (h : t.isOperand = true) : t.guarded = t :=
  if_pos h

theorem isOperand_guarded (t : TypeTree) : t.guarded.isOperand = true := by
  unfold guarded
  split
  · assumption
  · rfl

theorem canonical_guarded (t : TypeTree) : t.guarded.canonical = t.canonical := by
  unfold guarded
  split
  · rfl
  · simp [canonical]

end TypeTree

mutual

/-- With its parentheses every tree can be spelled. -/
theorem TypeTree.canonical_explicit : ∀ t : TypeTree, t.explicit.canonical = true
  | .keyword _ | .literal _ | .reference _ => by simp [TypeTree.explicit, TypeTree.canonical]
  | .array element => by
    simp [TypeTree.explicit, TypeTree.canonical, TypeTree.isOperand_guarded,
      TypeTree.canonical_guarded, TypeTree.canonical_explicit element]
  | .union first second more => by
    simp [TypeTree.explicit, TypeTree.canonical, TypeTree.isOperand_guarded,
      TypeTree.canonical_guarded, TypeTree.canonical_explicit first,
      TypeTree.canonical_explicit second, TypeTree.canonicalMembers_explicit more]
  | .parenthesized inner => by
    simp [TypeTree.explicit, TypeTree.canonical, TypeTree.canonical_explicit inner]
  | .function parameters result => by
    simp [TypeTree.explicit, TypeTree.canonical, TypeTree.canonical_explicit result,
      TypeTree.canonicalParameters_explicit parameters]

theorem TypeTree.canonicalMembers_explicit : ∀ ts : List TypeTree,
    TypeTree.canonicalMembers (TypeTree.explicitMembers ts) = true
  | [] => rfl
  | t :: ts => by
    simp [TypeTree.explicitMembers, TypeTree.canonicalMembers, TypeTree.isOperand_guarded,
      TypeTree.canonical_guarded, TypeTree.canonical_explicit t,
      TypeTree.canonicalMembers_explicit ts]

theorem TypeTree.canonicalParameters_explicit : ∀ ps : List ParameterTree,
    TypeTree.canonicalParameters (TypeTree.explicitParameters ps) = true
  | [] => rfl
  | p :: ps => by
    simp [TypeTree.explicitParameters, TypeTree.canonicalParameters,
      ParameterTree.canonical_explicit p, TypeTree.canonicalParameters_explicit ps]

theorem ParameterTree.canonical_explicit : ∀ p : ParameterTree, p.explicit.canonical = true
  | .plain _ _ => by simp [ParameterTree.explicit, ParameterTree.canonical]
  | .typed _ _ type => by
    simp [ParameterTree.explicit, ParameterTree.canonical, TypeTree.canonical_explicit type]

end

mutual

/-- A tree that can be spelled lacks no parentheses. -/
theorem TypeTree.explicit_of_canonical :
    ∀ {t : TypeTree}, t.canonical = true → t.explicit = t
  | .keyword _, _ | .literal _, _ | .reference _, _ => by simp [TypeTree.explicit]
  | .array element, h => by
    obtain ⟨hoperand, helement⟩ := Bool.and_eq_true_iff.1 h
    rw [TypeTree.explicit, TypeTree.explicit_of_canonical helement,
      TypeTree.guarded_of_isOperand hoperand]
  | .union first second more, h => by
    simp only [TypeTree.canonical, Bool.and_eq_true] at h
    obtain ⟨⟨⟨hoperand, hfirst⟩, hoperand', hsecond⟩, hmore⟩ := h
    rw [TypeTree.explicit, TypeTree.explicit_of_canonical hfirst,
      TypeTree.explicit_of_canonical hsecond, TypeTree.guarded_of_isOperand hoperand,
      TypeTree.guarded_of_isOperand hoperand', TypeTree.explicitMembers_of_canonical hmore]
  | .parenthesized inner, h => by
    have hinner : inner.canonical = true := h
    rw [TypeTree.explicit, TypeTree.explicit_of_canonical hinner]
  | .function parameters result, h => by
    obtain ⟨hparameters, hresult⟩ := Bool.and_eq_true_iff.1 h
    rw [TypeTree.explicit, TypeTree.explicit_of_canonical hresult,
      TypeTree.explicitParameters_of_canonical hparameters]

theorem TypeTree.explicitMembers_of_canonical : ∀ {ts : List TypeTree},
    TypeTree.canonicalMembers ts = true → TypeTree.explicitMembers ts = ts
  | [], _ => rfl
  | t :: ts, h => by
    simp only [TypeTree.canonicalMembers, Bool.and_eq_true] at h
    rw [TypeTree.explicitMembers, TypeTree.explicit_of_canonical h.1.2,
      TypeTree.guarded_of_isOperand h.1.1, TypeTree.explicitMembers_of_canonical h.2]

theorem TypeTree.explicitParameters_of_canonical : ∀ {ps : List ParameterTree},
    TypeTree.canonicalParameters ps = true → TypeTree.explicitParameters ps = ps
  | [], _ => rfl
  | p :: ps, h => by
    simp only [TypeTree.canonicalParameters, Bool.and_eq_true] at h
    rw [TypeTree.explicitParameters, ParameterTree.explicit_of_canonical h.1,
      TypeTree.explicitParameters_of_canonical h.2]

theorem ParameterTree.explicit_of_canonical :
    ∀ {p : ParameterTree}, p.canonical = true → p.explicit = p
  | .plain _ _, _ => rfl
  | .typed _ _ type, h => by
    rw [ParameterTree.explicit, TypeTree.explicit_of_canonical h]

end

namespace TypeTree

/-- A type opens with a token that nothing else opens with where types stand. If
it is a name, it is the whole type or stands in front of brackets or a bar. -/
structure Opens (w : Word) (ws : List Word) : Prop where
  bar : w.kind ≠ .bar
  closeParen : w.kind ≠ .closeParen
  next : w.kind.isName = true → ws = [] ∨
    ∃ w' ws', ws = w' :: ws' ∧ (w'.kind = .openBracket ∨ w'.kind = .bar)

theorem Opens.append {w : Word} {ws : List Word} (h : Opens w ws) {w' : Word} (ws' : List Word)
    (hw' : w'.kind = .openBracket ∨ w'.kind = .bar) : Opens w (ws ++ w' :: ws') := by
  refine ⟨h.bar, h.closeParen, fun hname => .inr ?_⟩
  rcases h.next hname with hnil | ⟨v, vs, hvs, hv⟩
  · exact ⟨w', ws', by rw [hnil, List.nil_append], hw'⟩
  · exact ⟨v, vs ++ w' :: ws', by rw [hvs, List.cons_append], hv⟩

theorem words_opens : ∀ t : TypeTree, ∃ w ws, t.words = w :: ws ∧ Opens w ws
  | .keyword ⟨k, hk⟩ => by
    refine ⟨_, _, rfl, ?_, ?_, fun _ => .inl rfl⟩ <;>
      (intro h; rw [show k = _ from h] at hk; revert hk; decide)
  | .literal value => by
    refine ⟨_, _, rfl, ?_, ?_, fun _ => .inl rfl⟩ <;>
      (intro h; revert h; unfold TypeLiteral.word; split <;> exact nofun)
  | .reference ⟨w, hname, _⟩ => by
    refine ⟨_, _, rfl, ?_, ?_, fun _ => .inl rfl⟩ <;>
      (intro h; rw [show w.kind = _ from h] at hname; revert hname; decide)
  | .array element => by
    obtain ⟨w, ws, hwords, hopens⟩ := words_opens element
    exact ⟨w, _, by rw [words, hwords, List.cons_append], hopens.append _ (.inl rfl)⟩
  | .union first second more => by
    obtain ⟨w, ws, hwords, hopens⟩ := words_opens first
    refine ⟨w, _, by rw [words, hwords, List.cons_append, List.cons_append, List.append_assoc],
      ?_⟩
    exact hopens.append _ (.inr rfl)
  | .parenthesized inner => ⟨_, _, rfl, nofun, nofun, nofun⟩
  | .function parameters result => ⟨_, _, rfl, nofun, nofun, nofun⟩

/-- A type is read one level deeper. -/
theorem levels_pos : ∀ t : TypeTree, 0 < t.levels
  | .keyword _ | .literal _ | .reference _ => by simp [levels]
  | .array element => by
    rw [levels]
    exact levels_pos element
  | .union first _ _ => by
    have := levels_pos first
    rw [levels]
    omega
  | .parenthesized _ | .function _ _ => by simp [levels]

end TypeTree

end ScriptAnalysis
