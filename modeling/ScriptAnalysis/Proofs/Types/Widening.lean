import ScriptAnalysis.Proofs.Types.Assignability

/-!
# Widening is an upper closure

Widening replaces literals by their primitives, also in a union, and puts the
members together again. What it gives is a type above the first one, without
literals, and widening that once more gives it back. That the same index comes
back rests on the form in which a table keeps unions: a list of members that
are no literals is canonical already, so the union of them is the one that is
known.

**Specification.** `Plain` types are neither literals nor unions nor one of the
types that a union is never made of. `Widened` says what the result of widening
is.

**Results.**
* `union_plain`: the union of plain types is made of them, each once.
* `widened`: what widening gives in a table whose unions are canonical.
* `Widened.stays`, `Widened.plain`, `Widened.fits`: it stays under widening, it
  has no literals, and the first type fits it.
-/
namespace ScriptAnalysis.TypeTable

variable {t t' : TypeTable} {id : TypeId} {members : List TypeId}

/-- A member that widening leaves alone. -/
structure Plain (t : TypeTable) (id : TypeId) : Prop where
  flat : isUnion (t.dataOf id) = false
  primitive : t.primitive id = id
  strict : id ≠ .any ∧ id ≠ .error ∧ id ≠ .never

/-- A type is no literal if it is its own primitive. -/
theorem isLiteral_eq_false_iff (hf : Founded t) : t.isLiteral id = false ↔ t.primitive id = id := by
  constructor
  · intro h
    unfold isLiteral at h
    split at h
    · cases h
    · rename_i hother
      unfold TypeTable.primitive
      split
      · exact absurd ‹_› (hother _)
      · exact absurd ‹_› (hother _)
      · exact absurd ‹_› (hother _)
      · rfl
  · intro h
    unfold isLiteral
    split
    · rename_i value hdata
      obtain ⟨kind, hkind⟩ := (hasLiterals_primitive hf hdata).data
      rw [h, hdata] at hkind
      cases hkind
    · rfl

/-! ## Unions of plain types -/

theorem flatMap_unionMembers (h : ∀ m ∈ members, isUnion (t.dataOf m) = false) :
    members.flatMap t.unionMembers = members := by
  induction members with
  | nil => rfl
  | cons m rest ih =>
    obtain ⟨hm, hrest⟩ := List.forall_mem_cons.1 h
    rw [List.flatMap_cons, unionMembers_of_not_union hm, ih hrest]
    rfl

/-- Members that differ are added one behind the other. -/
theorem foldl_addMember_eq {acc : List TypeId} (h : (acc ++ members).Nodup) :
    members.foldl addMember acc = acc ++ members := by
  induction members generalizing acc with
  | nil => simp
  | cons m rest ih =>
    have hm : m ∉ acc := fun hmem =>
      (List.nodup_append.1 h).2.2 m hmem m List.mem_cons_self rfl
    have hadd : addMember acc m = acc ++ [m] := by
      simp [addMember, hm]
    rw [List.foldl_cons, hadd, ih (by simpa using h)]
    simp

/-- The members of a union of plain types: each of them once. -/
def once (members : List TypeId) : List TypeId :=
  members.foldl addMember []

theorem mem_once : id ∈ once members ↔ id ∈ members := by
  simp [once, mem_foldl_addMember]

theorem once_of_nodup (h : members.Nodup) : once members = members :=
  foldl_addMember_eq h

theorem nodup_once (members : List TypeId) : (once members).Nodup :=
  nodup_foldl_addMember members List.nodup_nil

theorem unionOf_plain (hf : Founded t) (h : ∀ m ∈ members, t.Plain m) :
    t.unionOf members = once members := by
  have hflat : t.flatten members = once members := by
    rw [flatten, flatMap_unionMembers fun m hm => (h m hm).flat]
    rfl
  have honce : ∀ m ∈ once members, t.Plain m := fun m hm => h m (mem_once.1 hm)
  have hnever : (once members).filter (· != TypeId.never) = once members := by
    rw [List.filter_eq_self]
    intro m hm
    simpa using (honce m hm).strict.2.2
  have hbooleans : joinBooleans (once members) = once members := by
    have htrue : .trueValue ∉ once members := fun hm => by
      have := (honce _ hm).primitive
      rw [primitive_trueValue hf] at this
      exact absurd this (by decide)
    simp [joinBooleans, htrue]
  have habsorb : t.absorb (once members) = once members := by
    rw [absorb, List.filter_eq_self]
    intro m hm
    simp [(honce m hm).primitive]
  rw [unionOf, hflat, hnever, hbooleans, habsorb]

theorem not_loose_plain (h : ∀ m ∈ members, t.Plain m) :
    ¬ (.any ∈ t.flatSet members ∨ .error ∈ t.flatSet members) := by
  have hmem : ∀ {m}, m ∈ t.flatSet members → t.Plain m := by
    intro m hm
    rw [flatSet, List.mem_toFinset, flatMap_unionMembers fun m hm => (h m hm).flat] at hm
    exact h m hm
  rintro (hany | herror)
  · exact (hmem hany).strict.1 rfl
  · exact (hmem herror).strict.2.1 rfl

/-- The union of plain types is the only one of them, or made of all of them. -/
theorem union_plain (hf : Founded t) (h : ∀ m ∈ members, t.Plain m) (hsome : members ≠ []) :
    (∃ id, once members = [id] ∧ union members t = (id, t)) ∨
      2 ≤ (once members).length ∧ union members t = intern (.union (once members)) t := by
  have hmembers := unionOf_plain hf h
  rcases t.union_cases members with ⟨hloose, -⟩ | ⟨-, ⟨hnone, -⟩ | hrest⟩
  · exact absurd hloose (not_loose_plain h)
  · rw [hmembers] at hnone
    obtain ⟨m, rest, rfl⟩ := List.exists_cons_of_ne_nil hsome
    have hm : m ∈ once (m :: rest) := mem_once.2 List.mem_cons_self
    rw [hnone] at hm
    cases hm
  · rwa [hmembers] at hrest

/-! ## Widening -/

theorem widen_union (h : t.dataOf id = .union members) :
    widen id t = union (members.map t.primitive) t := by
  unfold widen
  rw [get_bind, h]

theorem widen_of_not_union (h : isUnion (t.dataOf id) = false) :
    widen id t = (t.primitive id, t) := by
  unfold widen
  rw [get_bind]
  cases hdata : t.dataOf id with
  | union members =>
    rw [hdata] at h
    cases h
  | literal value => rfl
  | intrinsic | array | object =>
    have hsame : t.primitive id = id := by
      unfold TypeTable.primitive
      rw [hdata]
    rw [hsame]
    rfl

/-- The primitive of a member of a canonical union is plain. -/
theorem Canonical.plain_primitive (h : Canonical t members) (hf : Founded t) {m : TypeId}
    (hm : m ∈ members) : t.Plain (t.primitive m) := by
  have hpredefined : ∀ {p : TypeId} {kind : Intrinsic}, predefined[p]? = some (.intrinsic kind) →
      p ≠ .any ∧ p ≠ .error ∧ p ≠ .never → t.Plain p := by
    intro p kind hp hstrict
    refine ⟨?_, primitive_predefined hf hp, hstrict⟩
    rw [dataOf_predefined hf hp]
    rfl
  rcases t.primitive_cases m with hp | hp | hp | hp
  · rw [hp]
    exact ⟨h.flat m hm, hp, h.strict m hm⟩
  · rw [hp]
    exact hpredefined (by rfl : predefined[TypeId.number]? = _) (by decide)
  · rw [hp]
    exact hpredefined (by rfl : predefined[TypeId.string]? = _) (by decide)
  · rw [hp]
    exact hpredefined (by rfl : predefined[TypeId.boolean]? = _) (by decide)

/-- A union of different plain types is known, so widening gives it back. -/
theorem widen_plain (hi : Indexed t) (hf : Founded t) (hid : t.types[id]? = some (.union members))
    (h : ∀ m ∈ members, t.Plain m) (hnodup : members.Nodup) (hseveral : 2 ≤ members.length) :
    widen id t = (id, t) := by
  have hmap : members.map t.primitive = members := by
    rw [List.map_congr_left fun m hm => (h m hm).primitive, List.map_id']
  have hsome : members ≠ [] := by
    rintro rfl
    cases hseveral
  have hknown : t.known.get? (.union members) = some id := (hi.known _ id).2 ⟨hid, rfl⟩
  have honce := once_of_nodup hnodup
  rw [widen_union (dataOf_of_getElem? hid), hmap]
  rcases union_plain hf h hsome with ⟨m, hone, -⟩ | ⟨-, heq⟩
  · rw [honce] at hone
    rw [hone] at hseveral
    simp at hseveral
  · rw [heq, honce, intern_known hknown]

/-- What widening gives: a type that is no union, or a union of different plain
types. It is above the members of the first type. -/
structure Widened (t : TypeTable) (id : TypeId) (t' : TypeTable) (w : TypeId) : Prop where
  indexed : Indexed t'
  founded : Founded t'
  kept : Kept t t'
  primitive : ∀ m ∈ t'.unionMembers w, t'.primitive m = m
  above : ∀ m ∈ t.unionMembers id, t.primitive m ∈ t'.unionMembers w
  form : isUnion (t'.dataOf w) = false ∨ ∃ members, t'.types[w]? = some (.union members) ∧
    (∀ m ∈ members, t'.Plain m) ∧ members.Nodup ∧ 2 ≤ members.length

theorem Plain.kept (h : t.Plain id) (hk : Kept t t') (hid : id < t.size) : t'.Plain id where
  flat := by rw [hk.isUnion_dataOf hid]; exact h.flat
  primitive := by rw [(hk.primitive hid).1]; exact h.primitive
  strict := h.strict

theorem flat_primitive (hf : Founded t) (h : isUnion (t.dataOf id) = false) :
    isUnion (t.dataOf (t.primitive id)) = false := by
  cases hliteral : t.isLiteral id with
  | false => rwa [(isLiteral_eq_false_iff hf).1 hliteral]
  | true =>
    unfold isLiteral at hliteral
    split at hliteral
    · obtain ⟨kind, hkind⟩ := (hasLiterals_primitive hf ‹_›).data
      rw [hkind]
      rfl
    · cases hliteral

/-- Nothing is added if all members have one primitive. -/
theorem Widened.alone (hi : Indexed t) (hf : Founded t) {p : TypeId}
    (hflat : isUnion (t.dataOf p) = false) (hp : t.primitive p = p)
    (hall : ∀ m ∈ t.unionMembers id, t.primitive m = p) : Widened t id t p := by
  have hself : t.unionMembers p = [p] := unionMembers_of_not_union hflat
  refine ⟨hi, hf, .refl t, ?_, ?_, .inl hflat⟩
  · intro m hm
    rw [hself, List.mem_singleton] at hm
    rwa [hm]
  · intro m hm
    rw [hself, List.mem_singleton]
    exact hall m hm

/-- The union of several plain types of the table is put into it. -/
theorem Widened.together (hi : Indexed t) (hf : Founded t) {parts : List TypeId}
    (hplain : ∀ p ∈ parts, t.Plain p) (hthere : ∀ p ∈ parts, p < t.size)
    (hseveral : 2 ≤ (once parts).length)
    (hall : ∀ m ∈ t.unionMembers id, t.primitive m ∈ parts) :
    Widened t id (intern (.union (once parts)) t).2 (intern (.union (once parts)) t).1 := by
  have hparts : ∀ p ∈ (TypeData.union (once parts)).parts, p < t.size := fun p hp =>
    hthere p (mem_once.1 hp)
  have hchange := (hi.allots_intern rfl hparts).change
  have hentry := hi.getElem?_intern (.union (once parts))
  have hmembers : (intern (.union (once parts)) t).2.unionMembers
      (intern (.union (once parts)) t).1 = once parts := by
    rw [unionMembers, dataOf_of_getElem? hentry]
  have hlater : ∀ p ∈ once parts, (intern (.union (once parts)) t).2.Plain p := fun p hp =>
    (hplain p (mem_once.1 hp)).kept hchange.kept (hthere p (mem_once.1 hp))
  refine ⟨hi.change hchange, hf.kept hchange.kept, hchange.kept, ?_, ?_,
    .inr ⟨_, hentry, hlater, nodup_once parts, hseveral⟩⟩
  · rw [hmembers]
    exact fun p hp => (hlater p hp).primitive
  · rw [hmembers]
    exact fun m hm => mem_once.2 (hall m hm)

/-- Widening a canonical union. -/
theorem Canonical.widened (h : Canonical t members) (hi : Indexed t) (hf : Founded t)
    (hdata : t.dataOf id = .union members) : Widened t id (widen id t).2 (widen id t).1 := by
  have hmembers : t.unionMembers id = members := by rw [unionMembers, hdata]
  have hplain : ∀ p ∈ members.map t.primitive, t.Plain p := by
    intro p hp
    obtain ⟨m, hm, rfl⟩ := List.mem_map.1 hp
    exact h.plain_primitive hf hm
  have hthere : ∀ p ∈ members.map t.primitive, p < t.size := by
    intro p hp
    obtain ⟨m, hm, rfl⟩ := List.mem_map.1 hp
    exact hf.lt_size_primitive (h.there m hm)
  have hall : ∀ m ∈ t.unionMembers id, t.primitive m ∈ members.map t.primitive := by
    rw [hmembers]
    exact fun m hm => List.mem_map_of_mem hm
  have hsome : members.map t.primitive ≠ [] := by
    have hseveral := h.several
    rintro hnone
    rw [List.map_eq_nil_iff.1 hnone] at hseveral
    cases hseveral
  rw [widen_union hdata]
  rcases union_plain hf hplain hsome with ⟨p, hone, heq⟩ | ⟨hseveral, heq⟩
  · have hp : t.Plain p := hplain p (mem_once.1 (by rw [hone]; exact List.mem_singleton_self p))
    rw [heq]
    refine .alone hi hf hp.flat hp.primitive fun m hm => ?_
    have hmem := mem_once.2 (hall m hm)
    rwa [hone, List.mem_singleton] at hmem
  · rw [heq]
    exact .together hi hf hplain hthere hseveral hall

/-- Widening in a table whose unions are canonical. -/
theorem widened (h : Tidy t) (hi : Indexed t) (hf : Founded t) (id : TypeId) :
    Widened t id (widen id t).2 (widen id t).1 := by
  cases hunion : isUnion (t.dataOf id) with
  | false =>
    rw [widen_of_not_union hunion]
    refine .alone hi hf (flat_primitive hf hunion) (primitive_primitive hf id) fun m hm => ?_
    rw [unionMembers_of_not_union hunion, List.mem_singleton] at hm
    rw [hm]
  | true =>
    unfold isUnion at hunion
    split at hunion
    · rename_i members hdata
      exact (h id members (getElem?_of_dataOf_union hdata)).widened hi hf hdata
    · cases hunion

/-! ## What widening gives -/

section

variable {w : TypeId} {strict : Bool}

/-- Widening what was widened gives it back, and adds nothing. -/
theorem Widened.stays (h : Widened t id t' w) : widen w t' = (w, t') := by
  rcases h.form with hflat | ⟨members, hw, hplain, hnodup, hseveral⟩
  · have hself := h.primitive w (by
      rw [unionMembers_of_not_union hflat]
      exact List.mem_singleton_self w)
    rw [widen_of_not_union hflat, hself]
  · exact widen_plain h.indexed h.founded hw hplain hnodup hseveral

theorem Widened.plain (h : Widened t id t' w) : ∀ m ∈ t'.unionMembers w, t'.isLiteral m = false :=
  fun m hm => (isLiteral_eq_false_iff h.founded).2 (h.primitive m hm)

/-- A type without literals is not changed by widening. -/
theorem widen_of_not_literal (h : Tidy t) (hi : Indexed t) (hf : Founded t)
    (hplain : ∀ m ∈ t.unionMembers id, t.isLiteral m = false) : widen id t = (id, t) := by
  have hprimitive : ∀ m ∈ t.unionMembers id, t.primitive m = m := fun m hm =>
    (isLiteral_eq_false_iff hf).1 (hplain m hm)
  cases hunion : isUnion (t.dataOf id) with
  | false =>
    have hself := hprimitive id (by
      rw [unionMembers_of_not_union hunion]
      exact List.mem_singleton_self id)
    rw [widen_of_not_union hunion, hself]
  | true =>
    unfold isUnion at hunion
    split at hunion
    · rename_i members hdata
      have hid := getElem?_of_dataOf_union hdata
      have hcanonical := h id members hid
      have hmembers : t.unionMembers id = members := by rw [unionMembers, hdata]
      rw [hmembers] at hprimitive
      exact widen_plain hi hf hid
        (fun m hm => ⟨hcanonical.flat m hm, hprimitive m hm, hcanonical.strict m hm⟩)
        hcanonical.nodup hcanonical.several
    · cases hunion

/-- A type that is no union fits its primitive. -/
theorem fits_primitive (hf : Founded t) (n : Nat) :
    t.assignableWithin strict n id (t.primitive id) = true := by
  cases n with
  | zero => rfl
  | succ n =>
    rw [assignableWithin_succ]
    unfold compareLevel
    cases hliteral : t.isLiteral id with
    | false =>
      rw [(isLiteral_eq_false_iff hf).1 hliteral]
      simp [relatedOutright]
    | true =>
      unfold isLiteral at hliteral
      split at hliteral
      · rename_i value hdata
        obtain ⟨kind, hkind⟩ := (hasLiterals_primitive hf hdata).data
        rw [Bool.or_eq_true, hdata, hkind]
        right
        unfold structureFits
        rw [hdata, hkind]
        exact beq_self_eq_true _
      · cases hliteral

/-- A type that is no union fits what has its primitive as a member. -/
theorem fits_member (hf : Founded t) (hflat : isUnion (t.dataOf id) = false)
    (hmem : t.primitive id ∈ t.unionMembers w) (n : Nat) :
    t.assignableWithin strict n id w = true := by
  cases hunion : isUnion (t.dataOf w) with
  | false =>
    rw [unionMembers_of_not_union hunion, List.mem_singleton] at hmem
    rw [← hmem]
    exact fits_primitive hf n
  | true =>
    cases n with
    | zero => rfl
    | succ n =>
      cases hw : t.dataOf w with
      | union members =>
        rw [unionMembers, hw] at hmem
        rw [assignableWithin_succ]
        unfold compareLevel
        rw [Bool.or_eq_true, hw]
        right
        cases hid : t.dataOf id with
        | union others =>
          rw [hid] at hflat
          cases hflat
        | _ => exact List.any_eq_true.2 ⟨_, hmem, fits_primitive hf n⟩
      | _ =>
        rw [hw] at hunion
        cases hunion

/-- A type fits what its members' primitives are members of. -/
theorem fits_of_members (hf : Founded t) (h : ∀ m ∈ t.unionMembers id,
    isUnion (t.dataOf m) = false ∧ t.primitive m ∈ t.unionMembers w) :
    t.assignable strict id w = true := by
  unfold assignable
  cases hunion : isUnion (t.dataOf id) with
  | false =>
    have hmem := (h id (by
      rw [unionMembers_of_not_union hunion]
      exact List.mem_singleton_self id)).2
    exact fits_member hf hunion hmem _
  | true =>
    cases hid : t.dataOf id with
    | union members =>
      rw [unionMembers, hid] at h
      rw [assignableWithin_succ]
      unfold compareLevel
      rw [Bool.or_eq_true, hid]
      right
      exact List.all_eq_true.2 fun m hm => fits_member hf (h m hm).1 (h m hm).2 _
    | _ =>
      rw [hid] at hunion
      cases hunion

/-- The first type fits what it was widened to. -/
theorem Widened.fits (h : Widened t id t' w) (htidy : Tidy t) (hi : Indexed t) (hid : id < t.size) :
    t'.assignable strict id w = true := by
  have hmembers := (h.kept.primitive hid).2
  apply fits_of_members h.founded
  rw [hmembers]
  intro m hm
  have hthere := hi.lt_size_unionMembers hid hm
  have hflat : isUnion (t.dataOf m) = false :=
    @Tidy.flat t m [id] htidy (by simpa [flatSet] using hm)
  rw [h.kept.isUnion_dataOf hthere, (h.kept.primitive hthere).1]
  exact ⟨hflat, h.above m hm⟩

end

end ScriptAnalysis.TypeTable
