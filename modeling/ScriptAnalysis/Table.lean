/-!
# Tables

A finite map kept as its entries in the order of their first insertion. A
later insertion under the same key replaces the value and keeps the place.

`get?_insert` and `get?_erase` say what the changes do to look-ups, and
`keys_insert` what an insertion does to the order. What is found was put
there (`mem_of_lookup`, `mem_of_mem_put`).
-/
namespace ScriptAnalysis

/-- A finite map from `κ` to `ν`, as a list of entries. -/
structure Table (κ : Type) (ν : Type) where
  entries : List (κ × ν)
  deriving Repr, DecidableEq

namespace Table

variable {κ ν : Type}

def empty : Table κ ν := ⟨[]⟩

instance : Inhabited (Table κ ν) := ⟨empty⟩

def keys (t : Table κ ν) : List κ :=
  t.entries.map Prod.fst

variable [DecidableEq κ]

/-- The value of the first entry with the key. -/
def lookup (k : κ) : List (κ × ν) → Option ν
  | [] => none
  | (k', v) :: rest => if k' = k then some v else lookup k rest

/-- Replaces the entry with the key, or adds one at the end. -/
def put (k : κ) (v : ν) : List (κ × ν) → List (κ × ν)
  | [] => [(k, v)]
  | (k', v') :: rest => if k' = k then (k, v) :: rest else (k', v') :: put k v rest

def get? (t : Table κ ν) (k : κ) : Option ν :=
  lookup k t.entries

def contains (t : Table κ ν) (k : κ) : Bool :=
  (t.get? k).isSome

def insert (t : Table κ ν) (k : κ) (v : ν) : Table κ ν :=
  ⟨put k v t.entries⟩

def erase (t : Table κ ν) (k : κ) : Table κ ν :=
  ⟨t.entries.filter fun e => e.1 ≠ k⟩

/-- The entries that satisfy `p`. -/
def filter (t : Table κ ν) (p : κ → ν → Bool) : Table κ ν :=
  ⟨t.entries.filter fun e => p e.1 e.2⟩

def size (t : Table κ ν) : Nat :=
  t.entries.length

/-! ## What the operations do to look-ups -/

@[simp] theorem get?_empty (k : κ) : (empty : Table κ ν).get? k = none := rfl

theorem lookup_put (k k' : κ) (v : ν) (l : List (κ × ν)) :
    lookup k' (put k v l) = if k = k' then some v else lookup k' l := by
  induction l with
  | nil => simp [put, lookup]
  | cons e rest ih =>
    obtain ⟨a, b⟩ := e
    by_cases ha : a = k
    · subst ha
      by_cases hk : a = k' <;> simp [put, lookup, hk]
    · simp only [put, ha, if_false, lookup, ih]
      by_cases hk : k = k'
      · subst hk
        simp [ha]
      · simp [hk]

/-- After an insertion the key has the new value; all others are as before. -/
theorem get?_insert (t : Table κ ν) (k k' : κ) (v : ν) :
    (t.insert k v).get? k' = if k = k' then some v else t.get? k' :=
  lookup_put k k' v t.entries

theorem lookup_filter_ne (k k' : κ) (l : List (κ × ν)) :
    lookup k' (l.filter fun e => e.1 ≠ k) = if k = k' then none else lookup k' l := by
  induction l with
  | nil => simp [lookup]
  | cons e rest ih =>
    obtain ⟨a, b⟩ := e
    by_cases ha : a = k
    · subst ha
      by_cases hk : a = k' <;> simp_all [lookup]
    · by_cases hk : k = k'
      · subst hk
        simp_all [lookup]
      · simp_all [lookup]

/-- After a removal the key has no value; all others are as before. -/
theorem get?_erase (t : Table κ ν) (k k' : κ) :
    (t.erase k).get? k' = if k = k' then none else t.get? k' :=
  lookup_filter_ne k k' t.entries

theorem map_fst_put (k : κ) (v : ν) (l : List (κ × ν)) :
    (put k v l).map Prod.fst = if k ∈ l.map Prod.fst then l.map Prod.fst
      else l.map Prod.fst ++ [k] := by
  induction l with
  | nil => simp [put]
  | cons e rest ih =>
    obtain ⟨a, b⟩ := e
    by_cases ha : a = k
    · simp [put, ha]
    · simp only [put, ha, if_false, List.map_cons, ih, List.mem_cons, Ne.symm ha, false_or]
      split <;> rfl

/-- An insertion keeps the order of the keys; a new key comes last. -/
theorem keys_insert (t : Table κ ν) (k : κ) (v : ν) :
    (t.insert k v).keys = if k ∈ t.keys then t.keys else t.keys ++ [k] :=
  map_fst_put k v t.entries

/-! ## Where entries come from -/

theorem mem_of_lookup {k : κ} {v : ν} {l : List (κ × ν)} (h : lookup k l = some v) :
    (k, v) ∈ l := by
  induction l with
  | nil => cases h
  | cons e rest ih =>
    obtain ⟨a, b⟩ := e
    unfold lookup at h
    split at h
    · rename_i ha
      cases h
      subst ha
      exact List.mem_cons_self
    · exact List.mem_cons_of_mem _ (ih h)

theorem mem_of_mem_put {k : κ} {v : ν} {e : κ × ν} {l : List (κ × ν)} (h : e ∈ put k v l) :
    e = (k, v) ∨ e ∈ l := by
  induction l with
  | nil => exact .inl (List.mem_singleton.1 h)
  | cons d rest ih =>
    obtain ⟨a, b⟩ := d
    unfold put at h
    split at h
    · exact (List.mem_cons.1 h).imp id (List.mem_cons_of_mem _)
    · rcases List.mem_cons.1 h with rfl | h
      · exact .inr List.mem_cons_self
      · exact (ih h).imp id (List.mem_cons_of_mem _)

end Table

end ScriptAnalysis
