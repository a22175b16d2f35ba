import Mathlib.Data.List.Nodup
import ScriptAnalysis.Table

/-!
# Tables whose keys differ

A table that was filled by insertions has no key twice. Then its entries are
its look-ups (`get?_of_mem`), also after some entries were left out
(`get?_filter`).
-/
namespace ScriptAnalysis

namespace Table

variable {κ ν : Type} {t : Table κ ν}

theorem nodup_keys_filter (h : t.keys.Nodup) (p : κ → ν → Bool) : (t.filter p).keys.Nodup :=
  h.sublist (List.filter_sublist.map _)

variable [DecidableEq κ]

theorem nodup_keys_insert (h : t.keys.Nodup) (k : κ) (v : ν) : (t.insert k v).keys.Nodup := by
  rw [keys_insert]
  split
  · exact h
  · rename_i hk
    exact h.append (List.nodup_singleton k) (List.disjoint_singleton.2 hk)

theorem get?_of_mem (h : t.keys.Nodup) {k : κ} {v : ν} (hv : (k, v) ∈ t.entries) :
    t.get? k = some v := by
  obtain ⟨entries⟩ := t
  show lookup k entries = some v
  induction entries with
  | nil => cases hv
  | cons e rest ih =>
    obtain ⟨a, b⟩ := e
    obtain ⟨hnew, hrest⟩ := List.nodup_cons.1 h
    unfold lookup
    rcases List.mem_cons.1 hv with heq | hv
    · cases heq
      rw [if_pos rfl]
    · have hne : a ≠ k := by
        rintro rfl
        exact hnew (List.mem_map.2 ⟨_, hv, rfl⟩)
      rw [if_neg hne]
      exact ih hrest hv

/-- Filtering takes an entry away or leaves it; no other entry has its key. -/
theorem get?_filter (h : t.keys.Nodup) (p : κ → ν → Bool) (k : κ) :
    (t.filter p).get? k = (t.get? k).filter (p k) := by
  have hmem : ∀ v, (t.filter p).get? k = some v ↔ t.get? k = some v ∧ p k v = true := by
    intro v
    constructor
    · intro hv
      obtain ⟨hv, hp⟩ := List.mem_filter.1 (mem_of_lookup hv)
      exact ⟨get?_of_mem h hv, hp⟩
    · rintro ⟨hv, hp⟩
      exact get?_of_mem (nodup_keys_filter h p) (List.mem_filter.2 ⟨mem_of_lookup hv, hp⟩)
  refine Option.ext fun v => ?_
  rw [hmem, Option.filter_eq_some_iff]

end Table

end ScriptAnalysis
