import ScriptAnalysis.Table

/-!
# Kept responses

A response is kept for a fixed time after it was made. Each use first drops
what has expired by the clock of the caller; keeping a new response under
the same key starts the time anew. Times are in milliseconds.
-/
namespace ScriptAnalysis

/-- A response and the time from which it is no longer used. -/
structure CacheEntry where
  response : String
  expires : Nat
  deriving DecidableEq, Repr, Inhabited

/-- Responses under the texts they were asked for with. -/
structure ResponseCache where
  ttl : Nat
  entries : Table String CacheEntry
  deriving DecidableEq, Repr, Inhabited

namespace ResponseCache

/-- How long a response is kept unless another time is asked for. -/
def defaultTtl : Nat := 1000

def ofTtl (ttl : Nat) : ResponseCache := ⟨ttl, .empty⟩

/-- Drops the responses that have expired. -/
def evict (c : ResponseCache) (now : Nat) : ResponseCache :=
  { c with entries := c.entries.filter fun _ e => now < e.expires }

/-- The response kept for a text. -/
def find (c : ResponseCache) (now : Nat) (key : String) : Option String × ResponseCache :=
  let c := c.evict now
  ((c.entries.get? key).map CacheEntry.response, c)

/-- Keeps a response. -/
def insert (c : ResponseCache) (now : Nat) (key response : String) : ResponseCache :=
  let c := c.evict now
  { c with entries := c.entries.insert key ⟨response, now + c.ttl⟩ }

def size (c : ResponseCache) : Nat :=
  c.entries.size

/-! ## What is found -/

theorem lookup_filter_of_all {κ ν : Type} [DecidableEq κ] (p : κ → ν → Bool) (k : κ) (v : ν)
    (l : List (κ × ν)) (h : Table.lookup k l = some v) (hp : p k v = true) :
    Table.lookup k (l.filter fun e => p e.1 e.2) = some v := by
  induction l with
  | nil => simp [Table.lookup] at h
  | cons e rest ih =>
    obtain ⟨a, b⟩ := e
    by_cases ha : a = k
    · subst ha
      simp only [Table.lookup, if_true, Option.some.injEq] at h
      simp [Table.lookup, h, hp]
    · simp only [Table.lookup, ha, if_false] at h
      by_cases hq : p a b = true <;> simp [hq, Table.lookup, ha, ih h]

/-- A response that was just kept is found until its time is over. -/
theorem find_insert (c : ResponseCache) (now later : Nat) (key response : String)
    (h : later < now + c.ttl) :
    ((c.insert now key response).find later key).1 = some response := by
  have hk : (c.insert now key response).entries.get? key = some ⟨response, now + c.ttl⟩ := by
    simp [insert, evict, Table.get?_insert]
  have := lookup_filter_of_all (fun _ (e : CacheEntry) => decide (later < e.expires)) key _ _ hk
    (by simpa using h)
  simp only [find, evict, Table.get?, Table.filter] at this ⊢
  simp [this]

end ResponseCache

end ScriptAnalysis
