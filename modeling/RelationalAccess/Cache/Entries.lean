/-!
Entries under distinct keys. Looking up behaves as for a partial function: what
is put under a key is found there, what is erased is gone, and other keys are
left alone.
-/

namespace RelationalAccess

/-- Entries under keys, no two under the same; the one put last comes first. -/
structure Entries (Key Entry : Type) where
  list : List (Key × Entry) := []
  nodup_keys : (list.map Prod.fst).Nodup := by simp

namespace Entries

variable {Key Entry : Type} [DecidableEq Key]

def get? (entries : Entries Key Entry) (key : Key) : Option Entry := entries.list.lookup key

def contains (entries : Entries Key Entry) (key : Key) : Bool := (entries.get? key).isSome

def erase (entries : Entries Key Entry) (key : Key) : Entries Key Entry where
  list := entries.list.filter fun entry => decide (entry.1 ≠ key)
  nodup_keys := (List.filter_sublist.map Prod.fst).nodup entries.nodup_keys

theorem key_not_mem_erase (entries : Entries Key Entry) (key : Key) :
    key ∉ (entries.erase key).list.map Prod.fst := by
  simp [erase]

/-- An entry put in place of the one under its key, if there is one. -/
def put (entries : Entries Key Entry) (key : Key) (entry : Entry) : Entries Key Entry where
  list := (key, entry) :: (entries.erase key).list
  nodup_keys := List.nodup_cons.2 ⟨entries.key_not_mem_erase key, (entries.erase key).nodup_keys⟩

/-- Entries put one after another. -/
def putAll (entries : Entries Key Entry) (further : List (Key × Entry)) : Entries Key Entry :=
  further.foldl (fun entries (key, entry) => entries.put key entry) entries

def size (entries : Entries Key Entry) : Nat := entries.list.length

@[simp] theorem get?_empty (key : Key) : ({} : Entries Key Entry).get? key = none := rfl

@[simp] theorem get?_erase_self (entries : Entries Key Entry) (key : Key) :
    (entries.erase key).get? key = none := by
  simp only [get?, List.lookup_eq_none_iff]
  intro entry membership
  have := of_decide_eq_true (List.mem_filter.1 membership).2
  simpa using Ne.symm this

theorem get?_erase_of_ne (entries : Entries Key Entry) {key other : Key} (differ : other ≠ key) :
    (entries.erase key).get? other = entries.get? other := by
  simp only [get?, erase, ne_eq, decide_not]
  induction entries.list with
  | nil => rfl
  | cons first rest inductionHypothesis =>
    obtain ⟨stored, entry⟩ := first
    by_cases same : stored = key
    · have apart : (other == key) = false := by simpa using differ
      simpa [List.lookup_cons, same, apart] using inductionHypothesis
    · simp [List.lookup_cons, same, inductionHypothesis]

@[simp] theorem get?_put_self (entries : Entries Key Entry) (key : Key) (entry : Entry) :
    (entries.put key entry).get? key = some entry := by
  simp [put, get?]

theorem get?_put_of_ne (entries : Entries Key Entry) {key other : Key} (entry : Entry)
    (differ : other ≠ key) : (entries.put key entry).get? other = entries.get? other := by
  rw [← get?_erase_of_ne entries differ]
  have apart : (other == key) = false := by simpa using differ
  simp [put, get?, List.lookup_cons, apart]

end Entries

end RelationalAccess
