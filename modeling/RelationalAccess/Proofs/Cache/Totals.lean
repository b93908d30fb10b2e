import Mathlib.Algebra.BigOperators.Group.List.Basic
import Mathlib.Algebra.GroupWithZero.Nat
import Mathlib.Data.List.Nodup
import RelationalAccess.Cache.Entries

/-!
What all entries weigh together, and how the total goes up and down as entries are put
and erased. An entry never weighs more than all of them do.
-/

namespace RelationalAccess

namespace Entries

variable {Key Entry : Type} [DecidableEq Key] (entries : Entries Key Entry)

/-- What all entries weigh together. -/
def total (weight : Entry → Nat) : Nat := (entries.list.map fun entry => weight entry.2).sum

/-- What the entry under a key weighs, which is nothing where there is none. -/
def weightAt (weight : Entry → Nat) (key : Key) : Nat := ((entries.get? key).map weight).getD 0

theorem erase_of_absent {key : Key} (absent : entries.get? key = none) :
    (entries.erase key).list = entries.list := by
  apply List.filter_eq_self.mpr
  intro entry membership
  have apart : key ≠ entry.1 := by simpa using List.lookup_eq_none_iff.mp absent entry membership
  exact decide_eq_true (Ne.symm apart)

/-- The entry found under a key and those that stay when it is erased are all there are. -/
theorem perm_cons_erase {key : Key} {entry : Entry} (found : entries.get? key = some entry) :
    entries.list.Perm ((key, entry) :: (entries.erase key).list) := by
  obtain ⟨before, after, split, _⟩ := List.lookup_eq_some_iff.mp found
  have distinct := entries.nodup_keys
  rw [split, List.map_append, List.map_cons, List.nodup_middle, List.nodup_cons,
    ← List.map_append] at distinct
  have apart : ∀ other ∈ before ++ after, decide (other.1 ≠ key) = true := by
    intro other membership
    apply decide_eq_true
    intro same
    exact distinct.1 (List.mem_map.mpr ⟨other, membership, same⟩)
  have rest : (entries.erase key).list = before ++ after := by
    show entries.list.filter _ = _
    rw [split, List.filter_append, List.filter_cons_of_neg (by simp), ← List.filter_append]
    exact List.filter_eq_self.mpr apart
  rw [rest, split]
  exact List.perm_middle

theorem get?_eq_some_iff {key : Key} {entry : Entry} :
    entries.get? key = some entry ↔ (key, entry) ∈ entries.list := by
  constructor
  · intro found
    exact (entries.perm_cons_erase found).mem_iff.mpr List.mem_cons_self
  · intro membership
    cases found : entries.get? key with
    | none => simpa using List.lookup_eq_none_iff.mp found _ membership
    | some other =>
      rcases List.mem_cons.mp ((entries.perm_cons_erase found).mem_iff.mp membership) with same | later
      · cases same
        rfl
      · exact (entries.key_not_mem_erase key (List.mem_map_of_mem later)).elim

theorem total_erase (weight : Entry → Nat) (key : Key) :
    entries.total weight = entries.weightAt weight key + (entries.erase key).total weight := by
  cases found : entries.get? key with
  | none => simp [total, weightAt, found, entries.erase_of_absent found]
  | some entry =>
    have same := ((entries.perm_cons_erase found).map fun entry => weight entry.2).sum_eq
    simpa [total, weightAt, found] using same

/-- The entry that is put counts instead of the one that was under its key. -/
theorem total_put (weight : Entry → Nat) (key : Key) (entry : Entry) :
    (entries.put key entry).total weight + entries.weightAt weight key =
      entries.total weight + weight entry := by
  have put : (entries.put key entry).total weight =
      weight entry + (entries.erase key).total weight := rfl
  rw [put, entries.total_erase weight key]
  omega

theorem weightAt_le_total (weight : Entry → Nat) (key : Key) :
    entries.weightAt weight key ≤ entries.total weight := by
  rw [entries.total_erase weight key]
  exact Nat.le_add_right _ _

theorem weightAt_eq {weight : Entry → Nat} {key : Key} {entry : Entry}
    (found : entries.get? key = some entry) : entries.weightAt weight key = weight entry := by
  rw [weightAt, found]
  rfl

end Entries

end RelationalAccess
