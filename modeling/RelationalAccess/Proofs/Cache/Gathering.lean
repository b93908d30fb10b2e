import Mathlib.Data.List.Basic
import RelationalAccess.Cache.Reading

/-!
Rows gathered by their keys: which keys are asked for, in which pieces, and which of
the rows that were found are taken in the end.
-/

namespace RelationalAccess

namespace Entries

variable {Key Entry : Type} [DecidableEq Key]

theorem get?_erase (entries : Entries Key Entry) (key other : Key) :
    (entries.erase key).get? other = if other = key then none else entries.get? other := by
  by_cases same : other = key
  · simp [same]
  · rw [get?_erase_of_ne entries same, if_neg same]

theorem get?_put (entries : Entries Key Entry) (key other : Key) (entry : Entry) :
    (entries.put key entry).get? other = if other = key then some entry else entries.get? other := by
  by_cases same : other = key
  · simp [same]
  · rw [get?_put_of_ne entries entry same, if_neg same]

/-- What is found after some entries were put was put or was there before. -/
theorem get?_putAll {entries : Entries Key Entry} {further : List (Key × Entry)} {key : Key}
    {entry : Entry} (found : (entries.putAll further).get? key = some entry) :
    (key, entry) ∈ further ∨ entries.get? key = some entry := by
  induction further generalizing entries with
  | nil => exact .inr found
  | cons first others inductionHypothesis =>
    have step : (key, entry) ∈ others ∨ (entries.put first.1 first.2).get? key = some entry :=
      inductionHypothesis found
    rw [get?_put] at step
    rcases step with later | now
    · exact .inl (List.mem_cons_of_mem _ later)
    · split at now
      · next same =>
        cases now
        subst same
        exact .inl List.mem_cons_self
      · exact .inr now

theorem get?_putAll_eq_none {entries : Entries Key Entry} {further : List (Key × Entry)} {key : Key} :
    (entries.putAll further).get? key = none ↔
      entries.get? key = none ∧ key ∉ further.map Prod.fst := by
  induction further generalizing entries with
  | nil => simp [putAll]
  | cons first others inductionHypothesis =>
    show ((entries.put first.1 first.2).putAll others).get? key = none ↔ _
    rw [inductionHypothesis, get?_put, List.map_cons, List.mem_cons, not_or]
    by_cases same : key = first.1
    · simp [same]
    · simp [same]

end Entries

namespace TableCache

variable {found : Entries Keys Row} {keys : List Keys}

/-- Keys for which nothing is found can be passed over. -/
theorem take_filter {wanted : Keys → Bool}
    (nothing : ∀ key ∈ keys, wanted key = false → found.get? key = none) :
    take found (keys.filter wanted) = take found keys := by
  induction keys generalizing found with
  | nil => rfl
  | cons key rest inductionHypothesis =>
    obtain ⟨here, later⟩ := List.forall_mem_cons.mp nothing
    have erased : ∀ other ∈ rest, wanted other = false → (found.erase key).get? other = none := by
      intro other membership unwanted
      rw [Entries.get?_erase]
      split
      · rfl
      · exact later other membership unwanted
    cases isWanted : wanted key with
    | false =>
      simp only [List.filter_cons, isWanted, take, here isWanted]
      exact inductionHypothesis later
    | true =>
      simp only [List.filter_cons, isWanted, take, if_true]
      split
      · exact inductionHypothesis later
      · rw [inductionHypothesis erased]

/-- A row is taken at the first place where its key stands. -/
theorem take_eq_filterMap (found : Entries Keys Row) (keys : List Keys) :
    take found keys = keys.eraseDups.filterMap found.get? := by
  match keys with
  | [] => rfl
  | key :: rest =>
    have shorter : (rest.filter fun other => !other == key).length < rest.length + 1 :=
      Nat.lt_succ_of_le (List.length_filter_le _ rest)
    rw [List.eraseDups_cons, take]
    cases here : found.get? key with
    | none =>
      have passed : take found (rest.filter fun other => !other == key) = take found rest := by
        refine take_filter fun other _ isKey => ?_
        have same : other = key := by simpa using isKey
        rw [same, here]
      rw [List.filterMap_cons_none here, ← passed]
      exact take_eq_filterMap found _
    | some row =>
      have passed : take (found.erase key) (rest.filter fun other => !other == key) =
          take (found.erase key) rest := by
        refine take_filter fun other _ isKey => ?_
        have same : other = key := by simpa using isKey
        rw [same, Entries.get?_erase_self]
      have others := take_eq_filterMap (found.erase key) (rest.filter fun other => !other == key)
      rw [List.filterMap_cons_some here]
      dsimp only
      rw [← passed, others]
      refine congrArg (row :: ·) (List.filterMap_congr fun other membership => ?_)
      have apart : other ≠ key := by
        simpa using (List.mem_filter.mp (List.mem_eraseDups.mp membership)).2
      exact Entries.get?_erase_of_ne found apart
termination_by keys.length

/-- If no row is found under keys with a null, the rows are taken in the order of the
keys that were asked for. -/
theorem take_eq_asked (keys : List Keys)
    (identified : ∀ key, key.hasNull = true → found.get? key = none) :
    take found keys = (askedKeys keys).filterMap found.get? := by
  rw [askedKeys, ← take_eq_filterMap]
  refine (take_filter fun key _ unwanted => ?_).symm
  exact identified key (by simpa using unwanted)

/-- It does not matter whether keys are passed over before or after the repeated ones are. -/
private theorem eraseDups_filter (wanted : Keys → Bool) (keys : List Keys) :
    (keys.filter wanted).eraseDups = keys.eraseDups.filter wanted := by
  match keys with
  | [] => rfl
  | key :: rest =>
    have shorter : (rest.filter fun other => !other == key).length < rest.length + 1 :=
      Nat.lt_succ_of_le (List.length_filter_le _ rest)
    have further := eraseDups_filter wanted (rest.filter fun other => !other == key)
    have either : (rest.filter fun other => !other == key).filter wanted =
        (rest.filter wanted).filter fun other => !other == key := by
      rw [List.filter_filter, List.filter_filter]
      exact List.filter_congr fun other _ => Bool.and_comm _ _
    rw [List.eraseDups_cons]
    cases isWanted : wanted key with
    | true =>
      rw [List.filter_cons_of_pos isWanted, List.filter_cons_of_pos isWanted, List.eraseDups_cons,
        ← further, either]
    | false =>
      have passed : ((rest.filter wanted).filter fun other => !other == key) = rest.filter wanted := by
        refine List.filter_eq_self.mpr fun other isOther => ?_
        have apart : other ≠ key := by
          rintro rfl
          rw [(List.mem_filter.mp isOther).2] at isWanted
          cases isWanted
        simpa using apart
      rw [List.filter_cons_of_neg (by simp [isWanted]), List.filter_cons_of_neg (by simp [isWanted]),
        ← further, either, passed]
termination_by keys.length

/-- Some of the keys asked for, without the detour over the others. -/
theorem filter_askedKeys (wanted : Keys → Bool) (keys : List Keys) :
    (askedKeys keys).filter wanted =
      (keys.filter fun key => !key.hasNull && wanted key).eraseDups := by
  rw [askedKeys, ← eraseDups_filter, List.filter_filter]
  exact congrArg _ (List.filter_congr fun key _ => Bool.and_comm _ _)

theorem mem_askedKeys {key : Keys} : key ∈ askedKeys keys ↔ key ∈ keys ∧ key.hasNull = false := by
  simp [askedKeys]

private theorem nodup_eraseDups (keys : List Keys) : keys.eraseDups.Nodup := by
  match keys with
  | [] => exact List.nodup_nil
  | key :: rest =>
    have shorter : (rest.filter fun other => !other == key).length < rest.length + 1 :=
      Nat.lt_succ_of_le (List.length_filter_le _ rest)
    rw [List.eraseDups_cons, List.nodup_cons]
    constructor
    · simp
    · exact nodup_eraseDups _
termination_by keys.length

/-- No keys are asked for twice. -/
theorem nodup_askedKeys (keys : List Keys) : (askedKeys keys).Nodup := nodup_eraseDups _

/-- Distinct keys without nulls are asked for as they are. -/
theorem askedKeys_eq_self (distinct : keys.Nodup) (identified : ∀ key ∈ keys, key.hasNull = false) :
    askedKeys keys = keys := by
  have all : keys.filter (!·.hasNull) = keys :=
    List.filter_eq_self.mpr fun key membership => by simp [identified key membership]
  rw [askedKeys, all]
  clear all identified
  induction distinct with
  | nil => rfl
  | @cons key rest fresh _ inductionHypothesis =>
    have others : rest.filter (fun other => !other == key) = rest :=
      List.filter_eq_self.mpr fun other membership => by simpa using Ne.symm (fresh other membership)
    rw [List.eraseDups_cons, others, inductionHypothesis]

theorem flatten_chunks {α : Type} {size : Nat} (positive : size ≠ 0) (list : List α) :
    (chunks size list).flatten = list := by
  fun_induction chunks size list with
  | case1 list done =>
    rcases done with isEmpty | isZero
    · simpa using (List.isEmpty_iff.mp isEmpty).symm
    · exact absurd isZero positive
  | case2 list more inductionHypothesis =>
    rw [List.flatten_cons, inductionHypothesis, List.take_append_drop]

theorem length_le_of_mem_chunks {α : Type} {size : Nat} {list chunk : List α}
    (membership : chunk ∈ chunks size list) : chunk.length ≤ size := by
  fun_induction chunks size list with
  | case1 list done => cases membership
  | case2 list more inductionHypothesis =>
    rcases List.mem_cons.mp membership with rfl | later
    · exact List.length_take_le size list
    · exact inductionHypothesis later

theorem ne_nil_of_mem_chunks {α : Type} {size : Nat} {list chunk : List α}
    (membership : chunk ∈ chunks size list) : chunk ≠ [] := by
  fun_induction chunks size list with
  | case1 list done => cases membership
  | case2 list more inductionHypothesis =>
    rcases List.mem_cons.mp membership with now | later
    · obtain ⟨notEmpty, notZero⟩ := not_or.mp more
      rw [now]
      intro none
      rcases List.take_eq_nil_iff.mp none with isZero | isEmpty
      · exact notZero isZero
      · exact notEmpty (List.isEmpty_iff.mpr isEmpty)
    · exact inductionHypothesis later

end TableCache

end RelationalAccess
