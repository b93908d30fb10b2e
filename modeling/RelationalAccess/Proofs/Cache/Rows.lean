import RelationalAccess.Cache.Table

/-!
What is cached under given keys after each operation on the rows of a cache.
These operations leave everything else that later reads depend on alone.
-/

namespace RelationalAccess

namespace TableCache

/-- One cache comes from another by operations on its rows alone. -/
structure SameButRows (cache other : TableCache) : Prop where
  table : other.table = cache.table
  enabled : other.enabled = cache.enabled
  indices : other.indices = cache.indices
  generation : other.generation = cache.generation

namespace SameButRows

theorem refl (cache : TableCache) : cache.SameButRows cache := ⟨rfl, rfl, rfl, rfl⟩

theorem trans {first second third : TableCache} (earlier : first.SameButRows second)
    (later : second.SameButRows third) : first.SameButRows third where
  table := later.table.trans earlier.table
  enabled := later.enabled.trans earlier.enabled
  indices := later.indices.trans earlier.indices
  generation := later.generation.trans earlier.generation

end SameButRows

theorem count_sameButRows (cache : TableCache) (hits misses : Nat) :
    cache.SameButRows (cache.count hits misses) :=
  ⟨rfl, rfl, rfl, rfl⟩

theorem replaceRow_sameButRows (cache : TableCache) (row : Row) :
    cache.SameButRows (cache.replaceRow row) := by
  unfold replaceRow
  split
  · exact ⟨rfl, rfl, rfl, rfl⟩
  · exact .refl cache

theorem insertRow_sameButRows (cache : TableCache) (row : Row) :
    cache.SameButRows (cache.insertRow row).2 := by
  unfold insertRow
  split
  · split
    · exact .refl cache
    · exact cache.replaceRow_sameButRows row
  · exact .refl cache

theorem removeRow_sameButRows (cache : TableCache) (keys : Keys) :
    cache.SameButRows (cache.removeRow keys) := by
  unfold removeRow
  split
  · exact .refl cache
  · exact ⟨rfl, rfl, rfl, rfl⟩

theorem insertRows_sameButRows (cache : TableCache) (rows : List Row) :
    cache.SameButRows (cache.insertRows rows).2 := by
  induction rows generalizing cache with
  | nil => exact .refl cache
  | cons row rows inductionHypothesis =>
    exact (cache.insertRow_sameButRows row).trans (inductionHypothesis _)

theorem storeRead_sameButRows (cache : TableCache) (generation : Nat) (rows : List Row) :
    cache.SameButRows (cache.storeRead generation rows).2 := by
  unfold storeRead
  split
  · exact cache.insertRows_sameButRows rows
  · exact .refl cache

theorem removeRows_sameButRows (cache : TableCache) (keys : List Keys) :
    cache.SameButRows (keys.foldl removeRow cache) := by
  induction keys generalizing cache with
  | nil => exact .refl cache
  | cons first others inductionHypothesis =>
    exact (cache.removeRow_sameButRows first).trans (inductionHypothesis _)

theorem forget_sameButRows (cache : TableCache) (before after : Option Row) :
    cache.SameButRows (cache.forget before after) := by
  unfold forget
  split
  · exact .refl cache
  · split
    · exact .refl cache
    · exact cache.removeRow_sameButRows _

theorem contains_eq (cache : TableCache) (keys : Keys) :
    cache.contains keys = (cache.peek? keys).isSome := by
  simp [contains, Entries.contains, peek?]

theorem peek?_put (cache : TableCache) (row : Row) (storedAt : Nat) (keys : Keys) :
    ((cache.rows.put row.keys ⟨row, storedAt⟩).get? keys).map RowEntry.row =
      if keys = row.keys then some row else cache.peek? keys := by
  by_cases same : keys = row.keys
  · subst same
    simp
  · rw [Entries.get?_put_of_ne _ _ same, if_neg same, peek?]

theorem peek?_replaceRow {cache : TableCache} (enabled : cache.enabled = true) (row : Row)
    (keys : Keys) :
    (cache.replaceRow row).peek? keys = if keys = row.keys then some row else cache.peek? keys := by
  rw [replaceRow, if_pos enabled]
  exact cache.peek?_put row _ keys

theorem replaceRow_of_disabled {cache : TableCache} (disabled : cache.enabled = false) (row : Row) :
    cache.replaceRow row = cache := by
  rw [replaceRow, disabled]
  rfl

theorem peek?_removeRow (cache : TableCache) (removed keys : Keys) :
    (cache.removeRow removed).peek? keys = if keys = removed then none else cache.peek? keys := by
  unfold removeRow
  by_cases same : keys = removed
  · subst same
    split
    · next absent => simpa using absent
    · simp [peek?]
  · rw [if_neg same]
    split
    · rfl
    · simp [peek?, Entries.get?_erase_of_ne _ same]

theorem peek?_removeRows (cache : TableCache) (removed : List Keys) (keys : Keys) :
    (removed.foldl removeRow cache).peek? keys =
      if keys ∈ removed then none else cache.peek? keys := by
  induction removed generalizing cache with
  | nil => simp
  | cons first others inductionHypothesis =>
    rw [List.foldl_cons, inductionHypothesis, peek?_removeRow]
    by_cases same : keys = first
    · simp [same]
    · simp [same]

theorem peek?_insertRow {cache : TableCache} (enabled : cache.enabled = true) (row : Row)
    (keys : Keys) :
    (cache.insertRow row).2.peek? keys =
      (cache.peek? keys).or (if keys = row.keys then some row else none) := by
  unfold insertRow
  rw [if_pos enabled]
  split
  · next present found =>
    by_cases same : keys = row.keys
    · rw [same, found]
      rfl
    · simp [same]
  · next absent =>
    rw [peek?_replaceRow enabled]
    by_cases same : keys = row.keys
    · rw [same, absent]
      simp
    · simp [same]

/-- Of the rows inserted under some keys the first is cached, unless one was before. -/
theorem peek?_insertRows {cache : TableCache} (enabled : cache.enabled = true) (rows : List Row)
    (keys : Keys) :
    (cache.insertRows rows).2.peek? keys =
      (cache.peek? keys).or (rows.find? fun row => row.keys = keys) := by
  induction rows generalizing cache with
  | nil => simp [insertRows]
  | cons row rows inductionHypothesis =>
    have stillEnabled : (cache.insertRow row).2.enabled = true :=
      (cache.insertRow_sameButRows row).enabled.trans enabled
    show (((cache.insertRow row).2.insertRows rows).2).peek? keys = _
    rw [inductionHypothesis stillEnabled, peek?_insertRow enabled, Option.or_assoc]
    by_cases same : row.keys = keys
    · simp [same]
    · simp [same, Ne.symm same]

theorem insertRows_of_disabled {cache : TableCache} (disabled : cache.enabled = false)
    (rows : List Row) : cache.insertRows rows = (rows, cache) := by
  induction rows with
  | nil => rfl
  | cons row rows inductionHypothesis =>
    have kept : cache.insertRow row = (row, cache) := by simp [insertRow, disabled]
    simp only [insertRows, kept, inductionHypothesis]

/-- Rows of which none is cached are inserted as they are. -/
theorem insertRows_of_absent {cache : TableCache} {rows : List Row}
    (absent : ∀ row ∈ rows, cache.peek? row.keys = none)
    (distinct : (rows.map Row.keys).Nodup) : (cache.insertRows rows).1 = rows := by
  induction rows generalizing cache with
  | nil => rfl
  | cons row others inductionHypothesis =>
    obtain ⟨here, later⟩ := List.forall_mem_cons.mp absent
    obtain ⟨apart, distinct⟩ := List.nodup_cons.mp distinct
    have inserted : (cache.insertRow row).1 = row := by
      unfold insertRow
      rw [here]
      split <;> rfl
    have stillAbsent : ∀ other ∈ others, (cache.insertRow row).2.peek? other.keys = none := by
      intro other isOther
      cases enabled : cache.enabled with
      | false =>
        rw [insertRow, if_neg (by simp [enabled])]
        exact later other isOther
      | true =>
        have differ : other.keys ≠ row.keys := fun same =>
          apart (List.mem_map.mpr ⟨other, isOther, same⟩)
        rw [peek?_insertRow enabled, later other isOther, if_neg differ]
        rfl
    show (cache.insertRow row).1 :: ((cache.insertRow row).2.insertRows others).1 = row :: others
    rw [inserted, inductionHypothesis stillAbsent distinct]

theorem peek?_forget (cache : TableCache) (before after : Option Row) (keys : Keys)
    (notAfter : after.map Row.keys ≠ some keys) :
    (cache.forget before after).peek? keys =
      if before.map Row.keys = some keys then none else cache.peek? keys := by
  unfold forget
  split
  · simp
  · next old =>
    by_cases same : old.keys = keys
    · rw [same, if_neg notAfter, peek?_removeRow]
      simp [same]
    · have differ : keys ≠ old.keys := Ne.symm same
      split
      · simp [same]
      · rw [peek?_removeRow, if_neg differ]
        simp [same]

/-- One cache comes from another by operations on its indices alone. -/
structure SameButIndices (cache other : TableCache) : Prop where
  table : other.table = cache.table
  enabled : other.enabled = cache.enabled
  rows : other.rows = cache.rows
  generation : other.generation = cache.generation

/-- The buckets of some values of some columns taken out. -/
def forgetAll (cache : TableCache) (touched : List (Nat × Value)) : TableCache :=
  touched.foldl (fun cache (column, value) => cache.forgetKeys column value) cache

theorem forgetAll_sameButIndices (cache : TableCache) (touched : List (Nat × Value)) :
    cache.SameButIndices (cache.forgetAll touched) := by
  induction touched generalizing cache with
  | nil => exact ⟨rfl, rfl, rfl, rfl⟩
  | cons first others inductionHypothesis =>
    have rest := inductionHypothesis (cache.forgetKeys first.1 first.2)
    exact ⟨rest.table, rest.enabled, rest.rows, rest.generation⟩

/-- The cache after a change, but for the row that the change brings. -/
def withoutStale (cache : TableCache) (before after : Option Row) : TableCache :=
  ({ cache with generation := cache.generation + 1 }.forget before after).forgetAll
    (touched cache.table before after)

theorem applyChange_eq (cache : TableCache) (before after : Option Row) :
    (cache.applyChange before after).2 =
      after.elim (cache.withoutStale before after) (cache.withoutStale before after).replaceRow :=
  rfl

section

variable (cache : TableCache) (before after : Option Row)

private theorem withoutStale_enabled :
    (cache.withoutStale before after).enabled = cache.enabled :=
  (forgetAll_sameButIndices _ _).enabled.trans (forget_sameButRows _ before after).enabled

theorem applyChange_table : (cache.applyChange before after).2.table = cache.table := by
  have table : (cache.withoutStale before after).table = cache.table :=
    (forgetAll_sameButIndices _ _).table.trans (forget_sameButRows _ before after).table
  rw [applyChange_eq]
  cases after with
  | none => exact table
  | some new => exact (replaceRow_sameButRows _ new).table.trans table

theorem applyChange_enabled : (cache.applyChange before after).2.enabled = cache.enabled := by
  rw [applyChange_eq]
  cases after with
  | none => exact withoutStale_enabled cache before none
  | some new =>
    exact (replaceRow_sameButRows _ new).enabled.trans (withoutStale_enabled cache before (some new))

/-- Every change raises the generation. -/
theorem applyChange_generation :
    (cache.applyChange before after).2.generation = cache.generation + 1 := by
  have generation : (cache.withoutStale before after).generation = cache.generation + 1 :=
    (forgetAll_sameButIndices _ _).generation.trans (forget_sameButRows _ before after).generation
  rw [applyChange_eq]
  cases after with
  | none => exact generation
  | some new => exact (replaceRow_sameButRows _ new).generation.trans generation

private theorem peek?_withoutStale (keys : Keys) (notAfter : after.map Row.keys ≠ some keys) :
    (cache.withoutStale before after).peek? keys =
      if before.map Row.keys = some keys then none else cache.peek? keys := by
  rw [withoutStale, peek?, (forgetAll_sameButIndices _ _).rows]
  exact peek?_forget _ before after keys notAfter

end

/-- What a change leaves under some keys: the row after it, nothing where the row
before it was, and else what was there. -/
theorem peek?_applyChange {cache : TableCache} (enabled : cache.enabled = true)
    (before after : Option Row) (keys : Keys) :
    (cache.applyChange before after).2.peek? keys =
      if after.map Row.keys = some keys then after
      else if before.map Row.keys = some keys then none
      else cache.peek? keys := by
  have stillEnabled := (withoutStale_enabled cache before after).trans enabled
  rw [applyChange_eq]
  cases after with
  | none => exact peek?_withoutStale cache before none keys (by simp)
  | some new =>
    show ((cache.withoutStale before (some new)).replaceRow new).peek? keys = _
    rw [peek?_replaceRow stillEnabled]
    by_cases same : keys = new.keys
    · simp [same]
    · have notAfter : (some new).map Row.keys ≠ some keys := by simpa using Ne.symm same
      rw [if_neg same, if_neg notAfter, peek?_withoutStale cache before (some new) keys notAfter]

/-- A change brings no row into a cache that is not enabled. -/
theorem peek?_applyChange_of_disabled {cache : TableCache} (disabled : cache.enabled = false)
    (nothing : ∀ keys, cache.peek? keys = none) (before after : Option Row) (keys : Keys) :
    (cache.applyChange before after).2.peek? keys = none := by
  have stale : (cache.withoutStale before after).peek? keys = none := by
    rw [withoutStale, peek?, (forgetAll_sameButIndices _ _).rows]
    show (forget _ before after).peek? keys = none
    unfold forget
    split
    · exact nothing keys
    · split
      · exact nothing keys
      · rw [peek?_removeRow]
        split
        · rfl
        · exact nothing keys
  have stillDisabled := (withoutStale_enabled cache before after).trans disabled
  rw [applyChange_eq]
  cases after with
  | none => exact stale
  | some new =>
    show ((cache.withoutStale before (some new)).replaceRow new).peek? keys = none
    rw [replaceRow_of_disabled stillDisabled]
    exact stale

/-- Every row is cached under its own keys. -/
def RowsKeyed (cache : TableCache) : Prop :=
  ∀ keys row, cache.peek? keys = some row → row.keys = keys

namespace RowsKeyed

variable {cache : TableCache}

theorem insertRows (keyed : cache.RowsKeyed) (rows : List Row) :
    (cache.insertRows rows).2.RowsKeyed := by
  intro keys row found
  cases enabled : cache.enabled with
  | false =>
    rw [insertRows_of_disabled enabled] at found
    exact keyed keys row found
  | true =>
    rw [peek?_insertRows enabled, Option.or_eq_some_iff] at found
    rcases found with cached | ⟨_, inserted⟩
    · exact keyed keys row cached
    · simpa using List.find?_some inserted

theorem storeRead (keyed : cache.RowsKeyed) (generation : Nat) (rows : List Row) :
    (cache.storeRead generation rows).2.RowsKeyed := by
  unfold TableCache.storeRead
  split
  · exact keyed.insertRows rows
  · exact keyed

theorem removeRow (keyed : cache.RowsKeyed) (removed : Keys) :
    (cache.removeRow removed).RowsKeyed := by
  intro keys row found
  rw [peek?_removeRow] at found
  split at found
  · cases found
  · exact keyed keys row found

theorem removeRows (keyed : cache.RowsKeyed) (removed : List Keys) :
    (removed.foldl TableCache.removeRow cache).RowsKeyed := by
  intro keys row found
  rw [peek?_removeRows] at found
  split at found
  · cases found
  · exact keyed keys row found

theorem replaceRow (keyed : cache.RowsKeyed) (row : Row) : (cache.replaceRow row).RowsKeyed := by
  intro keys found present
  cases enabled : cache.enabled with
  | false =>
    rw [replaceRow_of_disabled enabled] at present
    exact keyed keys found present
  | true =>
    rw [peek?_replaceRow enabled] at present
    split at present
    · next same =>
      cases present
      exact same.symm
    · exact keyed keys found present

theorem forget (keyed : cache.RowsKeyed) (before after : Option Row) :
    (cache.forget before after).RowsKeyed := by
  unfold TableCache.forget
  split
  · exact keyed
  · split
    · exact keyed
    · exact keyed.removeRow _

theorem applyChange (keyed : cache.RowsKeyed) (before after : Option Row) :
    (cache.applyChange before after).2.RowsKeyed := by
  have stale : (cache.withoutStale before after).RowsKeyed := by
    intro keys row found
    rw [withoutStale, peek?, (forgetAll_sameButIndices _ _).rows] at found
    have raised : RowsKeyed { cache with generation := cache.generation + 1 } := keyed
    exact raised.forget before after keys row found
  rw [applyChange_eq]
  cases after with
  | none => exact stale
  | some new => exact stale.replaceRow new

private theorem insertRow_keys (keyed : cache.RowsKeyed) (row : Row) :
    (cache.insertRow row).1.keys = row.keys := by
  unfold TableCache.insertRow
  split
  · split
    · next present found => exact keyed row.keys present found
    · rfl
  · rfl

/-- The rows that stand for those inserted have the same keys. -/
theorem insertRows_keys (keyed : cache.RowsKeyed) (rows : List Row) :
    (cache.insertRows rows).1.map Row.keys = rows.map Row.keys := by
  induction rows generalizing cache with
  | nil => rfl
  | cons row rows inductionHypothesis =>
    show (cache.insertRow row).1.keys :: ((cache.insertRow row).2.insertRows rows).1.map Row.keys = _
    have inserted : (cache.insertRow row).2.RowsKeyed := keyed.insertRows [row]
    rw [keyed.insertRow_keys, inductionHypothesis inserted, List.map_cons]

/-- The rows that stand for those read have the same keys. -/
theorem storeRead_keys (keyed : cache.RowsKeyed) (generation : Nat) (rows : List Row) :
    (cache.storeRead generation rows).1.map Row.keys = rows.map Row.keys := by
  unfold TableCache.storeRead
  split
  · exact keyed.insertRows_keys rows
  · rw [List.map_map]
    refine List.map_congr_left fun row _ => ?_
    show ((cache.peek? row.keys).getD row).keys = row.keys
    cases found : cache.peek? row.keys with
    | none => rfl
    | some present => exact keyed row.keys present found

end RowsKeyed

end TableCache

end RelationalAccess
