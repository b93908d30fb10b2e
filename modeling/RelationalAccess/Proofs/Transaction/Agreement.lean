import RelationalAccess.Proofs.DataSource.Reads
import RelationalAccess.Proofs.Transaction.Pending

/-!
Cached rows and stored rows. The caches agree with a store if every cached row has, in
the form in which values are bound, the values that are stored under its keys. Here is
what a recorded change makes of the agreement, and what a read makes of it while
changes are pending.
-/

namespace RelationalAccess

namespace DatabaseCache

/-- Every cached row is bound to the form of a stored row, and so has its keys. -/
def Agrees (cache : DatabaseCache) (dialect : Dialect) (store : Store) : Prop :=
  ∀ position keys row, cache.cached? position keys = some row →
    row.keys = keys ∧ row.table.id = position ∧
      cache.database.tables[position]? = some row.table ∧
        ∃ stored ∈ store position, row.table.Binds dialect row.values stored

section

variable {cache : DatabaseCache} {dialect : Dialect} {store working : Store}

theorem Agrees.mono (agrees : cache.Agrees dialect store)
    (more : ∀ position, ∀ stored ∈ store position, stored ∈ working position) :
    cache.Agrees dialect working := by
  intro position keys row cached
  obtain ⟨rowKeys, place, owned, stored, membership, binds⟩ := agrees position keys row cached
  exact ⟨rowKeys, place, owned, stored, more position stored membership, binds⟩

/-- The caches agree with a store after a change is applied, if and only if the row that the
change brings, where it is cached, and the cached rows that it leaves alone are stored. -/
theorem agrees_applyChange_iff (tidy : cache.Tidy) (agrees : cache.Agrees dialect store)
    {change : Change}
    (owned : ∀ after, change.after = some after → after.table.id = change.table ∧
      cache.database.tables[change.table]? = some after.table) :
    (Transaction.applyChange change cache).2.Agrees dialect working ↔
      (cache.caches change.table = true → ∀ after, change.after = some after →
        ∃ stored ∈ working change.table, after.table.Binds dialect after.values stored) ∧
      ∀ position keys row, cache.cached? position keys = some row →
        ¬ change.Touches position keys →
          ∃ stored ∈ working position, row.table.Binds dialect row.values stored := by
  have looked (position : Nat) (keys : Keys) :
      (Transaction.applyChange change cache).2.cached? position keys = _ :=
    cached?_applyChange tidy position keys
  constructor
  · intro agreesAfter
    constructor
    · intro isCached after isAfter
      have cached : (Transaction.applyChange change cache).2.cached? change.table after.keys =
          some after := by
        rw [looked, if_pos ⟨rfl, isCached⟩, Change.leaves, isAfter]
        exact if_pos rfl
      exact (agreesAfter _ _ _ cached).2.2.2
    · intro position keys row cached apart
      have stays : (Transaction.applyChange change cache).2.cached? position keys = some row := by
        rw [looked]
        split
        · next here =>
          obtain ⟨rfl, _⟩ := here
          rw [Change.leaves_of_not_touches apart, cached]
        · exact cached
      exact (agreesAfter _ _ _ stays).2.2.2
  · rintro ⟨brought, left⟩ position keys row cached
    rw [applyChange_database]
    have before (wasCached : cache.cached? position keys = some row)
        (apart : ¬ change.Touches position keys) := by
      obtain ⟨rowKeys, place, isOwned, _⟩ := agrees position keys row wasCached
      exact (⟨rowKeys, place, isOwned, left position keys row wasCached apart⟩ : _ ∧ _ ∧ _ ∧ _)
    rw [looked] at cached
    split at cached
    · next here =>
      obtain ⟨rfl, isCached⟩ := here
      rw [Change.leaves] at cached
      split at cached
      · next isAfter =>
        rw [cached] at isAfter
        obtain ⟨place, isOwned⟩ := owned row cached
        exact ⟨Option.some.inj isAfter, place, isOwned, brought isCached row cached⟩
      · next notAfter =>
        split at cached
        · cases cached
        · next notBefore =>
          exact before cached fun touches => touches.2.elim notAfter notBefore
    · next elsewhere =>
      refine before cached fun touches => elsewhere ⟨touches.1.symm, ?_⟩
      exact tidy position keys row cached

/-- After an insertion the caches agree again. -/
theorem Agrees.insert (agrees : cache.Agrees dialect store) (tidy : cache.Tidy) (row : Row)
    (owned : cache.database.tables[row.table.id]? = some row.table) {kind : ChangeKind}
    (more : ∀ position, ∀ stored ∈ store position, stored ∈ working position)
    (isStored : ∃ stored ∈ working row.table.id, row.table.Binds dialect row.values stored) :
    (Transaction.applyChange { kind, table := row.table.id, before := none, after := some row }
      cache).2.Agrees dialect working := by
  rw [agrees_applyChange_iff tidy agrees]
  · constructor
    · rintro _ _ ⟨⟩
      exact isStored
    · intro position keys other cached _
      exact (agrees.mono more position keys other cached).2.2.2
  · rintro _ ⟨⟩
    exact ⟨rfl, owned⟩

/-- The cached rows that a change leaves alone are all stored after it, if and only if a stored
row that is written stays as it is where one of them stands for it. -/
private theorem left_iff (agrees : cache.Agrees dialect store) {change : Change}
    (written : List Value → Bool)
    (others : ∀ position, position ≠ change.table → working position = store position)
    (unwritten : ∀ stored ∈ store change.table, written stored = false →
      stored ∈ working change.table) :
    (∀ position keys row, cache.cached? position keys = some row →
      ¬ change.Touches position keys →
        ∃ stored ∈ working position, row.table.Binds dialect row.values stored) ↔
      ∀ stored ∈ store change.table, written stored = true → ∀ keys other,
        cache.cached? change.table keys = some other → ¬ change.Touches change.table keys →
          other.table.Binds dialect other.values stored → stored ∈ working change.table := by
  constructor
  · intro left stored _ _ keys other cached apart binds
    obtain ⟨still, isStill, bindsStill⟩ := left _ keys other cached apart
    exact binds.unique bindsStill ▸ isStill
  · intro stay position keys other cached apart
    obtain ⟨_, _, _, stored, membership, binds⟩ := agrees position keys other cached
    refine ⟨stored, ?_, binds⟩
    by_cases here : position = change.table
    · subst here
      cases isWritten : written stored with
      | false => exact unwritten stored membership isWritten
      | true => exact stay stored membership isWritten keys other cached apart binds
    · exact others position here ▸ membership

private theorem touches_delete_iff {row : Row} {keys : Keys} :
    Change.Touches { kind := .delete, table := row.table.id, before := some row, after := none }
      row.table.id keys ↔ keys = row.keys := by
  simp [Change.Touches, eq_comm]

private theorem touches_update_iff {row after : Row} {keys : Keys} :
    Change.Touches
        { kind := .update, table := row.table.id, before := some row, after := some after }
        row.table.id keys ↔ keys = after.keys ∨ keys = row.keys := by
  simp [Change.Touches, eq_comm]

/-- After a deletion the caches agree if and only if no row cached under other keys stood for
a deleted one. -/
theorem agrees_delete_iff (agrees : cache.Agrees dialect store) (tidy : cache.Tidy) {row : Row}
    {execution : Execution}
    (deleted : row.table.Deleted dialect row.keys execution (store row.table.id)
      (working row.table.id))
    (others : ∀ position, position ≠ row.table.id → working position = store position) :
    (Transaction.applyChange
        { kind := .delete, table := row.table.id, before := some row, after := none }
        cache).2.Agrees dialect working ↔
      ∀ stored ∈ store row.table.id, row.table.names dialect row.keys stored = true →
        ∀ keys other, cache.cached? row.table.id keys = some other → keys ≠ row.keys →
          ¬ other.table.Binds dialect other.values stored := by
  have still (stored : List Value) : stored ∈ working row.table.id ↔
      stored ∈ store row.table.id ∧ row.table.names dialect row.keys stored = false := by
    rw [deleted.rows, List.mem_filter, Bool.not_eq_true']
  rw [agrees_applyChange_iff tidy agrees (fun after isAfter => by cases isAfter),
    left_iff agrees (row.table.names dialect row.keys) others fun stored membership apart =>
      (still stored).mpr ⟨membership, apart⟩]
  constructor
  · rintro ⟨_, stay⟩ stored membership named keys other cached apart binds
    have isStill := stay stored membership named keys other cached
      (fun touches => apart (touches_delete_iff.mp touches)) binds
    exact absurd named (by simp [((still stored).mp isStill).2])
  · intro none
    refine ⟨by rintro _ _ ⟨⟩, ?_⟩
    intro stored membership named keys other cached apart binds
    refine absurd binds (none stored membership named keys other cached fun same => ?_)
    exact apart (touches_delete_iff.mpr same)

/-- After an update the caches agree if and only if the updated row, where its table is
cached, had the values that were stored in all columns that are not written, and no row
cached under other keys stood for the stored row, unless the update changes nothing. -/
theorem agrees_update_iff (agrees : cache.Agrees dialect store) (tidy : cache.Tidy)
    {draft : DraftRow} {row after : Row} {execution : Execution} (edits : draft.Edits row)
    (sameTable : after.table = row.table) (sameValues : after.values = draft.values)
    (owned : cache.database.tables[row.table.id]? = some row.table) {place : Nat}
    (placed : row.table.Placed place) (width : row.values.length = row.table.columns.length)
    (storedWidth : ∀ stored ∈ store row.table.id, stored.length = row.table.columns.length)
    (distinct : row.table.DistinctKeys (store row.table.id))
    (updated : row.table.Updated dialect row.keys draft.changes execution (store row.table.id)
      (working row.table.id))
    (affected : execution.affected ≠ 0)
    (others : ∀ position, position ≠ row.table.id → working position = store position) :
    (Transaction.applyChange
        { kind := .update, table := row.table.id, before := some row, after := some after }
        cache).2.Agrees dialect working ↔
      ∀ stored ∈ store row.table.id, row.table.names dialect row.keys stored = true →
        (cache.caches row.table.id = true →
          row.table.BindsBut draft.changedColumns dialect row.values stored) ∧
        ∀ keys other, cache.cached? row.table.id keys = some other → keys ≠ row.keys →
          keys ≠ after.keys → other.table.Binds dialect other.values stored →
            row.table.Overwrites dialect draft.changes stored stored := by
  obtain ⟨table, isStored, values, changed⟩ := draft
  obtain rfl : table = row.table := edits.table
  obtain ⟨old, isOld, named⟩ := updated.found affected
  have bindsAfter : (∃ new ∈ working row.table.id, after.table.Binds dialect after.values new) ↔
      row.table.BindsBut (DraftRow.changedColumns ⟨row.table, isStored, values, changed⟩) dialect
        row.values old := by
    rw [sameTable, sameValues]
    exact updated.binds_iff isOld named placed edits width (storedWidth old isOld)
  have stillStored := updated.kept_iff isOld named placed edits width distinct
  have unique (stored : List Value) (membership : stored ∈ store row.table.id)
      (isNamed : row.table.names dialect row.keys stored = true) : stored = old :=
    distinct.eq_of_names placed membership isOld isNamed named
  rw [agrees_applyChange_iff tidy agrees (by
      rintro _ ⟨⟩
      exact ⟨congrArg Table.id sameTable, sameTable ▸ owned⟩),
    left_iff agrees (row.table.names dialect row.keys) others fun stored membership apart =>
      updated.untouched membership apart]
  constructor
  · rintro ⟨brought, stay⟩ stored membership isNamed
    obtain rfl := unique stored membership isNamed
    refine ⟨fun isCached => bindsAfter.mp (brought isCached after rfl), ?_⟩
    intro keys other cached notBefore notAfter binds
    refine stillStored.mp (stay stored membership isNamed keys other cached (fun touches => ?_) binds)
    rcases touches_update_iff.mp touches with isAfter | isBefore
    · exact notAfter isAfter
    · exact notBefore isBefore
  · intro sound
    obtain ⟨fresh, alone⟩ := sound old isOld named
    refine ⟨fun isCached _ isAfter => ?_, ?_⟩
    · cases isAfter
      exact bindsAfter.mpr (fresh isCached)
    · intro stored membership isNamed keys other cached apart binds
      obtain rfl := unique stored membership isNamed
      refine stillStored.mpr (alone keys other cached ?_ ?_ binds)
      · exact fun same => apart (touches_update_iff.mpr (.inr same))
      · exact fun same => apart (touches_update_iff.mpr (.inl same))

/-- While changes are pending, caches that have grown agree with the store that the changes
have led to, if and only if no row was added, under keys that the changes do not touch, that
stands for a stored row which is no longer there. -/
theorem agrees_grown_iff {grown : DatabaseCache} {changes : List Change} (tidy : cache.Tidy)
    (grownTidy : grown.Tidy) (database : grown.database = cache.database)
    (caches : ∀ position, grown.caches position = cache.caches position)
    (kept : ∀ position keys row, cache.cached? position keys = some row →
      grown.cached? position keys = some row)
    (agrees : grown.Agrees dialect store)
    (pending : (cache.withChanges changes).Agrees dialect working) :
    (grown.withChanges changes).Agrees dialect working ↔
      ∀ position keys row stored, cache.cached? position keys = none →
        grown.cached? position keys = some row → (∀ change ∈ changes, ¬ change.Touches position keys) →
          stored ∈ store position → row.table.Binds dialect row.values stored →
            stored ∈ working position := by
  constructor
  · intro agreesAfter position keys row stored _ cached apart _ binds
    have untouched := cached?_withChanges_of_untouched grownTidy apart
    obtain ⟨_, _, _, still, isStill, bindsStill⟩ :=
      agreesAfter position keys row (untouched.trans cached)
    exact binds.unique bindsStill ▸ isStill
  · intro sound position keys row cached
    rw [withChanges_database, database]
    have before (wasCached : (cache.withChanges changes).cached? position keys = some row) := by
      have agreed := pending position keys row wasCached
      rwa [withChanges_database] at agreed
    by_cases touched : ∃ change ∈ changes, change.Touches position keys
    · refine before ?_
      rw [← cached?_withChanges_congr tidy grownTidy (caches position) (.inl touched)]
      exact cached
    · have apart : ∀ change ∈ changes, ¬ change.Touches position keys := fun change membership touches =>
        touched ⟨change, membership, touches⟩
      rw [cached?_withChanges_of_untouched grownTidy apart] at cached
      cases wasCached : cache.cached? position keys with
      | none =>
        obtain ⟨rowKeys, place, owned, stored, membership, binds⟩ := agrees position keys row cached
        rw [database] at owned
        exact ⟨rowKeys, place, owned, stored,
          sound position keys row stored wasCached cached apart membership binds, binds⟩
      | some earlier =>
        refine before ?_
        rw [cached?_withChanges_of_untouched tidy apart, ← cached, wasCached]
        exact (kept position keys earlier wasCached).symm

end

end DatabaseCache

end RelationalAccess
