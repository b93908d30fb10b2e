import RelationalAccess.DataSource.Reading
import RelationalAccess.Proofs.Cache.Source
import RelationalAccess.Proofs.Lists
import RelationalAccess.Proofs.Sql.Binding

/-!
What a backend stores, and what it means that it carries out statements exactly. A
query finds committed rows only, also while a transaction is open.
-/

namespace RelationalAccess

/-- The stored rows of each table, by the position of the table. -/
abbrev Store := Nat → List (List Value)

/-- Stored rows are as wide as their table, and no two have the same primary key. -/
structure Table.Fits (table : Table) (rows : List (List Value)) : Prop where
  width : ∀ stored ∈ rows, stored.length = table.columns.length
  distinct : table.hasPrimaryKey = true → table.DistinctKeys rows

/-- The stored rows of all tables fit. -/
def Store.Fits (store : Store) (database : Database) : Prop :=
  ∀ (position : Nat) (table : Table), database.tables[position]? = some table →
    table.Fits (store position)

theorem Store.Fits.exchange {store working : Store} {database : Database} (fits : store.Fits database)
    {table : Table} (owned : database.tables[table.id]? = some table)
    (others : ∀ position, position ≠ table.id → working position = store position)
    (here : table.Fits (working table.id)) : working.Fits database := by
  intro position other found
  by_cases same : position = table.id
  · subst same
    obtain rfl := Option.some.inj (owned.symm.trans found)
    exact here
  · rw [others position same]
    exact fits position other found

namespace Table

/-- The stored rows of a table after an insertion that was carried out. -/
def Inserted (dialect : Dialect) (table : Table) (values : List Value) (execution : Execution)
    (before after : List (List Value)) : Prop :=
  ∃ stored, after = before ++ [stored] ∧ table.Inserts dialect values execution stored ∧
    (table.hasPrimaryKey = true → ∀ other ∈ before, table.keysOf other ≠ table.keysOf stored)

/-- The stored rows of a table after an update that was carried out. -/
structure Updated (dialect : Dialect) (table : Table) (keys : Keys) (changes : List (Nat × Value))
    (execution : Execution) (before after : List (List Value)) : Prop where
  rows : before.Forall₂
    (fun old new => if table.names dialect keys old = true
      then table.Overwrites dialect changes old new else new = old) after
  distinct : table.DistinctKeys after
  missed : execution.affected = 0 → after = before
  found : execution.affected ≠ 0 → ∃ stored ∈ before, table.names dialect keys stored = true

/-- The stored rows of a table after a deletion that was carried out. -/
structure Deleted (dialect : Dialect) (table : Table) (keys : Keys) (execution : Execution)
    (before after : List (List Value)) : Prop where
  rows : after = before.filter fun stored => !table.names dialect keys stored
  missed : execution.affected = 0 → after = before

section

variable {dialect : Dialect} {table : Table} {execution : Execution}
  {before after : List (List Value)}

/-- Of rows with distinct keys no two are named by the same. -/
theorem DistinctKeys.eq_of_names (distinct : table.DistinctKeys before) {place : Nat}
    (placed : table.Placed place) {values first second : List Value} (isFirst : first ∈ before)
    (isSecond : second ∈ before) (named : table.names dialect (table.keysOf values) first = true)
    (namedToo : table.names dialect (table.keysOf values) second = true) : first = second :=
  distinct.eq_of_keysOf isFirst isSecond (keysOf_of_names placed named namedToo)

theorem Inserted.fits {values : List Value}
    (inserted : table.Inserted dialect values execution before after) (fits : table.Fits before) :
    table.Fits after := by
  obtain ⟨stored, rfl, inserts, fresh⟩ := inserted
  constructor
  · intro row membership
    rcases List.mem_append.mp membership with isOld | isNew
    · exact fits.width row isOld
    · rw [List.mem_singleton.mp isNew]
      exact inserts.storedWidth
  · intro hasKey
    have nodup := fits.distinct hasKey
    rw [DistinctKeys, List.map_append, List.map_singleton]
    refine List.nodup_append.mpr ⟨nodup, List.nodup_singleton _, ?_⟩
    intro keys isOld other isNew same
    obtain ⟨row, membership, rfl⟩ := List.mem_map.mp isOld
    exact fresh hasKey row membership (same.trans (List.mem_singleton.mp isNew))

theorem Inserted.stored {values : List Value}
    (inserted : table.Inserted dialect values execution before after) :
    ∃ stored ∈ after, table.Inserts dialect values execution stored := by
  obtain ⟨stored, rfl, inserts, _⟩ := inserted
  exact ⟨stored, List.mem_append_right _ (List.mem_singleton_self _), inserts⟩

theorem Inserted.more {values : List Value}
    (inserted : table.Inserted dialect values execution before after) {stored : List Value}
    (membership : stored ∈ before) : stored ∈ after := by
  obtain ⟨_, rfl, _⟩ := inserted
  exact List.mem_append_left _ membership

theorem Deleted.fits {keys : Keys} (deleted : table.Deleted dialect keys execution before after)
    (fits : table.Fits before) : table.Fits after := by
  rw [deleted.rows]
  constructor
  · intro row membership
    exact fits.width row (List.mem_of_mem_filter membership)
  · intro hasKey
    exact (fits.distinct hasKey).sublist (List.filter_sublist.map _)

theorem Updated.fits {keys : Keys} {changes : List (Nat × Value)}
    (updated : table.Updated dialect keys changes execution before after)
    (fits : table.Fits before) : table.Fits after := by
  refine ⟨fun row membership => ?_, fun _ => updated.distinct⟩
  obtain ⟨old, isOld, related⟩ := counterpart_left updated.rows membership
  have width := fits.width old isOld
  split at related
  · exact related.width.trans width
  · exact related ▸ width

theorem Updated.untouched {keys : Keys} {changes : List (Nat × Value)}
    (updated : table.Updated dialect keys changes execution before after) {stored : List Value}
    (membership : stored ∈ before) (apart : table.names dialect keys stored = false) :
    stored ∈ after := by
  obtain ⟨new, found, related⟩ := counterpart_right updated.rows membership
  rw [apart] at related
  exact related ▸ found

variable {draft : DraftRow} {row : Row}
  (updated : draft.table.Updated dialect (draft.table.keysOf row.values) draft.changes execution
    before after)
  {stored : List Value} (membership : stored ∈ before)
  (named : draft.table.names dialect (draft.table.keysOf row.values) stored = true)

include updated membership named

private theorem Updated.overwritten :
    ∃ new ∈ after, draft.table.Overwrites dialect draft.changes stored new := by
  obtain ⟨new, found, related⟩ := counterpart_right updated.rows membership
  rw [named, if_pos rfl] at related
  exact ⟨new, found, related⟩

variable {place : Nat} (placed : draft.table.Placed place) (edits : draft.Edits row)
  (width : row.values.length = draft.table.columns.length)

include placed edits width

/-- The updated row is stored with the values of the draft, if and only if the edited row had
the values that were stored in all columns that are not written. -/
theorem Updated.binds_iff (storedWidth : stored.length = draft.table.columns.length) :
    (∃ new ∈ after, draft.table.Binds dialect draft.values new) ↔
      draft.table.BindsBut draft.changedColumns dialect row.values stored := by
  obtain ⟨new, isNew, overwrites⟩ := updated.overwritten membership named
  rw [← edits.binds_iff width storedWidth overwrites]
  constructor
  · rintro ⟨other, isOther, binds⟩
    have same := updated.distinct.eq_of_names placed isOther isNew binds.names
      (edits.names_overwritten named overwrites)
    exact same ▸ binds
  · intro binds
    exact ⟨new, isNew, binds⟩

/-- A stored row that is named is still stored, if and only if the update changes nothing. -/
theorem Updated.kept_iff (distinct : draft.table.DistinctKeys before) :
    stored ∈ after ↔ draft.table.Overwrites dialect draft.changes stored stored := by
  constructor
  · intro still
    obtain ⟨old, isOld, related⟩ := counterpart_left updated.rows still
    split at related
    · next namedOld =>
      have same := distinct.eq_of_names placed isOld membership namedOld named
      exact same ▸ related
    · next notNamed =>
      exact absurd (related ▸ named) notNamed
  · intro nothing
    obtain ⟨new, isNew, overwrites⟩ := updated.overwritten membership named
    have inside (change : Nat × Value) (isChange : change ∈ draft.changes) :
        change.1 < draft.table.columns.length := by
      rw [← width]
      exact edits.changes_inside isChange
    exact nothing.unique inside overwrites ▸ isNew

end

end Table

/-- What a backend stores: what is committed, and what the open transaction sees. -/
structure Ledger (World : Type) where
  committed : World → Store
  working : World → Store

namespace Ledger

variable {World : Type} (ledger : Ledger World)

/-- A world stores what another does. -/
structure Same (world other : World) : Prop where
  committed : ledger.committed other = ledger.committed world
  working : ledger.working other = ledger.working world

theorem Same.refl (world : World) : ledger.Same world world := ⟨rfl, rfl⟩

theorem Same.trans {ledger : Ledger World} {first second third : World}
    (earlier : ledger.Same first second) (later : ledger.Same second third) :
    ledger.Same first third :=
  ⟨later.committed.trans earlier.committed, later.working.trans earlier.working⟩

/-- A row stands for a committed row of its table. -/
def Holds (dialect : Dialect) (world : World) (row : Row) : Prop :=
  ∃ stored ∈ ledger.committed world row.table.id, row.table.Binds dialect row.values stored

/-- The answer to a statement that changes the rows of one table: they are changed as it
says, and nothing is where it fails. -/
def Carries (position : Nat) (effect : Execution → List (List Value) → List (List Value) → Prop)
    (world : World) : Except Error Execution × World → Prop
  | (.ok execution, after) =>
    ledger.committed after = ledger.committed world ∧
      (∀ other, other ≠ position → ledger.working after other = ledger.working world other) ∧
      effect execution (ledger.working world position) (ledger.working after position)
  | (.error _, after) => ledger.Same world after

/-- The answer to the start of a transaction: it sees what is committed. -/
def Begins {α : Type} (world : World) : Except Error α × World → Prop
  | (.ok _, after) => ledger.committed after = ledger.committed world ∧
      ledger.working after = ledger.committed world
  | (.error _, after) => ledger.committed after = ledger.committed world

/-- The answer to a commit: what the transaction sees is committed, or nothing of it is. -/
def Commits (world : World) : Except Error Unit × World → Prop
  | (.ok _, after) => ledger.committed after = ledger.working world
  | (.error _, after) => ledger.committed after = ledger.committed world

end Ledger

/-- A backend answers queries from the committed rows, and stores nothing meanwhile. What a
row of the answer is read as is bound to the form in which the row is stored. -/
structure Backend.Serves {World : Type} (backend : Backend World) (ledger : Ledger World)
    (database : Database) (dialect : Dialect) : Prop where
  unmoved : ∀ statement world, ledger.Same world (backend.query statement world).2
  stored : ∀ (query : Query) (statement : Statement) (world after : World)
    (result : List (List Value)), query.projection = .all →
    database.tables[query.table.id]? = some query.table → query.statement dialect = .ok statement →
    backend.query statement world = (.ok result, after) → ∀ raw ∈ result, ∀ values,
      DataSource.readValues dialect query.table.columns raw = .ok values →
      values.length = query.table.columns.length →
        ∃ stored ∈ ledger.committed world query.table.id, query.table.Binds dialect values stored

end RelationalAccess
