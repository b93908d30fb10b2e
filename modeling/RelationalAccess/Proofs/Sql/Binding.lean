import Mathlib.Data.List.GetD
import RelationalAccess.Backend
import RelationalAccess.Proofs.Lists
import RelationalAccess.Proofs.Outcome
import RelationalAccess.Proofs.Schema.Placement
import RelationalAccess.Row.Draft
import RelationalAccess.Sql.Changing

/-!
Rows as an engine stores them: each value in the form in which it is bound. What
statements do to stored rows is said of these forms.
-/

namespace RelationalAccess

namespace Table

/-- A stored row has the values of a row, in the form in which they are bound. -/
structure Binds (dialect : Dialect) (table : Table) (values stored : List Value) : Prop where
  width : values.length = table.columns.length
  storedWidth : stored.length = table.columns.length
  bound : ∀ (position : Nat) (column : Column), table.columns[position]? = some column →
    dialect.write column (values.getD position .null) = .ok (stored.getD position .null)

/-- A stored row has the values of a row in all columns but those at some positions. -/
def BindsBut (positions : List Nat) (dialect : Dialect) (table : Table) (values stored : List Value) :
    Prop :=
  ∀ (position : Nat) (column : Column), table.columns[position]? = some column →
    position ∉ positions →
      dialect.write column (values.getD position .null) = .ok (stored.getD position .null)

/-- Whether a stored row is one that some keys name. -/
def names (dialect : Dialect) (table : Table) (keys : Keys) (stored : List Value) : Bool :=
  (table.primaryKeys.zip keys.values).all fun (position, value) =>
    (table.columns[position]?).all fun column =>
      (dialect.write column value).toOption = some (stored.getD position .null)

/-- A stored row after an update: the columns that are set have the bound forms of their
new values, and the others what they had. -/
structure Overwrites (dialect : Dialect) (table : Table) (changes : List (Nat × Value))
    (old new : List Value) : Prop where
  width : new.length = old.length
  written : ∀ change ∈ changes, ∀ column, table.columns[change.1]? = some column →
    dialect.write column change.2 = .ok (new.getD change.1 .null)
  kept : ∀ position, position ∉ changes.map Prod.fst →
    new.getD position .null = old.getD position .null

/-- A stored row after its insertion. A column that the engine numbers and that is not
given has the number that the engine reports. -/
structure Inserts (dialect : Dialect) (table : Table) (values : List Value) (execution : Execution)
    (stored : List Value) : Prop where
  storedWidth : stored.length = table.columns.length
  given : ∀ (position : Nat) (column : Column), table.columns[position]? = some column →
    ¬ (column.autoIncrement = true ∧ values.getD position .null = .null) →
      dialect.write column (values.getD position .null) = .ok (stored.getD position .null)
  numbered : ∀ (position : Nat) (column : Column), table.columns[position]? = some column →
    column.autoIncrement = true → values.getD position .null = .null →
      ∀ number, execution.insertedKey = some number →
        dialect.write column (.int number) = .ok (stored.getD position .null)

section

variable {dialect : Dialect} {table : Table} {values stored : List Value}

/-- The values of a row are stored in one form only. -/
theorem Binds.unique (binds : table.Binds dialect values stored) {other : List Value}
    (otherBinds : table.Binds dialect values other) : stored = other := by
  refine ext_getD .null (binds.storedWidth.trans otherBinds.storedWidth.symm) fun position inside => ?_
  have found := List.getElem?_eq_getElem (binds.storedWidth ▸ inside : position < table.columns.length)
  have both := (binds.bound position _ found).symm.trans (otherBinds.bound position _ found)
  exact Except.ok.inj both

/-- A stored row is overwritten in one way only. -/
theorem Overwrites.unique {changes : List (Nat × Value)} {old first second : List Value}
    (inside : ∀ change ∈ changes, change.1 < table.columns.length)
    (one : table.Overwrites dialect changes old first)
    (other : table.Overwrites dialect changes old second) : first = second := by
  refine ext_getD .null (one.width.trans other.width.symm) fun position _ => ?_
  by_cases changed : position ∈ changes.map Prod.fst
  · obtain ⟨change, membership, rfl⟩ := List.mem_map.mp changed
    have found := List.getElem?_eq_getElem (inside change membership)
    have both := (one.written change membership _ found).symm.trans
      (other.written change membership _ found)
    exact Except.ok.inj both
  · exact (one.kept position changed).trans (other.kept position changed).symm

theorem names_keysOf :
    table.names dialect (table.keysOf values) stored = true ↔
      ∀ position ∈ table.primaryKeys, ∀ column, table.columns[position]? = some column →
        dialect.write column (values.getD position .null) = .ok (stored.getD position .null) := by
  have zipped : table.primaryKeys.zip (table.keysOf values).values =
      table.primaryKeys.map fun position => (position, values.getD position .null) := by
    exact List.map_prod_left_eq_zip.symm
  rw [names, zipped, List.all_map, List.all_eq_true]
  refine forall₂_congr fun position _ => ?_
  show (table.columns[position]?).all _ = true ↔ _
  cases table.columns[position]? with
  | none => simp
  | some column =>
    show decide _ = true ↔ _
    rw [decide_eq_true_eq, toOption_eq_some_iff]
    simp

/-- The keys of a row name the stored row that has its values. -/
theorem Binds.names (binds : table.Binds dialect values stored) :
    table.names dialect (table.keysOf values) stored = true :=
  names_keysOf.mpr fun position _ column found => binds.bound position column found

/-- Stored rows that the same keys name have the same stored keys. -/
theorem keysOf_of_names {place : Nat} (placed : table.Placed place) {other : List Value}
    (named : table.names dialect (table.keysOf values) stored = true)
    (otherNamed : table.names dialect (table.keysOf values) other = true) :
    table.keysOf stored = table.keysOf other := by
  refine congrArg Keys.mk (List.map_congr_left fun position key => ?_)
  have found := List.getElem?_eq_getElem (placed.keys position key)
  exact Except.ok.inj ((names_keysOf.mp named position key _ found).symm.trans
    (names_keysOf.mp otherNamed position key _ found))

end

end Table

/-- Only rows of tables with a primary key are updated. -/
theorem Statement.hasPrimaryKey_of_update {dialect : Dialect} {table : Table} {keys : Keys}
    {changes : List (Nat × Value)} {statement : Statement}
    (isUpdate : Statement.update dialect table keys changes = .ok statement) :
    table.hasPrimaryKey = true := by
  cases hasKey : table.hasPrimaryKey with
  | true => rfl
  | false =>
    have refused : rowFilter table keys = .error (.unusableKeys keys table.name) := by
      simp [rowFilter, hasKey]
    unfold Statement.update updatePieces at isUpdate
    rw [refused] at isUpdate
    split at isUpdate
    · cases isUpdate
    · cases assigned : changes.mapM (assignment dialect table) with
      | error refusal =>
        rw [assigned] at isUpdate
        cases isUpdate
      | ok assignments =>
        rw [assigned] at isUpdate
        cases isUpdate

namespace DraftRow

/-- A draft changes a stored row in the columns it marks as changed, and in no others. -/
structure Edits (draft : DraftRow) (row : Row) : Prop where
  stored : draft.stored = some row
  table : draft.table = row.table
  width : draft.values.length = row.values.length
  flags : draft.changed.length = row.values.length
  kept : ∀ position, draft.changed.getD position false = false →
    draft.values.getD position .null = row.values.getD position .null

theorem ofRow_edits (row : Row) : (ofRow row).Edits row where
  stored := rfl
  table := rfl
  width := rfl
  flags := by simp [ofRow]
  kept _ _ := rfl

theorem Edits.setAt {draft : DraftRow} {row : Row} (edits : draft.Edits row) (position : Nat)
    (value : Value) : (draft.setAt position value).Edits row where
  stored := edits.stored
  table := edits.table
  width := by simp [DraftRow.setAt, edits.width]
  flags := by simp [DraftRow.setAt, edits.flags]
  kept other unmarked := by
    by_cases same : position = other
    · subst same
      by_cases inside : position < draft.changed.length
      · simp [DraftRow.setAt, inside] at unmarked
      · have beyond : draft.values.length ≤ position := by
          rw [edits.width, ← edits.flags]
          exact Nat.le_of_not_lt inside
        have wasUnmarked : draft.changed.getD position false = false :=
          List.getD_eq_default _ _ (Nat.le_of_not_lt inside)
        rw [← edits.kept position wasUnmarked, DraftRow.setAt, List.set_eq_of_length_le beyond]
    · have wasUnmarked : draft.changed.getD other false = false := by
        simpa [DraftRow.setAt, List.getElem?_set, same] using unmarked
      rw [← edits.kept other wasUnmarked]
      simp [DraftRow.setAt, same]

/-- What is set in a draft: a value at a position, as its column accepts it, or nothing. -/
theorem set_cases {draft edited : DraftRow} {name : String} {value : Value}
    (isSet : draft.set name value = .ok edited) :
    edited = draft ∨ ∃ position column taken, draft.table.columns[position]? = some column ∧
      column.accept value = .ok taken ∧ edited = draft.setAt position taken := by
  unfold DraftRow.set at isSet
  split at isSet
  · cases isSet
  · split at isSet
    · cases isSet
    · next column found =>
      obtain ⟨taken, isAccepted, made⟩ := ok_of_bind isSet
      obtain rfl := Except.ok.inj made
      split
      · exact .inl rfl
      · exact .inr ⟨_, column, taken, found, ok_of_mapError isAccepted, rfl⟩

/-- Whatever is set in the draft of a row, the draft edits the row. -/
theorem Edits.setAll {draft edited : DraftRow} {row : Row} (edits : draft.Edits row)
    {assignments : List (String × Value)} (isSet : draft.setAll assignments = .ok edited) :
    edited.Edits row := by
  have step (before : DraftRow) (assignment : String × Value) (after : DraftRow)
      (holds : before.Edits row) (taken : before.set assignment.1 assignment.2 = .ok after) :
      after.Edits row := by
    rcases set_cases taken with rfl | ⟨position, _, value, _, _, rfl⟩
    · exact holds
    · exact holds.setAt position value
  exact foldlM_keeps step edits isSet

/-- Whatever is set in a draft, it stays a draft of its table and of its stored row. -/
theorem setAll_keeps {draft edited : DraftRow} {assignments : List (String × Value)}
    (isSet : draft.setAll assignments = .ok edited) :
    edited.table = draft.table ∧ edited.stored = draft.stored := by
  have step (before : DraftRow) (assignment : String × Value) (after : DraftRow)
      (holds : before.table = draft.table ∧ before.stored = draft.stored)
      (taken : before.set assignment.1 assignment.2 = .ok after) :
      after.table = draft.table ∧ after.stored = draft.stored := by
    rcases set_cases taken with rfl | ⟨position, _, value, _, _, rfl⟩
    · exact holds
    · exact holds
  exact foldlM_keeps step ⟨rfl, rfl⟩ isSet

/-- A draft has one value for each column. -/
def IsWhole (draft : DraftRow) : Prop := draft.values.length = draft.table.columns.length

theorem new_isWhole (table : Table) : (new table).IsWhole := by
  simp [IsWhole, new]

theorem IsWhole.setAt {draft : DraftRow} (whole : draft.IsWhole) (position : Nat) (value : Value) :
    (draft.setAt position value).IsWhole :=
  List.length_set.trans whole

/-- Whatever is set in a whole draft, it stays whole. -/
theorem IsWhole.setAll {draft edited : DraftRow} (whole : draft.IsWhole)
    {assignments : List (String × Value)} (isSet : draft.setAll assignments = .ok edited) :
    edited.IsWhole := by
  have step (before : DraftRow) (assignment : String × Value) (after : DraftRow)
      (holds : before.IsWhole) (taken : before.set assignment.1 assignment.2 = .ok after) :
      after.IsWhole := by
    rcases set_cases taken with rfl | ⟨position, _, value, _, _, rfl⟩
    · exact holds
    · exact holds.setAt position value
  exact foldlM_keeps step whole isSet

theorem mem_changedColumns {draft : DraftRow} {position : Nat} :
    position ∈ draft.changedColumns ↔ draft.changed.getD position false = true := by
  have marked : draft.changed.getD position false = true ↔ draft.changed[position]? = some true := by
    rw [List.getD_eq_getElem?_getD]
    cases draft.changed[position]? with
    | none => simp
    | some flag => simp
  rw [marked, changedColumns, List.mem_map]
  constructor
  · rintro ⟨⟨flag, index⟩, kept, rfl⟩
    obtain ⟨inside, isMarked⟩ := List.mem_filter.mp kept
    rw [List.mem_zipIdx_iff_getElem?] at inside
    exact inside.trans (congrArg some isMarked)
  · intro found
    exact ⟨(true, position), List.mem_filter.mpr ⟨List.mem_zipIdx_iff_getElem?.mpr found, rfl⟩, rfl⟩

theorem Edits.changes_inside {draft : DraftRow} {row : Row} (edits : draft.Edits row)
    {change : Nat × Value} (isChange : change ∈ draft.changes) : change.1 < row.values.length := by
  obtain ⟨position, changed, rfl⟩ := List.mem_map.mp isChange
  rw [mem_changedColumns] at changed
  rw [← edits.flags]
  refine Nat.lt_of_not_le fun beyond => ?_
  rw [List.getD_eq_default _ _ beyond] at changed
  cases changed

private theorem written {draft : DraftRow} {dialect : Dialect} {old new : List Value}
    (overwrites : draft.table.Overwrites dialect draft.changes old new) {position : Nat}
    (changed : position ∈ draft.changedColumns) {column : Column}
    (found : draft.table.columns[position]? = some column) :
    dialect.write column (draft.values.getD position .null) = .ok (new.getD position .null) :=
  overwrites.written (position, draft.values.getD position .null)
    (List.mem_map.mpr ⟨position, changed, rfl⟩) column found

private theorem Edits.unwritten {draft : DraftRow} {row : Row} (edits : draft.Edits row)
    {dialect : Dialect} {old new : List Value}
    (overwrites : draft.table.Overwrites dialect draft.changes old new) {position : Nat}
    (notChanged : position ∉ draft.changedColumns) :
    draft.values.getD position .null = row.values.getD position .null ∧
      new.getD position .null = old.getD position .null := by
  have positions : draft.changes.map Prod.fst = draft.changedColumns := by
    simp [changes, Function.comp_def]
  refine ⟨edits.kept position ?_, overwrites.kept position (positions ▸ notChanged)⟩
  rw [mem_changedColumns] at notChanged
  simpa using notChanged

/-- The keys of a draft name the stored row that was overwritten with its changes. -/
theorem Edits.names_overwritten {draft : DraftRow} {row : Row} (edits : draft.Edits row)
    {dialect : Dialect} {old new : List Value}
    (named : draft.table.names dialect (draft.table.keysOf row.values) old = true)
    (overwrites : draft.table.Overwrites dialect draft.changes old new) :
    draft.table.names dialect (draft.table.keysOf draft.values) new = true := by
  rw [Table.names_keysOf] at named ⊢
  intro position key column found
  by_cases changed : position ∈ draft.changedColumns
  · exact draft.written overwrites changed found
  · obtain ⟨sameDraft, sameStored⟩ := edits.unwritten overwrites changed
    rw [sameDraft, sameStored]
    exact named position key column found

/-- A stored row that was overwritten with the changes of a draft has the values of the
draft, if and only if it had those of the edited row in all other columns. -/
theorem Edits.binds_iff {draft : DraftRow} {row : Row} (edits : draft.Edits row) {dialect : Dialect}
    {old new : List Value} (width : row.values.length = draft.table.columns.length)
    (oldWidth : old.length = draft.table.columns.length)
    (overwrites : draft.table.Overwrites dialect draft.changes old new) :
    draft.table.Binds dialect draft.values new ↔
      draft.table.BindsBut draft.changedColumns dialect row.values old := by
  constructor
  · intro binds position column found notChanged
    obtain ⟨sameDraft, sameStored⟩ := edits.unwritten overwrites notChanged
    rw [← sameDraft, ← sameStored]
    exact binds.bound position column found
  · intro fresh
    refine ⟨edits.width.trans width, overwrites.width.trans oldWidth, fun position column found => ?_⟩
    by_cases changed : position ∈ draft.changedColumns
    · exact draft.written overwrites changed found
    · obtain ⟨sameDraft, sameStored⟩ := edits.unwritten overwrites changed
      rw [sameDraft, sameStored]
      exact fresh position column found changed

end DraftRow

end RelationalAccess
