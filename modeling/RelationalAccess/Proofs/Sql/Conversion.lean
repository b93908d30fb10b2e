import Mathlib.Data.List.GetD
import RelationalAccess.DataSource.Reading
import RelationalAccess.Proofs.Lists
import RelationalAccess.Proofs.Schema.Coherence
import RelationalAccess.Proofs.Sql.Selected

/-!
What is read for a column can be written again, for this column and for any other of the
same host type. So in a built database the queries by keys and by values that were read all
have a statement.
-/

namespace RelationalAccess

namespace Dialect

variable {dialect : Dialect} {column other : Column} {value bound raw : Value}

/-- Only texts are looked for among labels. -/
theorem checkWritten_of_ne_text (other : ∀ text, value ≠ .text text) :
    column.checkWritten value = .ok () := by
  unfold Column.checkWritten
  split
  · exact absurd rfl (other _)
  · rfl

theorem engine_isConcrete (dialect : Dialect) : dialect.engine ∈ Engine.concrete := by
  cases dialect <;> decide

/-- A column with a type can be given any value that is not a label it lacks. -/
theorem write_succeeds (typed : column.Typed dialect.engine)
    (isLabel : column.checkWritten value = .ok ()) : ∃ bound, dialect.write column value = .ok bound := by
  obtain ⟨type, isType, _⟩ := typed
  have required : column.requireType dialect.engine = .ok type := by
    rw [Column.requireType, isType]
  unfold write
  rw [isLabel]
  cases dialect with
  | mySql =>
    have required : column.requireType .mySql = .ok type := required
    rw [required]
    exact ⟨_, rfl⟩
  | mariaDb =>
    have required : column.requireType .mariaDb = .ok type := required
    rw [required]
    exact ⟨_, rfl⟩
  | sqlite =>
    have required : column.requireType .sqlite = .ok type := required
    cases value with
    | uuid uuid =>
      simp only [writeSqlite, required]
      exact ⟨_, rfl⟩
    | _ => exact ⟨_, rfl⟩

theorem toHost_of_read (isRead : dialect.read column raw = .ok value) :
    column.toHost raw = .ok value := by
  rw [read] at isRead
  exact ok_of_mapError isRead

/-- A text that is read for a column of labels is one of them. -/
theorem isLabel_of_read (isRead : dialect.read other raw = .ok value) (same : column.host = other.host) :
    column.checkWritten value = .ok () := by
  have isRead := toHost_of_read isRead
  unfold Column.checkWritten
  split
  · next labels text isLabelled _ =>
    have ofLabels : other.host = .labelled labels := same.symm.trans isLabelled
    suffices isListed : labels.contains text = true by rw [if_pos isListed]
    unfold Column.toHost at isRead
    rw [ofLabels] at isRead
    cases raw with
    | text given =>
      dsimp only [Column.checkLabel] at isRead
      split at isRead
      · next isListed =>
        cases isRead
        exact isListed
      · cases isRead
    | null =>
      dsimp only at isRead
      split at isRead <;> cases isRead
    | _ => simp at isRead
  · rfl

/-- What is read for a column and is not null is read for every column of its host type. -/
theorem toHost_of_host (same : other.host = column.host) (notNull : value ≠ .null)
    (isRead : column.toHost raw = .ok value) : other.toHost raw = .ok value := by
  have readable (found : Option Value) (isRead : column.readable found = .ok value) :
      other.readable found = .ok value := by
    cases found with
    | none => cases isRead
    | some item => exact isRead
  have labelled (labels : List String) (text : String)
      (isRead : column.checkLabel labels text = .ok value) :
      other.checkLabel labels text = .ok value := by
    unfold Column.checkLabel at isRead ⊢
    split at isRead
    · next isListed => rwa [if_pos isListed]
    · cases isRead
  unfold Column.toHost at isRead ⊢
  rw [same]
  split at isRead
  · split at isRead
    · exact absurd (Except.ok.inj isRead).symm notNull
    · cases isRead
  all_goals
    first
    | exact isRead
    | exact readable _ isRead
    | exact labelled _ _ isRead
    | cases isRead

/-- A text that may be unreadable is not read as null. -/
private theorem readable_ne_null {kind : Type} {found : Option kind} {wrap : kind → Value}
    (present : ∀ item, wrap item ≠ .null) : column.readable (found.map wrap) ≠ .ok .null := by
  cases found with
  | none => exact fun impossible => by cases impossible
  | some item => exact fun same => present item (Except.ok.inj same)

/-- Only null is read as null, and only for a column that is nullable. -/
theorem nullable_of_read_null (isRead : dialect.read column raw = .ok .null) :
    column.nullable = true := by
  have isRead := toHost_of_read isRead
  by_contra notNullable
  unfold Column.toHost at isRead
  split at isRead <;> try cases isRead
  · rw [if_neg notNullable] at isRead
    cases isRead
  · exact readable_ne_null (fun _ impossible => by cases impossible) isRead
  · exact readable_ne_null (fun _ impossible => by cases impossible) isRead
  · exact readable_ne_null (fun _ impossible => by cases impossible) isRead
  · exact readable_ne_null (fun _ impossible => by cases impossible) isRead
  · exact readable_ne_null (fun _ impossible => by cases impossible) isRead
  · unfold Column.checkLabel at isRead
    split at isRead <;> cases isRead
  · next notNull => exact notNull rfl

end Dialect

namespace DataSource

variable {dialect : Dialect} {columns : List Column} {raw values : List Value}

/-- What is read of a row is read column by column. -/
theorem read_getD (isRead : readValues dialect columns raw = .ok values)
    (width : values.length = columns.length) {position : Nat} {column : Column}
    (found : columns[position]? = some column) :
    ∃ returned, raw[position]? = some returned ∧
      dialect.read column returned = .ok (values.getD position .null) := by
  have each := mapM_eq_ok_iff.mp isRead
  have inside := (List.getElem?_eq_some_iff.mp found).1
  have zipped : position < (columns.zip raw).length := each.length_eq.symm ▸ width.symm ▸ inside
  have insideRaw : position < raw.length := by
    rw [List.length_zip] at zipped
    omega
  refine ⟨raw[position], List.getElem?_eq_getElem insideRaw, ?_⟩
  have here := each.get zipped (width.symm ▸ inside)
  simp only [List.get_eq_getElem, List.getElem_zip] at here
  rw [List.getD_eq_getElem _ _ (width.symm ▸ inside)]
  rw [List.getElem?_eq_getElem inside] at found
  exact Option.some.inj found ▸ here

/-- Where a row is read, so are its values in some of its columns. -/
theorem read_columnsAt {table : Table} (isRead : readValues dialect table.columns raw = .ok values)
    (width : values.length = table.columns.length) {positions : List Nat}
    (inside : ∀ position ∈ positions, position < table.columns.length) :
    readValues dialect (table.columnsAt positions)
      (positions.map fun position => raw.getD position .null) =
        .ok (positions.map fun position => values.getD position .null) := by
  refine mapM_eq_ok_iff.mpr ?_
  unfold Table.columnsAt
  induction positions with
  | nil => exact .nil
  | cons position others inductionHypothesis =>
    obtain ⟨insideNow, insideLater⟩ := List.forall_mem_cons.mp inside
    have found := List.getElem?_eq_getElem insideNow
    obtain ⟨returned, isReturned, isValue⟩ := read_getD isRead width found
    rw [List.filterMap_cons_some found, List.map_cons, List.map_cons, List.zip_cons_cons,
      List.getD_eq_getElem?_getD, isReturned, Option.getD_some]
    exact .cons isValue (inductionHypothesis insideLater)

end DataSource

namespace Filter

variable {dialect : Dialect} {table : Table}

/-- An equality can be written if its value can be written for its column. -/
private theorem equality_writable {position : Nat} {column : Column} {value : Value}
    (found : table.columns[position]? = some column)
    (written : ∃ bound, dialect.write column value = .ok bound) :
    ({ column := position, operator := .equal, operands := [value] } : Comparison).Writable
      dialect table := by
  refine ⟨column, found, fun operand isOperand => ?_⟩
  obtain rfl := List.mem_singleton.mp isOperand
  exact written

/-- A filter of one value can be written if the value can be written for the column. -/
theorem ofValues_writable {position : Nat} {column : Column} {value : Value}
    (found : table.columns[position]? = some column)
    (written : ∃ bound, dialect.write column value = .ok bound) :
    (ofValues [position] [value]).Writable dialect table := by
  intro comparison listed
  have only : comparison ∈ [({ column := position, operator := .equal, operands := [value] } :
      Comparison)] := listed
  obtain rfl := List.mem_singleton.mp only
  exact equality_writable found written

/-- A filter by one value that has pieces is by one that can be written for its column. -/
theorem written_of_pieces {position : Nat} {value : Value} {pieces : List Piece}
    (isWritten : (ofValues [position] [value]).pieces dialect table = .ok pieces) :
    ∃ column, table.columns[position]? = some column ∧
      ∃ bound, dialect.write column value = .ok bound := by
  unfold Filter.pieces toCondition at isWritten
  rw [Condition.pieces] at isWritten
  obtain ⟨members, areMembers, _⟩ := ok_of_bind isWritten
  obtain ⟨first, isFirst, _⟩ := ok_of_bind areMembers
  replace isFirst : Comparison.pieces dialect table _ = .ok first := isFirst
  unfold Comparison.pieces at isFirst
  split at isFirst
  · cases isFirst
  · next column found =>
    obtain ⟨_, isBody, _⟩ := ok_of_bind isFirst
    obtain ⟨bound, isBound, _⟩ := ok_of_bind isBody
    exact ⟨column, found, bound, isBound⟩

/-- A filter of keys can be written if all their values can be written for the key columns. -/
theorem ofKeys_writable {keys : List Keys}
    (written : ∀ key ∈ keys, ∀ pair ∈ table.primaryKeys.zip key.values, ∃ column,
      table.columns[pair.1]? = some column ∧ ∃ bound, dialect.write column pair.2 = .ok bound) :
    (ofKeys table keys).Writable dialect table := by
  intro comparison listed
  replace listed : comparison ∈ Condition.comparisonsOfAll (ofKeys table keys).members := listed
  rw [Condition.comparisonsOfAll_eq_flatMap] at listed
  obtain ⟨group, isGroup, listed⟩ := List.mem_flatMap.mp listed
  obtain ⟨key, isKey, rfl⟩ := List.mem_map.mp isGroup
  replace listed : comparison ∈ Condition.comparisonsOfAll
    (equalities table.primaryKeys key.values) := listed
  rw [Condition.comparisonsOfAll_eq_flatMap] at listed
  obtain ⟨equality, isEquality, listed⟩ := List.mem_flatMap.mp listed
  obtain ⟨pair, isPair, rfl⟩ := List.mem_map.mp isEquality
  obtain ⟨column, found, isWritten⟩ := written key isKey pair isPair
  obtain rfl := List.mem_singleton.mp (show comparison ∈ [_] from listed)
  exact equality_writable found isWritten

end Filter

namespace Query

variable {dialect : Dialect} {table : Table}

/-- A look-up by a value that can be written has a statement. -/
theorem byValue_statement {projection : Projection}
    (keyed : projection = .keys → table.hasPrimaryKey = true) {position : Nat} {column : Column}
    {value : Value} (found : table.columns[position]? = some column)
    (written : ∃ bound, dialect.write column value = .ok bound) :
    ∃ statement, (byValue table projection position value).statement dialect = .ok statement := by
  obtain ⟨statement, isStatement, _⟩ :=
    readsAs_filter keyed rfl (Filter.ofValues_writable found written)
  exact ⟨statement, isStatement⟩

/-- A look-up by a value that has a statement is by one that can be written for its column. -/
theorem written_of_byValue {projection : Projection} {position : Nat} {value : Value}
    {statement : Statement}
    (isStatement : (byValue table projection position value).statement dialect = .ok statement) :
    ∃ column, table.columns[position]? = some column ∧
      ∃ bound, dialect.write column value = .ok bound := by
  obtain ⟨_, arePieces, _⟩ := ok_of_bind isStatement
  obtain ⟨_, _, arePieces⟩ := ok_of_bind arePieces
  obtain ⟨_, isFilter, _⟩ := ok_of_bind arePieces
  obtain ⟨_, isWritten, _⟩ := ok_of_bind isFilter
  exact Filter.written_of_pieces isWritten

/-- A query of keys that can be written, of which there is one, has a statement. -/
theorem byKeys_statement {keys : List Keys} (notEmpty : keys ≠ [])
    (written : ∀ key ∈ keys, ∀ pair ∈ table.primaryKeys.zip key.values, ∃ column,
      table.columns[pair.1]? = some column ∧ ∃ bound, dialect.write column pair.2 = .ok bound) :
    ∃ statement, (byKeys table keys).statement dialect = .ok statement := by
  have members : (Filter.ofKeys table keys).isEmpty = false := by
    cases keys with
    | nil => exact absurd rfl notEmpty
    | cons => rfl
  have all : Projection.all = .keys → table.hasPrimaryKey = true := fun impossible => by
    cases impossible
  obtain ⟨statement, isStatement, _⟩ := readsAs_filter all members (Filter.ofKeys_writable written)
  exact ⟨statement, isStatement⟩

end Query

end RelationalAccess
