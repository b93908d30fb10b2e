import RelationalAccess.Proofs.Row.Acceptance
import RelationalAccess.Proofs.Schema.Shape

/-!
What is read from an engine, against what a column takes from the host program. A value that is read
for a column is null or of its host type, but that integers are read whatever their size. So it can
be set again, unless it is an integer too great for a column of shorter ones.
-/

namespace RelationalAccess

/-- An integer is one that a host type has room for, which only those of shorter integers lack. -/
def HostType.Spans : HostType → Int → Prop
  | .int16, number => -Int.pow 2 15 ≤ number ∧ number < Int.pow 2 15
  | .int32, number => -Int.pow 2 31 ≤ number ∧ number < Int.pow 2 31
  | _, _ => True

/-- The integers that flags are read as are ones that every type of integers has room for. -/
theorem HostType.has_flag {number : Int64} (isFlag : number = 0 ∨ number = 1) :
    HostType.int16.Has (.int number) ∧ HostType.int32.Has (.int number) := by
  rcases isFlag with rfl | rfl <;> exact ⟨⟨by decide, by decide⟩, by decide, by decide⟩

namespace Column

variable {column : Column} {raw value : Value}

theorem readable_eq_ok_iff {found : Option Value} :
    column.readable found = .ok value ↔ found = some value := by
  cases found <;> simp [readable]

/-- What is read for a column is null or of its host type, if an integer that was read for it is one
that the host type has room for. -/
theorem has_iff_of_toHost (isRead : column.toHost raw = .ok value) :
    value = .null ∨ column.host.Has value ↔
      ∀ number, raw = .int number → column.host.Spans number.toInt := by
  unfold toHost at isRead
  generalize column.host = host at isRead ⊢
  split at isRead
  case h_1 =>
    split at isRead
    · obtain rfl := Except.ok.inj isRead
      simp
    · cases isRead
  all_goals
    simp only [readable_eq_ok_iff, checkLabel_eq_ok_iff, Option.map_eq_some_iff, Except.ok.injEq,
      reduceCtorEq] at isRead
  -- only an integer that is read for a column of integers has a size to be looked at
  all_goals grind [HostType.Has, HostType.Spans, HostType.has_flag]

end Column

namespace DatabaseDraft

/-- A value that is read for a column of a built database is one that the table takes for it as it
is, if and only if it was not read from an integer for which the host type has no room. -/
theorem takes_read_iff {schema : DatabaseDraft} {database : Database}
    (built : schema.build = .ok database) {table : Table} (isTable : table ∈ database.tables)
    {position : Nat} {column : Column} (found : table.columns[position]? = some column)
    {raw value : Value} (isRead : column.toHost raw = .ok value) :
    table.Takes position column value ↔
      ∀ number, raw = .int number → column.host.Spans number.toInt := by
  obtain ⟨place, shaped⟩ := shaped_of_mem built isTable
  rw [Table.takes_iff shaped.columnNames found, Column.accept_self_iff]
  exact Column.has_iff_of_toHost isRead

/-- Measurements of a sensor, each a short integer. -/
def sensorDraft : DatabaseDraft where
  name := "sensor"
  tables :=
    [{ name := "samples"
       columns := [{ name := "id", host := .int64, primaryKey := true },
         { name := "level", host := .int16 }] }]

/-- A level beyond the short integers is read, but not taken back. -/
theorem level_not_taken :
    ∃ database table column, sensorDraft.build = .ok database ∧ table ∈ database.tables ∧
      table.columns[1]? = some column ∧
      column.toHost (.int 40000) = .ok (.int 40000) ∧
      (DraftRow.new table).set "level" (.int 40000) =
        .error (.conversion (.outOfRange 40000 "level" .int16)) ∧
      ¬ table.Takes 1 column (.int 40000) := by
  refine ⟨_, _, _, rfl, List.mem_singleton_self _, rfl, rfl, rfl, fun takes => ?_⟩
  obtain ⟨edited, isSet, _⟩ := takes (DraftRow.new _) rfl (DraftRow.new_isWhole _)
  cases isSet

/-- The least level and a flag are taken back, and a level one below the least is not. -/
theorem takes_read_iff_level :
    ∃ database table column, sensorDraft.build = .ok database ∧ table ∈ database.tables ∧
      table.columns[1]? = some column ∧
      column.toHost (.int (-32768)) = .ok (.int (-32768)) ∧
      table.Takes 1 column (.int (-32768)) ∧
      column.toHost (.bool true) = .ok (.int 1) ∧ table.Takes 1 column (.int 1) ∧
      column.toHost (.int (-32769)) = .ok (.int (-32769)) ∧
      ¬ table.Takes 1 column (.int (-32769)) := by
  obtain ⟨database, table, column, built, isTable, found, isHost, least, flag, below⟩ :
      ∃ database table column, sensorDraft.build = .ok database ∧ table ∈ database.tables ∧
        table.columns[1]? = some column ∧ column.host = .int16 ∧
        column.toHost (.int (-32768)) = .ok (.int (-32768)) ∧
        column.toHost (.bool true) = .ok (.int 1) ∧
        column.toHost (.int (-32769)) = .ok (.int (-32769)) :=
    ⟨_, _, _, rfl, List.mem_singleton_self _, rfl, rfl, rfl, rfl, rfl⟩
  refine ⟨database, table, column, built, isTable, found, least, ?_, flag, ?_, below, ?_⟩
  · refine (takes_read_iff built isTable found least).mpr fun number isNumber => ?_
    cases isNumber
    rw [isHost]
    exact ⟨by decide, by decide⟩
  · exact (takes_read_iff built isTable found flag).mpr nofun
  · intro takes
    have spans := (takes_read_iff built isTable found below).mp takes (-32769) rfl
    rw [isHost] at spans
    exact absurd spans.1 (by decide)

end DatabaseDraft

end RelationalAccess
