import RelationalAccess.Proofs.Row.Acceptance
import RelationalAccess.Proofs.Transaction.Insertions

/-!
The host types of the values that an insertion returns. What the host program sets is checked on its
way into a draft; declared defaults and keys that the engine gives are not.
-/

namespace RelationalAccess

/-- A value that an insertion supplies for a column that was left null: its default, or else the key
that the engine has given. -/
inductive Column.Supplies (supply : Supply) (execution : Execution) (column : Column) : Value → Prop
  | default {declared : DefaultValue} (isDeclared : column.defaultValue = some declared)
      (present : declared.resolve (supply.draw column.position) ≠ .null) :
      Supplies supply execution column (declared.resolve (supply.draw column.position))
  | key {number : Int64} (automatic : column.autoIncrement = true) (isKey : column.primaryKey = true)
      (missing : column.given supply .null = .null) (given : execution.insertedKey = some number) :
      Supplies supply execution column (.int number)

namespace Transaction

variable {World : Type}

section

variable {supply : Supply} {execution : Execution} {column : Column}

/-- What is supplied for a column that was left null is its value in the row. -/
private theorem supplies_iff {value supplied : Value}
    (isValue : let given := column.given supply .null
      if column.autoIncrement = true ∧ column.primaryKey = true ∧ given = .null then
        ∃ number, execution.insertedKey = some number ∧ value = .int number
      else value = given) :
    column.Supplies supply execution supplied ↔ supplied ≠ .null ∧ supplied = value := by
  have defaulted {declared : DefaultValue} (isDeclared : column.defaultValue = some declared) :
      column.given supply .null = declared.resolve (supply.draw column.position) := by
    simp [Column.given, isDeclared]
  dsimp only at isValue
  constructor
  · rintro (⟨isDeclared, present⟩ | ⟨automatic, isKey, missing, known⟩)
    · rw [defaulted isDeclared, if_neg fun numbers => present numbers.2.2] at isValue
      exact ⟨present, isValue.symm⟩
    · rw [if_pos ⟨automatic, isKey, missing⟩] at isValue
      obtain ⟨number, isNumber, rfl⟩ := isValue
      cases known.symm.trans isNumber
      exact ⟨by simp, rfl⟩
  · rintro ⟨present, rfl⟩
    split at isValue
    · next numbers =>
      obtain ⟨automatic, isKey, missing⟩ := numbers
      obtain ⟨number, isNumber, rfl⟩ := isValue
      exact .key automatic isKey missing isNumber
    · cases isDeclared : column.defaultValue with
      | none => exact absurd (isValue.trans (by simp [Column.given, isDeclared])) present
      | some declared =>
        rw [defaulted isDeclared] at isValue
        exact isValue ▸ .default isDeclared (isValue ▸ present)

/-- The value of a column in the row is of the host type if it was set, and otherwise if what is
supplied is. -/
private theorem has_iff_supplied {drafted value : Value}
    (isAccepted : drafted = .null ∨ column.host.Has drafted)
    (isValue : let given := column.given supply drafted
      if column.autoIncrement = true ∧ column.primaryKey = true ∧ given = .null then
        ∃ number, execution.insertedKey = some number ∧ value = .int number
      else value = given) :
    (value ≠ .null → column.host.Has value) ↔
      (drafted = .null → ∀ supplied, column.Supplies supply execution supplied →
        column.host.Has supplied) := by
  by_cases unset : drafted = .null
  · subst unset
    constructor
    · intro has _ supplied isSupplied
      obtain ⟨present, rfl⟩ := (supplies_iff isValue).mp isSupplied
      exact has present
    · intro has present
      exact has rfl value ((supplies_iff isValue).mpr ⟨present, rfl⟩)
  · have isGiven : column.given supply drafted = drafted := if_neg unset
    rw [isGiven, if_neg fun numbers => unset numbers.2.2] at isValue
    subst isValue
    exact iff_of_true (fun _ => isAccepted.resolve_left unset) fun isNull => absurd isNull unset

end

/-- A value of the row that an insertion returns is one that the table takes for its column as it is,
if and only if it was set, or what is supplied for the column is of its host type. -/
theorem insert_takes_iff {schema : DatabaseDraft} {database : Database}
    (built : schema.build = .ok database) {table : Table} (isTable : table ∈ database.tables)
    (attempts : List (String × Value)) (backend : Backend World) {supply : Supply}
    {scene last : Scene (World × List Exchange)} {row : Row}
    (isReturned : insert backend.recorded supply ((DraftRow.new table).putEach attempts) scene =
      (.ok row, last)) :
    row.table = table ∧ row.values.length = table.columns.length ∧
      ∃ handle sent execution,
        exchanges last = exchanges scene ++ [.executed handle sent (.ok execution)] ∧
          ∀ position column, table.columns[position]? = some column →
            ((row.values.getD position .null ≠ .null →
                table.Takes position column (row.values.getD position .null)) ↔
              (((DraftRow.new table).putEach attempts).values.getD position .null = .null →
                ∀ supplied, column.Supplies supply execution supplied →
                  column.host.Has supplied)) := by
  obtain ⟨place, shaped⟩ := DatabaseDraft.shaped_of_mem built isTable
  obtain ⟨ofTable, isAccepted⟩ := DraftRow.putEach_new table attempts
  obtain ⟨filled, handle, sent, execution, inserted, record⟩ := insert_passes isReturned
  refine ⟨inserted.sameTable.trans ofTable, ofTable ▸ inserted.width, handle, sent, execution,
    record, fun position column found => ?_⟩
  have foundInDraft := ofTable.symm ▸ found
  have isValue := (inserted.getD (ofTable.symm ▸ shaped) foundInDraft).2
  rw [← has_iff_supplied (isAccepted position column foundInDraft) isValue]
  refine forall_congr' fun present => ?_
  rw [Table.takes_iff shaped.columnNames found, Column.accept_self_iff, or_iff_right present]

end Transaction

/-- Items with a rate of zero unless another is set, where the zero is declared as an integer. -/
def ratedItemsDraft : TableDraft where
  name := "items"
  columns :=
    [{ name := "id", host := .int64, primaryKey := true },
     { name := "rate", host := .float64, defaultValue := some (.static (.int 0)) }]

def ratedItems : Table := (ratedItemsDraft.table 0).resolve

def ratedApp : Database where
  name := "app"
  modelType := "app"
  tables := [ratedItems]
  relations := []
  settings := CacheSettings.withDefaults {}

/-- An item whose rate is not set. -/
def unratedDraft : DraftRow := (DraftRow.new ratedItems).putEach [("id", .int 1)]

def ratedScene : Scene (Script × List Exchange) :=
  ({ number := 0, handle := some 0 }, { dialect := .sqlite, cache := .new ratedApp }, {}, [])

namespace Transaction

/-- The rate is stored and returned as the integer that is declared, which the table would have
widened to a double. -/
theorem unratedItem_not_taken :
    ∃ row last column,
      ({ name := "app", tables := [ratedItemsDraft] } : DatabaseDraft).build = .ok ratedApp ∧
        insert Script.backend.recorded (.steady ⟨⟨0, 1, by decide⟩, 0⟩) unratedDraft ratedScene =
          (.ok row, last) ∧
        ratedItems.columns[1]? = some column ∧ row.values.getD 1 .null = .int 0 ∧
        ¬ ratedItems.Takes 1 column (row.values.getD 1 .null) := by
  refine ⟨_, _, _, rfl, rfl, rfl, rfl, fun takes => ?_⟩
  obtain ⟨edited, isSet, isThere⟩ := takes (DraftRow.new ratedItems) rfl rfl
  cases isSet
  cases isThere

/-- The key of the item is a value that the table takes, and its rate is not. -/
theorem insert_takes_iff_unratedItem :
    ∃ row last key rate,
      insert Script.backend.recorded (.steady ⟨⟨0, 1, by decide⟩, 0⟩) unratedDraft ratedScene =
          (.ok row, last) ∧
        ratedItems.columns = [key, rate] ∧
        ratedItems.Takes 0 key (row.values.getD 0 .null) ∧
        ¬ (row.values.getD 1 .null ≠ .null → ratedItems.Takes 1 rate (row.values.getD 1 .null)) := by
  have built : ({ name := "app", tables := [ratedItemsDraft] } : DatabaseDraft).build =
      .ok ratedApp := rfl
  obtain ⟨_, _, _, _, _, _, each⟩ :=
    insert_takes_iff built (List.mem_singleton.mpr rfl : ratedItems ∈ ratedApp.tables)
      [("id", .int 1)] Script.backend
      (rfl : insert _ (.steady ⟨⟨0, 1, by decide⟩, 0⟩) unratedDraft ratedScene = (.ok _, _))
  refine ⟨_, _, _, _, rfl, rfl, (each 0 _ rfl).mpr nofun nofun, fun taken => ?_⟩
  exact (each 1 _ rfl).mp taken rfl _ (.default rfl nofun)

end Transaction

end RelationalAccess
