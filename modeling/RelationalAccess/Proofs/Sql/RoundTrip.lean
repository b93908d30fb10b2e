import RelationalAccess.Proofs.Row.Acceptance
import RelationalAccess.Proofs.Sql.Conversion
import RelationalAccess.Proofs.Value.Addresses
import RelationalAccess.Proofs.Value.Moments
import RelationalAccess.Proofs.Value.Uuids

/-!
What is bound for a value that was put into a column is read as that value again, whatever the
dialect and the type of the column. Only a moment that is bound as text loses what is shorter
than a microsecond.
-/

namespace RelationalAccess

/-- A value is of the kind that a host type stands for. -/
inductive HostType.Holds : HostType → Value → Prop where
  | bool (flag : Bool) : Holds .bool (.bool flag)
  | int16 (number : Int64) : Holds .int16 (.int number)
  | int32 (number : Int64) : Holds .int32 (.int number)
  | int64 (number : Int64) : Holds .int64 (.int number)
  | float32 (number : Binary64) : Holds .float32 (.float number)
  | float64 (number : Binary64) : Holds .float64 (.float number)
  | string (text : String) : Holds .string (.text text)
  | bytes (octets : List UInt8) : Holds .bytes (.bytes octets)
  | uuid (uuid : Uuid) : Holds .uuid (.uuid uuid)
  | dateTime (moment : Moment) : Holds .dateTime (.dateTime moment)
  | date (date : Date) : Holds .date (.date date)
  | address (address : Address) : Holds .address (.address address)
  | labelled (labels : List String) (text : String) (isLabel : labels.contains text = true) :
    Holds (.labelled labels) (.text text)

/-- A value of a host type is of its kind, if this is known. -/
theorem HostType.Has.holds {host : HostType} {value : Value} (has : host.Has value)
    (known : ∀ name, host ≠ .other name) : host.Holds value := by
  unfold Has at has
  split at has
  case h_1 => exact absurd rfl (known _)
  case h_14 => exact .labelled _ _ (List.contains_iff_mem.mpr has)
  case h_15 => exact has.elim
  all_goals constructor

namespace Value

/-- The forms in which values are bound. -/
inductive Form : Value → Value → Prop where
  | same (value : Value) : Form value value
  | flag (flag : Bool) : Form (.bool flag) (.int (if flag then 1 else 0))
  | octets (uuid : Uuid) : Form (.uuid uuid) (.bytes uuid.octets)
  | uuidText (uuid : Uuid) : Form (.uuid uuid) (.text uuid.text)
  | moment (moment : Moment) : Form (.dateTime moment) (.text moment.storedText)
  | date (date : Date) : Form (.date date) (.text date.text)
  | address (address : Address) : Form (.address address) (.text address.text)

/-- What is read of a value where something is bound for it: a moment in a text is cut to
microseconds. -/
def readBack : Value → Value → Value
  | .dateTime moment, .text _ => .dateTime moment.toMicroseconds
  | value, _ => value

end Value

namespace Column

variable {column : Column} {given value bound : Value}

/-- What a column takes is null or of the kind of its host type, if this is known. -/
theorem holds_of_accept (accepted : column.accept given = .ok value)
    (known : ∀ name, column.host ≠ .other name) : value = .null ∨ column.host.Holds value :=
  (has_of_accept accepted).imp_right fun has => has.holds known

/-- A value of the kind of its column is no text that is not among the labels of the column. -/
theorem checkWritten_of_holds (holds : value = .null ∨ column.host.Holds value) :
    column.checkWritten value = .ok () := by
  unfold checkWritten
  split
  · next labels text isLabelled =>
    rcases holds with null | holds
    · cases null
    · rw [isLabelled] at holds
      cases holds with
      | labelled _ _ isLabel => rw [if_pos isLabel]
  · rfl

/-- Every form of a value is read as the value. -/
theorem toHost_of_form (form : Value.Form value bound) (holds : column.host.Holds value)
    (regular : ∀ moment text, value = .dateTime moment → bound = .text text → moment.Regular) :
    column.toHost bound = .ok (value.readBack bound) := by
  unfold toHost
  generalize column.host = host at holds ⊢
  cases form with
  | same value =>
    cases holds with
    | labelled labels text isLabel => exact if_pos isLabel
    | bytes octets => simp only [Value.readBack]
    | _ => rfl
  | flag flag =>
    cases holds
    cases flag <;> rfl
  | octets uuid =>
    cases holds
    simp only [Uuid.ofOctets?_octets]
    rfl
  | uuidText uuid =>
    cases holds
    simp only [Uuid.ofText?_text]
    rfl
  | moment moment =>
    cases holds
    have isRegular := regular moment moment.storedText rfl rfl
    simp only [(Moment.ofText?_storedText_iff moment).mpr isRegular]
    rfl
  | date date =>
    cases holds
    simp only [Date.ofText?_text]
    rfl
  | address address =>
    cases holds
    simp only [Address.ofText?_text]
    rfl

end Column

namespace Dialect

variable {dialect : Dialect} {column : Column} {value bound : Value}

theorem form_writeMySql (type : ColumnType) (value : Value) :
    value.Form (writeMySql type value) := by
  unfold writeMySql
  split
  · split
    · exact .octets _
    · split
      · exact .uuidText _
      · exact .same _
  · split
    · exact .same _
    · exact .address _
  · split
    · exact .same _
    · exact .moment _
  · exact .same _

theorem form_of_writeSqlite (written : writeSqlite column value = .ok bound) :
    value.Form bound := by
  unfold writeSqlite at written
  split at written
  case h_2 =>
    obtain ⟨type, _, isBound⟩ := ok_of_bind written
    obtain rfl := Except.ok.inj isBound
    split
    · exact .octets _
    · exact .uuidText _
  all_goals
    obtain rfl := Except.ok.inj written
    constructor

/-- Whatever a dialect binds for a value is one of its forms. -/
theorem form_of_write (written : dialect.write column value = .ok bound) : value.Form bound := by
  obtain ⟨_, _, written⟩ := ok_of_bind written
  cases dialect with
  | sqlite => exact form_of_writeSqlite written
  | mySql =>
    obtain ⟨type, _, isBound⟩ := ok_of_bind written
    exact Except.ok.inj isBound ▸ form_writeMySql type value
  | mariaDb =>
    obtain ⟨type, _, isBound⟩ := ok_of_bind written
    exact Except.ok.inj isBound ▸ form_writeMySql type value

/-- What is bound for a value that a column may hold is read as that value. -/
theorem read_of_write (written : dialect.write column value = .ok bound)
    (holds : value = .null ∨ column.host.Holds value)
    (nullable : value = .null → column.nullable = true)
    (regular : ∀ moment text, value = .dateTime moment → bound = .text text → moment.Regular) :
    dialect.read column bound = .ok (value.readBack bound) := by
  have form := form_of_write written
  rcases holds with rfl | holds
  · cases form
    have isRead : column.toHost .null = .ok .null := by
      unfold Column.toHost
      simp only [nullable rfl, if_true]
    rw [read, isRead]
    rfl
  · rw [read, Column.toHost_of_form form holds regular]
    rfl

end Dialect

/-- A value that was set in a row of a built database is bound in every dialect, and what is
bound is read as the value, but for what a moment in a text has of less than a microsecond. Such
a moment must be one that can be read back from a text at all. -/
theorem DatabaseDraft.read_of_set {declared : DatabaseDraft} {database : Database}
    (built : declared.build = .ok database) {draft edited : DraftRow}
    (onTable : draft.table ∈ database.tables) {name : String} {given value : Value}
    (isSet : draft.set name given = .ok edited) {position : Nat} {column : Column}
    (isPosition : draft.table.columnIndex? name = some position)
    (isColumn : draft.table.columns[position]? = some column)
    (left : edited.values[position]? = some value) (known : ∀ other, column.host ≠ .other other)
    (nullable : value = .null → column.nullable = true) (dialect : Dialect)
    (regular : ∀ moment text, value = .dateTime moment →
      dialect.write column value = .ok (.text text) → moment.Regular) :
    ∃ bound, dialect.write column value = .ok bound ∧
      dialect.read column bound = .ok (value.readBack bound) := by
  have accepted := DraftRow.accepted_of_set isSet isPosition isColumn left
  have holds := Column.holds_of_accept accepted known
  have typed := (accepted_of_build built).typed onTable (List.mem_of_getElem? isColumn)
    dialect.engine_isConcrete
  obtain ⟨bound, written⟩ := Dialect.write_succeeds typed (Column.checkWritten_of_holds holds)
  refine ⟨bound, written, Dialect.read_of_write written holds nullable ?_⟩
  intro moment text isMoment isText
  exact regular moment text isMoment (isText ▸ written)

/-- Entries of a diary, at the moments at which they were written. -/
def DatabaseDraft.diaryDraft : DatabaseDraft :=
  { name := "diary"
    tables :=
      [{ name := "entries"
         columns := [{ name := "id", host := .uuid, primaryKey := true },
           { name := "written", host := .dateTime }] }] }

/-- A moment in the leap second at the end of the year 2016. -/
def Moment.inLeapSecond : Moment := ⟨1483228799, 1500123456, by decide⟩

theorem Moment.inLeapSecond_regular : Moment.inLeapSecond.Regular := by
  refine ⟨?_, ?_⟩ <;> decide

/-- The moment is read back from a text without the nanoseconds behind its microseconds. -/
theorem DatabaseDraft.read_of_set_leapSecond :
    ∃ database table column edited bound, diaryDraft.build = .ok database ∧
      table ∈ database.tables ∧ table.columns[1]? = some column ∧
      (DraftRow.new table).set "written" (.dateTime .inLeapSecond) = .ok edited ∧
      Dialect.sqlite.write column (.dateTime .inLeapSecond) = .ok bound ∧
      Dialect.sqlite.read column bound =
        .ok (.dateTime ⟨1483228799, 1500123000, by decide⟩) := by
  obtain ⟨database, table, column, edited, built, onTable, isPosition, isColumn, isHost, isSet,
      left⟩ : ∃ database table column edited, diaryDraft.build = .ok database ∧
        table ∈ database.tables ∧ table.columnIndex? "written" = some 1 ∧
        table.columns[1]? = some column ∧ column.host = .dateTime ∧
        (DraftRow.new table).set "written" (.dateTime .inLeapSecond) = .ok edited ∧
        edited.values[1]? = some (.dateTime .inLeapSecond) :=
    ⟨_, _, _, _, rfl, List.mem_singleton_self _, rfl, rfl, rfl, rfl, rfl⟩
  have isText : Dialect.sqlite.write column (.dateTime .inLeapSecond) =
      .ok (.text Moment.inLeapSecond.storedText) := by
    rw [Dialect.write, Column.checkWritten]
    · rfl
    · exact fun _ _ _ impossible => nomatch impossible
  obtain ⟨bound, written, isRead⟩ := read_of_set built onTable isSet isPosition isColumn left
    (by simp [isHost]) nofun .sqlite
    fun _ _ isMoment _ => Value.dateTime.inj isMoment ▸ Moment.inLeapSecond_regular
  obtain rfl := Except.ok.inj (isText.symm.trans written)
  exact ⟨database, table, column, edited, _, built, onTable, isColumn, isSet, written, isRead⟩

end RelationalAccess
