import RelationalAccess.Proofs.Sql.ChangeText
import RelationalAccess.Proofs.Transaction.Lifecycle
import RelationalAccess.Proofs.Transaction.Numbering

/-!
The row that an insertion returns, against the statement that was sent. Each of its values is one
that the statement binds or the key that the engine has given, but for columns that the engine
numbers outside the key: these are left out of the statement and stay null in the row. A column that
may not be null can be null in the row in this way, or by a default that is declared to be null.
-/

namespace RelationalAccess

/-- A column may be left null in an insertion: if the engine numbers it, it is a key column and gets
its number, and otherwise it may hold null. -/
def Column.MayBeLeft (column : Column) : Prop :=
  if column.autoIncrement = true then column.primaryKey = true else column.nullable = true

/-- The value of a column in a row is the one that an insertion has bound for it, or, where it has
bound none, the key that the engine has given. -/
def ReadInsert.Accounts (dialect : Dialect) (execution : Execution) (column : Column) (value : Value)
    (read : ReadInsert) : Prop :=
  match read.cells.lookup column.name with
  | some bound => dialect.write column value = .ok bound
  | none => ∃ number, execution.insertedKey = some number ∧ value = .int number

namespace Transaction

variable {World : Type}

/-- What an insertion has done that returns a row. -/
structure Inserted (backend : Backend World) (supply : Supply) (draft : DraftRow)
    (scene last : Scene World) (row : Row) (filled : DraftRow) (sent : Statement)
    (execution : Execution) : Prop where
  isFilled : fill supply draft = .ok filled
  isSent : Statement.insert scene.2.1.dialect draft.table filled.values = .ok sent
  sends : Sends backend scene (.ok sent) (.ok execution) last.2.2
  makes : ∃ numbered, numberColumns execution filled = .ok numbered ∧
    Makes draft.table numbered.values row

theorem insert_returns {backend : Backend World} {supply : Supply} {draft : DraftRow}
    {scene last : Scene World} {row : Row}
    (isReturned : insert backend supply draft scene = (.ok row, last)) :
    ∃ filled sent execution, Inserted backend supply draft scene last row filled sent execution := by
  have records := (Write.insert_leads supply draft).returned rfl isReturned
  cases isStored : draft.stored with
  | some stored =>
    have untouched := insert_of_stored backend isStored supply scene
    rw [isReturned] at untouched
    obtain rfl := untouched
    obtain ⟨change, extended, _⟩ := records
    exact absurd (congrArg List.length extended) (by simp)
  | none =>
    have outcome := insert_outcome backend supply isStored scene
    rw [isReturned] at outcome
    obtain ⟨execution, change, sends, ⟨filled, numbered, after, isFilled, isNumbered, makes, rfl⟩,
      isAfter⟩ := outcome.of_recordsRow records
    obtain rfl := Option.some.inj isAfter
    rw [isFilled] at sends
    obtain ⟨active, handle, sent, isOpen, isSent, answered⟩ := sends
    exact ⟨filled, sent, execution, isFilled, isSent, ⟨active, handle, sent, isOpen, rfl, answered⟩,
      numbered, isNumbered, makes⟩

/-- An insertion that returns a row has passed just its statement. -/
theorem insert_passes {backend : Backend World} {supply : Supply} {draft : DraftRow}
    {scene last : Scene (World × List Exchange)} {row : Row}
    (isReturned : insert backend.recorded supply draft scene = (.ok row, last)) :
    ∃ filled handle sent execution,
      Inserted backend.recorded supply draft scene last row filled sent execution ∧
        exchanges last = exchanges scene ++ [.executed handle sent (.ok execution)] := by
  obtain ⟨filled, sent, execution, inserted⟩ := insert_returns isReturned
  obtain ⟨handle, _, same, record⟩ := inserted.sends.exchanges
  obtain rfl := Except.ok.inj same
  exact ⟨filled, handle, sent, execution, inserted, record⟩

section

variable {backend : Backend World} {supply : Supply} {draft filled : DraftRow}
  {scene last : Scene World} {row : Row} {sent : Statement} {execution : Execution}

theorem Inserted.sameTable
    (inserted : Inserted backend supply draft scene last row filled sent execution) :
    row.table = draft.table := by
  obtain ⟨_, _, makes⟩ := inserted.makes
  exact makes.sameTable

/-- The row has one value for each column. -/
theorem Inserted.width
    (inserted : Inserted backend supply draft scene last row filled sent execution) :
    row.values.length = draft.table.columns.length := by
  obtain ⟨numbered, _, makes⟩ := inserted.makes
  rw [makes.sameValues]
  exact makes.width

theorem Inserted.filledWidth
    (inserted : Inserted backend supply draft scene last row filled sent execution) :
    filled.values.length = draft.table.columns.length := by
  obtain ⟨numbered, isNumbered, makes⟩ := inserted.makes
  exact (numberColumns_width isNumbered).symm.trans makes.width

/-- The values of the row: a key column that is left null has the number that the engine gave, and
any other column has what it is given. -/
theorem Inserted.getD
    (inserted : Inserted backend supply draft scene last row filled sent execution) {place : Nat}
    (shaped : draft.table.Shaped place) {position : Nat} {column : Column}
    (found : draft.table.columns[position]? = some column) :
    let given := column.given supply (draft.values.getD position .null)
    filled.values[position]? = some given ∧
      if column.autoIncrement = true ∧ column.primaryKey = true ∧ given = .null then
        ∃ number, execution.insertedKey = some number ∧ row.values.getD position .null = .int number
      else row.values.getD position .null = given := by
  intro given
  have sameTable := fill_table inserted.isFilled
  obtain ⟨numbered, isNumbered, makes⟩ := inserted.makes
  have width := inserted.filledWidth
  have inside := width ▸ (List.getElem?_eq_some_iff.mp found).1
  have placed := shaped.placed
  have isGiven : filled.values.getD position .null = given :=
    fill_getD inserted.isFilled placed (fill_width inserted.isFilled ▸ inside) found
  have isKey : position ∈ draft.table.primaryKeys ↔ column.primaryKey = true := by
    rw [shaped.keys, found]
    simp
  rw [← sameTable] at placed found isKey
  have numberedWidth := (numberColumns_width isNumbered).trans (sameTable.symm ▸ width)
  refine ⟨?_, ?_⟩
  · rw [← isGiven, List.getD_eq_getElem _ _ inside, List.getElem?_eq_getElem inside]
  rw [makes.sameValues]
  split
  · next numbers =>
    obtain ⟨automatic, keyed, unset⟩ := numbers
    exact numberColumns_numbered isNumbered placed numberedWidth found (isKey.mpr keyed) automatic
      (isGiven.trans unset)
  · next others =>
    refine (numberColumns_kept isNumbered placed numberedWidth found ?_).trans isGiven
    rintro ⟨keyed, automatic, unset⟩
    exact others ⟨automatic, isKey.mp keyed, isGiven.symm.trans unset⟩

end

/-- A column is accounted for, and not null unless it may be, if it is given a value or may be left
null. -/
private theorem accounts_iff {dialect : Dialect} {execution : Execution} {column : Column}
    {read : ReadInsert} {given value : Value}
    (isBound : match read.cells.lookup column.name with
      | some bound => ¬ (column.autoIncrement = true ∧ given = .null) ∧
          dialect.write column given = .ok bound
      | none => column.autoIncrement = true ∧ given = .null)
    (isValue : if column.autoIncrement = true ∧ column.primaryKey = true ∧ given = .null then
        ∃ number, execution.insertedKey = some number ∧ value = .int number
      else value = given) :
    (read.Accounts dialect execution column value ∧ (column.nullable = false → value ≠ .null)) ↔
      (given = .null → column.MayBeLeft) := by
  unfold ReadInsert.Accounts Column.MayBeLeft
  by_cases omitted : column.autoIncrement = true ∧ given = .null
  · obtain ⟨automatic, unset⟩ := omitted
    rw [if_pos automatic]
    cases isListed : read.cells.lookup column.name with
    | some bound =>
      rw [isListed] at isBound
      exact absurd ⟨automatic, unset⟩ isBound.1
    | none =>
      by_cases keyed : column.primaryKey = true
      · rw [if_pos ⟨automatic, keyed, unset⟩] at isValue
        obtain ⟨number, known, rfl⟩ := isValue
        exact iff_of_true ⟨⟨number, known, rfl⟩, fun _ => nofun⟩ fun _ => keyed
      · rw [if_neg fun numbers => keyed numbers.2.1, unset] at isValue
        refine iff_of_false ?_ fun mayBeLeft => keyed (mayBeLeft unset)
        rintro ⟨⟨number, _, isNumber⟩, _⟩
        cases isValue.symm.trans isNumber
  · rw [if_neg fun numbers => omitted ⟨numbers.1, numbers.2.2⟩] at isValue
    subst isValue
    cases isListed : read.cells.lookup column.name with
    | none =>
      rw [isListed] at isBound
      exact absurd isBound omitted
    | some bound =>
      rw [isListed] at isBound
      have isWritten : dialect.write column value = .ok bound := isBound.2
      by_cases unset : value = .null
      · subst unset
        rw [if_neg fun automatic => omitted ⟨automatic, rfl⟩]
        simp [isWritten]
      · exact iff_of_true ⟨isWritten, fun _ => unset⟩ fun isNull => absurd isNull unset

/-- Every column of the row that an insertion returns is accounted for by the statement that was sent
and the key that the engine has given, and is not null unless it may be, if and only if it is given a
value or may be left null. -/
theorem insert_accounts_iff {schema : DatabaseDraft} {database : Database}
    (built : schema.build = .ok database) {draft : DraftRow} (isTable : draft.table ∈ database.tables)
    (backend : Backend World) {supply : Supply} {scene last : Scene (World × List Exchange)}
    {row : Row} (isReturned : insert backend.recorded supply draft scene = (.ok row, last)) :
    row.table = draft.table ∧ row.values.length = draft.table.columns.length ∧
      ∃ handle sent execution read,
        exchanges last = exchanges scene ++ [.executed handle sent (.ok execution)] ∧
          ReadInsert.ofTokens? (sent.tokens scene.2.1.dialect) = some read ∧
          read.table = draft.table.name ∧
          ∀ position column, draft.table.columns[position]? = some column →
            ((read.Accounts scene.2.1.dialect execution column (row.values.getD position .null) ∧
                (column.nullable = false → row.values.getD position .null ≠ .null)) ↔
              (column.given supply (draft.values.getD position .null) = .null →
                column.MayBeLeft)) := by
  obtain ⟨place, shaped⟩ := DatabaseDraft.shaped_of_mem built isTable
  obtain ⟨filled, handle, sent, execution, inserted, record⟩ := insert_passes isReturned
  obtain ⟨columns, areBound, isRead⟩ := Statement.reads_insert inserted.isSent
  refine ⟨inserted.sameTable, inserted.width, handle, sent, execution, _, record, isRead, rfl, ?_⟩
  intro position column found
  obtain ⟨isGiven, isValue⟩ := inserted.getD shaped found
  exact accounts_iff (Statement.lookup_boundColumns shaped.columnNames inserted.filledWidth areBound
    found isGiven) isValue

end Transaction

/-- Tickets that the engine numbers beside their key. -/
def ticketsDraft : TableDraft where
  name := "tickets"
  columns :=
    [{ name := "id", host := .int64, primaryKey := true },
     { name := "seq", host := .int64, autoIncrement := true }]
  indices := [{ name := "ux_seq", columns := ["seq"], unique := true }]

def tickets : Table := (ticketsDraft.table 0).resolve

def office : Database where
  name := "office"
  modelType := "office"
  tables := [tickets]
  relations := []
  settings := CacheSettings.withDefaults {}

/-- A ticket with the key that it is to have. -/
def ticketDraft : DraftRow := (DraftRow.new tickets).setAt 0 (.int 1)

/-- A transaction in an office whose engine is going to give the number seven. -/
def officeScene : Scene (Script × List Exchange) :=
  ({ number := 0, handle := some 0 }, { dialect := .mySql, cache := .new office },
    { replies := [{ insertedKey := some 7 }] }, [])

namespace Transaction

/-- The number of the ticket is left to the engine, which gives it, but in the row that is returned
it is null. -/
theorem unnumberedTicket_not_accounted :
    ∃ row last sent execution read column,
      ({ name := "office", tables := [ticketsDraft] } : DatabaseDraft).build = .ok office ∧
        insert Script.backend.recorded (.steady ⟨⟨0, 1, by decide⟩, 0⟩) ticketDraft officeScene =
          (.ok row, last) ∧
        exchanges last = [.executed 0 sent (.ok execution)] ∧
        ReadInsert.ofTokens? (sent.tokens .mySql) = some read ∧
        tickets.columns[1]? = some column ∧
        ¬ read.Accounts .mySql execution column (row.values.getD 1 .null) ∧
        column.nullable = false ∧ row.values.getD 1 .null = .null := by
  refine ⟨_, _, _, _, _, _, rfl, rfl, rfl, rfl, rfl, ?_, rfl, rfl⟩
  rintro ⟨number, _, isNumber⟩
  cases isNumber

/-- The key of the ticket is accounted for, and its number is not. -/
theorem insert_accounts_iff_ticket :
    ∃ row last execution read key number,
      insert Script.backend.recorded (.steady ⟨⟨0, 1, by decide⟩, 0⟩) ticketDraft officeScene =
          (.ok row, last) ∧
        tickets.columns = [key, number] ∧
        ReadInsert.Accounts .mySql execution key (row.values.getD 0 .null) read ∧
        ¬ (ReadInsert.Accounts .mySql execution number (row.values.getD 1 .null) read ∧
          (number.nullable = false → row.values.getD 1 .null ≠ .null)) := by
  have built : ({ name := "office", tables := [ticketsDraft] } : DatabaseDraft).build =
      .ok office := rfl
  obtain ⟨_, _, _, _, execution, read, _, _, _, each⟩ :=
    insert_accounts_iff built (List.mem_singleton.mpr rfl : ticketDraft.table ∈ office.tables)
      Script.backend
      (rfl : insert _ (.steady ⟨⟨0, 1, by decide⟩, 0⟩) ticketDraft officeScene = (.ok _, _))
  refine ⟨_, _, execution, read, _, _, rfl, rfl, ((each 0 _ rfl).mpr nofun).1, fun accounted => ?_⟩
  have numbersKey : false = true := (each 1 _ rfl).mp accounted rfl
  cases numbersKey

end Transaction

end RelationalAccess
