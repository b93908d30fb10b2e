import RelationalAccess.Proofs.Sql.Binding
import RelationalAccess.Transaction

/-!
The row that an insertion returns. Columns that the engine numbers are key columns, and
these get the number that the engine reports; all other columns keep their values.
-/

namespace RelationalAccess

/-- The engine numbers key columns only. -/
def Table.NumbersKeys (table : Table) : Prop :=
  ∀ (position : Nat) (column : Column), table.columns[position]? = some column →
    column.autoIncrement = true → position ∈ table.primaryKeys

/-- What a column is given in an insertion: its default where it is left null. -/
def Column.given (supply : Supply) (column : Column) (value : Value) : Value :=
  if value = .null then
    (column.defaultValue.map (·.resolve (supply.draw column.position))).getD .null
  else value

namespace Transaction

/-- A draft with some columns numbered. -/
private structure Numbered (execution : Execution) (columns : List Column) (draft last : DraftRow) :
    Prop where
  width : last.values.length = draft.values.length
  kept : ∀ position, position ∉ columns.map Column.position →
    last.values.getD position .null = draft.values.getD position .null
  numbered : ∀ position ∈ columns.map Column.position, position < draft.values.length →
    ∃ number, execution.insertedKey = some number ∧ last.values.getD position .null = .int number

private theorem numbered_of_foldlM {execution : Execution} {columns : List Column}
    {draft last : DraftRow} (run : columns.foldlM (numberColumn execution) draft = .ok last) :
    Numbered execution columns draft last := by
  induction columns generalizing draft with
  | nil =>
    cases run
    exact ⟨rfl, fun _ _ => rfl, fun position membership => by cases membership⟩
  | cons column columns inductionHypothesis =>
    rw [List.foldlM_cons, numberColumn] at run
    cases known : execution.insertedKey with
    | none =>
      rw [known] at run
      cases run
    | some number =>
      rw [known] at run
      have rest := inductionHypothesis run
      have length : (draft.setAt column.position (.int number)).values.length = draft.values.length :=
        List.length_set
      refine ⟨rest.width.trans length, fun position apart => ?_, fun position membership inside => ?_⟩
      · rw [List.map_cons, List.mem_cons, not_or] at apart
        rw [rest.kept position apart.2]
        simp [DraftRow.setAt, Ne.symm apart.1]
      · by_cases later : position ∈ columns.map Column.position
        · exact known ▸ rest.numbered position later (length ▸ inside)
        · have now : position = column.position := by
            rcases List.mem_cons.mp membership with now | isLater
            · exact now
            · exact absurd isLater later
          refine ⟨number, known, (rest.kept position later).trans ?_⟩
          simp [DraftRow.setAt, now, now ▸ inside]

private theorem mem_numberedColumns {draft : DraftRow} {place : Nat}
    (placed : draft.table.Placed place)
    (width : draft.values.length = draft.table.columns.length) {position : Nat} {column : Column}
    (found : draft.table.columns[position]? = some column) :
    position ∈ (numberedColumns draft).map Column.position ↔
      position ∈ draft.table.primaryKeys ∧ column.autoIncrement = true ∧
        draft.values.getD position .null = .null := by
  have place := placed.columns position column found
  have inside : position < draft.values.length := width ▸ (List.getElem?_eq_some_iff.mp found).1
  have isNull : draft.values[position]? = some .null ↔ draft.values.getD position .null = .null := by
    rw [List.getD_eq_getElem _ _ inside, List.getElem?_eq_getElem inside, Option.some_inj]
  constructor
  · intro membership
    obtain ⟨other, isNumbered, samePlace⟩ := List.mem_map.mp membership
    obtain ⟨isKey, isGiven⟩ := List.mem_filter.mp isNumbered
    obtain ⟨key, keyColumn, isThere⟩ := List.mem_filterMap.mp isKey
    have same : key = position := (placed.columns key other isThere).symm.trans samePlace
    subst same
    rw [found] at isThere
    cases isThere
    rw [Bool.and_eq_true, decide_eq_true_eq, place, isNull] at isGiven
    exact ⟨keyColumn, isGiven⟩
  · rintro ⟨isKey, automatic, unset⟩
    refine List.mem_map.mpr ⟨column, List.mem_filter.mpr ⟨?_, ?_⟩, place⟩
    · exact List.mem_filterMap.mpr ⟨position, isKey, found⟩
    · rw [Bool.and_eq_true, decide_eq_true_eq, place, isNull]
      exact ⟨automatic, unset⟩

section

variable {draft last : DraftRow} {execution : Execution} {place position : Nat} {column : Column}

/-- A key column that the engine numbers gets its number if it is null. -/
theorem numberColumns_numbered (isNumbered : numberColumns execution draft = .ok last)
    (placed : draft.table.Placed place) (width : last.values.length = draft.table.columns.length)
    (found : draft.table.columns[position]? = some column) (isKey : position ∈ draft.table.primaryKeys)
    (automatic : column.autoIncrement = true) (unset : draft.values.getD position .null = .null) :
    ∃ number, execution.insertedKey = some number ∧
      last.values.getD position .null = .int number := by
  have holds := numbered_of_foldlM isNumbered
  have draftWidth := holds.width.symm.trans width
  have inside := draftWidth ▸ (List.getElem?_eq_some_iff.mp found).1
  exact holds.numbered position
    ((mem_numberedColumns placed draftWidth found).mpr ⟨isKey, automatic, unset⟩) inside

/-- Any other column keeps its value. -/
theorem numberColumns_kept (isNumbered : numberColumns execution draft = .ok last)
    (placed : draft.table.Placed place) (width : last.values.length = draft.table.columns.length)
    (found : draft.table.columns[position]? = some column)
    (other : ¬ (position ∈ draft.table.primaryKeys ∧ column.autoIncrement = true ∧
      draft.values.getD position .null = .null)) :
    last.values.getD position .null = draft.values.getD position .null := by
  have holds := numbered_of_foldlM isNumbered
  have draftWidth := holds.width.symm.trans width
  exact holds.kept position fun membership =>
    other ((mem_numberedColumns placed draftWidth found).mp membership)

end

/-- The row that an insertion returns has the values that are stored. -/
theorem numberColumns_binds {dialect : Dialect} {draft last : DraftRow} {execution : Execution}
    {stored : List Value} (isNumbered : numberColumns execution draft = .ok last) {table : Table}
    (sameTable : draft.table = table) {place : Nat} (placed : table.Placed place)
    (numbersKeys : table.NumbersKeys) (width : last.values.length = table.columns.length)
    (inserts : table.Inserts dialect draft.values execution stored) :
    table.Binds dialect last.values stored := by
  subst sameTable
  refine ⟨width, inserts.storedWidth, fun position column found => ?_⟩
  by_cases isOpen : column.autoIncrement = true ∧ draft.values.getD position .null = .null
  · obtain ⟨number, known, value⟩ := numberColumns_numbered isNumbered placed width found
      (numbersKeys position column found isOpen.1) isOpen.1 isOpen.2
    rw [value]
    exact inserts.numbered position column found isOpen.1 isOpen.2 number known
  · rw [numberColumns_kept isNumbered placed width found fun numbered => isOpen numbered.2]
    exact inserts.given position column found isOpen

/-- The engine's numbers can be taken over if it has reported one or none is needed. -/
theorem numberColumns_succeeds_iff {draft : DraftRow} {execution : Execution} :
    (∃ numbered, numberColumns execution draft = .ok numbered) ↔
      (execution.insertedKey = none → numberedColumns draft = []) := by
  unfold numberColumns
  cases known : execution.insertedKey with
  | none =>
    cases columns : numberedColumns draft with
    | nil => exact iff_of_true ⟨draft, rfl⟩ fun _ => rfl
    | cons column columns =>
      refine iff_of_false ?_ (by simp)
      rintro ⟨numbered, isNumbered⟩
      rw [List.foldlM_cons, numberColumn, known] at isNumbered
      cases isNumbered
  | some number =>
    refine iff_of_true ?_ nofun
    generalize numberedColumns draft = columns
    induction columns generalizing draft with
    | nil => exact ⟨draft, rfl⟩
    | cons column columns inductionHypothesis =>
      rw [List.foldlM_cons, numberColumn, known]
      exact inductionHypothesis

theorem numberColumns_width {draft numbered : DraftRow} {execution : Execution}
    (isNumbered : numberColumns execution draft = .ok numbered) :
    numbered.values.length = draft.values.length :=
  (numbered_of_foldlM isNumbered).width

/-- What is filled in a column that was left unset: its default, or nothing. -/
private theorem fillColumn_cases {supply : Supply} {draft filled : DraftRow} {column : Column}
    (isFilled : fillColumn supply draft column = .ok filled) :
    filled = draft ∨ ∃ value, filled = draft.setAt column.position value := by
  unfold fillColumn at isFilled
  split at isFilled
  · split at isFilled
    · cases isFilled
      exact .inr ⟨_, rfl⟩
    · split at isFilled
      · cases isFilled
        exact .inl rfl
      · cases isFilled
  · cases isFilled
    exact .inl rfl

theorem fill_table {supply : Supply} {draft filled : DraftRow}
    (isFilled : fill supply draft = .ok filled) : filled.table = draft.table := by
  have step (before : DraftRow) (column : Column) (after : DraftRow)
      (holds : before.table = draft.table) (step : fillColumn supply before column = .ok after) :
      after.table = draft.table := by
    rcases fillColumn_cases step with rfl | ⟨value, rfl⟩
    · exact holds
    · exact holds
  exact foldlM_keeps step rfl isFilled

theorem fill_width {supply : Supply} {draft filled : DraftRow}
    (isFilled : fill supply draft = .ok filled) :
    filled.values.length = draft.values.length := by
  have step (before : DraftRow) (column : Column) (after : DraftRow)
      (holds : before.values.length = draft.values.length)
      (step : fillColumn supply before column = .ok after) :
      after.values.length = draft.values.length := by
    rcases fillColumn_cases step with rfl | ⟨value, rfl⟩
    · exact holds
    · exact List.length_set.trans holds
  exact foldlM_keeps step rfl isFilled

/-- A column that is filled has what it is given, and the others have what they had. -/
private theorem fillColumn_getD {supply : Supply} {draft filled : DraftRow} {column : Column}
    (isFilled : fillColumn supply draft column = .ok filled) {position : Nat}
    (inside : position < draft.values.length) :
    filled.values.getD position .null =
      if column.position = position then column.given supply (draft.values.getD position .null)
      else draft.values.getD position .null := by
  unfold fillColumn at isFilled
  by_cases here : column.position = position
  · subst here
    rw [if_pos rfl, Column.given]
    simp only [List.getElem?_eq_getElem inside, Option.some_inj] at isFilled
    rw [List.getD_eq_getElem draft.values _ inside]
    split at isFilled
    · next unset =>
      rw [if_pos unset]
      split at isFilled
      · next value declared =>
        cases isFilled
        simp [DraftRow.setAt, inside, declared]
      · next undeclared =>
        split at isFilled
        · cases isFilled
          simp [inside, undeclared, unset]
        · cases isFilled
    · next given =>
      cases isFilled
      rw [if_neg given, List.getD_eq_getElem _ _ inside]
  · rw [if_neg here]
    rcases fillColumn_cases isFilled with rfl | ⟨value, rfl⟩
    · rfl
    · simp [DraftRow.setAt, here]

private theorem getD_of_foldlM_fillColumn {supply : Supply} {columns : List Column}
    (distinct : (columns.map (·.position)).Nodup) {draft filled : DraftRow}
    (isFilled : columns.foldlM (fillColumn supply) draft = .ok filled) {position : Nat}
    (inside : position < draft.values.length) :
    (position ∉ columns.map (·.position) →
        filled.values.getD position .null = draft.values.getD position .null) ∧
      ∀ column ∈ columns, column.position = position →
        filled.values.getD position .null = column.given supply (draft.values.getD position .null) := by
  induction columns generalizing draft with
  | nil =>
    cases isFilled
    exact ⟨fun _ => rfl, fun column isListed => by cases isListed⟩
  | cons first others inductionHypothesis =>
    rw [List.foldlM_cons] at isFilled
    obtain ⟨next, isNext, othersFilled⟩ := ok_of_bind isFilled
    obtain ⟨apart, distinct⟩ := List.nodup_cons.mp distinct
    have width : next.values.length = draft.values.length := by
      rcases fillColumn_cases isNext with rfl | ⟨value, rfl⟩
      · rfl
      · exact List.length_set
    obtain ⟨kept, given⟩ := inductionHypothesis distinct othersFilled (width.symm ▸ inside)
    have step := fillColumn_getD isNext inside
    refine ⟨fun beside => ?_, fun column isListed here => ?_⟩
    · rw [List.map_cons, List.mem_cons, not_or] at beside
      rw [kept beside.2, step, if_neg (Ne.symm beside.1)]
    · rcases List.mem_cons.mp isListed with rfl | later
      · subst here
        rw [kept apart, step, if_pos rfl]
      · have elsewhere : first.position ≠ position := fun same =>
          apart (List.mem_map.mpr ⟨column, later, here.trans same.symm⟩)
        rw [given column later here, step, if_neg elsewhere]

/-- Every column of a filled draft has what it is given. -/
theorem fill_getD {supply : Supply} {draft filled : DraftRow}
    (isFilled : fill supply draft = .ok filled) {place : Nat} (placed : draft.table.Placed place)
    {position : Nat} (inside : position < draft.values.length) {column : Column}
    (found : draft.table.columns[position]? = some column) :
    filled.values.getD position .null = column.given supply (draft.values.getD position .null) :=
  (getD_of_foldlM_fillColumn placed.positions_nodup isFilled inside).2 column
    (List.mem_of_getElem? found) (placed.columns position column found)

end Transaction

end RelationalAccess
