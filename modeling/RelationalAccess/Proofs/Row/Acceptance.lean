import RelationalAccess.Proofs.Row.Edits

/-!
What a column takes from the host program: nulls, and the values of its host type. What is accepted
is taken as it is, or widened to a value of the host type, and then accepted as it is.
-/

namespace RelationalAccess

/-- The values of a host type. -/
def HostType.Has : HostType → Value → Prop
  | .other _, _ => True
  | .bool, .bool _ | .int64, .int _ | .float32, .float _ | .float64, .float _ | .string, .text _
  | .bytes, .bytes _ | .uuid, .uuid _ | .dateTime, .dateTime _ | .date, .date _
  | .address, .address _ => True
  | .int16, .int number => -Int.pow 2 15 ≤ number.toInt ∧ number.toInt < Int.pow 2 15
  | .int32, .int number => -Int.pow 2 31 ≤ number.toInt ∧ number.toInt < Int.pow 2 31
  | .labelled labels, .text text => text ∈ labels
  | _, _ => False

namespace Column

variable {column : Column} {value taken : Value}

theorem checkRange_eq_ok_iff {bits : Nat} {number : Int64} :
    column.checkRange bits number = .ok value ↔
      value = .int number ∧
        -Int.pow 2 (bits - 1) ≤ number.toInt ∧ number.toInt < Int.pow 2 (bits - 1) := by
  unfold checkRange
  split
  · next fits =>
    constructor
    · intro same
      exact ⟨(Except.ok.inj same).symm, fits⟩
    · rintro ⟨rfl, _⟩
      rfl
  · next beyond => exact iff_of_false nofun fun isNumber => beyond isNumber.2

theorem checkLabel_eq_ok_iff {labels : List String} {text : String} :
    column.checkLabel labels text = .ok value ↔ value = .text text ∧ text ∈ labels := by
  unfold checkLabel
  split
  · next isLabel => simp [List.contains_iff_mem.mp isLabel, eq_comm]
  · next noLabel => simp_all

/-- A column takes as they are nulls and the values of its host type. -/
theorem accept_self_iff :
    column.accept value = .ok value ↔ value = .null ∨ column.host.Has value := by
  unfold accept HostType.Has
  cases column.host <;> cases value <;>
    simp [checkRange_eq_ok_iff, checkLabel_eq_ok_iff]

/-- A value is taken as it is, or is an integer and widened to a double. -/
theorem accept_cases (accepted : column.accept value = .ok taken) :
    taken = value ∨ ∃ number, taken = .float (Binary64.ofInt number) ∧
      (column.host = .float32 ∨ column.host = .float64) := by
  unfold accept at accepted
  split at accepted
  all_goals
    simp only [checkRange_eq_ok_iff, checkLabel_eq_ok_iff, Except.ok.injEq, reduceCtorEq] at accepted
  all_goals grind

/-- What a column takes for a value is null or of its host type. -/
theorem has_of_accept (accepted : column.accept value = .ok taken) :
    taken = .null ∨ column.host.Has taken := by
  rcases accept_cases accepted with rfl | ⟨number, rfl, isFloat | isFloat⟩
  · exact accept_self_iff.mp accepted
  · exact .inr (isFloat ▸ trivial)
  · exact .inr (isFloat ▸ trivial)

end Column

/-- A table takes a value for a column as it is: set by the name of the column in a draft, it is
accepted and is there unchanged. -/
def Table.Takes (table : Table) (position : Nat) (column : Column) (value : Value) : Prop :=
  ∀ draft : DraftRow, draft.table = table → draft.IsWhole →
    ∃ edited, draft.set column.name value = .ok edited ∧ edited.values[position]? = some value

/-- A column is found by its name. -/
theorem Table.columnIndex?_name {table : Table} (distinct : (table.columns.map (·.name)).Nodup)
    {position : Nat} {column : Column} (found : table.columns[position]? = some column) :
    table.columnIndex? column.name = some position := by
  obtain ⟨inside, rfl⟩ := List.getElem?_eq_some_iff.mp found
  have byName : table.columns.findIdx? (·.name == table.columns[position].name) = some position := by
    refine List.findIdx?_eq_some_iff_getElem.mpr ⟨inside, beq_self_eq_true _, fun earlier before => ?_⟩
    rw [List.nodup_iff_pairwise_ne, List.pairwise_map, List.pairwise_iff_getElem] at distinct
    simpa using distinct earlier position (by omega) inside before
  rw [columnIndex?, byName]
  rfl

namespace DraftRow

variable {draft edited : DraftRow} {name : String} {value taken : Value} {position : Nat}
  {column : Column}

/-- What the column of a name accepts is set there. -/
theorem set_of_accept (named : draft.table.columnIndex? name = some position)
    (found : draft.table.columns[position]? = some column)
    (accepted : column.accept value = .ok taken) :
    draft.set name value =
      .ok (if draft.values[position]? = some taken then draft else draft.setAt position taken) := by
  rw [set, named]
  dsimp only
  rw [found]
  dsimp only
  rw [accepted]
  rfl

/-- Where a value was set there is a value that the column takes. -/
theorem accepted_of_set (isSet : draft.set name value = .ok edited)
    (named : draft.table.columnIndex? name = some position)
    (found : draft.table.columns[position]? = some column)
    (left : edited.values[position]? = some taken) : column.accept value = .ok taken := by
  simp only [set, named, found] at isSet
  obtain ⟨accepted, isAccepted, isEdited⟩ := ok_of_bind isSet
  obtain rfl := Except.ok.inj isEdited
  rw [ok_of_mapError isAccepted]
  split at left
  · next same => exact congrArg _ (Option.some.inj (same.symm.trans left))
  · rw [setAt, List.getElem?_set, if_pos rfl] at left
    split at left
    · exact congrArg _ (Option.some.inj left)
    · cases left

end DraftRow

/-- A table takes for a column what the column accepts as it is. -/
theorem Table.takes_iff {table : Table} (distinct : (table.columns.map (·.name)).Nodup)
    {position : Nat} {column : Column} (found : table.columns[position]? = some column)
    {value : Value} : table.Takes position column value ↔ column.accept value = .ok value := by
  have named := table.columnIndex?_name distinct found
  have inside := (List.getElem?_eq_some_iff.mp found).1
  constructor
  · intro takes
    obtain ⟨edited, isSet, isThere⟩ := takes (DraftRow.new table) rfl (DraftRow.new_isWhole table)
    exact DraftRow.accepted_of_set isSet named found isThere
  · rintro accepted draft rfl whole
    refine ⟨_, DraftRow.set_of_accept named found accepted, ?_⟩
    split
    · next isThere => exact isThere
    · have within : position < draft.values.length := whole.symm ▸ inside
      simp [DraftRow.setAt, within]

namespace DraftRow

/-- All values of a draft are nulls or of the host types of their columns. -/
def IsAccepted (draft : DraftRow) : Prop :=
  ∀ (position : Nat) (column : Column), draft.table.columns[position]? = some column →
    draft.values.getD position .null = .null ∨ column.host.Has (draft.values.getD position .null)

theorem new_isAccepted (table : Table) : (new table).IsAccepted := by
  intro position column _
  left
  rw [new, List.getD_eq_getElem?_getD, List.getElem?_map]
  cases table.columns[position]? <;> rfl

theorem IsAccepted.set {draft edited : DraftRow} (isAccepted : draft.IsAccepted) {name : String}
    {value : Value} (isSet : draft.set name value = .ok edited) : edited.IsAccepted := by
  rcases set_cases isSet with rfl | ⟨position, column, taken, found, accepted, rfl⟩
  · exact isAccepted
  · intro place other isThere
    by_cases here : position = place
    · subst here
      obtain rfl := Option.some.inj (found.symm.trans isThere)
      by_cases inside : position < draft.values.length
      · simpa [setAt, inside] using Column.has_of_accept accepted
      · left
        exact List.getD_eq_default _ _ (by simpa [setAt] using inside)
    · simpa [setAt, here] using isAccepted place other isThere

/-- Whatever is attempted on a new draft, it is a draft of its table, of nulls and of values of
the host types. -/
theorem putEach_new (table : Table) (attempts : List (String × Value)) :
    ((new table).putEach attempts).table = table ∧ ((new table).putEach attempts).IsAccepted := by
  have step (before : DraftRow) (name : String) (value : Value) (after : DraftRow)
      (holds : before.table = table ∧ before.IsAccepted)
      (isSet : before.set name value = .ok after) : after.table = table ∧ after.IsAccepted := by
    refine ⟨?_, holds.2.set isSet⟩
    rcases set_cases isSet with rfl | ⟨position, _, taken, _, _, rfl⟩
    · exact holds.1
    · exact holds.1
  have holds : (new table).table = table ∧ (new table).IsAccepted := ⟨rfl, new_isAccepted table⟩
  exact putEach_keeps step holds attempts

end DraftRow

end RelationalAccess
