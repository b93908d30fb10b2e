import RelationalAccess.Proofs.Sql.Binding

/-!
Drafts that are edited in place, also by attempts that are rejected. Whatever was attempted, the
changed columns laid over the values of the stored row give the values of the draft.
-/

namespace RelationalAccess

/-- Values with others laid over them, each at its position. -/
def overlay (values : List Value) (changes : List (Nat × Value)) : List Value :=
  changes.foldl (fun values (position, value) => values.set position value) values

theorem length_overlay (values : List Value) (changes : List (Nat × Value)) :
    (overlay values changes).length = values.length := by
  induction changes generalizing values with
  | nil => rfl
  | cons change changes inductionHypothesis =>
    exact (inductionHypothesis (values.set change.1 change.2)).trans List.length_set

/-- Where something is laid over it stands, and elsewhere what was there before. -/
theorem getD_overlay {values : List Value} {position : Nat} (inside : position < values.length)
    (positions : List Nat) (image : Nat → Value) :
    (overlay values (positions.map fun place => (place, image place))).getD position .null =
      if position ∈ positions then image position else values.getD position .null := by
  induction positions generalizing values with
  | nil => rfl
  | cons place places inductionHypothesis =>
    have stillInside : position < (values.set place (image place)).length := by simpa using inside
    show (overlay (values.set place (image place)) _).getD position .null = _
    rw [inductionHypothesis stillInside]
    by_cases later : position ∈ places
    · simp [later]
    · by_cases here : position = place
      · subst here
        simp [later, inside]
      · simp [later, here, Ne.symm here]

namespace DraftRow

/-- A value that the host program puts into a column of a draft in place: the value is written and
the column marked, unless the value is there already. -/
def put (name : String) (value : Value) : ExceptT Error (StateM DraftRow) Unit := do
  let draft ← get
  match draft.table.columnIndex? name with
  | none => throw (.unknownColumn draft.table.name name)
  | some position =>
    match draft.table.columns[position]? with
    | none => throw (.unknownColumn draft.table.name name)
    | some column => do
      let accepted ← ((column.accept value).mapError .conversion : Except Error Value)
      if draft.values[position]? ≠ some accepted then
        modify fun draft => { draft with values := draft.values.set position accepted }
        modify fun draft => { draft with changed := draft.changed.set position true }

/-- What is put in place is what is set in a copy, and nothing is if the value is rejected. -/
theorem put_apply (name : String) (value : Value) (draft : DraftRow) :
    put name value draft =
      match draft.set name value with
      | .ok edited => (.ok (), edited)
      | .error refusal => (.error refusal, draft) := by
  have got : (get : ExceptT Error (StateM DraftRow) DraftRow) draft = (.ok draft, draft) := rfl
  unfold put set
  rw [bind_apply, got]
  dsimp only
  cases draft.table.columnIndex? name with
  | none => rfl
  | some position =>
    dsimp only
    cases draft.table.columns[position]? with
    | none => rfl
    | some column =>
      dsimp only
      cases (column.accept value).mapError Error.conversion with
      | error refusal => rfl
      | ok taken =>
        rw [lift_ok_bind]
        show (if draft.values[position]? ≠ some taken then _ else _ :
          ExceptT Error (StateM DraftRow) Unit) draft =
            (.ok (), if draft.values[position]? = some taken then draft else _)
        by_cases there : draft.values[position]? = some taken
        · rw [if_neg (not_not_intro there), if_pos there]
          rfl
        · rw [if_pos there, if_neg there]
          rfl

/-- A draft after some attempts to put values into columns, rejected ones among them. -/
def putEach (draft : DraftRow) (attempts : List (String × Value)) : DraftRow :=
  attempts.foldl (fun draft (name, value) => (put name value draft).2) draft

/-- An attempt that is rejected changes nothing. -/
theorem put_rejected {name : String} {value : Value} {draft : DraftRow} {refusal : Error}
    (rejected : (put name value draft).1 = .error refusal) : (put name value draft).2 = draft := by
  rw [put_apply] at rejected ⊢
  cases isSet : draft.set name value with
  | error _ => rfl
  | ok edited =>
    rw [isSet] at rejected
    cases rejected

/-- A draft without marks has no changes. -/
theorem changes_of_unchanged {draft : DraftRow} (unchanged : draft.hasChanges = false) :
    draft.changes = [] := by
  rw [changes, List.map_eq_nil_iff, List.eq_nil_iff_forall_not_mem]
  intro position changed
  rw [mem_changedColumns] at changed
  rw [hasChanges, List.any_eq_false] at unchanged
  have inside : position < draft.changed.length := by
    by_contra beyond
    rw [List.getD_eq_default _ _ (Nat.le_of_not_lt beyond)] at changed
    cases changed
  rw [List.getD_eq_getElem _ _ inside] at changed
  exact unchanged _ (List.getElem_mem inside) changed

/-- What every accepted attempt keeps holds after all attempts. -/
theorem putEach_keeps {invariant : DraftRow → Prop}
    (step : ∀ draft name value edited, invariant draft → draft.set name value = .ok edited →
      invariant edited)
    {draft : DraftRow} (holds : invariant draft) (attempts : List (String × Value)) :
    invariant (draft.putEach attempts) := by
  induction attempts generalizing draft with
  | nil => exact holds
  | cons attempt attempts inductionHypothesis =>
    refine @inductionHypothesis (put attempt.1 attempt.2 draft).2 ?_
    rw [put_apply]
    cases isSet : draft.set attempt.1 attempt.2 with
    | error _ => exact holds
    | ok edited => exact step draft attempt.1 attempt.2 edited holds isSet

namespace Edits

variable {draft : DraftRow} {row : Row}

/-- Whatever is attempted on the draft of a row, the draft edits the row. -/
theorem putEach (edits : draft.Edits row) (attempts : List (String × Value)) :
    (draft.putEach attempts).Edits row := by
  have step (before : DraftRow) (name : String) (value : Value) (after : DraftRow)
      (holds : before.Edits row) (isSet : before.set name value = .ok after) : after.Edits row := by
    rcases set_cases isSet with rfl | ⟨position, _, taken, _, _, rfl⟩
    · exact holds
    · exact holds.setAt position taken
  exact putEach_keeps step edits attempts

/-- The changed columns laid over the values of the row give the values of the draft. -/
theorem overlay_changes (edits : draft.Edits row) :
    overlay row.values draft.changes = draft.values := by
  have width := length_overlay row.values draft.changes
  refine ext_getD .null (width.trans edits.width.symm) fun position inside => ?_
  have laid := getD_overlay (width ▸ inside) draft.changedColumns
    fun place => draft.values.getD place .null
  refine laid.trans ?_
  split
  · rfl
  · next unmarked =>
    rw [mem_changedColumns] at unmarked
    exact (edits.kept position (by simpa using unmarked)).symm

end Edits

end DraftRow

end RelationalAccess
