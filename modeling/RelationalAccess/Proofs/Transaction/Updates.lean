import RelationalAccess.Proofs.Row.Edits
import RelationalAccess.Proofs.Sql.ChangeText
import RelationalAccess.Proofs.Transaction.Lifecycle

/-!
The update of a row with a draft of it. What the statement writes makes of the stored row just the
row that is returned, and the statement is for the row as it was even where its keys are changed.
-/

namespace RelationalAccess

namespace Transaction

variable {World : Type} {backend : Backend World}

/-- An update that returns a row has been executed and has made the row of its draft, unless there
was nothing to change. -/
private theorem update_returns {draft : DraftRow} {row returned : Row}
    {scene last : Scene (World × List Exchange)} (edits : draft.Edits row)
    (isReturned : update backend.recorded draft scene = (.ok returned, last)) :
    returned.table = row.table ∧ returned.values = draft.values ∧
      (draft.hasChanges = true → exchanges last ≠ exchanges scene) := by
  cases changed : draft.hasChanges with
  | false =>
    obtain ⟨_, isStored⟩ := (update_unchanged backend.recorded changed scene).returned rfl isReturned
    obtain rfl := Option.some.inj (edits.stored.symm.trans isStored)
    have nothing := edits.overlay_changes
    rw [draft.changes_of_unchanged changed] at nothing
    exact ⟨rfl, nothing, nofun⟩
  | true =>
    have records := (Write.update_leads changed).returned rfl isReturned
    have outcome := update_draft_outcome backend.recorded edits.stored scene
    rw [isReturned] at outcome
    obtain ⟨execution, change, sends, ⟨_, after, makes, rfl⟩, isAfter⟩ :=
      outcome.of_recordsRow records
    obtain rfl := Option.some.inj isAfter
    obtain ⟨handle, sent, _, record⟩ := sends.exchanges
    refine ⟨makes.sameTable.trans edits.table, makes.sameValues, fun _ same => ?_⟩
    exact absurd (congrArg List.length (record.symm.trans same)) (by simp)

/-- Whatever is attempted on the draft of a stored row, an attempt that is rejected changes nothing,
and the row that the draft becomes is the stored row overlaid with the changed columns. Just these
are written by the statement of an update, into the row of the keys as they were, and the row that
is returned has the keys as they are then. -/
theorem update_overlays (backend : Backend World) {row : Row}
    (whole : row.values.length = row.table.columns.length) (attempts : List (String × Value))
    (scene : Scene (World × List Exchange)) :
    let draft := (DraftRow.ofRow row).putEach attempts
    (∀ name value refusal, (DraftRow.put name value draft).1 = .error refusal →
        (DraftRow.put name value draft).2 = draft) ∧
      (∀ identity, draft.toRow identity =
        .ok { identity, table := row.table, values := overlay row.values draft.changes }) ∧
      ∃ executed,
        exchanges (update backend.recorded draft scene).2 = exchanges scene ++ executed ∧
        (∀ exchange ∈ executed, ∃ handle sent answer read,
          exchange = .executed handle sent answer ∧
            ReadUpdate.ofTokens? (sent.tokens scene.2.1.dialect) = some read ∧
            read.Writes scene.2.1.dialect row.table row.keys draft.changes) ∧
        ∀ returned, (update backend.recorded draft scene).1 = .ok returned →
          (draft.hasChanges = true → executed ≠ []) ∧ returned.table = row.table ∧
            returned.values = overlay row.values draft.changes ∧
            returned.keys = draft.currentKeys := by
  intro draft
  have edits : draft.Edits row := (DraftRow.ofRow_edits row).putEach attempts
  refine ⟨fun _ _ _ => DraftRow.put_rejected, fun identity => ?_, ?_⟩
  · rw [DraftRow.toRow, Row.ofValues, edits.overlay_changes, edits.table,
      if_pos (edits.width.trans whole)]
  · have outcome := update_draft_outcome backend.recorded edits.stored scene
    obtain ⟨executed, record, isStatement⟩ := outcome.executes
    refine ⟨executed, record, fun exchange isExecuted => ?_, fun returned isReturned => ?_⟩
    · obtain ⟨handle, sent, answer, same, isSent⟩ := isStatement exchange isExecuted
      obtain ⟨read, isRead, writes⟩ := Statement.reads_update isSent
      exact ⟨handle, sent, answer, read, same, isRead, edits.table ▸ writes⟩
    · have run : update backend.recorded draft scene = (.ok returned, _) := Prod.ext isReturned rfl
      obtain ⟨sameTable, sameValues, passes⟩ := update_returns edits run
      refine ⟨fun changed nothing => ?_, sameTable, ?_, ?_⟩
      · rw [nothing, List.append_nil] at record
        exact passes changed record
      · exact sameValues.trans edits.overlay_changes.symm
      · rw [Row.keys, sameTable, sameValues, ← edits.table]
        rfl

/-- An item is given another key and another group, then a text for its group, which is rejected, and
then its group as it was, which stays marked. -/
theorem update_overlays_movedItem :
    let draft := (DraftRow.ofRow (groupedItem 1 7)).putEach
      [("id", .int 3), ("grp", .int 9), ("grp", .text "b"), ("grp", .int 7)]
    let scene : Scene (Script × List Exchange) :=
      ({ number := 0, handle := some 0 }, groupedSource, {}, [])
    draft.changes = [(0, .int 3), (1, .int 7)] ∧
      (∃ refusal, (DraftRow.put "grp" (.text "b") draft).1 = .error refusal ∧
        (DraftRow.put "grp" (.text "b") draft).2 = draft) ∧
      ∃ returned passed, ∃ read : ReadUpdate,
        (update Script.backend.recorded draft scene).1 = .ok returned ∧
          returned.keys = ⟨[.int 3]⟩ ∧
          returned.values = overlay [.int 1, .int 7] [(0, .int 3), (1, .int 7)] ∧
          exchanges (update Script.backend.recorded draft scene).2 = [passed] ∧
          read.Writes .sqlite groupedItems ⟨[.int 1]⟩ [(0, .int 3), (1, .int 7)] := by
  intro draft scene
  obtain ⟨rejected, _, executed, record, each, returns⟩ :=
    update_overlays Script.backend (rfl : (groupedItem 1 7).values.length = _)
      [("id", .int 3), ("grp", .int 9), ("grp", .text "b"), ("grp", .int 7)] scene
  refine ⟨rfl, ⟨_, rfl, rejected "grp" (.text "b") _ rfl⟩, ?_⟩
  obtain ⟨_, _, sameValues, sameKeys⟩ := returns _ rfl
  obtain rfl : executed = [_] := record.symm
  obtain ⟨_, _, _, read, _, _, writes⟩ := each _ List.mem_cons_self
  exact ⟨_, _, read, rfl, sameKeys, sameValues, rfl, writes⟩

end Transaction

end RelationalAccess
