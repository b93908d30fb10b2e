import RelationalAccess.Proofs.DataSource.Reads
import RelationalAccess.Proofs.Transaction.Pending
import RelationalAccess.Transaction

/-!
What comes of the operations of a transaction: whether a statement is sent, what
the backend answers, and which change is recorded of it.
-/

namespace RelationalAccess

/-- What the work of a transaction acts on: the transaction, its data source and the world. -/
abbrev Scene (World : Type) := Transaction × DataSource × World

namespace Transaction

variable {World : Type} (backend : Backend World)

/-- An active transaction sends a statement, with the result of it and the world then. -/
def Sends (scene : Scene World) (statement : Except Error Statement)
    (result : Except Error Execution) (world : World) : Prop :=
  scene.1.state = .active ∧ ∃ handle sent, scene.1.handle = some handle ∧ statement = .ok sent ∧
    backend.execute handle sent scene.2.2 = (result, world)

/-- What comes of an operation that sends one statement. -/
inductive Outcome (scene : Scene World) (statement : Except Error Statement)
    (missed : Execution → Prop) (recorded : Execution → Change → Prop) : Scene World → Prop
  /-- Nothing is sent. -/
  | refused : Outcome scene statement missed recorded scene
  /-- The statement fails. -/
  | failed {refusal : Error} {world : World}
      (sends : Sends backend scene statement (.error refusal) world) :
      Outcome scene statement missed recorded (scene.1, scene.2.1, world)
  /-- The statement is carried out, and no change is recorded. -/
  | missed {execution : Execution} {world : World} (nextRow : Nat)
      (sends : Sends backend scene statement (.ok execution) world) (isMissed : missed execution) :
      Outcome scene statement missed recorded (scene.1, { scene.2.1 with nextRow }, world)
  /-- The statement is carried out, and a change is recorded. -/
  | recorded {execution : Execution} {world : World} {change : Change} (nextRow : Nat)
      (sends : Sends backend scene statement (.ok execution) world)
      (isRecorded : recorded execution change) :
      Outcome scene statement missed recorded
        ({ scene.1 with changes := scene.1.changes ++ [change] }, { scene.2.1 with nextRow }, world)

theorem Outcome.imp_missed {backend : Backend World} {scene last : Scene World}
    {statement : Except Error Statement} {missed missed' : Execution → Prop}
    {recorded : Execution → Change → Prop} (outcome : Outcome backend scene statement missed recorded last)
    (weaker : ∀ execution, missed execution → missed' execution) :
    Outcome backend scene statement missed' recorded last := by
  cases outcome with
  | refused => exact .refused
  | failed sends => exact .failed sends
  | missed nextRow sends isMissed => exact .missed nextRow sends (weaker _ isMissed)
  | recorded nextRow sends isRecorded => exact .recorded nextRow sends isRecorded

/-- A row is made of a table and of values, one for each column. -/
structure Makes (table : Table) (values : List Value) (row : Row) : Prop where
  sameTable : row.table = table
  sameValues : row.values = values
  width : values.length = table.columns.length

section

variable {scene : Scene World} {failed : Scene World → Prop}

private theorem current_leads :
    Leads (· = scene) (current : Work World Transaction)
      (fun transaction state => state = scene ∧ transaction = scene.1) failed := by
  rintro _ rfl
  exact ⟨rfl, rfl⟩

private theorem onSource_current_leads :
    Leads (· = scene) (onSource DataSource.current : Work World DataSource)
      (fun source state => state = scene ∧ source = scene.2.1) failed := by
  rintro _ rfl
  exact ⟨rfl, rfl⟩

private theorem checkActive_leads (operation : String) (refused : failed scene) :
    Leads (· = scene) (checkActive operation)
      (fun _ state => state = scene ∧ scene.1.state = .active) failed := by
  refine current_leads.bind fun transaction => Leads.given fun same => ?_
  subst same
  split
  · next active => exact Leads.returns fun _ same => ⟨same, active⟩
  · exact Leads.throws fun _ same => same ▸ refused

private theorem checkOwn_leads (table : Table) (refused : failed scene) :
    Leads (· = scene) (checkOwn table) (fun _ => (· = scene)) failed := by
  refine onSource_current_leads.bind fun source => Leads.given fun _ => ?_
  dsimp only
  split
  · exact Leads.returns fun _ same => same
  · exact Leads.throws fun _ same => same ▸ refused

theorem onSource_apply {α : Type} (action : Session World α) (scene : Scene World) :
    onSource action scene = ((action scene.2).1, scene.1, (action scene.2).2) :=
  rfl

/-- What comes of the execution of a statement. -/
private theorem execute_leads (active : scene.1.state = .active) (operation : String)
    {statement : Except Error Statement} {sent : Statement} (isSent : statement = .ok sent)
    (refused : failed scene)
    (fails : ∀ refusal world, Sends backend scene statement (.error refusal) world →
      failed (scene.1, scene.2.1, world)) :
    Leads (· = scene) (execute backend operation sent)
      (fun execution state => ∃ world, state = (scene.1, scene.2.1, world) ∧
        Sends backend scene statement (.ok execution) world) failed := by
  refine current_leads.bind fun transaction => Leads.given fun same => ?_
  subst same
  split
  · next handle isOpen =>
    rintro scene rfl
    rw [onSource_apply, DataSource.onBackend_apply]
    rcases run : backend.execute handle sent scene.2.2 with ⟨refusal | execution, world⟩
    · exact fails refusal world ⟨active, handle, sent, isOpen, isSent, run⟩
    · exact ⟨world, rfl, active, handle, sent, isOpen, isSent, run⟩
  · exact Leads.throws fun _ same => same ▸ refused

/-- What comes of the making of a row. -/
private theorem makeRow_leads {table : Table} {values : List Value}
    (fails : ∀ nextRow, values.length ≠ table.columns.length →
      failed (scene.1, { scene.2.1 with nextRow }, scene.2.2)) :
    Leads (· = scene) (onSource (DataSource.makeRow table values))
      (fun row state => (∃ nextRow, state = (scene.1, { scene.2.1 with nextRow }, scene.2.2)) ∧
        Makes table values row) failed := by
  rintro scene rfl
  rw [onSource_apply, DataSource.makeRow_apply, Row.ofValues]
  by_cases width : values.length = table.columns.length
  · rw [if_pos width]
    exact ⟨⟨_, rfl⟩, rfl, rfl, width⟩
  · rw [if_neg width]
    exact fails _ width

/-- What comes of a row being made and its change recorded. -/
private theorem keepRow_leads {table : Table} {values : List Value} {kind : ChangeKind}
    {before : Option Row} {last : Scene World → Prop}
    (fails : ∀ nextRow, values.length ≠ table.columns.length →
      last (scene.1, { scene.2.1 with nextRow }, scene.2.2))
    (keeps : ∀ nextRow after, Makes table values after →
      last ({ scene.1 with
          changes := scene.1.changes ++ [{ kind, table := table.id, before, after := some after }] },
        { scene.2.1 with nextRow }, scene.2.2)) :
    Leads (· = scene)
      (do
        let row ← onSource (DataSource.makeRow table values)
        record { kind, table := table.id, before, after := some row }
        return row : Work World Row)
      (fun _ => last) last := by
  refine (makeRow_leads fails).bind fun after => Leads.given fun makes => Leads.forSome fun nextRow => ?_
  have kept : Leads (· = (scene.1, { scene.2.1 with nextRow }, scene.2.2))
      (record { kind, table := table.id, before, after := some after } : Work World Unit)
      (fun _ => last) last := by
    rintro _ rfl
    exact keeps nextRow after makes
  exact kept.bind fun _ => Leads.returns fun _ => id

/-- What comes of an update with the draft of a stored row. Nothing is recorded of it if no
row is changed, or none can be made of the values of the draft. -/
def DraftOutcome (draft : DraftRow) (row : Row) (scene : Scene World) : Scene World → Prop :=
  Outcome backend scene (Statement.update scene.2.1.dialect draft.table row.keys draft.changes)
    (fun execution => execution.affected = 0 ∨ draft.values.length ≠ draft.table.columns.length)
    (fun execution change => execution.affected ≠ 0 ∧
      ∃ after, Makes draft.table draft.values after ∧
        change = { kind := .update, table := draft.table.id, before := row, after := some after })

theorem update_draft_outcome {draft : DraftRow} {row : Row} (isStored : draft.stored = some row)
    (scene : Scene World) : DraftOutcome backend draft row scene (update backend draft scene).2 := by
  obtain ⟨table, stored, values, changed⟩ := draft
  obtain rfl : stored = some row := isStored
  have leads : Leads (· = scene) (update backend ⟨table, some row, values, changed⟩)
      (fun _ => DraftOutcome backend ⟨table, some row, values, changed⟩ row scene)
      (DraftOutcome backend ⟨table, some row, values, changed⟩ row scene) := by
    refine (checkActive_leads "update" .refused).bind fun _ => Leads.given fun active => ?_
    refine (checkOwn_leads table .refused).bind fun _ => ?_
    dsimp only
    split
    · refine onSource_current_leads.bind fun source => Leads.given fun same => ?_
      subst same
      refine (Leads.lift fun _ same => same ▸ .refused).bind fun sent => Leads.given fun isSent => ?_
      refine (execute_leads backend active "update" isSent .refused fun _ _ sends =>
        .failed sends).bind fun execution => Leads.forSome fun world => Leads.given fun sends => ?_
      by_cases none : execution.affected = 0
      · rw [if_pos none]
        exact fun _ same => same ▸ .missed scene.2.1.nextRow sends (.inl none)
      · rw [if_neg none]
        refine keepRow_leads (fun nextRow narrow => .missed nextRow sends (.inr narrow)) ?_
        intro nextRow after makes
        exact .recorded nextRow sends ⟨none, after, makes, rfl⟩
    · exact Leads.returns fun _ same => same ▸ .refused
  exact leads.final rfl

/-- What comes of an update of a row with the values of a draft. -/
def UpdateOutcome (draft : DraftRow) (row : Row) (scene : Scene World) : Scene World → Prop :=
  Outcome backend scene (Statement.update scene.2.1.dialect row.table row.keys draft.changes)
    (fun execution => execution.affected = 0)
    (fun execution change => execution.affected ≠ 0 ∧ ∃ after, Makes row.table draft.values after ∧
      change = { kind := .update, table := row.table.id, before := row, after })

theorem update_outcome {draft : DraftRow} {row : Row} (edits : draft.Edits row)
    (width : row.values.length = row.table.columns.length) (scene : Scene World) :
    UpdateOutcome backend draft row scene (update backend draft scene).2 := by
  have outcome := update_draft_outcome backend edits.stored scene
  rw [DraftOutcome, edits.table] at outcome
  refine outcome.imp_missed fun execution missed => ?_
  exact missed.resolve_right fun narrow => narrow (edits.width.trans width)

/-- A draft of a new row updates nothing. -/
theorem update_of_new {draft : DraftRow} (isNew : draft.stored = none) (scene : Scene World) :
    (update backend draft scene).2 = scene := by
  have leads : Leads (· = scene) (update backend draft) (fun _ => (· = scene)) (· = scene) := by
    refine (checkActive_leads "update" ?_).bind fun _ => Leads.given fun _ => ?_
    · rfl
    refine (checkOwn_leads draft.table ?_).bind fun _ => ?_
    · rfl
    rw [isNew]
    exact Leads.throws fun _ same => same
  exact leads.final rfl

/-- A draft without changes writes nothing, and is of the row that is returned. -/
theorem update_unchanged {draft : DraftRow} (unchanged : draft.hasChanges = false)
    (scene : Scene World) :
    Leads (· = scene) (update backend draft)
      (fun row state => state = scene ∧ draft.stored = some row) (· = scene) := by
  refine (checkActive_leads "update" ?_).bind fun _ => Leads.given fun _ => ?_
  · rfl
  refine (checkOwn_leads draft.table ?_).bind fun _ => ?_
  · rfl
  dsimp only
  split
  · exact Leads.throws fun _ same => same
  · next stored isStored =>
    rw [if_neg (ne_true_of_eq_false unchanged)]
    exact Leads.returns fun _ same => ⟨same, isStored⟩

/-- What comes of the insertion of a draft. Nothing is recorded of it if no row can be made. -/
def InsertOutcome (supply : Supply) (draft : DraftRow) (scene : Scene World) :
    Scene World → Prop :=
  Outcome backend scene
    (do Statement.insert scene.2.1.dialect draft.table (← fill supply draft).values)
    (fun execution => ∃ filled, fill supply draft = .ok filled ∧ ∀ numbered,
      numberColumns execution filled = .ok numbered →
        numbered.values.length ≠ draft.table.columns.length)
    (fun execution change => ∃ filled numbered after, fill supply draft = .ok filled ∧
      numberColumns execution filled = .ok numbered ∧ Makes draft.table numbered.values after ∧
        change = { kind := .insert, table := draft.table.id, before := none, after := some after })

theorem insert_outcome (supply : Supply) {draft : DraftRow} (isNew : draft.stored = none)
    (scene : Scene World) :
    InsertOutcome backend supply draft scene (insert backend supply draft scene).2 := by
  have leads : Leads (· = scene) (insert backend supply draft)
      (fun _ => InsertOutcome backend supply draft scene)
      (InsertOutcome backend supply draft scene) := by
    refine (checkActive_leads "insert" .refused).bind fun _ => Leads.given fun active => ?_
    refine (checkOwn_leads draft.table .refused).bind fun _ => ?_
    rw [isNew]
    dsimp only
    refine (Leads.lift fun _ same => same ▸ .refused).bind fun filled => Leads.given fun isFilled => ?_
    refine onSource_current_leads.bind fun source => Leads.given fun same => ?_
    subst same
    refine (Leads.lift fun _ same => same ▸ .refused).bind fun sent => Leads.given fun isSent => ?_
    have statement : (do Statement.insert scene.2.1.dialect draft.table (← fill supply draft).values) =
        .ok sent := by
      rw [isFilled]
      exact isSent
    refine (execute_leads backend active "insert" statement .refused fun _ _ sends =>
      .failed sends).bind fun execution => Leads.forSome fun world => Leads.given fun sends => ?_
    cases isNumbered : numberColumns execution filled with
    | error refusal =>
      have lost : InsertOutcome backend supply draft scene (scene.1, scene.2.1, world) := by
        refine .missed scene.2.1.nextRow sends ⟨filled, isFilled, fun numbered same => ?_⟩
        rw [isNumbered] at same
        cases same
      exact Leads.throws fun _ same => same ▸ lost
    | ok numbered =>
      refine keepRow_leads (fun nextRow narrow => ?_) fun nextRow after makes => ?_
      · refine .missed nextRow sends ⟨filled, isFilled, fun _ same => ?_⟩
        cases isNumbered.symm.trans same
        exact narrow
      · exact .recorded nextRow sends ⟨filled, numbered, after, isFilled, isNumbered, makes, rfl⟩
  exact leads.final rfl

/-- A draft of a stored row inserts nothing. -/
theorem insert_of_stored {draft : DraftRow} {row : Row} (isStored : draft.stored = some row)
    (supply : Supply) (scene : Scene World) : (insert backend supply draft scene).2 = scene := by
  have leads : Leads (· = scene) (insert backend supply draft) (fun _ => (· = scene)) (· = scene) := by
    refine (checkActive_leads "insert" ?_).bind fun _ => Leads.given fun _ => ?_
    · rfl
    refine (checkOwn_leads draft.table ?_).bind fun _ => ?_
    · rfl
    rw [isStored]
    exact Leads.throws fun _ same => same
  exact leads.final rfl

/-- What comes of the deletion of a row. -/
def DeleteOutcome (row : Row) (scene : Scene World) : Scene World → Prop :=
  Outcome backend scene (Statement.delete scene.2.1.dialect row.table row.keys)
    (fun execution => execution.affected = 0)
    (fun execution change => execution.affected ≠ 0 ∧
      change = { kind := .delete, table := row.table.id, before := row, after := none })

theorem delete_outcome (row : Row) (scene : Scene World) :
    DeleteOutcome backend row scene (delete backend row scene).2 := by
  have leads : Leads (· = scene) (delete backend row) (fun _ => DeleteOutcome backend row scene)
      (DeleteOutcome backend row scene) := by
    refine (checkActive_leads "delete" .refused).bind fun _ => Leads.given fun active => ?_
    refine (checkOwn_leads row.table .refused).bind fun _ => ?_
    refine onSource_current_leads.bind fun source => Leads.given fun same => ?_
    subst same
    refine (Leads.lift fun _ same => same ▸ .refused).bind fun sent => Leads.given fun isSent => ?_
    refine (execute_leads backend active "delete" isSent .refused fun _ _ sends =>
      .failed sends).bind fun execution => Leads.forSome fun world => Leads.given fun sends => ?_
    split
    · next none => exact Leads.returns fun _ same => same ▸ .missed scene.2.1.nextRow sends none
    · next some =>
      have kept : Leads (· = (scene.1, scene.2.1, world))
          (record { kind := .delete, table := row.table.id, before := row, after := none } :
            Work World Unit)
          (fun _ => DeleteOutcome backend row scene) (DeleteOutcome backend row scene) := by
        rintro _ rfl
        exact .recorded scene.2.1.nextRow sends ⟨some, rfl⟩
      exact kept.bind fun _ => Leads.returns fun _ => id
  exact leads.final rfl

theorem start_apply (state : DataSource × World) :
    start backend state =
      match backend.start state.2 with
      | (.ok handle, world) => (.ok { number := state.1.nextTransaction, handle := some handle },
          { state.1 with nextTransaction := state.1.nextTransaction + 1 }, world)
      | (.error refusal, world) => (.error refusal, state.1, world) := by
  unfold start
  rw [bind_apply, DataSource.onBackend_apply]
  rcases backend.start state.2 with ⟨_ | handle, world⟩
  · rfl
  · rfl

private theorem checkActive_apply (operation : String) :
    checkActive operation scene =
      if scene.1.state = .active then (.ok (), scene)
      else (.error (.notActive operation scene.1.number scene.1.state), scene) := by
  unfold checkActive
  rw [bind_apply]
  show (if scene.1.state = .active then _ else _ : Work World Unit) scene = _
  split
  · rfl
  · rfl

private theorem release_apply :
    (release : Work World (Option Nat)) scene =
      (.ok scene.1.handle, { scene.1 with handle := none }, scene.2) :=
  rfl

private theorem modifyCurrent_apply (change : Transaction → Transaction) :
    (modifyCurrent change : Work World Unit) scene = (.ok (), change scene.1, scene.2) :=
  rfl

/-- Whatever is to be done with a transaction that is not active is refused. -/
theorem checkActive_bind_of_ended {α : Type} (ended : scene.1.state ≠ .active) (operation : String)
    (next : Unit → Work World α) :
    (checkActive operation >>= next) scene =
      (.error (.notActive operation scene.1.number scene.1.state), scene) := by
  rw [bind_apply, checkActive_apply, if_neg ended]

/-- A transaction that is not active has nothing to commit. -/
theorem commit_of_ended (ended : scene.1.state ≠ .active) : (commit backend scene).2 = scene := by
  unfold commit
  rw [checkActive_bind_of_ended ended]

/-- What comes of a commit: the pending changes are applied if the backend has committed. -/
theorem commit_apply (active : scene.1.state = .active) {handle : Nat}
    (isOpen : scene.1.handle = some handle) :
    (commit backend scene).2 =
      match backend.commit handle scene.2.2 with
      | (.ok _, world) => ({ scene.1 with handle := none, state := .committed, changes := [] },
          { scene.2.1 with cache := scene.2.1.cache.withChanges scene.1.changes }, world)
      | (.error _, world) =>
        ({ scene.1 with handle := none, state := .closed }, scene.2.1, world) := by
  unfold commit
  rw [bind_apply, checkActive_apply, if_pos active]
  dsimp only
  rw [bind_apply, release_apply]
  dsimp only
  rw [isOpen]
  dsimp only
  rw [bind_apply, tryCatch_apply, onSource_apply, DataSource.onBackend_apply]
  rcases backend.commit handle scene.2.2 with ⟨_ | _, world⟩
  · rfl
  · rfl

/-- After a commit all recorded changes are applied to the caches. -/
theorem cache_of_committed {last : Scene World} {told : List Announcement}
    (committed : commit backend scene = (.ok told, last)) :
    last.2.1.cache = scene.2.1.cache.withChanges scene.1.changes := by
  have active : scene.1.state = .active := by
    by_contra ended
    rw [commit, checkActive_bind_of_ended ended] at committed
    cases committed
  unfold commit at committed
  rw [bind_apply, checkActive_apply, if_pos active] at committed
  dsimp only at committed
  rw [bind_apply, release_apply] at committed
  revert committed
  dsimp only
  cases scene.1.handle with
  | none =>
    rintro ⟨⟩
    rfl
  | some handle =>
    dsimp only
    rw [bind_apply, tryCatch_apply, onSource_apply, DataSource.onBackend_apply]
    rcases backend.commit handle scene.2.2 with ⟨_ | _, world⟩
    · rintro ⟨⟩
    · rintro ⟨⟩
      rfl

theorem rollback_of_ended (ended : scene.1.state ≠ .active) : (rollback backend scene).2 = scene := by
  unfold rollback
  rw [checkActive_bind_of_ended ended]

/-- What comes of a rollback, whether the backend fails at it or not. -/
theorem rollback_apply (active : scene.1.state = .active) {handle : Nat}
    (isOpen : scene.1.handle = some handle) :
    (rollback backend scene).2 =
      ({ scene.1 with handle := none, state := .rolledBack, changes := [] }, scene.2.1,
        (backend.rollback handle scene.2.2).2) := by
  unfold rollback
  rw [bind_apply, checkActive_apply, if_pos active]
  dsimp only
  rw [bind_apply, modifyCurrent_apply]
  dsimp only
  rw [bind_apply, release_apply]
  dsimp only
  rw [isOpen]
  rfl

theorem drop_of_ended (ended : scene.1.state ≠ .active) : (drop backend scene).2 = scene := by
  unfold drop
  rw [bind_apply]
  show ((if scene.1.state = .active then _ else _ : Work World Unit) scene).2 = _
  rw [if_neg ended]
  rfl

/-- What comes of a transaction being given up. -/
theorem drop_apply (active : scene.1.state = .active) {handle : Nat}
    (isOpen : scene.1.handle = some handle) :
    (drop backend scene).2 =
      ({ scene.1 with handle := none, state := .closed }, scene.2.1,
        (backend.rollback handle scene.2.2).2) := by
  unfold drop
  rw [bind_apply]
  show ((if scene.1.state = .active then _ else _ : Work World Unit) scene).2 = _
  rw [if_pos active, bind_apply, modifyCurrent_apply]
  dsimp only
  rw [bind_apply, release_apply]
  dsimp only
  rw [isOpen]
  dsimp only
  rw [tryCatch_apply, onSource_apply, DataSource.onBackend_apply]
  rcases backend.rollback handle scene.2.2 with ⟨_ | _, world⟩
  · rfl
  · rfl

end

end Transaction

end RelationalAccess
