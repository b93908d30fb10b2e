import RelationalAccess.Proofs.Transaction.Outcomes

/-!
Writes of a transaction, and what passes between it and its backend. A write may record
one change, and may have one statement executed; if it fails it records nothing. What was
recorded before stays.
-/

namespace RelationalAccess

/-- What passes between a transaction and its backend: a call, and the answer to it. -/
inductive Exchange where
  | executed (handle : Nat) (statement : Statement) (answer : Except Error Execution)
  | committed (handle : Nat) (answer : Except Error Unit)
  | rolledBack (handle : Nat) (answer : Except Error Unit)

/-- Whether the transaction of the backend is ended by what passes. -/
def Exchange.isEnding : Exchange → Bool
  | executed .. => false
  | committed .. | rolledBack .. => true

/-- A backend, and a record of what passes in its transactions. -/
def Backend.recorded {World : Type} (backend : Backend World) : Backend (World × List Exchange) where
  query statement := fun (world, exchanges) =>
    let (answer, world) := backend.query statement world
    (answer, world, exchanges)
  start := fun (world, exchanges) =>
    let (answer, world) := backend.start world
    (answer, world, exchanges)
  execute handle statement := fun (world, exchanges) =>
    let (answer, world) := backend.execute handle statement world
    (answer, world, exchanges ++ [.executed handle statement answer])
  commit handle := fun (world, exchanges) =>
    let (answer, world) := backend.commit handle world
    (answer, world, exchanges ++ [.committed handle answer])
  rollback handle := fun (world, exchanges) =>
    let (answer, world) := backend.rollback handle world
    (answer, world, exchanges ++ [.rolledBack handle answer])

/-- One change more has been recorded, which leaves a row of its table. -/
def Transaction.RecordsRow (transaction : Transaction) (row : Row) (last : Transaction) : Prop :=
  ∃ change : Change, last.changes = transaction.changes ++ [change] ∧
    change.table = row.table.id ∧ change.after = some row

/-- A write that can be asked of a transaction, with a draft of all columns. -/
inductive Write where
  | insert (supply : Supply) (draft : DraftRow) (whole : draft.IsWhole)
  | update (draft : DraftRow) (whole : draft.IsWhole)
  | delete (row : Row)

namespace Transaction

variable {World : Type} {backend : Backend World}

/-- What has passed so far. -/
def exchanges (scene : Scene (World × List Exchange)) : List Exchange := scene.2.2.2

/-- A transaction begins with a transaction of the backend and with nothing recorded. -/
theorem start_recorded {source source' : DataSource} {world : World} {world' : World × List Exchange}
    {transaction : Transaction}
    (started : start backend.recorded (source, world, []) = (.ok transaction, source', world')) :
    ∃ number handle, transaction = { number, handle := some handle } ∧ world'.2 = [] := by
  rw [start_apply] at started
  simp only [Backend.recorded] at started
  rcases begun : backend.start world with ⟨refusal | handle, later⟩
  · rw [begun] at started
    cases started
  · rw [begun] at started
    cases started
    exact ⟨source.nextTransaction, handle, rfl, rfl⟩

/-- What a statement sent by an active transaction leaves in the record. -/
theorem Sends.exchanges {scene : Scene (World × List Exchange)} {statement : Except Error Statement}
    {result : Except Error Execution} {world : World × List Exchange}
    (sends : Sends backend.recorded scene statement result world) :
    ∃ handle sent, statement = .ok sent ∧
      world.2 = Transaction.exchanges scene ++ [.executed handle sent result] := by
  obtain ⟨_, handle, sent, _, isSent, answered⟩ := sends
  refine ⟨handle, sent, isSent, ?_⟩
  cases answered
  rfl

/-- What a write may change: it may record one change more, make rows, and have a statement
executed. -/
structure Writes (scene last : Scene (World × List Exchange)) : Prop where
  transaction : ∃ recorded : Option Change,
    last.1 = { scene.1 with changes := scene.1.changes ++ recorded.toList }
  source : ∃ nextRow, last.2.1 = { scene.2.1 with nextRow }
  exchanges : ∃ executed, Transaction.exchanges last = Transaction.exchanges scene ++ executed ∧
    ∀ exchange ∈ executed, exchange.isEnding = false

theorem Writes.refl (scene : Scene (World × List Exchange)) : Writes scene scene where
  transaction := ⟨none, by simp⟩
  source := ⟨scene.2.1.nextRow, rfl⟩
  exchanges := ⟨[], by simp⟩

theorem Outcome.writes {scene last : Scene (World × List Exchange)}
    {statement : Except Error Statement} {missed : Execution → Prop}
    {recorded : Execution → Change → Prop}
    (outcome : Outcome backend.recorded scene statement missed recorded last) : Writes scene last := by
  have same : scene.1 =
      { scene.1 with changes := scene.1.changes ++ (none : Option Change).toList } := by
    simp
  cases outcome with
  | refused => exact .refl scene
  | failed sends =>
    obtain ⟨handle, sent, _, record⟩ := sends.exchanges
    exact ⟨⟨none, same⟩, ⟨scene.2.1.nextRow, rfl⟩, _, record, by simp [Exchange.isEnding]⟩
  | missed nextRow sends _ =>
    obtain ⟨handle, sent, _, record⟩ := sends.exchanges
    exact ⟨⟨none, same⟩, ⟨nextRow, rfl⟩, _, record, by simp [Exchange.isEnding]⟩
  | @recorded _ _ change nextRow sends _ =>
    obtain ⟨handle, sent, _, record⟩ := sends.exchanges
    exact ⟨⟨some change, rfl⟩, ⟨nextRow, rfl⟩, _, record, by simp [Exchange.isEnding]⟩

/-- What passes in an operation is its statement. -/
theorem Outcome.executes {scene last : Scene (World × List Exchange)}
    {statement : Except Error Statement} {missed : Execution → Prop}
    {recorded : Execution → Change → Prop}
    (outcome : Outcome backend.recorded scene statement missed recorded last) :
    ∃ executed, Transaction.exchanges last = Transaction.exchanges scene ++ executed ∧
      ∀ exchange ∈ executed, ∃ handle sent answer, exchange = .executed handle sent answer ∧
        statement = .ok sent := by
  have sent {result : Except Error Execution} {world : World × List Exchange}
      (sends : Sends backend.recorded scene statement result world) :
      ∃ executed, world.2 = Transaction.exchanges scene ++ executed ∧
        ∀ exchange ∈ executed, ∃ handle sent answer, exchange = .executed handle sent answer ∧
          statement = .ok sent := by
    obtain ⟨handle, sent, isSent, record⟩ := sends.exchanges
    exact ⟨_, record, by simpa using isSent⟩
  cases outcome with
  | refused => exact ⟨[], (List.append_nil _).symm, nofun⟩
  | failed sends | missed _ sends _ | recorded _ sends _ => exact sent sends

/-- An operation of which a row is recorded has had its statement carried out. -/
theorem Outcome.of_recordsRow {scene last : Scene World} {statement : Except Error Statement}
    {missed : Execution → Prop} {recorded : Execution → Change → Prop} {row : Row}
    (outcome : Outcome backend scene statement missed recorded last)
    (records : scene.1.RecordsRow row last.1) :
    ∃ execution change, Sends backend scene statement (.ok execution) last.2.2 ∧
      recorded execution change ∧ change.after = some row := by
  obtain ⟨change, extended, _, isAfter⟩ := records
  cases outcome with
  | refused | failed _ | missed _ _ _ => exact absurd (congrArg List.length extended) (by simp)
  | recorded nextRow sends isRecorded =>
    obtain ⟨rfl⟩ := List.append_cancel_left extended
    exact ⟨_, _, sends, isRecorded, isAfter⟩

end Transaction

namespace Write

variable {World : Type}

/-- What a write is called in refusals. -/
def operation : Write → String
  | insert .. => "insert"
  | update .. => "update"
  | delete _ => "delete"

/-- A write carried out, whatever it returns. -/
def perform (backend : Backend World) : Write → Work World Unit
  | insert supply draft _ => discard (Transaction.insert backend supply draft)
  | update draft _ => discard (Transaction.update backend draft)
  | delete row => discard (Transaction.delete backend row)

/-- The scene that a write leaves. -/
def after (backend : Backend World) (scene : Scene World) (asked : Write) : Scene World :=
  (asked.perform backend scene).2

/-- Writes carried out one after another. -/
def run (backend : Backend World) (scene : Scene World) (writes : List Write) : Scene World :=
  writes.foldl (after backend) scene

variable {backend : Backend World}

theorem after_writes (scene : Scene (World × List Exchange)) (asked : Write) :
    Transaction.Writes scene (after backend.recorded scene asked) := by
  cases asked with
  | insert supply draft whole =>
    rw [after, perform, discard_apply]
    cases isStored : draft.stored with
    | none => exact (Transaction.insert_outcome backend.recorded supply isStored scene).writes
    | some row =>
      rw [Transaction.insert_of_stored backend.recorded isStored supply scene]
      exact .refl scene
  | update draft whole =>
    rw [after, perform, discard_apply]
    cases isStored : draft.stored with
    | none =>
      rw [Transaction.update_of_new backend.recorded isStored scene]
      exact .refl scene
    | some row => exact (Transaction.update_draft_outcome backend.recorded isStored scene).writes
  | delete row =>
    rw [after, perform, discard_apply]
    exact (Transaction.delete_outcome backend.recorded row scene).writes

/-- A write of a transaction that is not active is refused. -/
theorem perform_of_ended {scene : Scene World} (ended : scene.1.state ≠ .active) (asked : Write) :
    asked.perform backend scene =
      (.error (.notActive asked.operation scene.1.number scene.1.state), scene) := by
  have refused {α : Type} (operation : String) (next : Unit → Work World α) :=
    Transaction.checkActive_bind_of_ended ended operation next
  cases asked with
  | insert supply draft whole =>
    rw [perform, discard_apply, Transaction.insert, refused]
    rfl
  | update draft whole =>
    rw [perform, discard_apply, Transaction.update, refused]
    rfl
  | delete row =>
    rw [perform, discard_apply, Transaction.delete, refused]
    rfl

section

variable {transaction : Transaction}

private theorem onSource_preserves {α : Type} (action : Session World α) :
    Preserves (fun scene => scene.1 = transaction) (Transaction.onSource action) := by
  rintro ⟨_, state⟩ rfl
  rw [Transaction.onSource_apply]
  rcases action state with ⟨_ | _, _⟩
  · rfl
  · rfl

private theorem current_preserves :
    Preserves (fun scene => scene.1 = transaction) (Transaction.current : Work World Transaction) :=
  fun _ same => same

private theorem checkActive_preserves (operation : String) :
    Preserves (fun scene : Scene World => scene.1 = transaction)
      (Transaction.checkActive operation) := by
  refine current_preserves.bind fun now => ?_
  split
  · exact Preserves.returns
  · exact Leads.throws fun _ same => same

private theorem checkOwn_preserves (table : Table) :
    Preserves (fun scene : Scene World => scene.1 = transaction) (Transaction.checkOwn table) := by
  refine (onSource_preserves DataSource.current).bind fun source => ?_
  dsimp only
  split
  · exact Preserves.returns
  · exact Leads.throws fun _ same => same

private theorem execute_preserves (operation : String) (statement : Statement) :
    Preserves (fun scene => scene.1 = transaction)
      (Transaction.execute backend operation statement) := by
  refine current_preserves.bind fun now => ?_
  split
  · exact onSource_preserves _
  · exact Leads.throws fun _ same => same

/-- A change is recorded last, and then nothing fails. -/
private theorem record_leads {α : Type} (change : Change) (result : α) :
    Leads (fun scene => scene.1 = transaction)
      (do
        Transaction.record change
        return result : Work World α)
      (fun returned scene => returned = result ∧
        scene.1.changes = transaction.changes ++ [change]) (fun scene => scene.1 = transaction) := by
  rintro scene rfl
  exact ⟨rfl, rfl⟩

private theorem makeRow_leads (table : Table) (values : List Value) :
    Leads (fun scene : Scene World => scene.1 = transaction)
      (Transaction.onSource (DataSource.makeRow table values))
      (fun row scene => scene.1 = transaction ∧ row.table = table)
      (fun scene => scene.1 = transaction) := by
  rintro scene rfl
  rw [Transaction.onSource_apply, DataSource.makeRow_apply, Row.ofValues]
  by_cases width : values.length = table.columns.length
  · rw [if_pos width]
    exact ⟨rfl, rfl⟩
  · rw [if_neg width]

/-- What is made of a row is in a change of its table, which is recorded last. -/
private theorem keepRow_leads (table : Table) (values : List Value) (kind : ChangeKind)
    (before : Option Row) :
    Leads (fun scene => scene.1 = transaction)
      (do
        let row ← Transaction.onSource (DataSource.makeRow table values)
        Transaction.record { kind, table := table.id, before, after := some row }
        return row : Work World Row)
      (fun row scene => transaction.RecordsRow row scene.1) (fun scene => scene.1 = transaction) := by
  refine (makeRow_leads table values).bind fun row => Leads.given fun ofTable => ?_
  refine (record_leads _ row).weaken (fun _ => id) ?_ fun _ => id
  rintro returned scene ⟨rfl, recorded⟩
  exact ⟨_, recorded, congrArg Table.id ofTable.symm, rfl⟩

theorem insert_leads (supply : Supply) (draft : DraftRow) :
    Leads (fun scene => scene.1 = transaction) (Transaction.insert backend supply draft)
      (fun row scene => transaction.RecordsRow row scene.1) (fun scene => scene.1 = transaction) := by
  refine Leads.bind (checkActive_preserves "insert") fun _ => ?_
  refine Leads.bind (checkOwn_preserves draft.table) fun _ => ?_
  split
  · exact Leads.throws fun _ same => same
  · refine Leads.bind Preserves.lift fun filled => ?_
    refine Leads.bind (onSource_preserves DataSource.current) fun source => ?_
    refine Leads.bind Preserves.lift fun statement => ?_
    refine Leads.bind (execute_preserves "insert" statement) fun execution => ?_
    refine Leads.bind Preserves.lift fun numbered => ?_
    exact keepRow_leads draft.table numbered.values .insert none

/-- An update of a draft with changes. -/
theorem update_leads {draft : DraftRow} (changed : draft.hasChanges = true) :
    Leads (fun scene => scene.1 = transaction) (Transaction.update backend draft)
      (fun row scene => transaction.RecordsRow row scene.1) (fun scene => scene.1 = transaction) := by
  refine Leads.bind (checkActive_preserves "update") fun _ => ?_
  refine Leads.bind (checkOwn_preserves draft.table) fun _ => ?_
  split
  · exact Leads.throws fun _ same => same
  · next stored isStored =>
    rw [if_pos changed]
    refine Leads.bind (onSource_preserves DataSource.current) fun source => ?_
    refine Leads.bind Preserves.lift fun statement => ?_
    refine Leads.bind (execute_preserves "update" statement) fun execution => ?_
    by_cases none : execution.affected = 0
    · rw [if_pos none]
      exact Leads.throws fun _ same => same
    · rw [if_neg none]
      exact keepRow_leads draft.table draft.values .update (some stored)

private theorem delete_leads (row : Row) :
    Leads (fun scene => scene.1 = transaction) (Transaction.delete backend row)
      (fun _ scene => transaction.changes <+: scene.1.changes)
      (fun scene => scene.1 = transaction) := by
  refine Leads.bind (checkActive_preserves "delete") fun _ => ?_
  refine Leads.bind (checkOwn_preserves row.table) fun _ => ?_
  refine Leads.bind (onSource_preserves DataSource.current) fun source => ?_
  refine Leads.bind Preserves.lift fun statement => ?_
  refine Leads.bind (execute_preserves "delete" statement) fun execution => ?_
  split
  · exact Leads.returns fun _ same => same ▸ List.prefix_refl _
  · refine (record_leads _ true).weaken (fun _ => id) ?_ fun _ => id
    rintro _ scene ⟨_, recorded⟩
    exact ⟨_, recorded.symm⟩

private theorem perform_leads (asked : Write) :
    Leads (fun scene => scene.1 = transaction) (asked.perform backend)
      (fun _ scene => transaction.changes <+: scene.1.changes)
      (fun scene => scene.1 = transaction) := by
  have extended {row : Row} {last : Transaction} (records : transaction.RecordsRow row last) :
      transaction.changes <+: last.changes := by
    obtain ⟨change, recorded, _⟩ := records
    exact ⟨[change], recorded.symm⟩
  cases asked with
  | insert supply draft whole =>
    refine Leads.discard ?_
    exact (insert_leads supply draft).weaken (fun _ => id) (fun _ _ => extended) fun _ => id
  | update draft whole =>
    refine Leads.discard ?_
    cases changed : draft.hasChanges with
    | true => exact (update_leads changed).weaken (fun _ => id) (fun _ _ => extended) fun _ => id
    | false =>
      rintro scene rfl
      refine (Transaction.update_unchanged backend changed scene).weaken (fun _ => id) ?_ ?_ scene rfl
      · rintro _ last ⟨rfl, _⟩
        exact List.prefix_refl _
      · rintro last rfl
        rfl
  | delete row => exact Leads.discard (delete_leads row)

/-- A write that fails records nothing. -/
theorem after_failed {asked : Write} {scene : Scene World} {refusal : Error}
    (isFailed : (asked.perform backend scene).1 = .error refusal) :
    (after backend scene asked).1 = scene.1 :=
  (perform_leads asked).fails rfl isFailed

/-- A write takes back nothing that was recorded. -/
theorem after_extends (asked : Write) (scene : Scene World) :
    scene.1.changes <+: (after backend scene asked).1.changes := by
  have leads : Leads (fun state => state.1 = scene.1) (asked.perform backend)
      (fun _ state => scene.1.changes <+: state.1.changes)
      (fun state => scene.1.changes <+: state.1.changes) :=
    (perform_leads asked).weaken (fun _ => id) (fun _ _ => id) fun _ same =>
      same ▸ List.prefix_refl _
  exact leads.final rfl

end

end Write

end RelationalAccess
