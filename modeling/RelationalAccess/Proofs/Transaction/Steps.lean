import RelationalAccess.Proofs.Transaction.Numbering
import RelationalAccess.Proofs.Transaction.Stage

/-!
The steps of a run. After an event the cached rows are the committed ones, and would be
if the open transaction committed, if and only if the event is sound.
-/

namespace RelationalAccess

namespace Stage

variable {World : Type} {backend : Backend World} {ledger : Ledger World} {database : Database}
  {dialect : Dialect} {stage last : Stage World}

/-- Nothing has changed that matters. -/
private theorem Settled.idle (settled : stage.Settled ledger database dialect)
    (cache : last.source.cache = stage.source.cache)
    (sameDialect : last.source.dialect = stage.source.dialect)
    (transaction : last.transaction = stage.transaction)
    (same : ledger.Same stage.world last.world) : last.Settled ledger database dialect where
  sameDatabase := by rw [cache, settled.sameDatabase]
  sameDialect := sameDialect.trans settled.sameDialect
  tidy := cache ▸ settled.tidy
  committed := by
    rw [same.committed]
    exact settled.committed
  active := by
    rw [transaction, same.working]
    exact settled.active

private theorem Agrees.idle (agrees : stage.Agrees ledger)
    (cache : last.source.cache = stage.source.cache)
    (sameDialect : last.source.dialect = stage.source.dialect)
    (transaction : last.transaction = stage.transaction)
    (same : ledger.Same stage.world last.world) : last.Agrees ledger where
  committed := by
    rw [cache, sameDialect, same.committed]
    exact agrees.committed
  pending := by
    rw [cache, sameDialect, same.working, Stage.pending, transaction]
    exact agrees.pending

/-- The statement of an active transaction has been carried out. -/
private structure Carried (ledger : Ledger World) (statement : Except Error Statement)
    (position : Nat) (effect : Execution → List (List Value) → List (List Value) → Prop)
    (execution : Execution) (scene after : Scene World) : Prop where
  active : scene.1.state = .active
  sent : ∃ sent, statement = .ok sent
  cache : after.2.1.cache = scene.2.1.cache
  sameDialect : after.2.1.dialect = scene.2.1.dialect
  committed : ledger.committed after.2.2 = ledger.committed scene.2.2
  others : ∀ other, other ≠ position →
    ledger.working after.2.2 other = ledger.working scene.2.2 other
  effect : effect execution (ledger.working scene.2.2 position) (ledger.working after.2.2 position)

variable {scene after : Scene World} {position : Nat} {statement : Except Error Statement}
  {effect : Execution → List (List Value) → List (List Value) → Prop}

private theorem carries_of_sends {result : Except Error Execution} {world : World}
    (exact : (ofScene scene).SendsExactly backend ledger statement position effect)
    (sends : Transaction.Sends backend scene statement result world) :
    ledger.Carries position effect scene.2.2 (result, world) := by
  obtain ⟨_, handle, sent, isOpen, isSent, run⟩ := sends
  have carries := exact scene.1 handle sent rfl isOpen isSent
  rwa [show backend.execute handle sent (ofScene scene).world = _ from run] at carries

private theorem carried_of_sends {execution : Execution} {world : World}
    (exact : (ofScene scene).SendsExactly backend ledger statement position effect)
    (sends : Transaction.Sends backend scene statement (.ok execution) world)
    (transaction : Transaction) (nextRow : Nat) :
    Carried ledger statement position effect execution scene
      (transaction, { scene.2.1 with nextRow }, world) := by
  obtain ⟨committed, others, effected⟩ := carries_of_sends exact sends
  obtain ⟨active, _, sent, _, isSent, _⟩ := sends
  exact ⟨active, ⟨sent, isSent⟩, rfl, rfl, committed, others, effected⟩

/-- What the statement of an operation leads to: to nothing, or it is carried out, with or
without a change being recorded. -/
private theorem outcome_cases {missed : Execution → Prop} {recorded : Execution → Change → Prop}
    (exact : (ofScene scene).SendsExactly backend ledger statement position effect)
    (outcome : Transaction.Outcome backend scene statement missed recorded after) :
    (after.1 = scene.1 ∧ after.2.1 = scene.2.1 ∧ ledger.Same scene.2.2 after.2.2) ∨
      ∃ execution, Carried ledger statement position effect execution scene after ∧
        ((missed execution ∧ after.1 = scene.1) ∨ ∃ change, recorded execution change ∧
          after.1 = { scene.1 with changes := scene.1.changes ++ [change] }) := by
  cases outcome with
  | refused => exact .inl ⟨rfl, rfl, .refl _ _⟩
  | failed sends => exact .inl ⟨rfl, rfl, carries_of_sends exact sends⟩
  | missed nextRow sends isMissed =>
    exact .inr ⟨_, carried_of_sends exact sends _ nextRow, .inl ⟨isMissed, rfl⟩⟩
  | recorded nextRow sends isRecorded =>
    exact .inr ⟨_, carried_of_sends exact sends _ nextRow, .inr ⟨_, isRecorded, rfl⟩⟩

private theorem refused_of_error {refusal : Error} {missed : Execution → Prop}
    {recorded : Execution → Change → Prop}
    (outcome : Transaction.Outcome backend scene (.error refusal) missed recorded after) :
    after = scene := by
  cases outcome with
  | refused => rfl
  | failed sends | missed _ sends _ | recorded _ sends _ =>
    obtain ⟨_, _, _, _, isSent, _⟩ := sends
    cases isSent

variable {execution : Execution}

private theorem Settled.carried (settled : (ofScene scene).Settled ledger database dialect)
    {table : Table} (owned : database.tables[table.id]? = some table)
    (carried : Carried ledger statement table.id effect execution scene after)
    (handle : after.1.handle = scene.1.handle)
    (fits : table.Fits (ledger.working scene.2.2 table.id) →
      table.Fits (ledger.working after.2.2 table.id)) :
    (ofScene after).Settled ledger database dialect := by
  obtain ⟨hasHandle, workingFits⟩ := settled.active scene.1 rfl carried.active
  refine ⟨?_, carried.sameDialect.trans settled.sameDialect, ?_, ?_, ?_⟩
  · exact (congrArg DatabaseCache.database carried.cache).trans settled.sameDatabase
  · exact (carried.cache ▸ settled.tidy : after.2.1.cache.Tidy)
  · exact (carried.committed ▸ settled.committed : (ledger.committed after.2.2).Fits database)
  · rintro _ ⟨⟩ _
    refine ⟨handle ▸ hasHandle, ?_⟩
    exact Store.Fits.exchange workingFits owned carried.others (fits (workingFits _ _ owned))

/-- Once a statement is carried out, the rows agree if the caches do with the pending changes. -/
private theorem agrees_carried_iff (agrees : (ofScene scene).Agrees ledger)
    (carried : Carried ledger statement position effect execution scene after)
    {changes : List Change} (isPending : (ofScene after).pending = some changes) :
    (ofScene after).Agrees ledger ↔ (scene.2.1.cache.withChanges changes).Agrees scene.2.1.dialect
      (ledger.working after.2.2) := by
  have cache : (ofScene after).source.cache = scene.2.1.cache := carried.cache
  have sameDialect : (ofScene after).source.dialect = scene.2.1.dialect := carried.sameDialect
  constructor
  · intro agreesAfter
    have pending := agreesAfter.pending changes isPending
    rwa [cache, sameDialect] at pending
  · intro pending
    refine ⟨?_, fun others isOthers => ?_⟩
    · rw [cache, sameDialect, show ledger.committed (ofScene after).world = _ from carried.committed]
      exact agrees.committed
    · cases isPending.symm.trans isOthers
      rwa [cache, sameDialect]

private theorem pending_ofScene (active : scene.1.state = .active) :
    (ofScene scene).pending = some scene.1.changes :=
  pending_eq_some.mpr ⟨scene.1, rfl, active, rfl⟩

/-- A statement that changed nothing leaves what is stored. -/
private theorem Carried.same
    (carried : Carried ledger statement position effect execution scene after)
    (nothing : ledger.working after.2.2 position = ledger.working scene.2.2 position) :
    ledger.Same scene.2.2 after.2.2 := by
  refine ⟨carried.committed, funext fun other => ?_⟩
  by_cases here : other = position
  · rw [here, nothing]
  · exact carried.others other here

/-- A statement that only adds rows leaves all that are stored. -/
private theorem Carried.more
    (carried : Carried ledger statement position effect execution scene after)
    (more : ∀ stored ∈ ledger.working scene.2.2 position, stored ∈ ledger.working after.2.2 position)
    (other : Nat) :
    ∀ stored ∈ ledger.working scene.2.2 other, stored ∈ ledger.working after.2.2 other := by
  by_cases here : other = position
  · rw [here]
    exact more
  · rw [carried.others other here]
    exact fun _ => id

private theorem not_records {event : SessionEvent} (performed : stage.perform backend event = last)
    (transaction : last.transaction = stage.transaction) {changes : List Change} {change : Change} :
    ¬ stage.Records backend event changes change := by
  rintro ⟨isPending, isRecorded⟩
  rw [performed, Stage.pending, transaction] at isRecorded
  have same := congrArg List.length (Option.some.inj (isPending.symm.trans isRecorded))
  simp at same

/-- An event leads to a settled stage, at which the rows agree under one condition. -/
def Steps (ledger : Ledger World) (database : Database) (dialect : Dialect)
    (last : Stage World) (sound : Prop) : Prop :=
  last.Settled ledger database dialect ∧ (last.Agrees ledger ↔ sound)

private theorem Steps.idle (settled : stage.Settled ledger database dialect)
    (agrees : stage.Agrees ledger) (cache : last.source.cache = stage.source.cache)
    (sameDialect : last.source.dialect = stage.source.dialect)
    (transaction : last.transaction = stage.transaction)
    (same : ledger.Same stage.world last.world) {sound : Prop} (holds : sound) :
    Steps ledger database dialect last sound :=
  ⟨settled.idle cache sameDialect transaction same,
    iff_of_true (agrees.idle cache sameDialect transaction same) holds⟩

private theorem Steps.unrecorded (settled : (ofScene scene).Settled ledger database dialect)
    (agrees : (ofScene scene).Agrees ledger) (transaction : after.1 = scene.1)
    (cache : after.2.1.cache = scene.2.1.cache) (sameDialect : after.2.1.dialect = scene.2.1.dialect)
    (same : ledger.Same scene.2.2 after.2.2) {sound : Prop} (holds : sound) :
    Steps ledger database dialect (ofScene after) sound := by
  have sameWorlds : ledger.Same (ofScene scene).world (ofScene after).world := same
  exact Steps.idle settled agrees cache sameDialect (congrArg some transaction) sameWorlds holds

private theorem pending_recorded (active : scene.1.state = .active) {change : Change}
    (recorded : after.1 = { scene.1 with changes := scene.1.changes ++ [change] }) :
    (ofScene after).pending = some (scene.1.changes ++ [change]) :=
  pending_eq_some.mpr ⟨after.1, rfl, by rw [recorded, active], by rw [recorded]⟩

/-- The only change that an event records. -/
private theorem records_iff {event : SessionEvent} {change other : Change} {changes : List Change}
    (performed : (ofScene scene).perform backend event = ofScene after)
    (active : scene.1.state = .active)
    (recorded : after.1 = { scene.1 with changes := scene.1.changes ++ [change] }) :
    (ofScene scene).Records backend event changes other ↔
      changes = scene.1.changes ∧ other = change := by
  rw [Records, performed, pending_ofScene active, pending_recorded active recorded]
  constructor
  · rintro ⟨⟨⟩, same⟩
    rw [Option.some_inj, List.append_cancel_left_eq] at same
    cases same
    exact ⟨rfl, rfl⟩
  · rintro ⟨rfl, rfl⟩
    exact ⟨rfl, rfl⟩

/-- A recorded change leads to a stage at which the rows agree if the caches do once it is
applied after those before it. -/
private theorem Steps.recorded (settled : (ofScene scene).Settled ledger database dialect)
    (agrees : (ofScene scene).Agrees ledger) {table : Table}
    (owned : database.tables[table.id]? = some table)
    (carried : Carried ledger statement table.id effect execution scene after) {change : Change}
    (recorded : after.1 = { scene.1 with changes := scene.1.changes ++ [change] })
    (fits : table.Fits (ledger.working scene.2.2 table.id) →
      table.Fits (ledger.working after.2.2 table.id)) {sound : Prop}
    (either : (Transaction.applyChange change
        (scene.2.1.cache.withChanges scene.1.changes)).2.Agrees scene.2.1.dialect
          (ledger.working after.2.2) ↔ sound) :
    Steps ledger database dialect (ofScene after) sound := by
  have handle : after.1.handle = scene.1.handle := by rw [recorded]
  refine ⟨settled.carried owned carried handle fits, ?_⟩
  rw [agrees_carried_iff agrees carried (pending_recorded carried.active recorded),
    DatabaseCache.withChanges_concat]
  exact either

/-- A statement that changes nothing where it records no change leads to a settled stage. What
makes the rows agree there is asked of the recorded change only. -/
private theorem Steps.ofOutcome (settled : (ofScene scene).Settled ledger database dialect)
    (agrees : (ofScene scene).Agrees ledger) {table : Table}
    (owned : database.tables[table.id]? = some table) {event : SessionEvent}
    (performed : (ofScene scene).perform backend event = ofScene after)
    {missed : Execution → Prop} {recorded : Execution → Change → Prop}
    (exact : (ofScene scene).SendsExactly backend ledger statement table.id effect)
    (outcome : Transaction.Outcome backend scene statement missed recorded after)
    (nothing : ∀ execution old new, effect execution old new → missed execution → new = old)
    (fits : ∀ execution old new, effect execution old new → table.Fits old → table.Fits new)
    {sound : Prop}
    (unasked : (∀ changes change, ¬ (ofScene scene).Records backend event changes change) → sound)
    (either : ∀ execution change, Carried ledger statement table.id effect execution scene after →
      recorded execution change →
      (∀ changes other, (ofScene scene).Records backend event changes other ↔
        changes = scene.1.changes ∧ other = change) →
      ((Transaction.applyChange change
        (scene.2.1.cache.withChanges scene.1.changes)).2.Agrees scene.2.1.dialect
          (ledger.working after.2.2) ↔ sound)) :
    Steps ledger database dialect ((ofScene scene).perform backend event) sound := by
  have unrecorded (unchanged : after.1 = scene.1) : sound :=
    unasked fun _ _ => not_records performed (congrArg some unchanged)
  rw [performed]
  rcases outcome_cases exact outcome with
    ⟨unchanged, source, same⟩ | ⟨execution, carried, ⟨isMissed, unchanged⟩ |
      ⟨change, isRecorded, isNow⟩⟩
  · exact .unrecorded settled agrees unchanged (congrArg DataSource.cache source)
      (congrArg DataSource.dialect source) same (unrecorded unchanged)
  · exact .unrecorded settled agrees unchanged carried.cache carried.sameDialect
      (carried.same (nothing _ _ _ carried.effect isMissed)) (unrecorded unchanged)
  · exact .recorded settled agrees owned carried isNow (fits _ _ _ carried.effect)
      (either execution change carried isRecorded fun _ _ =>
        records_iff performed carried.active isNow)

private theorem owned_withChanges (settled : (ofScene scene).Settled ledger database dialect)
    {table : Table} (owned : database.tables[table.id]? = some table) (changes : List Change) :
    (scene.2.1.cache.withChanges changes).database.tables[table.id]? = some table := by
  rw [DatabaseCache.withChanges_database]
  exact settled.sameDatabase ▸ owned

private theorem update_steps (settled : (ofScene scene).Settled ledger database dialect)
    (agrees : (ofScene scene).Agrees ledger) (placed : Table.AllPlaced database.tables) {row : Row}
    {assignments : List (String × Value)}
    (owned : database.tables[row.table.id]? = some row.table)
    (width : row.values.length = row.table.columns.length)
    (exact : (ofScene scene).Exact backend ledger (.update row assignments)) :
    Steps ledger database dialect ((ofScene scene).perform backend (.update row assignments))
      ((ofScene scene).UpdatesFresh backend ledger row assignments) := by
  cases isSet : (DraftRow.ofRow row).setAll assignments with
  | error refusal =>
    have performed : (ofScene scene).perform backend (.update row assignments) = ofScene scene := by
      simp only [perform, isSet]
    rw [performed]
    refine Steps.idle settled agrees rfl rfl rfl (.refl _ _) fun draft _ _ isDraft => ?_
    rw [isSet] at isDraft
    cases isDraft
  | ok draft =>
    obtain ⟨after, isAfter⟩ : ∃ after, after = (Transaction.update backend draft scene).2 := ⟨_, rfl⟩
    have performed : (ofScene scene).perform backend (.update row assignments) = ofScene after := by
      simp only [perform, isSet, isAfter]
      rfl
    have edits := (DraftRow.ofRow_edits row).setAll isSet
    have outcome := Transaction.update_outcome backend edits width scene
    rw [← isAfter] at outcome
    refine .ofOutcome settled agrees owned performed (exact draft isSet) outcome
      (fun _ _ _ updated => updated.missed) (fun _ _ _ updated => updated.fits)
      (fun none _ _ _ _ isRecorded => absurd isRecorded (none _ _)) ?_
    rintro execution _ carried ⟨affected, new, makes, rfl⟩ only
    have fits := (settled.active scene.1 rfl carried.active).2 _ _ owned
    obtain ⟨sent, isSent⟩ := carried.sent
    have either := DatabaseCache.agrees_update_iff
      (agrees.pending _ (pending_ofScene carried.active)) (settled.tidy.withChanges _) edits
      makes.sameTable makes.sameValues (owned_withChanges settled owned _) (placed _ _ owned) width
      fits.width (fits.distinct (Statement.hasPrimaryKey_of_update isSent)) carried.effect affected
      carried.others
    rw [DatabaseCache.withChanges_caches] at either
    refine either.trans ⟨?_, ?_⟩
    · intro sound draft' changes' new' isDraft isRecorded
      obtain ⟨rfl, same⟩ := (only _ _).mp isRecorded
      cases isSet.symm.trans isDraft
      cases same
      exact sound
    · intro fresh
      exact fresh draft scene.1.changes new isSet ((only _ _).mpr ⟨rfl, rfl⟩)

private theorem delete_steps (settled : (ofScene scene).Settled ledger database dialect)
    (agrees : (ofScene scene).Agrees ledger) {row : Row}
    (owned : database.tables[row.table.id]? = some row.table)
    (exact : (ofScene scene).Exact backend ledger (.delete row)) :
    Steps ledger database dialect ((ofScene scene).perform backend (.delete row))
      ((ofScene scene).DeletesAlone backend ledger row) := by
  obtain ⟨after, isAfter⟩ : ∃ after, after = (Transaction.delete backend row scene).2 := ⟨_, rfl⟩
  have performed : (ofScene scene).perform backend (.delete row) = ofScene after := by
    rw [isAfter]
    rfl
  have outcome := Transaction.delete_outcome backend row scene
  rw [← isAfter] at outcome
  refine .ofOutcome settled agrees owned performed exact outcome
    (fun _ _ _ deleted => deleted.missed) (fun _ _ _ deleted => deleted.fits)
    (fun none _ isRecorded => absurd isRecorded (none _ _)) ?_
  rintro execution _ carried ⟨affected, rfl⟩ only
  have either := DatabaseCache.agrees_delete_iff
    (agrees.pending _ (pending_ofScene carried.active)) (settled.tidy.withChanges _) carried.effect
    carried.others
  refine either.trans ⟨?_, ?_⟩
  · intro alone changes isRecorded
    obtain ⟨rfl, _⟩ := (only _ _).mp isRecorded
    exact alone
  · intro alone
    exact alone scene.1.changes ((only _ _).mpr ⟨rfl, rfl⟩)

private theorem insert_steps (settled : (ofScene scene).Settled ledger database dialect)
    (agrees : (ofScene scene).Agrees ledger) (placed : Table.AllPlaced database.tables)
    {supply : Supply} {table : Table} {assignments : List (String × Value)}
    (numbersKeys : table.NumbersKeys) (owned : database.tables[table.id]? = some table)
    (exact : (ofScene scene).Exact backend ledger (.insert supply table assignments)) :
    Steps ledger database dialect ((ofScene scene).perform backend (.insert supply table assignments))
      True := by
  cases isSet : (DraftRow.new table).setAll assignments with
  | error refusal =>
    have performed : (ofScene scene).perform backend (.insert supply table assignments) =
        ofScene scene := by
      simp only [perform, isSet]
    rw [performed]
    exact Steps.idle settled agrees rfl rfl rfl (.refl _ _) trivial
  | ok draft =>
    obtain ⟨after, isAfter⟩ : ∃ after, after = (Transaction.insert backend supply draft scene).2 :=
      ⟨_, rfl⟩
    have performed : (ofScene scene).perform backend (.insert supply table assignments) =
        ofScene after := by
      simp only [perform, isSet, isAfter]
      rfl
    obtain ⟨rfl, isNew⟩ : draft.table = table ∧ draft.stored = none := DraftRow.setAll_keeps isSet
    have outcome := Transaction.insert_outcome backend supply isNew scene
    rw [← isAfter] at outcome
    rw [performed]
    cases isFilled : Transaction.fill supply draft with
    | error refusal =>
      have unchanged : after = scene := by
        rw [Transaction.InsertOutcome, isFilled] at outcome
        exact refused_of_error outcome
      rw [unchanged]
      exact Steps.idle settled agrees rfl rfl rfl (.refl _ _) trivial
    | ok filled =>
      rw [Transaction.InsertOutcome, isFilled] at outcome
      rcases outcome_cases (exact draft filled isSet isFilled) outcome with
        ⟨unchanged, source, same⟩ | ⟨execution, carried, kept⟩
      · exact .unrecorded settled agrees unchanged (congrArg DataSource.cache source)
          (congrArg DataSource.dialect source) same trivial
      · have more := carried.more fun _ => carried.effect.more
        have wasAgreed := agrees.pending _ (pending_ofScene carried.active)
        rcases kept with ⟨_, unchanged⟩ | ⟨_, ⟨_, numbered, new, ⟨⟩, isNumbered, makes, rfl⟩, recorded⟩
        · have handle : after.1.handle = scene.1.handle := by rw [unchanged]
          refine ⟨settled.carried owned carried handle carried.effect.fits, iff_of_true ?_ trivial⟩
          have isPending : (ofScene after).pending = some scene.1.changes :=
            pending_eq_some.mpr ⟨after.1, rfl, unchanged ▸ carried.active, by rw [unchanged]⟩
          rw [agrees_carried_iff agrees carried isPending]
          exact wasAgreed.mono more
        · refine .recorded settled agrees owned carried recorded carried.effect.fits
            (iff_of_true ?_ trivial)
          obtain ⟨identity, newTable, values⟩ := new
          obtain rfl : newTable = draft.table := makes.sameTable
          obtain rfl : values = numbered.values := makes.sameValues
          obtain ⟨stored, isStored, inserts⟩ := carried.effect.stored
          have binds := Transaction.numberColumns_binds isNumbered (Transaction.fill_table isFilled)
            (placed _ _ owned) numbersKeys makes.width inserts
          exact wasAgreed.insert (settled.tidy.withChanges _) ⟨identity, draft.table, numbered.values⟩
            (owned_withChanges settled owned _) more ⟨stored, isStored, binds⟩

/-- No transaction is active, and the committed rows have stayed as they were. -/
private theorem Steps.ended (settled : stage.Settled ledger database dialect)
    (agrees : stage.Agrees ledger) (cache : last.source.cache = stage.source.cache)
    (sameDialect : last.source.dialect = stage.source.dialect)
    (committed : ledger.committed last.world = ledger.committed stage.world)
    (isEnded : ∀ transaction, last.transaction = some transaction → transaction.state ≠ .active) :
    Steps ledger database dialect last True := by
  refine ⟨⟨?_, sameDialect.trans settled.sameDialect, ?_, ?_, ?_⟩, iff_of_true ⟨?_, ?_⟩ trivial⟩
  · rw [cache, settled.sameDatabase]
  · exact cache ▸ settled.tidy
  · exact committed ▸ settled.committed
  · exact fun transaction isIts active => absurd active (isEnded transaction isIts)
  · rw [cache, sameDialect, committed]
    exact agrees.committed
  · intro changes isPending
    obtain ⟨transaction, isIts, active, _⟩ := pending_eq_some.mp isPending
    exact absurd active (isEnded transaction isIts)

private theorem begin_steps (settled : stage.Settled ledger database dialect)
    (agrees : stage.Agrees ledger) (exact : stage.Exact backend ledger .begin) :
    Steps ledger database dialect (stage.perform backend .begin) True := by
  show Steps ledger database dialect (stage.begin backend) True
  unfold begin
  cases isPending : stage.pending with
  | some changes => exact Steps.idle settled agrees rfl rfl rfl (.refl _ _) trivial
  | none =>
    have begins : ledger.Begins stage.world (backend.start stage.world) := exact
    rw [Transaction.start_apply]
    revert begins
    dsimp only [Option.isSome]
    rcases backend.start stage.world with ⟨_ | handle, world⟩
    · intro committed
      refine Steps.ended settled agrees rfl rfl committed fun transaction isIts active => ?_
      have stillThere : stage.transaction = some transaction := isIts
      cases isPending.symm.trans (pending_eq_some.mpr ⟨transaction, stillThere, active, rfl⟩)
    · rintro ⟨committed, working⟩
      refine ⟨⟨settled.sameDatabase, settled.sameDialect, settled.tidy, ?_, ?_⟩,
        iff_of_true ⟨?_, ?_⟩ trivial⟩
      · exact committed ▸ settled.committed
      · rintro _ ⟨⟩ _
        exact ⟨⟨handle, rfl⟩, working ▸ settled.committed⟩
      · exact committed ▸ agrees.committed
      · rintro _ ⟨⟩
        exact working ▸ agrees.committed

private theorem commit_steps (settled : (ofScene scene).Settled ledger database dialect)
    (agrees : (ofScene scene).Agrees ledger)
    (exact : (ofScene scene).Exact backend ledger .commit) :
    Steps ledger database dialect ((ofScene scene).perform backend .commit) True := by
  show Steps ledger database dialect (ofScene (Transaction.commit backend scene).2) True
  by_cases active : scene.1.state = .active
  · obtain ⟨⟨handle, isOpen⟩, workingFits⟩ := settled.active scene.1 rfl active
    have wasAgreed := agrees.pending _ (pending_ofScene active)
    have commits : ledger.Commits scene.2.2 (backend.commit handle scene.2.2) :=
      exact scene.1 handle rfl isOpen
    rw [Transaction.commit_apply backend active isOpen]
    revert commits
    rcases backend.commit handle scene.2.2 with ⟨_ | _, world⟩
    · intro committed
      exact Steps.ended settled agrees rfl rfl committed (by rintro _ ⟨⟩ ⟨⟩)
    · intro committed
      refine ⟨⟨?_, settled.sameDialect, settled.tidy.withChanges _, ?_, ?_⟩,
        iff_of_true ⟨?_, ?_⟩ trivial⟩
      · exact (DatabaseCache.withChanges_database _ _).trans settled.sameDatabase
      · exact committed ▸ workingFits
      · rintro _ ⟨⟩ ⟨⟩
      · exact committed ▸ wasAgreed
      · rintro _ ⟨⟩
  · rw [Transaction.commit_of_ended backend active]
    exact Steps.idle settled agrees rfl rfl rfl (.refl _ _) trivial

/-- A transaction is ended without a commit, or was ended before. -/
private theorem giveUp_steps {work : Work World Unit}
    (settled : (ofScene scene).Settled ledger database dialect)
    (agrees : (ofScene scene).Agrees ledger)
    (exact : ∀ transaction handle, (ofScene scene).transaction = some transaction →
      transaction.handle = some handle →
        ledger.committed (backend.rollback handle scene.2.2).2 = ledger.committed scene.2.2)
    (ended : scene.1.state ≠ .active → (work scene).2 = scene)
    (givenUp : scene.1.state = .active → ∀ handle, scene.1.handle = some handle →
      ∃ transaction : Transaction, transaction.state ≠ .active ∧
        (work scene).2 = (transaction, scene.2.1, (backend.rollback handle scene.2.2).2)) :
    Steps ledger database dialect (ofScene (work scene).2) True := by
  by_cases active : scene.1.state = .active
  · obtain ⟨⟨handle, isOpen⟩, _⟩ := settled.active scene.1 rfl active
    obtain ⟨transaction, isEnded, after⟩ := givenUp active handle isOpen
    rw [after]
    refine Steps.ended settled agrees rfl rfl (exact scene.1 handle rfl isOpen) ?_
    rintro _ ⟨⟩
    exact isEnded
  · rw [ended active]
    exact Steps.idle settled agrees rfl rfl rfl (.refl _ _) trivial

private theorem rollback_steps (settled : (ofScene scene).Settled ledger database dialect)
    (agrees : (ofScene scene).Agrees ledger)
    (exact : (ofScene scene).Exact backend ledger .rollback) :
    Steps ledger database dialect ((ofScene scene).perform backend .rollback) True :=
  giveUp_steps settled agrees exact (Transaction.rollback_of_ended backend) fun active _ isOpen =>
    ⟨_, by rintro ⟨⟩, Transaction.rollback_apply backend active isOpen⟩

private theorem drop_steps (settled : (ofScene scene).Settled ledger database dialect)
    (agrees : (ofScene scene).Agrees ledger)
    (exact : (ofScene scene).Exact backend ledger .drop) :
    Steps ledger database dialect ((ofScene scene).perform backend .drop) True :=
  giveUp_steps settled agrees exact (Transaction.drop_of_ended backend) fun active _ isOpen =>
    ⟨_, by rintro ⟨⟩, Transaction.drop_apply backend active isOpen⟩

/-- The caches still agree with the committed rows after a read. -/
private theorem agrees_grown (agrees : stage.Agrees ledger) {state : DataSource × World}
    (grown : DataSource.Grown ledger (stage.source, stage.world) state) :
    state.1.cache.Agrees state.1.dialect (ledger.committed state.2) := by
  rw [grown.dialect, grown.stored.committed]
  intro position keys row cached
  rw [grown.database]
  rcases grown.added position keys row cached with before | ⟨_, _, rowKeys, place, owned, stored, holds⟩
  · exact agrees.committed position keys row before
  · exact ⟨rowKeys, place, owned, stored, place ▸ holds⟩

/-- A read that adds to the caches. -/
private theorem reading_steps {α : Type} (settled : stage.Settled ledger database dialect)
    (agrees : stage.Agrees ledger) {event : SessionEvent} {read : Session World α}
    (performed : stage.perform backend event = stage.reading read)
    (adds : DataSource.Adds ledger (stage.source, stage.world) read) :
    Steps ledger database dialect (stage.perform backend event)
      (stage.ReadsCurrent backend ledger event) := by
  have grown := adds.final (.refl _ _)
  unfold ReadsCurrent
  rw [performed]
  obtain ⟨state, isState⟩ : ∃ state, state = (read (stage.source, stage.world)).2 := ⟨_, rfl⟩
  have isRead : stage.reading read = { stage with source := state.1, world := state.2 } := by
    rw [reading, ← isState]
  rw [← isState] at grown
  rw [isRead]
  refine ⟨⟨?_, ?_, grown.tidy settled.tidy, ?_, ?_⟩, ?_⟩
  · exact grown.database.trans settled.sameDatabase
  · exact grown.dialect.trans settled.sameDialect
  · exact grown.stored.committed ▸ settled.committed
  · intro transaction isIts active
    obtain ⟨hasHandle, fits⟩ := settled.active transaction isIts active
    exact ⟨hasHandle, grown.stored.working ▸ fits⟩
  · have committed := agrees_grown agrees grown
    have committedBefore : state.1.cache.Agrees stage.source.dialect (ledger.committed stage.world) := by
      rwa [grown.dialect, grown.stored.committed] at committed
    have either (changes : List Change) (isPending : stage.pending = some changes) :=
      DatabaseCache.agrees_grown_iff settled.tidy (grown.tidy settled.tidy) grown.database grown.caches
        grown.kept committedBefore (agrees.pending changes isPending)
    constructor
    · intro agreesAfter changes isPending
      have pending := agreesAfter.pending changes isPending
      dsimp only at pending
      rw [grown.dialect, grown.stored.working] at pending
      exact (either changes isPending).mp pending
    · intro current
      refine ⟨committed, fun changes isPending => ?_⟩
      dsimp only
      rw [grown.dialect, grown.stored.working]
      exact (either changes isPending).mpr (current changes isPending)

/-- Without a transaction there is no work for it. -/
private theorem idle_steps {source : DataSource} {world : World}
    (settled : Settled ledger database dialect { source, world })
    (agrees : Agrees ledger { source, world }) {event : SessionEvent}
    (performed : perform backend { source, world } event = { source, world }) {sound : Prop}
    (holds : (∀ changes change, ¬ Records backend { source, world } event changes change) → sound) :
    Steps ledger database dialect (perform backend { source, world } event) sound := by
  have none (changes : List Change) (change : Change) :
      ¬ Records backend { source, world } event changes change := not_records performed rfl
  rw [performed]
  exact Steps.idle settled agrees rfl rfl rfl (.refl _ _) (holds none)

private theorem Settled.atWork {transaction : Transaction} {source : DataSource} {world : World}
    (settled : Settled ledger database dialect { source, transaction := some transaction, world }) :
    (ofScene (transaction, source, world)).Settled ledger database dialect :=
  settled

/-- After an event the rows agree if and only if the event is sound. -/
theorem perform_steps (settled : stage.Settled ledger database dialect)
    (agrees : stage.Agrees ledger) (placed : Table.AllPlaced database.tables)
    (numbersKeys : ∀ table ∈ database.tables, table.NumbersKeys)
    (serves : backend.Serves ledger database dialect) {event : SessionEvent}
    (owned : event.Owned database) (exact : stage.Exact backend ledger event) :
    Steps ledger database dialect (stage.perform backend event)
      (stage.Sound backend ledger event) := by
  obtain ⟨source, transaction, world⟩ := stage
  have sameDatabase : source.cache.database = database := settled.sameDatabase
  have sameDialect : source.dialect = dialect := settled.sameDialect
  have places : Table.AllPlaced source.cache.database.tables := sameDatabase ▸ placed
  have reading : DataSource.Reading backend source (DataSource.Unmoved ledger (source, world))
      (DataSource.Grown ledger (source, world)) := by
    apply DataSource.reading_adds (source, world)
    rw [sameDatabase, sameDialect]
    exact serves
  cases event with
  | begin => exact begin_steps settled agrees exact
  | get name keys =>
    exact reading_steps settled agrees rfl (reading.get places name keys)
  | getRowsBy name column value =>
    exact reading_steps settled agrees rfl (reading.getRowsBy places name column value)
  | related row relation =>
    exact reading_steps settled agrees rfl (reading.related places row relation)
  | rows selection =>
    have isOwn : DataSource.Owns source selection.table := by
      rw [DataSource.Owns, sameDatabase]
      exact owned
    exact reading_steps settled agrees rfl (reading.rows isOwn)
  | insert supply table assignments =>
    cases transaction with
    | none =>
      refine idle_steps settled agrees ?_ fun _ => trivial
      simp only [perform]
      split
      · rfl
      · rfl
    | some transaction =>
      exact insert_steps settled.atWork agrees placed (numbersKeys table (List.mem_of_getElem? owned))
        owned exact
  | update row assignments =>
    cases transaction with
    | none =>
      refine idle_steps settled agrees ?_ fun none _ _ _ _ isRecorded => absurd isRecorded (none _ _)
      simp only [perform]
      split
      · rfl
      · rfl
    | some transaction => exact update_steps settled.atWork agrees placed owned.1 owned.2 exact
  | delete row =>
    cases transaction with
    | none => exact idle_steps settled agrees rfl fun none _ isRecorded => absurd isRecorded (none _ _)
    | some transaction => exact delete_steps settled.atWork agrees owned.1 exact
  | commit =>
    cases transaction with
    | none => exact idle_steps settled agrees rfl fun _ => trivial
    | some transaction => exact commit_steps settled.atWork agrees exact
  | rollback =>
    cases transaction with
    | none => exact idle_steps settled agrees rfl fun _ => trivial
    | some transaction => exact rollback_steps settled.atWork agrees exact
  | drop =>
    cases transaction with
    | none => exact idle_steps settled agrees rfl fun _ => trivial
    | some transaction => exact drop_steps settled.atWork agrees exact

end Stage

end RelationalAccess
