import RelationalAccess.Proofs.DataSource.BucketUpkeep
import RelationalAccess.Proofs.Transaction.Stage

/-!
The buckets of one table during a run. A read stores the keys of the rows that match then, and
every other event only takes buckets out. So a bucket names other rows than those that match only
after an event has stranded it.
-/

namespace RelationalAccess

namespace DatabaseCache

variable {table : Table} {named : Nat → Value → List Keys → Prop} {origin : TableCache}
  {position : Nat} {cache : DatabaseCache}

/-- The cache of the table at a position follows an earlier one. -/
def FollowsAt (cache : DatabaseCache) (position : Nat) (table : Table)
    (named : Nat → Value → List Keys → Prop) (origin : TableCache) : Prop :=
  ∃ now, cache.table? position = some now ∧ TableCache.Follows table named origin now

private theorem FollowsAt.applyChange (follows : cache.FollowsAt position table named origin)
    (change : Change) :
    (Transaction.applyChange change cache).2.FollowsAt position table named origin := by
  obtain ⟨now, isNow, followsNow⟩ := follows
  unfold Transaction.applyChange
  cases found : cache.table? change.table with
  | none => exact ⟨now, isNow, followsNow⟩
  | some changed =>
    unfold FollowsAt
    dsimp only
    rw [table?_setTable found]
    by_cases here : position = change.table
    · rw [if_pos here]
      rw [here, found] at isNow
      obtain rfl := Option.some.inj isNow
      exact ⟨_, rfl, followsNow.applyChange change.before change.after⟩
    · rw [if_neg here, isNow]
      exact ⟨_, rfl, followsNow.sameButRows (followsNow.kept.sameRows rfl rfl rfl) rfl⟩

theorem FollowsAt.withChanges (follows : cache.FollowsAt position table named origin)
    (changes : List Change) : (cache.withChanges changes).FollowsAt position table named origin := by
  induction changes generalizing cache with
  | nil => exact follows
  | cons first others inductionHypothesis => exact inductionHypothesis (follows.applyChange first)

end DatabaseCache

namespace Stage

variable {World : Type} {backend : Backend World} {contents : World → Store} {database : Database}
  {dialect : Dialect} {table : Table} {stage last : Stage World}

/-- A look-up by a value has a bucket with some keys. -/
def HasBucket (stage : Stage World) (table : Table) (position : Nat) (value : Value)
    (keys : List Keys) : Prop :=
  ∃ cache, stage.source.cache.table? table.id = some cache ∧ cache.HasBucket position value keys

/-- Keys that are those of the rows with the bound form of a value. -/
def Names (contents : World → Store) (stage : Stage World) (table : Table) (position : Nat)
    (value : Value) (keys : List Keys) : Prop :=
  DataSource.Named stage.source.dialect table (contents stage.world) position value keys

/-- If there is a bucket for a value, it names the rows with the bound form of the value. -/
def NamesRightly (contents : World → Store) (table : Table) (position : Nat) (value : Value)
    (stage : Stage World) : Prop :=
  ∀ keys, stage.HasBucket table position value keys → stage.Names contents table position value keys

/-- An event strands the bucket of a value: it leaves a bucket that named the rows with the bound
form of the value, and that does not name them any more. -/
def Strands (backend : Backend World) (contents : World → Store) (table : Table) (position : Nat)
    (value : Value) (stage : Stage World) (event : SessionEvent) : Prop :=
  ∃ keys, stage.HasBucket table position value keys ∧
    stage.Names contents table position value keys ∧
    (stage.perform backend event).HasBucket table position value keys ∧
    ¬ (stage.perform backend event).Names contents table position value keys

/-- A transaction that is active holds one of the backend. -/
def Held (stage : Stage World) : Prop :=
  ∀ transaction, stage.transaction = some transaction → transaction.state = .active →
    ∃ handle, transaction.handle = some handle

/-- What holds of a stage with a table, whatever has happened at it. -/
structure Ready (database : Database) (dialect : Dialect) (table : Table) (stage : Stage World) :
    Prop where
  sameDatabase : stage.source.cache.database = database
  sameDialect : stage.source.dialect = dialect
  held : stage.Held
  cached : ∃ cache, stage.source.cache.table? table.id = some cache ∧
    TableCache.Kept table cache ∧ ∀ position value keys, cache.HasBucket position value keys →
      ∀ key ∈ keys, table.WritesKeys dialect key

/-- What comes of an event: the cache of a table follows the one before, with new buckets only
where nothing stored has changed. -/
structure Passes (contents : World → Store) (table : Table) (cache : TableCache)
    (stage last : Stage World) : Prop where
  sameDatabase : last.source.cache.database = stage.source.cache.database
  sameDialect : last.source.dialect = stage.source.dialect
  held : last.Held
  follows : last.source.cache.FollowsAt table.id table
    (fun position value keys => contents last.world = contents stage.world ∧
      stage.Names contents table position value keys) cache

section

variable {cache : TableCache} (held : stage.Held)
include held

/-- What is read through the caches leaves what is stored as it is. -/
private theorem passes_reading {α : Type} {read : Session World α}
    (leads : Leads (DataSource.Still (contents · = contents stage.world) stage.source) read
      (fun _ => DataSource.Tended contents (contents stage.world) table stage.source cache)
      (DataSource.Tended contents (contents stage.world) table stage.source cache)) :
    Passes contents table cache stage (stage.reading read) := by
  have tended : DataSource.Tended contents (contents stage.world) table stage.source cache
      (read (stage.source, stage.world)).2 := leads.final (.refl rfl)
  obtain ⟨now, isNow, follows⟩ := tended.cached
  refine ⟨tended.database, tended.dialect, held, now, isNow, follows.kept, ?_⟩
  intro position value keys bucket
  rcases follows.buckets position value keys bucket with before | named
  · exact .inl before
  · exact .inr ⟨tended.world, named⟩

variable (isCached : stage.source.cache.table? table.id = some cache)
  (kept : TableCache.Kept table cache)
include isCached kept

omit held in
/-- The caches have been left alone. -/
private theorem passes_idle (sameCache : last.source.cache = stage.source.cache)
    (sameDialect : last.source.dialect = stage.source.dialect) (heldThen : last.Held) :
    Passes contents table cache stage last where
  sameDatabase := by rw [sameCache]
  sameDialect := sameDialect
  held := heldThen
  follows := ⟨cache, sameCache ▸ isCached, .refl kept⟩

private theorem passes_begin : Passes contents table cache stage (stage.begin backend) := by
  unfold begin
  split
  · exact passes_idle isCached kept rfl rfl held
  · rw [Transaction.start_apply]
    dsimp only
    rcases backend.start stage.world with ⟨refusal | handle, world⟩
    · exact passes_idle isCached kept rfl rfl held
    · refine passes_idle isCached kept rfl rfl ?_
      rintro _ ⟨⟩ _
      exact ⟨handle, rfl⟩

/-- Work that is done without a transaction does nothing. -/
private theorem passes_working {α : Type} {work : Work World α}
    (atWork : ∀ scene : Scene World, stage = ofScene scene →
      Passes contents table cache stage (ofScene (work scene).2)) :
    Passes contents table cache stage (stage.working work) := by
  obtain ⟨source, transaction, world⟩ := stage
  cases transaction with
  | none => exact passes_idle isCached kept rfl rfl held
  | some transaction => exact atWork (transaction, source, world) rfl

variable {scene : Scene World} (isScene : stage = ofScene scene)
include isScene

private theorem passes_outcome {after : Scene World} {statement : Except Error Statement}
    {missed : Execution → Prop} {recorded : Execution → Change → Prop}
    (outcome : Transaction.Outcome backend scene statement missed recorded after) :
    Passes contents table cache stage (ofScene after) := by
  subst isScene
  cases outcome with
  | refused => exact passes_idle isCached kept rfl rfl held
  | failed _ => exact passes_idle isCached kept rfl rfl held
  | missed nextRow _ _ => exact passes_idle isCached kept rfl rfl held
  | recorded nextRow _ _ =>
    refine passes_idle isCached kept rfl rfl ?_
    rintro _ ⟨⟩ active
    exact held scene.1 rfl active

private theorem passes_commit :
    Passes contents table cache stage (ofScene (Transaction.commit backend scene).2) := by
  subst isScene
  by_cases active : scene.1.state = .active
  · obtain ⟨handle, isOpen⟩ := held scene.1 rfl active
    rw [Transaction.commit_apply backend active isOpen]
    rcases backend.commit handle scene.2.2 with ⟨refusal | _, world⟩
    · exact passes_idle isCached kept rfl rfl (by rintro _ ⟨⟩ ⟨⟩)
    · refine ⟨DatabaseCache.withChanges_database _ _, rfl, by rintro _ ⟨⟩ ⟨⟩, ?_⟩
      exact DatabaseCache.FollowsAt.withChanges ⟨cache, isCached, .refl kept⟩ scene.1.changes
  · rw [Transaction.commit_of_ended backend active]
    exact passes_idle isCached kept rfl rfl held

/-- A transaction that is given up leaves the caches alone. -/
private theorem passes_givenUp {work : Work World Unit}
    (ended : scene.1.state ≠ .active → (work scene).2 = scene)
    (givenUp : scene.1.state = .active → ∀ handle, scene.1.handle = some handle →
      ∃ (transaction : Transaction) (world : World), transaction.state ≠ .active ∧
        (work scene).2 = (transaction, scene.2.1, world)) :
    Passes contents table cache stage (ofScene (work scene).2) := by
  subst isScene
  by_cases active : scene.1.state = .active
  · obtain ⟨handle, isOpen⟩ := held scene.1 rfl active
    obtain ⟨transaction, world, isEnded, after⟩ := givenUp active handle isOpen
    rw [after]
    refine passes_idle isCached kept rfl rfl ?_
    rintro _ ⟨⟩ active
    exact absurd active isEnded
  · rw [ended active]
    exact passes_idle isCached kept rfl rfl held

end

section

variable {place : Nat} (shaped : table.Shaped place) (placed : Table.AllPlaced database.tables)
  (isTable : table ∈ database.tables) (answers : backend.MatchesForms contents dialect table)
include shaped placed isTable answers

/-- What comes of an event whose tables and rows are those of the database. -/
private theorem perform_passes (inForm : table.InForm dialect (contents stage.world table.id))
    (ready : stage.Ready database dialect table) {cache : TableCache}
    (isCached : stage.source.cache.table? table.id = some cache) (kept : TableCache.Kept table cache)
    {event : SessionEvent} (owned : event.Owned database) :
    Passes contents table cache stage (stage.perform backend event) := by
  have held := ready.held
  have places : Table.AllPlaced stage.source.cache.database.tables := ready.sameDatabase ▸ placed
  have reading : DataSource.Reading backend stage.source
      (DataSource.Still (contents · = contents stage.world) stage.source)
      (DataSource.Tended contents (contents stage.world) table stage.source cache) :=
    DataSource.reading_tends shaped (ready.sameDialect ▸ answers) (ready.sameDialect ▸ inForm) isCached
      kept (places.owns (ready.sameDatabase ▸ isTable))
  cases event with
  | begin => exact passes_begin held isCached kept
  | insert supply onTable assignments =>
    simp only [perform]
    split
    · exact passes_idle isCached kept rfl rfl held
    · next draft isSet =>
      have isNew : draft.stored = none := (DraftRow.setAll_keeps isSet).2
      refine passes_working held isCached kept fun scene isScene => ?_
      have outcome := Transaction.insert_outcome backend supply isNew scene
      exact passes_outcome held isCached kept isScene outcome
  | update row assignments =>
    simp only [perform]
    split
    · exact passes_idle isCached kept rfl rfl held
    · next draft isSet =>
      have isStored : draft.stored = some row := (DraftRow.setAll_keeps isSet).2
      refine passes_working held isCached kept fun scene isScene => ?_
      have outcome := Transaction.update_draft_outcome backend isStored scene
      exact passes_outcome held isCached kept isScene outcome
  | delete row =>
    refine passes_working held isCached kept fun scene isScene => ?_
    exact passes_outcome held isCached kept isScene (Transaction.delete_outcome backend row scene)
  | commit =>
    exact passes_working held isCached kept fun scene => passes_commit held isCached kept
  | rollback =>
    exact passes_working held isCached kept fun scene isScene =>
      passes_givenUp held isCached kept isScene (Transaction.rollback_of_ended backend)
        fun active _ isOpen => ⟨_, _, by rintro ⟨⟩, Transaction.rollback_apply backend active isOpen⟩
  | drop =>
    exact passes_working held isCached kept fun scene isScene =>
      passes_givenUp held isCached kept isScene (Transaction.drop_of_ended backend)
        fun active _ isOpen => ⟨_, _, by rintro ⟨⟩, Transaction.drop_apply backend active isOpen⟩
  | get name keys => exact passes_reading held (reading.get places name keys)
  | getRowsBy name column value =>
    exact passes_reading held (reading.getRowsBy places name column value)
  | related row relation => exact passes_reading held (reading.related places row relation)
  | rows selection =>
    have isOwn : DataSource.Owns stage.source selection.table := by
      rw [DataSource.Owns, ready.sameDatabase]
      exact owned
    exact passes_reading held (reading.rows isOwn)

/-- The buckets that reads have stored can be asked for by their keys. -/
private theorem perform_ready (inForm : table.InForm dialect (contents stage.world table.id))
    (ready : stage.Ready database dialect table) {event : SessionEvent}
    (owned : event.Owned database) : (stage.perform backend event).Ready database dialect table := by
  obtain ⟨cache, isCached, kept, buckets⟩ := ready.cached
  have passes := perform_passes shaped placed isTable answers inForm ready isCached kept owned
  obtain ⟨now, isNow, follows⟩ := passes.follows
  refine ⟨passes.sameDatabase.trans ready.sameDatabase, passes.sameDialect.trans ready.sameDialect,
    passes.held, now, isNow, follows.kept, ?_⟩
  intro position value keys bucket key isKey
  rcases follows.buckets position value keys bucket with before | ⟨_, named⟩
  · exact buckets position value keys before key isKey
  · rw [Names, ready.sameDialect] at named
    exact inForm.writesKeys shaped ((Table.keysWithForm_sublist _ _ _ _ _).mem (named.mem_iff.mp isKey))

/-- A bucket names the right rows after an event exactly if the event has not stranded it. -/
private theorem namesRightly_perform_iff
    (inForm : table.InForm dialect (contents stage.world table.id))
    (ready : stage.Ready database dialect table) {position : Nat} {value : Value}
    (rightly : stage.NamesRightly contents table position value) {event : SessionEvent}
    (owned : event.Owned database) :
    (stage.perform backend event).NamesRightly contents table position value ↔
      ¬ stage.Strands backend contents table position value event := by
  obtain ⟨cache, isCached, kept, _⟩ := ready.cached
  have passes := perform_passes shaped placed isTable answers inForm ready isCached kept owned
  constructor
  · rintro rightlyThen ⟨keys, _, _, bucket, misnamed⟩
    exact misnamed (rightlyThen keys bucket)
  · intro notStranded keys bucket
    by_contra misnamed
    obtain ⟨now, isNow, follows⟩ := passes.follows
    have ⟨_, isSame, bucketNow⟩ := bucket
    obtain rfl := Option.some.inj (isNow.symm.trans isSame)
    rcases follows.buckets position value keys bucketNow with before | ⟨sameContents, named⟩
    · have bucketBefore : stage.HasBucket table position value keys := ⟨cache, isCached, before⟩
      exact notStranded ⟨keys, bucketBefore, rightly keys bucketBefore, bucket, misnamed⟩
    · apply misnamed
      rw [Names, passes.sameDialect, sameContents]
      exact named

variable {events : List SessionEvent} (owned : ∀ event ∈ events, event.Owned database)
  (inForm : ∀ done, done <+: events →
    table.InForm dialect (contents (run backend stage done).world table.id))
  (ready : stage.Ready database dialect table)
include owned inForm ready

omit shaped placed isTable answers ready in
private theorem allowed : Throughout backend
    (fun stage event => table.InForm dialect (contents stage.world table.id) ∧ event.Owned database)
    stage events := by
  have along : Throughout backend
      (fun stage _ => table.InForm dialect (contents stage.world table.id)) stage events :=
    RelationalAccess.Throughout.of_prefixes inForm
  exact RelationalAccess.Throughout.and_forall along owned

theorem run_ready : (run backend stage events).Ready database dialect table := by
  refine RelationalAccess.Throughout.keeps ?_ ready (allowed owned inForm)
  intro stageNow event readyNow ⟨inFormNow, ownedNow⟩
  exact perform_ready shaped placed isTable answers inFormNow readyNow ownedNow

/-- A bucket names the right rows throughout a run exactly if no event of the run strands it. -/
theorem namesRightly_throughout_iff {position : Nat} {value : Value}
    (rightly : stage.NamesRightly contents table position value) :
    (∀ done, done <+: events →
        (run backend stage done).NamesRightly contents table position value) ↔
      Throughout backend (fun stage event => ¬ stage.Strands backend contents table position value event)
        stage events := by
  refine forall_prefix_iff ?_ ?_ ready rightly (allowed owned inForm)
  · rintro stageNow event readyNow rightlyNow ⟨inFormNow, ownedNow⟩
    exact namesRightly_perform_iff shaped placed isTable answers inFormNow readyNow rightlyNow ownedNow
  · rintro stageNow event readyNow _ ⟨inFormNow, ownedNow⟩ _
    exact perform_ready shaped placed isTable answers inFormNow readyNow ownedNow

end

end Stage

end RelationalAccess
