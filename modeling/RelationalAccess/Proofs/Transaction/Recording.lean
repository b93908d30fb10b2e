import RelationalAccess.Backend.Scripted
import RelationalAccess.Proofs.Throughout
import RelationalAccess.Proofs.Transaction.Calls
import RelationalAccess.Proofs.Transaction.Numbering

/-!
The changes that a transaction records, and the writes that its backend has carried out.
They correspond one to one as long as no insertion loses its key: as long as the backend
reports a key for every row that it is to number.
-/

namespace RelationalAccess

namespace Statement

variable {dialect : Dialect} {table : Table} {statement : Statement}

/-- Whether a statement inserts a row, by its text. -/
def isInsert (statement : Statement) : Bool :=
  "INSERT INTO ".toList.isPrefixOf statement.text.toList

/-- A statement whose pieces begin with some words begins with them. -/
private theorem isInsert_of_pieces {first : String} {pieces : Except Error (List Piece)}
    (begins : ∀ all, pieces = .ok all → ∃ rest, all = .words first :: rest)
    (isSent : (do return assemble dialect (← pieces)) = .ok statement) :
    ∃ further, statement.isInsert = "INSERT INTO ".toList.isPrefixOf (first.toList ++ further) := by
  obtain ⟨all, isAll, same⟩ := ok_of_bind isSent
  obtain ⟨rest, rfl⟩ := begins all isAll
  refine ⟨(assemble dialect rest).text.toList, ?_⟩
  cases same
  rw [← String.toList_append]
  rfl

theorem isInsert_insert {values : List Value}
    (isSent : insert dialect table values = .ok statement) : statement.isInsert = true := by
  have begins (all : List Piece) (isAll : insertPieces dialect table values = .ok all) :
      ∃ rest, all = .words "INSERT INTO " :: rest := by
    obtain ⟨columns, _, isAll⟩ := ok_of_bind isAll
    split at isAll
    · cases isAll
      exact ⟨_, rfl⟩
    · cases isAll
      exact ⟨_, rfl⟩
  obtain ⟨further, same⟩ := isInsert_of_pieces begins isSent
  rw [same]
  rfl

theorem isInsert_update {keys : Keys} {changes : List (Nat × Value)}
    (isSent : update dialect table keys changes = .ok statement) : statement.isInsert = false := by
  have begins (all : List Piece) (isAll : updatePieces dialect table keys changes = .ok all) :
      ∃ rest, all = .words "UPDATE " :: rest := by
    unfold updatePieces at isAll
    split at isAll
    · cases isAll
    · obtain ⟨assignments, _, isAll⟩ := ok_of_bind isAll
      obtain ⟨filter, _, isAll⟩ := ok_of_bind isAll
      obtain ⟨condition, _, isAll⟩ := ok_of_bind isAll
      cases isAll
      exact ⟨_, rfl⟩
  obtain ⟨further, same⟩ := isInsert_of_pieces begins isSent
  rw [same]
  rfl

theorem isInsert_delete {keys : Keys}
    (isSent : delete dialect table keys = .ok statement) : statement.isInsert = false := by
  have begins (all : List Piece) (isAll : deletePieces dialect table keys = .ok all) :
      ∃ rest, all = .words "DELETE FROM " :: rest := by
    obtain ⟨filter, _, isAll⟩ := ok_of_bind isAll
    obtain ⟨condition, _, isAll⟩ := ok_of_bind isAll
    cases isAll
    exact ⟨_, rfl⟩
  obtain ⟨further, same⟩ := isInsert_of_pieces begins isSent
  rw [same]
  rfl

end Statement

/-- The write that the backend has carried out, if it has: an insertion that has not failed,
or another statement that has changed a row. -/
def Exchange.done? : Exchange → Option (Statement × Execution)
  | executed _ statement (.ok execution) =>
    if statement.isInsert ∨ execution.affected ≠ 0 then some (statement, execution) else none
  | _ => none

namespace Transaction

/-- A change tells of a write: it is of the row that the statement has written. -/
inductive Tells (dialect : Dialect) : Change → Statement × Execution → Prop
  | insert {table : Table} {filled numbered : DraftRow} {after : Row} {statement : Statement}
      {execution : Execution} (isSent : Statement.insert dialect table filled.values = .ok statement)
      (isNumbered : numberColumns execution filled = .ok numbered)
      (makes : Makes table numbered.values after) :
      Tells dialect { kind := .insert, table := table.id, before := none, after := some after }
        (statement, execution)
  | update {draft : DraftRow} {row after : Row} {statement : Statement} {execution : Execution}
      (isSent : Statement.update dialect draft.table row.keys draft.changes = .ok statement)
      (isDraft : draft.stored = some row) (makes : Makes draft.table draft.values after) :
      Tells dialect { kind := .update, table := draft.table.id, before := row, after := some after }
        (statement, execution)
  | delete {row : Row} {statement : Statement} {execution : Execution}
      (isSent : Statement.delete dialect row.table row.keys = .ok statement) :
      Tells dialect { kind := .delete, table := row.table.id, before := row, after := none }
        (statement, execution)

variable {World : Type}

/-- The writes that the backend has carried out, in order. -/
def done (scene : Scene (World × List Exchange)) : List (Statement × Execution) :=
  (exchanges scene).filterMap Exchange.done?

/-- The recorded changes tell of the writes carried out, one of each and in order. -/
def Corresponds (scene : Scene (World × List Exchange)) : Prop :=
  List.Forall₂ (Tells scene.2.1.dialect) scene.1.changes (done scene)

/-- An insertion loses its key: the backend carries it out and reports no key, although it
was to number a key column. -/
def LosesKey (backend : Backend World) (scene : Scene (World × List Exchange)) : Write → Prop
  | .insert supply draft whole => ∃ filled handle statement execution,
      fill supply draft = .ok filled ∧ numberedColumns filled ≠ [] ∧
        execution.insertedKey = none ∧
        exchanges (Write.after backend.recorded scene (.insert supply draft whole)) =
          exchanges scene ++ [.executed handle statement (.ok execution)]
  | _ => False

variable {backend : Backend World}

/-- What a write tells of what it has done. -/
inductive Told (backend : Backend World) (scene : Scene (World × List Exchange)) (asked : Write)
    (last : Scene (World × List Exchange)) : Prop
  /-- Nothing is carried out and nothing recorded. -/
  | nothing (keeps : ¬ LosesKey backend scene asked) (changes : last.1.changes = scene.1.changes)
      (done : Transaction.done last = Transaction.done scene)
  /-- A write is carried out, and a change recorded that tells of it. -/
  | change {change : Change} {write : Statement × Execution} (keeps : ¬ LosesKey backend scene asked)
      (changes : last.1.changes = scene.1.changes ++ [change])
      (done : Transaction.done last = Transaction.done scene ++ [write])
      (tells : Tells scene.2.1.dialect change write)
  /-- A write is carried out, and nothing recorded. -/
  | lost {write : Statement × Execution} (loses : LosesKey backend scene asked)
      (changes : last.1.changes = scene.1.changes)
      (done : Transaction.done last = Transaction.done scene ++ [write])

section

variable {scene last : Scene (World × List Exchange)} {statement : Except Error Statement}
  {world : World × List Exchange}

/-- A statement that fails is not carried out. -/
private theorem Sends.done_of_failed {refusal : Error} (source : DataSource)
    (sends : Sends backend.recorded scene statement (.error refusal) world) :
    done (scene.1, source, world) = done scene := by
  obtain ⟨handle, sent, _, record⟩ := sends.exchanges
  show world.2.filterMap Exchange.done? = _
  rw [record, List.filterMap_append]
  exact List.append_nil _

private theorem Sends.done_of_executed {execution : Execution}
    (sends : Sends backend.recorded scene statement (.ok execution) world) :
    ∃ sent, statement = .ok sent ∧ world.2.filterMap Exchange.done? =
      done scene ++ if sent.isInsert ∨ execution.affected ≠ 0 then [(sent, execution)] else [] := by
  obtain ⟨handle, sent, isSent, record⟩ := sends.exchanges
  refine ⟨sent, isSent, ?_⟩
  rw [record, List.filterMap_append]
  refine congrArg (done scene ++ ·) ?_
  by_cases carried : sent.isInsert ∨ execution.affected ≠ 0
  · simp [Exchange.done?, carried]
  · simp [Exchange.done?, carried]

/-- What a write tells that can lose no key. -/
private theorem Outcome.told {asked : Write} (keeps : ¬ LosesKey backend scene asked)
    {missed : Execution → Prop} {recorded : Execution → Change → Prop}
    (outcome : Outcome backend.recorded scene statement missed recorded last)
    (undone : ∀ sent execution, statement = .ok sent → missed execution →
      ¬ (sent.isInsert ∨ execution.affected ≠ 0))
    (carried : ∀ sent execution change, statement = .ok sent → recorded execution change →
      (sent.isInsert ∨ execution.affected ≠ 0) ∧ Tells scene.2.1.dialect change (sent, execution)) :
    Told backend scene asked last := by
  cases outcome with
  | refused => exact .nothing keeps rfl rfl
  | failed sends => exact .nothing keeps rfl (sends.done_of_failed _)
  | missed nextRow sends isMissed =>
    obtain ⟨sent, isSent, nowDone⟩ := sends.done_of_executed
    rw [if_neg (undone sent _ isSent isMissed), List.append_nil] at nowDone
    exact .nothing keeps rfl nowDone
  | recorded nextRow sends isRecorded =>
    obtain ⟨sent, isSent, nowDone⟩ := sends.done_of_executed
    obtain ⟨isDone, tells⟩ := carried sent _ _ isSent isRecorded
    rw [if_pos isDone] at nowDone
    exact .change keeps rfl nowDone tells

/-- An insertion tells of all that it has done, unless it loses its key. -/
private theorem InsertOutcome.told {supply : Supply} {draft : DraftRow} {whole : draft.IsWhole}
    (outcome : InsertOutcome backend.recorded supply draft scene last)
    (isLast : Write.after backend.recorded scene (.insert supply draft whole) = last) :
    Told backend scene (.insert supply draft whole) last := by
  cases outcome with
  | refused =>
    refine .nothing ?_ rfl rfl
    rintro ⟨filled, handle, sent, execution, _, _, _, passed⟩
    rw [isLast] at passed
    exact absurd (congrArg List.length passed) (by simp)
  | failed sends =>
    refine .nothing ?_ rfl (sends.done_of_failed _)
    rintro ⟨filled, handle, sent, execution, _, _, _, passed⟩
    obtain ⟨_, _, _, record⟩ := sends.exchanges
    rw [isLast] at passed
    cases List.append_cancel_left (record.symm.trans passed)
  | @missed execution world nextRow sends isMissed =>
    obtain ⟨filled, isFilled, noRow⟩ := isMissed
    obtain ⟨sent, isSent, nowDone⟩ := sends.done_of_executed
    obtain ⟨_, _, isSent⟩ := ok_of_bind isSent
    rw [if_pos (.inl (Statement.isInsert_insert isSent))] at nowDone
    obtain ⟨handle, passedSent, _, record⟩ := sends.exchanges
    have lost : ¬ (execution.insertedKey = none → numberedColumns filled = []) := by
      rw [← numberColumns_succeeds_iff]
      rintro ⟨numbered, isNumbered⟩
      refine noRow numbered isNumbered ?_
      rw [numberColumns_width isNumbered, fill_width isFilled]
      exact whole
    rw [Classical.not_imp] at lost
    refine .lost ⟨filled, handle, passedSent, execution, isFilled, lost.2, lost.1, ?_⟩ rfl nowDone
    rw [isLast]
    exact record
  | @recorded execution world change nextRow sends isRecorded =>
    obtain ⟨filled, numbered, after, isFilled, isNumbered, makes, rfl⟩ := isRecorded
    obtain ⟨sent, isSent, nowDone⟩ := sends.done_of_executed
    obtain ⟨_, isFilledToo, isSent⟩ := ok_of_bind isSent
    cases isFilled.symm.trans isFilledToo
    rw [if_pos (.inl (Statement.isInsert_insert isSent))] at nowDone
    refine .change ?_ rfl nowDone (.insert isSent isNumbered makes)
    rintro ⟨other, handle, _, otherExecution, isOther, numbers, noKey, passed⟩
    cases isFilled.symm.trans isOther
    obtain ⟨_, _, _, record⟩ := sends.exchanges
    rw [isLast] at passed
    cases List.append_cancel_left (record.symm.trans passed)
    exact numbers (numberColumns_succeeds_iff.mp ⟨numbered, isNumbered⟩ noKey)

/-- A write tells of all that it has done, unless it is an insertion that loses its key. -/
theorem after_told (scene : Scene (World × List Exchange)) (asked : Write) :
    Told backend scene asked (Write.after backend.recorded scene asked) := by
  cases asked with
  | insert supply draft whole =>
    have performed : Write.after backend.recorded scene (.insert supply draft whole) =
        (insert backend.recorded supply draft scene).2 := by
      rw [Write.after, Write.perform, discard_apply]
    have outcome : InsertOutcome backend.recorded supply draft scene
        (insert backend.recorded supply draft scene).2 := by
      cases isStored : draft.stored with
      | none => exact insert_outcome backend.recorded supply isStored scene
      | some row =>
        rw [insert_of_stored backend.recorded isStored supply scene]
        exact .refused
    rw [performed]
    exact outcome.told performed
  | update draft whole =>
    rw [Write.after, Write.perform, discard_apply]
    cases isStored : draft.stored with
    | none =>
      rw [update_of_new backend.recorded isStored scene]
      exact .nothing id rfl rfl
    | some row =>
      refine (update_draft_outcome backend.recorded isStored scene).told id ?_ ?_
      · intro sent execution isSent missed
        simp [Statement.isInsert_update isSent, missed.resolve_right (not_not_intro whole)]
      · rintro sent execution change isSent ⟨affected, after, makes, rfl⟩
        exact ⟨.inr affected, .update isSent isStored makes⟩
  | delete row =>
    rw [Write.after, Write.perform, discard_apply]
    refine (delete_outcome backend.recorded row scene).told id ?_ ?_
    · intro sent execution isSent missed
      simp [Statement.isInsert_delete isSent, missed]
    · rintro sent execution change isSent ⟨affected, rfl⟩
      exact ⟨.inr affected, .delete isSent⟩

end

/-- The changes still correspond to the writes carried out, unless a key is lost. -/
private theorem corresponds_step_iff {scene : Scene (World × List Exchange)}
    (corresponds : Corresponds scene) (asked : Write) :
    Corresponds (Write.after backend.recorded scene asked) ↔ ¬ LosesKey backend scene asked := by
  obtain ⟨nextRow, sameButNext⟩ :=
    (Write.after_writes scene asked : Writes scene (Write.after backend.recorded scene asked)).source
  unfold Corresponds
  rw [sameButNext]
  cases after_told scene asked with
  | nothing keeps changes done =>
    rw [changes, done]
    exact iff_of_true corresponds keeps
  | change keeps changes done tells =>
    rw [changes, done]
    exact iff_of_true (List.rel_append corresponds (.cons tells .nil)) keeps
  | lost loses changes done =>
    rw [changes, done]
    refine iff_of_false (fun each => ?_) (not_not_intro loses)
    have sameLength := corresponds.length_eq
    have oneMore := each.length_eq
    rw [List.length_append, List.length_singleton] at oneMore
    omega

/-- The recorded changes correspond to the writes that the backend has carried out, throughout
any writes of a transaction, if and only if none of these is an insertion that loses its key.
And a write that fails has carried out nothing, if and only if it is none. -/
theorem corresponds_throughout_iff {source source' : DataSource} {world : World}
    {world' : World × List Exchange} {transaction : Transaction}
    (started : start backend.recorded (source, world, []) = (.ok transaction, source', world'))
    (writes : List Write) :
    ((∀ first, first <+: writes →
        Corresponds (Write.run backend.recorded (transaction, source', world') first)) ↔
      Throughout (Write.after backend.recorded) (fun scene asked => ¬ LosesKey backend scene asked)
        (transaction, source', world') writes) ∧
      ∀ scene asked refusal, (Write.perform backend.recorded asked scene).1 = .error refusal →
        (done (Write.after backend.recorded scene asked) = done scene ↔
          ¬ LosesKey backend scene asked) := by
  constructor
  · obtain ⟨number, handle, rfl, nothing⟩ := start_recorded started
    have corresponds : Corresponds ({ number, handle := some handle }, source', world') := by
      have nothingDone : done ({ number, handle := some handle }, source', world') = [] := by
        show world'.2.filterMap Exchange.done? = []
        rw [nothing]
        rfl
      rw [Corresponds, nothingDone]
      exact .nil
    have stepIff (scene : Scene (World × List Exchange)) (asked : Write) (_ : True)
        (holds : Corresponds scene) (_ : True) :
        Corresponds (Write.after backend.recorded scene asked) ↔ ¬ LosesKey backend scene asked :=
      corresponds_step_iff holds asked
    exact forall_prefix_iff stepIff (fun _ _ _ _ _ _ => trivial) trivial corresponds
      (.of_forall (fun _ _ => trivial) _ _)
  · intro scene asked refusal isFailed
    have unrecorded := Write.after_failed isFailed
    cases after_told scene asked with
    | nothing keeps _ done => exact iff_of_true done keeps
    | change _ changes _ _ =>
      rw [unrecorded] at changes
      exact absurd (congrArg List.length changes) (by simp)
    | lost loses _ done =>
      rw [done]
      exact iff_of_false (by simp) (not_not_intro loses)

end Transaction

/-- Items of one amount, with a key that the engine numbers. -/
def numberedItems : Table where
  id := 0
  name := "items"
  model := "items"
  columns :=
    [{ table := 0, position := 0, name := "id", declared := [], nullable := false,
       autoIncrement := true, primaryKey := true, property := "id", host := .int64,
       defaultValue := none },
     { table := 0, position := 1, name := "a", declared := [], nullable := false,
       autoIncrement := false, primaryKey := false, property := "a", host := .int64,
       defaultValue := none }]
  primaryKeys := [0]
  indices := [{ name := "pk_items", table := 0, columns := [0], kind := .primaryKey }]
  useCache := true

/-- A data source of items that the engine numbers, each of one amount. -/
def numberedSource : DataSource :=
  { dialect := .sqlite
    cache := .new
      { name := "app", modelType := "app", tables := [numberedItems], relations := []
        settings := {} } }

/-- An item whose number is not known. -/
def unkeyedDraft : DraftRow :=
  { table := numberedItems, stored := none, values := [.null, .int 5], changed := [false, true] }

private theorem unkeyedDraft_isSet :
    (DraftRow.new numberedItems).setAll [("a", .int 5)] = .ok unkeyedDraft :=
  rfl

/-- The item is inserted, at some moment. -/
def unkeyedInsert : Write :=
  .insert (.steady ⟨⟨0, 1, by decide⟩, 0⟩) unkeyedDraft
    ((DraftRow.new_isWhole numberedItems).setAll unkeyedDraft_isSet)

namespace Transaction

/-- The backend carries the insertion out and reports no key: the call fails, and no change
is recorded that tells of the item inserted. -/
theorem unkeyedInsert_not_corresponds :
    ∃ transaction source world,
      start Script.backend.recorded (numberedSource, {}, []) = (.ok transaction, source, world) ∧
        (unkeyedInsert.perform Script.backend.recorded (transaction, source, world)).1 =
          .error (.missingGeneratedKey "items" "id") ∧
        let last := unkeyedInsert.after Script.backend.recorded (transaction, source, world)
        last.1.changes = [] ∧ (done last).length = 1 ∧ ¬ Corresponds last := by
  have started : start Script.backend.recorded (numberedSource, {}, []) = (.ok _, _, _) := rfl
  refine ⟨_, _, _, started, rfl, rfl, rfl, fun each => ?_⟩
  exact absurd each.length_eq (by decide)

/-- Two items are inserted, and the backend reports a key for the first one only. -/
theorem corresponds_throughout_iff_unkeyedInsert :
    let answering : Script := { replies := [{ insertedKey := some 1 }] }
    ∃ transaction source world,
      start Script.backend.recorded (numberedSource, answering, []) = (.ok transaction, source, world) ∧
        let scene := (transaction, source, world)
        (∀ first, first <+: [unkeyedInsert] →
            Corresponds (Write.run Script.backend.recorded scene first)) ∧
          ¬ Throughout (Write.after Script.backend.recorded)
              (fun scene asked => ¬ LosesKey Script.backend scene asked) scene
              [unkeyedInsert, unkeyedInsert] := by
  intro answering
  have started : start Script.backend.recorded (numberedSource, answering, []) = (.ok _, _, _) := rfl
  refine ⟨_, _, _, started, ?_, fun keeps => ?_⟩
  · refine (corresponds_throughout_iff started [unkeyedInsert]).1.mpr ⟨?_, trivial⟩
    rintro ⟨_, _, _, _, _, _, noKey, passed⟩
    cases passed
    cases noKey
  · have along := (corresponds_throughout_iff started [unkeyedInsert, unkeyedInsert]).1.mpr keeps
    have each := along [unkeyedInsert, unkeyedInsert] (List.prefix_refl _)
    exact absurd each.length_eq (by decide)

end Transaction

end RelationalAccess
