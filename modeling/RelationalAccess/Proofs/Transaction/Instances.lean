import RelationalAccess.Proofs.Cache.Instances
import RelationalAccess.Proofs.Transaction.Lifecycle

/-!
The instance of a row that a transaction leaves behind. It is the one that was returned by
the last call that wrote the row, and from then on readers are handed no other.
-/

namespace RelationalAccess

/-- A call that writes a row and returns it. An update writes if its draft has changes. -/
inductive WritesRow {World : Type} (backend : Backend World) : Work World Row → Prop
  | insert (supply : Supply) (draft : DraftRow) :
      WritesRow backend (Transaction.insert backend supply draft)
  | update {draft : DraftRow} (changed : draft.hasChanges = true) :
      WritesRow backend (Transaction.update backend draft)

/-- What is done until a transaction is committed: a write of it, or anything beside it at
its data source. -/
inductive OpenStep (World : Type) where
  | write (asked : Write)
  | beside (action : Session World Unit)

namespace OpenStep

variable {World : Type} {backend : Backend World}

def after (backend : Backend World) (scene : Scene World) : OpenStep World → Scene World
  | write asked => asked.after backend scene
  | beside action => (Transaction.onSource action scene).2

def run (backend : Backend World) (scene : Scene World) (steps : List (OpenStep World)) :
    Scene World :=
  steps.foldl (after backend) scene

theorem after_extends (step : OpenStep World) (scene : Scene World) :
    scene.1.changes <+: (after backend scene step).1.changes := by
  cases step with
  | write asked => exact asked.after_extends scene
  | beside action => exact List.prefix_refl _

/-- Nothing that was recorded is taken back. -/
theorem run_extends (scene : Scene World) (steps : List (OpenStep World)) :
    scene.1.changes <+: (run backend scene steps).1.changes := by
  induction steps generalizing scene with
  | nil => exact List.prefix_refl _
  | cons step steps inductionHypothesis =>
    exact (step.after_extends scene).trans (inductionHypothesis _)

end OpenStep

namespace Transaction

variable {World : Type} {backend : Backend World}

theorem recordsRow_of_writesRow {call : Work World Row} (writes : WritesRow backend call)
    {scene called : Scene World} {row : Row} (returned : call scene = (.ok row, called)) :
    scene.1.RecordsRow row called.1 := by
  cases writes with
  | insert supply draft => exact (Write.insert_leads supply draft).returned rfl returned
  | update changed => exact (Write.update_leads changed).returned rfl returned

/-- After the commit the row is cached that was returned by the last call that wrote it. -/
theorem cached?_of_committed {call : Work World Row} (writes : WritesRow backend call)
    {scene called committed : Scene World} {row : Row} (returned : call scene = (.ok row, called))
    {steps : List (OpenStep World)} {told : List Announcement}
    (isCommitted : commit backend (OpenStep.run backend called steps) = (.ok told, committed))
    (isLast : ∀ change ∈ (OpenStep.run backend called steps).1.changes.drop called.1.changes.length,
      ¬ change.Touches row.table.id row.keys)
    (enabled : (OpenStep.run backend called steps).2.1.cache.caches row.table.id = true) :
    committed.2.1.cache.cached? row.table.id row.keys = some row := by
  obtain ⟨change, recorded, sameTable, isAfter⟩ := recordsRow_of_writesRow writes returned
  obtain ⟨later, joined⟩ : called.1.changes <+: (OpenStep.run backend called steps).1.changes :=
    OpenStep.run_extends called steps
  have changes : (OpenStep.run backend called steps).1.changes =
      scene.1.changes ++ change :: later := by
    rw [← joined, recorded, List.append_assoc]
    rfl
  rw [← joined, List.drop_left, ← sameTable] at isLast
  rw [← sameTable] at enabled ⊢
  have named : change.after.map Row.keys = some row.keys := by
    rw [isAfter]
    rfl
  rw [cache_of_committed backend isCommitted, changes, ← isAfter]
  exact DatabaseCache.cached?_withChanges_of_last enabled named isLast

end Transaction

/-- Each row has one instance. From when one is cached in any run, and as long as its entry is
spared, nobody is handed another with its keys, whatever else happens meanwhile. What a
transaction leaves cached was returned by the last call that wrote the row. -/
theorem one_instance_throughout :
    (∀ {World : Type} {earlier source : RowSource World} {table : Table} {settings : CacheSettings}
        {threshold : Float} {world : World} {history : List CacheOperation},
      (TableCache.new table settings).enabled = true → earlier.Contends (fun _ _ => True) →
      let start := earlier.operateAll
        ((TableCache.new table settings).withThreshold threshold, world) history
      ∀ {keys row}, start.1.peek? keys = some row →
        source.Contends (fun cache act => act.Spares keys cache) →
        ∀ {operations}, Throughout source.operate
            (fun now operation => operation.Spares keys now.1) start operations →
          TableCache.HandsOnly source keys row (source.operateAll start operations)) ∧
    (∀ {World : Type} {backend : Backend World} {call : Work World Row}, WritesRow backend call →
      ∀ {scene row called}, call scene = (.ok row, called) → ∀ {steps},
        let last := OpenStep.run backend called steps
        (∀ change ∈ last.1.changes.drop called.1.changes.length,
          ¬ change.Touches row.table.id row.keys) →
        last.2.1.cache.caches row.table.id = true →
        ∀ {told committed}, Transaction.commit backend last = (.ok told, committed) →
          committed.2.1.cache.cached? row.table.id row.keys = some row) ∧
    ∀ {World : Type} {backend : Backend World} {draft : DraftRow}, draft.hasChanges = false →
      ∀ scene, (Transaction.update backend draft scene).2 = scene ∧
        ∀ row, (Transaction.update backend draft scene).1 = .ok row → draft.stored = some row := by
  refine ⟨fun enabled acting => acting.handsOnly_throughout enabled, ?_, ?_⟩
  · intro World backend call writes scene row called returned steps last isLast enabled told
      committed isCommitted
    exact Transaction.cached?_of_committed writes returned isCommitted isLast enabled
  · intro World backend draft unchanged scene
    have reached := Transaction.update_unchanged backend unchanged scene scene rfl
    revert reached
    rcases Transaction.update backend draft scene with ⟨_ | row, last⟩
    · rintro rfl
      exact ⟨rfl, nofun⟩
    · rintro ⟨rfl, isStored⟩
      exact ⟨rfl, fun _ same => by cases same; exact isStored⟩

/-- Rows in memory. Each time they are read, something is done to the cache. -/
def restlessRows (rows : List Row) (meanwhile : CacheAct) : RowSource Unit where
  rowsByKeys keys := answer (rows.filter fun row => keys.contains row.keys)
  keysByValue column value :=
    answer ((rows.filter fun row => row.at? column = some value).map Row.keys)
  rowsByValue column value := answer (rows.filter fun row => row.at? column = some value)
where
  answer {α : Type} (found : α) : Loading Unit α := fun (cache, world) =>
    (.ok found, cache.perform meanwhile, world)

theorem restlessRows_contends {allowed : TableCache → CacheAct → Prop} {meanwhile : CacheAct}
    (isAllowed : ∀ cache, allowed cache meanwhile) (rows : List Row) :
    (restlessRows rows meanwhile).Contends allowed where
  rowsByKeys _ cache _ := ⟨[meanwhile], ⟨isAllowed cache, trivial⟩, rfl⟩
  keysByValue _ _ cache _ := ⟨[meanwhile], ⟨isAllowed cache, trivial⟩, rfl⟩
  rowsByValue _ _ cache _ := ⟨[meanwhile], ⟨isAllowed cache, trivial⟩, rfl⟩

/-- The draft of a new item. -/
def groupedDraft (key group : Int64) : DraftRow :=
  ((DraftRow.new groupedItems).setAt 0 (.int key)).setAt 1 (.int group)

/-- A transaction of the items that has just begun. -/
def groupedScene : Scene Script := ({ number := 0, handle := some 0 }, groupedSource, {})

/-- The instances at an item whose group is read while another item changes, from a source
that has made the item anew; and at an item that is inserted before another one is deleted. -/
theorem one_instance_throughout_restlessRows :
    let source := restlessRows [{ groupedItem 1 7 with identity := 5 }]
      (.applyChange (groupedItem 3 8) (groupedItem 3 9))
    let start := source.operateAll ((TableCache.new groupedItems {}).withThreshold 0.5, ())
      [.act (.insertRow (groupedItem 1 7))]
    let last := source.operateAll start [.getRows 1 (.int 7), .act (.removeRow ⟨[.int 3]⟩)]
    let insertion :=
      Transaction.insert Script.backend (.steady ⟨⟨0, 0, by decide⟩, 0⟩) (groupedDraft 1 7)
    let called := (insertion groupedScene).2
    let deleted := OpenStep.run Script.backend called [.write (.delete (groupedItem 2 7))]
    let committed := (Transaction.commit Script.backend deleted).2
    TableCache.HandsOnly source ⟨[.int 1]⟩ (groupedItem 1 7) last ∧
      insertion groupedScene = (.ok (groupedItem 1 7), called) ∧
      committed.2.1.cache.cached? 0 ⟨[.int 1]⟩ = some (groupedItem 1 7) ∧
      (Transaction.update Script.backend (DraftRow.ofRow (groupedItem 1 7)) called).2 = called := by
  intro source start last insertion called deleted committed
  have enabled : (TableCache.new groupedItems {}).enabled = true := rfl
  have cached : start.1.peek? ⟨[.int 1]⟩ = some (groupedItem 1 7) := rfl
  have spares (cache : TableCache) :
      (CacheAct.applyChange (groupedItem 3 8) (groupedItem 3 9)).Spares ⟨[.int 1]⟩ cache := by
    constructor
    · decide +kernel
    · decide +kernel
  have spared : Throughout source.operate
      (fun now operation => operation.Spares ⟨[.int 1]⟩ now.1) start
      [.getRows 1 (.int 7), .act (.removeRow ⟨[.int 3]⟩)] := by
    refine ⟨fun _ isAct => (by cases isAct), fun act isAct => ?_, trivial⟩
    cases isAct
    exact (by decide +kernel : (⟨[.int 3]⟩ : Keys) ≠ ⟨[.int 1]⟩)
  have contends : source.Contends fun cache act => act.Spares ⟨[.int 1]⟩ cache :=
    restlessRows_contends spares _
  have acting : source.Contends fun _ _ => True := restlessRows_contends (fun _ => trivial) _
  have inserted : insertion groupedScene = (.ok (groupedItem 1 7), called) := rfl
  have untouched : ∀ change ∈ deleted.1.changes.drop called.1.changes.length,
      ¬ change.Touches 0 ⟨[.int 1]⟩ := by
    decide +kernel
  have isCommitted : Transaction.commit Script.backend deleted = (.ok _, committed) := rfl
  exact ⟨one_instance_throughout.1 enabled acting cached contends spared, inserted,
    one_instance_throughout.2.1 (.insert _ _) inserted untouched rfl isCommitted,
    (one_instance_throughout.2.2 rfl called).1⟩

/-- A row whose key is null is cached, but a read by its keys does not find it. And after an
item is inserted and then updated, an update without changes returns what the insertion did,
while the updated item is cached after the commit. -/
theorem nullKeys_unfound_and_unchangedUpdate_not_cached :
    let nameless : Row := { identity := 0, table := groupedItems, values := [.null, .int 7] }
    let source := restlessRows [] .trim
    let start := source.operateAll (TableCache.new groupedItems {}, ()) [.act (.insertRow nameless)]
    let insertion :=
      Transaction.insert Script.backend (.steady ⟨⟨0, 0, by decide⟩, 0⟩) (groupedDraft 1 7)
    let update := Transaction.update Script.backend
      ((DraftRow.ofRow (groupedItem 1 7)).setAt 1 (.int 8))
    let updated : Row := { groupedItem 1 8 with identity := 1 }
    let unchanged := Transaction.update Script.backend (DraftRow.ofRow (groupedItem 1 7))
    let called := (unchanged (update (insertion groupedScene).2).2).2
    let committed := (Transaction.commit Script.backend called).2
    (start.1.peek? ⟨[.null]⟩ = some nameless ∧
      (TableCache.getRow source ⟨[.null]⟩ start).1.toOption.map Option.isSome = some false) ∧
      (insertion groupedScene).1 = .ok (groupedItem 1 7) ∧
      (update (insertion groupedScene).2).1 = .ok updated ∧
      (unchanged (update (insertion groupedScene).2).2).1 = .ok (groupedItem 1 7) ∧
      committed.1.state = .committed ∧
      committed.2.1.cache.cached? 0 ⟨[.int 1]⟩ = some updated ∧ updated ≠ groupedItem 1 7 := by
  intro nameless source start insertion update updated unchanged called committed
  refine ⟨⟨rfl, by decide +kernel⟩, rfl, rfl, rfl, rfl, rfl, fun same => ?_⟩
  cases congrArg Row.identity same

end RelationalAccess
