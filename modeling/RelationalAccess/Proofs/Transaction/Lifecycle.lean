import RelationalAccess.Backend.Scripted
import RelationalAccess.Proofs.Cache.Source
import RelationalAccess.Proofs.Transaction.Calls

/-!
The life of a transaction, from its beginning until it is given up, whatever is called on it
and whatever its backend answers. It holds a transaction of the backend as long as it is
active, and ends that one once; then every call is refused and changes nothing. The caches
are changed by a commit that the backend has carried out, and by nothing else.
-/

namespace RelationalAccess

/-- What can be called on a transaction. -/
inductive Call where
  | write (asked : Write)
  | commit
  | rollback
  | drop

namespace Call

variable {World : Type} (backend : Backend World)

/-- A call carried out, whatever it returns. -/
def perform : Call → Work World Unit
  | write asked => asked.perform backend
  | commit => discard (Transaction.commit backend)
  | rollback => Transaction.rollback backend
  | drop => Transaction.drop backend

def run (scene : Scene World) (calls : List Call) : Scene World :=
  calls.foldl (fun scene call => (call.perform backend scene).2) scene

variable {backend}

/-- On a transaction that has ended every call is refused but that it is given up, and none
changes anything. -/
theorem perform_of_ended {scene : Scene World} (ended : scene.1.state ≠ .active) (call : Call) :
    (call.perform backend scene).2 = scene ∧
      (call ≠ .drop → ∃ refusal, (call.perform backend scene).1 = .error refusal ∧
        refusal.kind = .invalidState) := by
  cases call with
  | write asked =>
    rw [perform, Write.perform_of_ended ended]
    exact ⟨rfl, fun _ => ⟨_, rfl, rfl⟩⟩
  | commit =>
    rw [perform, discard_apply, Transaction.commit, Transaction.checkActive_bind_of_ended ended]
    exact ⟨rfl, fun _ => ⟨_, rfl, rfl⟩⟩
  | rollback =>
    rw [perform, Transaction.rollback, Transaction.checkActive_bind_of_ended ended]
    exact ⟨rfl, fun _ => ⟨_, rfl, rfl⟩⟩
  | drop => exact ⟨Transaction.drop_of_ended backend ended, fun isNot => absurd rfl isNot⟩

end Call

/-- A transaction of the backend has been ended just once, by a commit or by a rollback. -/
def Exchange.EndOnce (handle : Nat) (exchanges : List Exchange) : Prop :=
  ∃ answer, exchanges.filter isEnding = [.committed handle answer] ∨
    exchanges.filter isEnding = [.rolledBack handle answer]

namespace Transaction

variable {World : Type} {backend : Backend World}

/-- The transaction of the backend is held and has not been ended, or it is held no more and
has been ended once. -/
structure HeldUntilEnded (handle : Nat) (scene : Scene (World × List Exchange)) : Prop where
  active : scene.1.state = .active →
    scene.1.handle = some handle ∧ (exchanges scene).filter Exchange.isEnding = []
  ended : scene.1.state ≠ .active →
    scene.1.handle = none ∧ Exchange.EndOnce handle (exchanges scene)

/-- A call is a commit that the backend carries out. -/
def Commits (backend : Backend World) (scene : Scene (World × List Exchange)) (call : Call) : Prop :=
  call = .commit ∧ ∃ handle, exchanges (call.perform backend.recorded scene).2 =
    exchanges scene ++ [.committed handle (.ok ())]

section

variable {handle : Nat} {scene last : Scene (World × List Exchange)}

/-- A call has ended the transaction, and that of the backend by what passed last. -/
structure EndsBy (scene last : Scene (World × List Exchange)) (ending : Exchange) : Prop where
  exchanges : Transaction.exchanges last = Transaction.exchanges scene ++ [ending]
  released : last.1.handle = none
  ended : last.1.state ≠ .active

/-- What comes of a commit: the changes are applied if the backend has carried it out. -/
private theorem commit_ends (active : scene.1.state = .active) (isOpen : scene.1.handle = some handle) :
    ∃ answer, EndsBy scene (commit backend.recorded scene).2 (.committed handle answer) ∧
      (commit backend.recorded scene).2.2.1.cache = match answer with
        | .ok _ => scene.2.1.cache.withChanges scene.1.changes
        | .error _ => scene.2.1.cache := by
  obtain ⟨transaction, source, world, exchanges⟩ := scene
  refine ⟨(backend.commit handle world).1, ?_⟩
  rw [commit_apply backend.recorded active isOpen]
  simp only [Backend.recorded]
  rcases backend.commit handle world with ⟨refusal | _, world⟩
  · refine ⟨⟨rfl, rfl, ?_⟩, rfl⟩
    rintro ⟨⟩
  · refine ⟨⟨rfl, rfl, ?_⟩, rfl⟩
    rintro ⟨⟩

private theorem rollback_ends (active : scene.1.state = .active)
    (isOpen : scene.1.handle = some handle) :
    ∃ answer, EndsBy scene (rollback backend.recorded scene).2 (.rolledBack handle answer) ∧
      (rollback backend.recorded scene).2.2.1.cache = scene.2.1.cache := by
  refine ⟨(backend.rollback handle scene.2.2.1).1, ?_⟩
  rw [rollback_apply backend.recorded active isOpen]
  refine ⟨⟨rfl, rfl, ?_⟩, rfl⟩
  rintro ⟨⟩

private theorem drop_ends (active : scene.1.state = .active)
    (isOpen : scene.1.handle = some handle) :
    ∃ answer, EndsBy scene (drop backend.recorded scene).2 (.rolledBack handle answer) ∧
      (drop backend.recorded scene).2.2.1.cache = scene.2.1.cache := by
  refine ⟨(backend.rollback handle scene.2.2.1).1, ?_⟩
  rw [drop_apply backend.recorded active isOpen]
  refine ⟨⟨rfl, rfl, ?_⟩, rfl⟩
  rintro ⟨⟩

namespace HeldUntilEnded

theorem ends (held : HeldUntilEnded handle scene) (active : scene.1.state = .active)
    {ending : Exchange} (ends : EndsBy scene last ending) (once : Exchange.EndOnce handle [ending]) :
    HeldUntilEnded handle last := by
  refine ⟨fun still => absurd still ends.ended, fun _ => ⟨ends.released, ?_⟩⟩
  rw [Exchange.EndOnce, ends.exchanges, List.filter_append, (held.active active).2]
  exact once

theorem writes (held : HeldUntilEnded handle scene) (writes : Writes scene last) :
    HeldUntilEnded handle last := by
  obtain ⟨recorded, sameButChanges⟩ := writes.transaction
  obtain ⟨executed, passed, noneEnds⟩ := writes.exchanges
  have sameHandle : last.1.handle = scene.1.handle := by rw [sameButChanges]
  have sameState : last.1.state = scene.1.state := by rw [sameButChanges]
  have sameEndings : (exchanges last).filter Exchange.isEnding =
      (exchanges scene).filter Exchange.isEnding := by
    have nothing : executed.filter Exchange.isEnding = [] :=
      List.filter_eq_nil_iff.mpr fun exchange membership => by simp [noneEnds exchange membership]
    rw [passed, List.filter_append, nothing, List.append_nil]
  refine ⟨fun active => ?_, fun ended => ?_⟩
  · rw [sameHandle, sameEndings]
    exact held.active (sameState ▸ active)
  · unfold Exchange.EndOnce
    rw [sameHandle, sameEndings]
    exact held.ended (sameState ▸ ended)

/-- Whatever is called, the transaction of the backend is held until it is ended, once. -/
theorem perform (held : HeldUntilEnded handle scene) (call : Call) :
    HeldUntilEnded handle (call.perform backend.recorded scene).2 := by
  by_cases active : scene.1.state = .active
  · have isOpen := (held.active active).1
    cases call with
    | write asked => exact held.writes (Write.after_writes scene asked)
    | commit =>
      obtain ⟨answer, ends, _⟩ := commit_ends active isOpen
      rw [Call.perform, discard_apply]
      exact held.ends active ends ⟨answer, .inl rfl⟩
    | rollback =>
      obtain ⟨answer, ends, _⟩ := rollback_ends active isOpen
      exact held.ends active ends ⟨answer, .inr rfl⟩
    | drop =>
      obtain ⟨answer, ends, _⟩ := drop_ends active isOpen
      exact held.ends active ends ⟨answer, .inr rfl⟩
  · rw [(call.perform_of_ended active).1]
    exact held

theorem run (held : HeldUntilEnded handle scene) (calls : List Call) :
    HeldUntilEnded handle (Call.run backend.recorded scene calls) := by
  induction calls generalizing scene with
  | nil => exact held
  | cons call calls inductionHypothesis => exact inductionHypothesis (held.perform call)

/-- When the transaction is given up, if not before, that of the backend is ended. -/
theorem drop (held : HeldUntilEnded handle scene) :
    Exchange.EndOnce handle (exchanges (drop backend.recorded scene).2) := by
  have dropped : HeldUntilEnded handle (Call.drop.perform backend.recorded scene).2 :=
    held.perform .drop
  refine (dropped.ended ?_).2
  by_cases active : scene.1.state = .active
  · obtain ⟨answer, ends, _⟩ := drop_ends active (held.active active).1
    exact ends.ended
  · rw [(Call.drop.perform_of_ended active).1]
    exact active

end HeldUntilEnded

/-- A commit that the backend carries out applies the recorded changes, each once and in order. -/
private theorem cache_of_commits (held : HeldUntilEnded handle scene) {call : Call}
    (commits : Commits backend scene call) :
    (call.perform backend.recorded scene).2.2.1.cache =
      scene.1.changes.foldl (fun cache change => (applyChange change cache).2) scene.2.1.cache := by
  obtain ⟨rfl, other, passed⟩ := commits
  by_cases active : scene.1.state = .active
  · obtain ⟨answer, ends, cache⟩ := commit_ends active (held.active active).1
    rw [Call.perform, discard_apply] at passed ⊢
    have same : [Exchange.committed handle answer] = [.committed other (.ok ())] :=
      List.append_cancel_left (ends.exchanges.symm.trans passed)
    cases same
    rw [← DatabaseCache.withChanges_eq_foldl]
    exact cache
  · rw [(Call.commit.perform_of_ended active).1] at passed
    exact absurd (congrArg List.length passed) (by simp)

/-- No other call changes the caches. -/
private theorem cache_of_not_commits (held : HeldUntilEnded handle scene) {call : Call}
    (notCommits : ¬ Commits backend scene call) :
    (call.perform backend.recorded scene).2.2.1.cache = scene.2.1.cache := by
  by_cases active : scene.1.state = .active
  · have isOpen := (held.active active).1
    cases call with
    | write asked =>
      have writes : Writes scene (Call.perform backend.recorded (.write asked) scene).2 :=
        Write.after_writes scene asked
      obtain ⟨nextRow, sameButNext⟩ := writes.source
      rw [sameButNext]
    | commit =>
      obtain ⟨answer, ends, cache⟩ := commit_ends active isOpen
      have performed : (Call.perform backend.recorded .commit scene).2 =
          (commit backend.recorded scene).2 := by
        rw [Call.perform, discard_apply]
      cases answer with
      | ok => exact absurd ⟨rfl, handle, performed ▸ ends.exchanges⟩ notCommits
      | error refusal =>
        rw [performed]
        exact cache
    | rollback =>
      obtain ⟨_, _, cache⟩ := rollback_ends active isOpen
      exact cache
    | drop =>
      obtain ⟨_, _, cache⟩ := drop_ends active isOpen
      exact cache
  · rw [(call.perform_of_ended active).1]

end

/-- What holds of a transaction wherever it stands in its life, given the handle that it was
begun with. -/
structure Orderly (backend : Backend World) (handle : Nat) (scene : Scene (World × List Exchange)) :
    Prop where
  /-- The transaction of the backend is held while the transaction is active, and only then. -/
  held : scene.1.handle = if scene.1.state = .active then some handle else none
  /-- It has been ended once by the time that the transaction is given up. -/
  endedOnce : Exchange.EndOnce handle (exchanges (drop backend.recorded scene).2)
  /-- When the transaction is no longer active, a call changes nothing, and is refused. -/
  refuses : scene.1.state ≠ .active → ∀ call : Call, (call.perform backend.recorded scene).2 = scene ∧
    (call ≠ .drop → ∃ refusal, (call.perform backend.recorded scene).1 = .error refusal ∧
      refusal.kind = .invalidState)
  /-- A write records at most one change, after those recorded before. -/
  records : ∀ asked : Write, ∃ recorded : Option Change,
    (Write.after backend.recorded scene asked).1.changes = scene.1.changes ++ recorded.toList
  /-- A commit that the backend carries out applies the recorded changes in order. -/
  applies : ∀ call, Commits backend scene call →
    (call.perform backend.recorded scene).2.2.1.cache =
      scene.1.changes.foldl (fun cache change => (applyChange change cache).2) scene.2.1.cache
  /-- Nothing else changes the caches. -/
  untouched : ∀ call, ¬ Commits backend scene call →
    (call.perform backend.recorded scene).2.2.1.cache = scene.2.1.cache

theorem HeldUntilEnded.orderly {handle : Nat} {scene : Scene (World × List Exchange)}
    (held : HeldUntilEnded handle scene) : Orderly backend handle scene where
  held := by
    split
    · next active => exact (held.active active).1
    · next ended => exact (held.ended ended).1
  endedOnce := held.drop
  refuses ended call := call.perform_of_ended ended
  records asked := by
    obtain ⟨recorded, sameButChanges⟩ := (Write.after_writes scene asked).transaction
    exact ⟨recorded, congrArg Transaction.changes sameButChanges⟩
  applies _ commits := cache_of_commits held commits
  untouched _ notCommits := cache_of_not_commits held notCommits

end Transaction

/-- A data source of items in groups, with nothing cached. -/
def groupedSource : DataSource :=
  { dialect := .sqlite
    cache := .new
      { name := "app", modelType := "app", tables := [groupedItems], relations := []
        settings := {} } }

end RelationalAccess
