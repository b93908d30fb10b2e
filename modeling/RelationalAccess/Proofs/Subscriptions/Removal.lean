import Mathlib.Data.List.Basic
import RelationalAccess.Proofs.Subscriptions.Deliveries

/-!
What it does to take a subscription back, at any moment of a run. Of what is live that one goes
and nothing else. The answer tells whether any entry at all went off the list of the event, and
the entries of the gone go along: so it tells whether the subscription was live only where it
was, or where nobody who has gone is listed any more.
-/

namespace RelationalAccess

namespace Subscriptions

/-- The entries of an event whose subscribers have gone, and which are not pruned yet. -/
def stale (alive : Nat → Bool) (subscriptions : Subscriptions) (event : String) :
    List Subscription :=
  (subscriptions.listed event).filter (!·.isAlive alive)

section

variable {alive : Nat → Bool} {subscriptions : Subscriptions} {event : String}
  {subscription : Subscription}

/-- What is listed is live or stale. -/
theorem length_live_add_length_stale (alive : Nat → Bool) (subscriptions : Subscriptions)
    (event : String) :
    (subscriptions.live alive event).length + (subscriptions.stale alive event).length =
      (subscriptions.listed event).length :=
  (List.length_eq_length_filter_add _).symm

/-- Who takes a subscription back is told whether the list has got shorter, by an entry of the
pair or by one of the gone. -/
theorem unsubscribe_fst_iff : (subscriptions.unsubscribe alive event subscription).1 = true ↔
    (subscriptions.live alive event).any (·.samePair subscription) = true ∨
      subscriptions.stale alive event ≠ [] := by
  have total := length_live_add_length_stale alive subscriptions event
  have fewer : ((subscriptions.live alive event).filter (!·.samePair subscription)).length ≤
      (subscriptions.live alive event).length := List.length_filter_le ..
  have shorter : ((subscriptions.live alive event).filter (!·.samePair subscription)).length <
      (subscriptions.live alive event).length ↔
        (subscriptions.live alive event).any (·.samePair subscription) = true := by
    rw [List.length_filter_lt_length_iff_exists, List.any_eq_true]
    simp
  show decide (_ < _) = true ↔ _
  rw [decide_eq_true_iff, ← shorter, ← List.length_pos_iff]
  omega

end

namespace Follows

variable {subscriptions : Subscriptions} {history : History} {event : String}
  {subscription : Subscription}

/-- Who takes a subscription back is told that it was there, or that one of the gone was. -/
theorem unsubscribe_told_iff (follows : Follows subscriptions history) (event : String)
    (callable : history.Callable subscription) :
    (subscriptions.unsubscribe history.alive event subscription).1 = true ↔
      subscription ∈ subscriptions.live history.alive event ∨
        subscriptions.stale history.alive event ≠ [] := by
  rw [unsubscribe_fst_iff, follows.any_samePair event callable, follows.live]

/-- Of what is live just the subscription that is taken back goes. -/
theorem live_unsubscribe (follows : Follows subscriptions history)
    (callable : history.Callable subscription) (other : String) :
    (subscriptions.unsubscribe history.alive event subscription).2.live history.alive other =
      if other = event then (subscriptions.live history.alive event).filter (· ≠ subscription)
      else subscriptions.live history.alive other := by
  have after := (follows.unsubscribe event callable).live other
  have sameAlive : History.alive (.unsubscribes event subscription :: history) = history.alive := rfl
  rw [sameAlive] at after
  rw [after, follows.live, follows.live, History.standing]
  by_cases same : other = event
  · rw [if_pos same.symm, if_pos same, same]
  · rw [if_neg (Ne.symm same), if_neg same]

end Follows

/-- Who takes a subscription back is told whether it was live, and of what is live it goes and
nothing else. -/
structure TakesBack (subscriptions : Subscriptions) (history : History) (event : String)
    (subscription : Subscription) : Prop where
  told : (subscriptions.unsubscribe history.alive event subscription).1 = true ↔
    subscription ∈ subscriptions.live history.alive event
  live : (subscriptions.unsubscribe history.alive event subscription).2.live history.alive event =
    (subscriptions.live history.alive event).filter (· ≠ subscription)
  apart : ∀ other, other ≠ event →
    (subscriptions.unsubscribe history.alive event subscription).2.live history.alive other =
      subscriptions.live history.alive other

namespace Runs

variable {subscriptions : Subscriptions} {history : History}

/-- At any moment of a run a subscription is taken back as it should be if and only if it is
live, or none of the gone is listed for its event. -/
theorem takesBack_iff (runs : Runs ({}, []) (subscriptions, history)) (event : String)
    {subscription : Subscription} (callable : history.Callable subscription) :
    TakesBack subscriptions history event subscription ↔
      subscription ∈ subscriptions.live history.alive event ∨
        subscriptions.stale history.alive event = [] := by
  have follows := runs.follows .empty
  have told := follows.unsubscribe_told_iff event callable
  constructor
  · intro takesBack
    by_cases clean : subscriptions.stale history.alive event = []
    · exact .inr clean
    · exact .inl (takesBack.told.mp (told.mpr (.inr clean)))
  · intro either
    refine ⟨?_, ?_, ?_⟩
    · rw [told, or_iff_left_iff_imp]
      exact either.resolve_right
    · rw [follows.live_unsubscribe callable, if_pos rfl]
    · intro other apart
      rw [follows.live_unsubscribe callable, if_neg apart]

end Runs

/-- Two who count the changes; one of them has gone since. -/
def afterLeaving : History :=
  [.leaves ⟨0, 7⟩, .subscribes "changed" ⟨some ⟨0, 7⟩, "count"⟩,
   .subscribes "changed" ⟨some ⟨1, 8⟩, "count"⟩, .arrives ⟨1, 8⟩, .arrives ⟨0, 7⟩]

/-- Nothing has been done with the changes since one of the two has gone. -/
def notYetPruned : Subscriptions :=
  ⟨[("changed", [⟨some ⟨1, 8⟩, "count"⟩, ⟨some ⟨0, 7⟩, "count"⟩])]⟩

theorem afterLeaving_runs : Runs ({}, []) (notYetPruned, afterLeaving) := by
  have arrived := ((Runs.stays ({}, [])).arrives ⟨0, 7⟩ (by simp) (by simp [History.living])).arrives
    ⟨1, 8⟩ (by simp) (by simp [History.living])
  have counted := (arrived.subscribes "changed" ⟨some ⟨1, 8⟩, "count"⟩
    (by simp [History.Callable, History.living])).subscribes "changed" ⟨some ⟨0, 7⟩, "count"⟩
      (by simp [History.Callable, History.living])
  exact counted.leaves ⟨0, 7⟩ (by simp [History.living])

/-- The one who stays takes back what was never made, and is told that it was there. -/
theorem neverMade_not_takesBack :
    Runs ({}, []) (notYetPruned, afterLeaving) ∧
      afterLeaving.Callable ⟨some ⟨1, 8⟩, "other"⟩ ∧
      .subscribes "changed" ⟨some ⟨1, 8⟩, "other"⟩ ∉ afterLeaving ∧
      (notYetPruned.unsubscribe afterLeaving.alive "changed" ⟨some ⟨1, 8⟩, "other"⟩).1 = true ∧
      ¬ TakesBack notYetPruned afterLeaving "changed" ⟨some ⟨1, 8⟩, "other"⟩ := by
  have isTold : (notYetPruned.unsubscribe afterLeaving.alive "changed"
      ⟨some ⟨1, 8⟩, "other"⟩).1 = true := by decide
  refine ⟨afterLeaving_runs, ?_, by decide, isTold, fun takesBack => ?_⟩
  · simp [History.Callable, afterLeaving, History.living]
  · exact absurd (takesBack.told.mp isTold) (by decide)

/-- What was made is taken back as it should be, and what was not is not. -/
theorem takesBack_iff_afterLeaving :
    Runs ({}, []) (notYetPruned, afterLeaving) ∧
      afterLeaving.Callable ⟨some ⟨1, 8⟩, "count"⟩ ∧
      TakesBack notYetPruned afterLeaving "changed" ⟨some ⟨1, 8⟩, "count"⟩ ∧
      ¬ TakesBack notYetPruned afterLeaving "changed" ⟨some ⟨1, 8⟩, "other"⟩ := by
  have callable (handler : String) : afterLeaving.Callable ⟨some ⟨1, 8⟩, handler⟩ := by
    simp [History.Callable, afterLeaving, History.living]
  refine ⟨afterLeaving_runs, callable "count", ?_, ?_⟩
  · exact (afterLeaving_runs.takesBack_iff "changed" (callable "count")).mpr (.inl (by decide))
  · rw [afterLeaving_runs.takesBack_iff "changed" (callable "other")]
    decide

end Subscriptions

end RelationalAccess
