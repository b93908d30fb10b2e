import Mathlib.Data.List.Pairwise
import RelationalAccess.Subscriptions

/-!
What happens at the subscriptions of events, and which subscriptions stand after it: those
made and since then neither taken back nor lost with their subscribers, in the order in which
they were made. Nothing is said here of how subscriptions are kept.
-/

namespace RelationalAccess

/-- What happens at the subscriptions of events. -/
inductive Happening where
  | arrives (subscriber : Subscriber)
  | leaves (subscriber : Subscriber)
  | subscribes (event : String) (subscription : Subscription)
  | unsubscribes (event : String) (subscription : Subscription)
  deriving DecidableEq

namespace Happening

/-- A subscription ends when it is taken back, and when its subscriber leaves. -/
def Ends (event : String) (subscription : Subscription) : Happening → Prop
  | unsubscribes other same => other = event ∧ same = subscription
  | leaves subscriber => subscription.subscriber = some subscriber
  | arrives _ | subscribes .. => False

end Happening

/-- What has happened so far; the latest comes first. -/
abbrev History := List Happening

namespace History

/-- Those who have come and not gone. -/
def living : History → List Subscriber
  | [] => []
  | .arrives subscriber :: earlier => subscriber :: living earlier
  | .leaves subscriber :: earlier => (living earlier).filter (· ≠ subscriber)
  | .subscribes .. :: earlier | .unsubscribes .. :: earlier => living earlier

def alive (history : History) (identity : Nat) : Bool :=
  history.living.any (·.identity == identity)

/-- The subscriptions of an event that stand, the one made first in front. -/
def standing (event : String) : History → List Subscription
  | [] => []
  | .arrives _ :: earlier => standing event earlier
  | .leaves subscriber :: earlier =>
    (standing event earlier).filter (·.subscriber ≠ some subscriber)
  | .subscribes other subscription :: earlier =>
    if other = event ∧ subscription ∉ standing event earlier then
      standing event earlier ++ [subscription]
    else standing event earlier
  | .unsubscribes other subscription :: earlier =>
    if other = event then (standing event earlier).filter (· ≠ subscription)
    else standing event earlier

/-- A subscription was made, and has not ended since. -/
def Stands (event : String) (history : History) (subscription : Subscription) : Prop :=
  ∃ later earlier, history = later ++ .subscribes event subscription :: earlier ∧
    ∀ happening ∈ later, ¬ happening.Ends event subscription

/-- One subscription stood already when another was made, and neither has ended since. -/
def StoodBefore (event : String) (history : History) (first second : Subscription) : Prop :=
  ∃ later earlier, history = later ++ .subscribes event second :: earlier ∧
    first ∈ standing event earlier ∧ second ∉ standing event earlier ∧
      ∀ happening ∈ later, ¬ happening.Ends event first ∧ ¬ happening.Ends event second

/-- Only who is there can subscribe, or take a subscription back. -/
def Callable (history : History) (subscription : Subscription) : Prop :=
  ∀ subscriber, subscription.subscriber = some subscriber → subscriber ∈ history.living

section

variable {event : String} {happening : Happening} {history : History}
  {subscription first second : Subscription}

theorem stands_cons_iff : Stands event (happening :: history) subscription ↔
    happening = .subscribes event subscription ∨
      ¬ happening.Ends event subscription ∧ Stands event history subscription := by
  constructor
  · rintro ⟨later, earlier, split, unended⟩
    cases later with
    | nil => exact .inl (List.cons.inj split).1
    | cons latest others =>
      obtain ⟨rfl, rfl⟩ := List.cons.inj split
      obtain ⟨now, before⟩ := List.forall_mem_cons.mp unended
      exact .inr ⟨now, others, earlier, rfl, before⟩
  · rintro (rfl | ⟨unended, later, earlier, rfl, before⟩)
    · exact ⟨[], history, rfl, fun _ membership => by cases membership⟩
    · exact ⟨happening :: later, earlier, rfl, List.forall_mem_cons.mpr ⟨unended, before⟩⟩

/-- What stands is what was made and has not ended since. -/
theorem mem_standing_iff : subscription ∈ standing event history ↔
    Stands event history subscription := by
  induction history with
  | nil =>
    constructor
    · intro membership
      cases membership
    · rintro ⟨later, earlier, split, _⟩
      cases later <;> cases split
  | cons happening earlier inductionHypothesis =>
    rw [stands_cons_iff, ← inductionHypothesis]
    cases happening with
    | arrives subscriber => simp [standing, Happening.Ends]
    | leaves subscriber => simp [standing, Happening.Ends, and_comm]
    | subscribes other made =>
      by_cases isNew : other = event ∧ made ∉ standing event earlier
      · obtain ⟨rfl, fresh⟩ := isNew
        simp [standing, fresh, Happening.Ends, or_comm, eq_comm (a := made)]
      · have known : other = event → made ∈ standing event earlier := by
          simpa using isNew
        simp only [standing, if_neg isNew, Happening.Ends, not_false_eq_true, true_and]
        constructor
        · exact .inr
        · rintro (same | there)
          · obtain ⟨sameEvent, rfl⟩ := Happening.subscribes.inj same
            exact known sameEvent
          · exact there
    | unsubscribes other taken =>
      by_cases same : other = event
      · simp [standing, same, Happening.Ends, and_comm, eq_comm (a := taken)]
      · simp [standing, same, Happening.Ends]

theorem nodup_standing (event : String) (history : History) : (standing event history).Nodup := by
  induction history with
  | nil => exact List.nodup_nil
  | cons happening earlier inductionHypothesis =>
    cases happening with
    | arrives subscriber => exact inductionHypothesis
    | leaves subscriber => exact inductionHypothesis.filter _
    | subscribes other made =>
      unfold standing
      split
      · next isNew =>
        apply List.nodup_append.mpr
        refine ⟨inductionHypothesis, List.pairwise_singleton _ made, ?_⟩
        intro kept before added isAdded same
        rw [same, List.mem_singleton.mp isAdded] at before
        exact isNew.2 before
      · exact inductionHypothesis
    | unsubscribes other taken =>
      unfold standing
      split
      · exact inductionHypothesis.filter _
      · exact inductionHypothesis

/-- What happens and ends neither of two subscriptions leaves their order. -/
theorem StoodBefore.cons (before : StoodBefore event history first second)
    (firstStays : ¬ happening.Ends event first) (secondStays : ¬ happening.Ends event second) :
    StoodBefore event (happening :: history) first second := by
  obtain ⟨later, earlier, rfl, there, fresh, unended⟩ := before
  refine ⟨happening :: later, earlier, rfl, there, fresh, ?_⟩
  exact List.forall_mem_cons.mpr ⟨⟨firstStays, secondStays⟩, unended⟩

/-- The subscriptions that stand come in the order in which they were made. -/
theorem standing_ordered (event : String) (history : History) :
    (standing event history).Pairwise (StoodBefore event history) := by
  induction history with
  | nil => exact .nil
  | cons happening earlier inductionHypothesis =>
    cases happening with
    | arrives subscriber => exact inductionHypothesis.imp fun before => before.cons id id
    | leaves subscriber =>
      apply (inductionHypothesis.filter _).imp_of_mem
      intro first second isFirst isSecond before
      have firstStays : first.subscriber ≠ some subscriber :=
        of_decide_eq_true (List.mem_filter.mp isFirst).2
      have secondStays : second.subscriber ≠ some subscriber :=
        of_decide_eq_true (List.mem_filter.mp isSecond).2
      exact before.cons firstStays secondStays
    | subscribes other made =>
      have kept : (standing event earlier).Pairwise
          (StoodBefore event (.subscribes other made :: earlier)) :=
        inductionHypothesis.imp fun before => before.cons id id
      unfold standing
      split
      · next isNew =>
        obtain ⟨rfl, fresh⟩ := isNew
        apply List.pairwise_append.mpr
        refine ⟨kept, List.pairwise_singleton _ made, ?_⟩
        intro first there second isMade
        rw [List.mem_singleton.mp isMade]
        exact ⟨[], earlier, rfl, there, fresh, fun _ membership => by cases membership⟩
      · exact kept
    | unsubscribes other taken =>
      unfold standing
      split
      · apply (inductionHypothesis.filter _).imp_of_mem
        intro first second isFirst isSecond before
        have firstStays : first ≠ taken := of_decide_eq_true (List.mem_filter.mp isFirst).2
        have secondStays : second ≠ taken := of_decide_eq_true (List.mem_filter.mp isSecond).2
        exact before.cons (fun ends => firstStays ends.2.symm) fun ends => secondStays ends.2.symm
      · next apart =>
        exact inductionHypothesis.imp fun before =>
          before.cons (fun ends => apart ends.1) fun ends => apart ends.1

theorem arrives_of_mem_living {subscriber : Subscriber} (isThere : subscriber ∈ history.living) :
    .arrives subscriber ∈ history := by
  induction history with
  | nil => cases isThere
  | cons happening earlier inductionHypothesis =>
    cases happening with
    | arrives other =>
      rcases List.mem_cons.mp isThere with rfl | before
      · exact List.mem_cons_self
      · exact List.mem_cons_of_mem _ (inductionHypothesis before)
    | leaves other =>
      exact List.mem_cons_of_mem _ (inductionHypothesis (List.mem_filter.mp isThere).1)
    | subscribes other made => exact List.mem_cons_of_mem _ (inductionHypothesis isThere)
    | unsubscribes other taken => exact List.mem_cons_of_mem _ (inductionHypothesis isThere)

end

/-- Each subscriber has an identity of its own for ever, and an address of its own for as long
as it lives. -/
structure Distinct (history : History) : Prop where
  identities : ∀ first second, .arrives first ∈ history → .arrives second ∈ history →
    first.identity = second.identity → first = second
  addresses : ∀ first ∈ history.living, ∀ second ∈ history.living,
    first.address = second.address → first = second

namespace Distinct

variable {history : History} {subscriber : Subscriber}

theorem nil : Distinct [] where
  identities _ _ membership := by cases membership
  addresses _ membership := by cases membership

theorem arrives (distinct : Distinct history)
    (fresh : ∀ other, .arrives other ∈ history → other.identity ≠ subscriber.identity)
    (free : ∀ other ∈ history.living, other.address ≠ subscriber.address) :
    Distinct (.arrives subscriber :: history) where
  identities first second isFirst isSecond same := by
    rcases List.mem_cons.mp isFirst with now | before
    · obtain rfl := Happening.arrives.inj now
      rcases List.mem_cons.mp isSecond with alsoNow | beforeThat
      · exact (Happening.arrives.inj alsoNow).symm
      · exact absurd same.symm (fresh second beforeThat)
    · rcases List.mem_cons.mp isSecond with now | alsoBefore
      · obtain rfl := Happening.arrives.inj now
        exact absurd same (fresh first before)
      · exact distinct.identities first second before alsoBefore same
  addresses first isFirst second isSecond same := by
    rcases List.mem_cons.mp isFirst with rfl | before
    · rcases List.mem_cons.mp isSecond with rfl | beforeThat
      · rfl
      · exact absurd same.symm (free second beforeThat)
    · rcases List.mem_cons.mp isSecond with rfl | alsoBefore
      · exact absurd same (free first before)
      · exact distinct.addresses first before second alsoBefore same

theorem leaves (distinct : Distinct history) (subscriber : Subscriber) :
    Distinct (.leaves subscriber :: history) where
  identities first second isFirst isSecond := by
    have earlier {other : Subscriber} (isThere : .arrives other ∈ Happening.leaves subscriber :: history) :
        .arrives other ∈ history := by simpa using isThere
    exact distinct.identities first second (earlier isFirst) (earlier isSecond)
  addresses first isFirst second isSecond :=
    distinct.addresses first (List.mem_filter.mp isFirst).1 second (List.mem_filter.mp isSecond).1

theorem subscribes (distinct : Distinct history) (event : String) (subscription : Subscription) :
    Distinct (.subscribes event subscription :: history) where
  identities first second isFirst isSecond :=
    distinct.identities first second (by simpa using isFirst) (by simpa using isSecond)
  addresses := distinct.addresses

theorem unsubscribes (distinct : Distinct history) (event : String) (subscription : Subscription) :
    Distinct (.unsubscribes event subscription :: history) where
  identities first second isFirst isSecond :=
    distinct.identities first second (by simpa using isFirst) (by simpa using isSecond)
  addresses := distinct.addresses

/-- Of those who have come just the living are alive. -/
theorem alive_iff (distinct : Distinct history) (hasCome : .arrives subscriber ∈ history) :
    history.alive subscriber.identity = true ↔ subscriber ∈ history.living := by
  constructor
  · intro isAlive
    obtain ⟨other, isThere, same⟩ := List.any_eq_true.mp isAlive
    have isOther := distinct.identities other subscriber (arrives_of_mem_living isThere) hasCome
      (by simpa using same)
    exact isOther ▸ isThere
  · intro isThere
    exact List.any_eq_true.mpr ⟨subscriber, isThere, by simp⟩

end Distinct

end History

end RelationalAccess
