import Mathlib.Data.List.Induction
import RelationalAccess.Proofs.Subscriptions.Standing

/-!
Runs of subscriptions: subscribers come and go, subscriptions are made and taken back, events
are dispatched, and handlers do any of this in turn. Entries of the dead stay listed until they
are pruned, and a subscriber may have the address of an earlier one. What is live is, at every
moment, what stands by what has happened, and a dispatch calls just that.
-/

namespace RelationalAccess

namespace Subscription

variable {alive : Nat → Bool} {subscription : Subscription}

/-- A subscription lives as long as its subscriber. -/
theorem isAlive_iff : subscription.isAlive alive = true ↔
    ∀ subscriber, subscription.subscriber = some subscriber → alive subscriber.identity = true := by
  simp [isAlive, Option.all_eq_true]

/-- Subscribers apart by their addresses have no two subscriptions of one pair. -/
theorem samePair_iff {left right : Subscription}
    (apart : ∀ first second, left.subscriber = some first → right.subscriber = some second →
      first.address = second.address → first = second) :
    left.samePair right = true ↔ left = right := by
  obtain ⟨leftSubscriber, leftHandler⟩ := left
  obtain ⟨rightSubscriber, rightHandler⟩ := right
  constructor
  · intro same
    obtain ⟨sameHandler, sameAddress⟩ : leftHandler = rightHandler ∧
        leftSubscriber.map Subscriber.address = rightSubscriber.map Subscriber.address := by
      simpa [samePair] using same
    cases leftSubscriber with
    | none =>
      cases rightSubscriber with
      | none => rw [sameHandler]
      | some second => cases sameAddress
    | some first =>
      cases rightSubscriber with
      | none => cases sameAddress
      | some second => rw [sameHandler, apart first second rfl rfl (Option.some.inj sameAddress)]
  · rintro ⟨⟩
    simp [samePair]

end Subscription

/-- Who can be called is alive. -/
theorem History.Callable.isAlive {history : History} {subscription : Subscription}
    (callable : history.Callable subscription) : subscription.isAlive history.alive = true := by
  rw [Subscription.isAlive_iff]
  intro subscriber isOf
  exact List.any_eq_true.mpr ⟨subscriber, callable subscriber isOf, by simp⟩

namespace Subscriptions

@[simp] theorem listed_put_self (subscriptions : Subscriptions) (event : String)
    (list : List Subscription) : (subscriptions.put event list).listed event = list := by
  simp [listed, put]

private theorem lookup_filter_ne {lists : List (String × List Subscription)} {event other : String}
    (apart : other ≠ event) :
    (lists.filter fun entry => entry.1 != event).lookup other = lists.lookup other := by
  have notHere : (other == event) = false := by simpa using apart
  induction lists with
  | nil => rfl
  | cons first rest inductionHypothesis =>
    obtain ⟨name, list⟩ := first
    by_cases same : name = event
    · simpa [List.lookup_cons, same, notHere] using inductionHypothesis
    · simp [List.lookup_cons, same, inductionHypothesis]

theorem listed_put_of_ne (subscriptions : Subscriptions) {event other : String}
    (list : List Subscription) (apart : other ≠ event) :
    (subscriptions.put event list).listed other = subscriptions.listed other := by
  have notHere : (other == event) = false := by simpa using apart
  simp only [listed, put, List.lookup_cons, notHere, lookup_filter_ne apart]

theorem listed_prune (alive : Nat → Bool) (subscriptions : Subscriptions) (event other : String) :
    (subscriptions.prune alive event).listed other =
      if other = event then subscriptions.live alive event else subscriptions.listed other := by
  by_cases same : other = event
  · subst same
    simp [prune]
  · rw [if_neg same]
    exact listed_put_of_ne _ _ same

theorem listed_subscribe (alive : Nat → Bool) (subscriptions : Subscriptions) (event other : String)
    (subscription : Subscription) :
    (subscriptions.subscribe alive event subscription).2.listed other =
      if other = event then
        if (subscriptions.live alive event).any (·.samePair subscription) then
          subscriptions.live alive event
        else subscriptions.live alive event ++ [subscription]
      else subscriptions.listed other := by
  unfold subscribe
  dsimp only
  by_cases same : other = event
  · subst same
    split <;> simp
  · rw [if_neg same]
    split
    · exact listed_put_of_ne _ _ same
    · exact listed_put_of_ne _ _ same

theorem listed_unsubscribe (alive : Nat → Bool) (subscriptions : Subscriptions)
    (event other : String) (subscription : Subscription) :
    (subscriptions.unsubscribe alive event subscription).2.listed other =
      if other = event then
        (subscriptions.live alive event).filter (!·.samePair subscription)
      else subscriptions.listed other := by
  unfold unsubscribe
  dsimp only
  by_cases same : other = event
  · subst same
    simp
  · rw [if_neg same]
    exact listed_put_of_ne _ _ same

/-- Handlers called one after another, each with the state that the one before has left, and
which of them succeed. -/
inductive Calls {State : Type} (run : Subscription → StateM State Bool) :
    List Subscription → State → List Bool → State → Prop where
  | none (state : State) : Calls run [] state [] state
  | next {subscription : Subscription} {others : List Subscription} {state between last : State}
      {succeeds : Bool} {outcomes : List Bool}
      (called : run subscription state = (succeeds, between))
      (rest : Calls run others between outcomes last) :
      Calls run (subscription :: others) state (succeeds :: outcomes) last

private theorem calls_foldlM {State : Type} (run : Subscription → StateM State Bool)
    (called : List Subscription) (state : State) (before : Nat) :
    ∃ outcomes last, Calls run called state outcomes last ∧
      (called.foldlM (fun delivered subscription => do
        return if ← run subscription then delivered + 1 else delivered) before : StateM State Nat)
          state = (before + outcomes.count true, last) := by
  induction called generalizing state before with
  | nil => exact ⟨[], state, .none state, rfl⟩
  | cons subscription others inductionHypothesis =>
    rw [List.foldlM_cons]
    cases ran : run subscription state with
    | mk succeeds between =>
      obtain ⟨outcomes, last, calls, delivered⟩ := inductionHypothesis between
        (if succeeds = true then before + 1 else before)
      refine ⟨succeeds :: outcomes, last, .next ran calls, ?_⟩
      show (List.foldlM _ (if (run subscription state).1 = true then before + 1 else before) others :
        StateM State Nat) (run subscription state).2 = _
      rw [ran, delivered]
      cases succeeds with
      | true => simp [Nat.add_comm, Nat.add_left_comm]
      | false => simp

/-- A dispatch prunes the event, calls the handlers of those who are live then, once each and in
order, and counts those that succeed. -/
theorem dispatch_calls {World : Type} (alive : Nat → Bool) (event : String)
    (run : Subscription → StateM (Subscriptions × World) Bool) (subscriptions : Subscriptions)
    (world : World) :
    ∃ outcomes last,
      Calls run (subscriptions.live alive event) (subscriptions.prune alive event, world) outcomes last ∧
        dispatch alive event run (subscriptions, world) = (outcomes.count true, last) := by
  obtain ⟨outcomes, last, calls, delivered⟩ := calls_foldlM run (subscriptions.live alive event)
    (subscriptions.prune alive event, world) 0
  refine ⟨outcomes, last, calls, ?_⟩
  show (List.foldlM _ 0 ((subscriptions.prune alive event).listed event) :
    StateM (Subscriptions × World) Nat) (subscriptions.prune alive event, world) = _
  rw [listed_prune, if_pos rfl, delivered, Nat.zero_add]

/-- The state that handlers leave. -/
def afterCalls {State : Type} (run : Subscription → StateM State Bool) (state : State)
    (called : List Subscription) : State :=
  called.foldl (fun state subscription => (run subscription state).2) state

theorem Calls.last_eq {State : Type} {run : Subscription → StateM State Bool}
    {called : List Subscription} {state last : State} {outcomes : List Bool}
    (calls : Calls run called state outcomes last) : last = afterCalls run state called := by
  induction calls with
  | none state => rfl
  | next called rest inductionHypothesis =>
    rw [inductionHypothesis, afterCalls, afterCalls, List.foldl_cons, called]

/-- The subscriptions of all events, and what has happened. -/
abbrev Told := Subscriptions × History

/-- What leads from one state to another. The handlers that a dispatch calls may do whatever can
be done without one, and dispatch in turn. A subscriber may leave while a dispatch still has it
to call: it is called nonetheless. -/
inductive Runs : Told → Told → Prop where
  | stays (state : Told) : Runs state state
  | arrives {first : Told} {subscriptions : Subscriptions} {history : History}
      (runs : Runs first (subscriptions, history)) (subscriber : Subscriber)
      (fresh : ∀ other, .arrives other ∈ history → other.identity ≠ subscriber.identity)
      (free : ∀ other ∈ history.living, other.address ≠ subscriber.address) :
      Runs first (subscriptions, .arrives subscriber :: history)
  | leaves {first : Told} {subscriptions : Subscriptions} {history : History}
      (runs : Runs first (subscriptions, history)) (subscriber : Subscriber)
      (isThere : subscriber ∈ history.living) :
      Runs first (subscriptions, .leaves subscriber :: history)
  | subscribes {first : Told} {subscriptions : Subscriptions} {history : History}
      (runs : Runs first (subscriptions, history)) (event : String) (subscription : Subscription)
      (callable : history.Callable subscription) :
      Runs first ((subscriptions.subscribe history.alive event subscription).2,
        .subscribes event subscription :: history)
  | unsubscribes {first : Told} {subscriptions : Subscriptions} {history : History}
      (runs : Runs first (subscriptions, history)) (event : String) (subscription : Subscription)
      (callable : history.Callable subscription) :
      Runs first ((subscriptions.unsubscribe history.alive event subscription).2,
        .unsubscribes event subscription :: history)
  | dispatches {first : Told} {subscriptions : Subscriptions} {history : History}
      (runs : Runs first (subscriptions, history)) (event : String)
      (run : Subscription → StateM Told Bool)
      (called : ∀ before subscription after,
        subscriptions.live history.alive event = before ++ subscription :: after →
          Runs (afterCalls run (subscriptions.prune history.alive event, history) before)
            (afterCalls run (subscriptions.prune history.alive event, history)
              (before ++ [subscription]))) :
      Runs first (dispatch history.alive event run (subscriptions, history)).2

/-- What is listed, and what has happened: all that is listed comes from subscribers who have
come, and what is live stands. -/
structure Follows (subscriptions : Subscriptions) (history : History) : Prop where
  distinct : history.Distinct
  known : ∀ event, ∀ subscription ∈ subscriptions.listed event, ∀ subscriber,
    subscription.subscriber = some subscriber → .arrives subscriber ∈ history
  live : ∀ event, subscriptions.live history.alive event = history.standing event

namespace Follows

variable {subscriptions : Subscriptions} {history : History}

/-- Those who are listed and have not left are the live ones. -/
theorem isAlive_iff (follows : Follows subscriptions history) {event : String}
    {subscription : Subscription} (isListed : subscription ∈ subscriptions.listed event) :
    subscription.isAlive history.alive = true ↔ history.Callable subscription := by
  rw [Subscription.isAlive_iff]
  constructor
  · intro isAlive subscriber isOf
    have hasCome := follows.known event subscription isListed subscriber isOf
    exact (follows.distinct.alive_iff hasCome).mp (isAlive subscriber isOf)
  · intro callable subscriber isOf
    have hasCome := follows.known event subscription isListed subscriber isOf
    exact (follows.distinct.alive_iff hasCome).mpr (callable subscriber isOf)

theorem callable (follows : Follows subscriptions history) {event : String}
    {subscription : Subscription} (stands : subscription ∈ history.standing event) :
    history.Callable subscription := by
  rw [← follows.live] at stands
  obtain ⟨isListed, isAlive⟩ := List.mem_filter.mp stands
  exact (follows.isAlive_iff isListed).mp isAlive

/-- A pair that can be named is the same pair as a live one just if it is that one. -/
theorem samePair_iff (follows : Follows subscriptions history) {event : String}
    {subscription other : Subscription} (callable : history.Callable other)
    (stands : subscription ∈ history.standing event) :
    subscription.samePair other = true ↔ subscription = other := by
  apply Subscription.samePair_iff
  intro first second isFirst isSecond sameAddress
  exact follows.distinct.addresses first (follows.callable stands first isFirst) second
    (callable second isSecond) sameAddress

theorem any_samePair (follows : Follows subscriptions history) (event : String)
    {subscription : Subscription} (callable : history.Callable subscription) :
    (subscriptions.live history.alive event).any (·.samePair subscription) = true ↔
      subscription ∈ history.standing event := by
  rw [follows.live, List.any_eq_true]
  constructor
  · rintro ⟨other, stands, same⟩
    exact (follows.samePair_iff callable stands).mp same ▸ stands
  · intro stands
    exact ⟨subscription, stands, (follows.samePair_iff callable stands).mpr rfl⟩

/-- The list of one event can be exchanged for what stands there then. -/
private theorem relisted (follows : Follows subscriptions history) {next : Subscriptions}
    {longer : History} (event : String) (distinct : longer.Distinct)
    (living : longer.living = history.living)
    (longerKnown : ∀ subscriber, .arrives subscriber ∈ history → .arrives subscriber ∈ longer)
    (here : next.listed event = longer.standing event)
    (callable : ∀ subscription ∈ longer.standing event, history.Callable subscription)
    (elsewhere : ∀ other, other ≠ event → next.listed other = subscriptions.listed other ∧
      longer.standing other = history.standing other) :
    Follows next longer where
  distinct := distinct
  known other subscription isListed subscriber isOf := by
    by_cases same : other = event
    · rw [same, here] at isListed
      apply longerKnown
      exact History.arrives_of_mem_living (callable subscription isListed subscriber isOf)
    · rw [(elsewhere other same).1] at isListed
      exact longerKnown subscriber (follows.known other subscription isListed subscriber isOf)
  live other := by
    have sameAlive : longer.alive = history.alive := by
      unfold History.alive
      rw [living]
    rw [sameAlive]
    by_cases same : other = event
    · subst same
      rw [Subscriptions.live, here]
      apply List.filter_eq_self.mpr
      intro subscription stands
      exact (callable subscription stands).isAlive
    · rw [Subscriptions.live, (elsewhere other same).1, (elsewhere other same).2]
      exact follows.live other

theorem empty : Follows {} [] where
  distinct := .nil
  known _ _ membership := by cases membership
  live _ := rfl

/-- Nobody who is listed has the identity of one who comes. -/
theorem arrives (follows : Follows subscriptions history) {subscriber : Subscriber}
    (fresh : ∀ other, .arrives other ∈ history → other.identity ≠ subscriber.identity)
    (free : ∀ other ∈ history.living, other.address ≠ subscriber.address) :
    Follows subscriptions (.arrives subscriber :: history) where
  distinct := follows.distinct.arrives fresh free
  known event subscription isListed other isOf :=
    List.mem_cons_of_mem _ (follows.known event subscription isListed other isOf)
  live event := by
    show _ = history.standing event
    rw [← follows.live event]
    apply List.filter_congr
    intro subscription isListed
    apply Bool.eq_iff_iff.mpr
    rw [Subscription.isAlive_iff, Subscription.isAlive_iff]
    apply forall_congr'
    intro other
    apply imp_congr_right
    intro isOf
    have apart := fresh other (follows.known event subscription isListed other isOf)
    simp [History.alive, History.living, Ne.symm apart]

theorem leaves (follows : Follows subscriptions history) (subscriber : Subscriber) :
    Follows subscriptions (.leaves subscriber :: history) := by
  have known : ∀ event, ∀ subscription ∈ subscriptions.listed event, ∀ other,
      subscription.subscriber = some other → .arrives other ∈ Happening.leaves subscriber :: history :=
    fun event subscription isListed other isOf =>
      List.mem_cons_of_mem _ (follows.known event subscription isListed other isOf)
  refine ⟨follows.distinct.leaves subscriber, known, fun event => ?_⟩
  show (subscriptions.listed event).filter _ = (history.standing event).filter _
  rw [← follows.live event, Subscriptions.live, List.filter_filter]
  apply List.filter_congr
  intro subscription isListed
  apply Bool.eq_iff_iff.mpr
  rw [Bool.and_eq_true, follows.isAlive_iff isListed, decide_eq_true_iff, Subscription.isAlive_iff]
  have isAlive {other : Subscriber} (isOf : subscription.subscriber = some other) :=
    (follows.distinct.leaves subscriber).alive_iff (known event subscription isListed other isOf)
  constructor
  · intro alive
    constructor
    · intro isHim
      have isThere := (isAlive isHim).mp (alive subscriber isHim)
      exact absurd rfl (of_decide_eq_true (List.mem_filter.mp isThere).2)
    · intro other isOf
      exact (List.mem_filter.mp ((isAlive isOf).mp (alive other isOf))).1
  · rintro ⟨notHis, callable⟩ other isOf
    apply (isAlive isOf).mpr
    apply List.mem_filter.mpr
    refine ⟨callable other isOf, decide_eq_true fun same => notHis (same ▸ isOf)⟩

theorem prune (follows : Follows subscriptions history) (event : String) :
    Follows (subscriptions.prune history.alive event) history := by
  apply follows.relisted event follows.distinct rfl fun _ => id
  · rw [listed_prune, if_pos rfl, follows.live]
  · intro subscription stands
    exact follows.callable stands
  · intro other apart
    rw [listed_prune, if_neg apart]
    exact ⟨rfl, rfl⟩

theorem subscribe (follows : Follows subscriptions history) (event : String)
    {subscription : Subscription} (callable : history.Callable subscription) :
    Follows (subscriptions.subscribe history.alive event subscription).2
      (.subscribes event subscription :: history) := by
  apply follows.relisted event (follows.distinct.subscribes event subscription) rfl
    fun _ => List.mem_cons_of_mem _
  · rw [listed_subscribe, if_pos rfl, follows.live, History.standing]
    have either := follows.any_samePair event callable
    rw [follows.live] at either
    by_cases stands : subscription ∈ history.standing event
    · rw [if_pos (either.mpr stands), if_neg fun isNew => isNew.2 stands]
    · rw [if_neg (mt either.mp stands), if_pos ⟨rfl, stands⟩]
  · intro other stands
    unfold History.standing at stands
    split at stands
    · rcases List.mem_append.mp stands with before | now
      · exact follows.callable before
      · rw [List.mem_singleton.mp now]
        exact callable
    · exact follows.callable stands
  · intro other apart
    rw [listed_subscribe, if_neg apart, History.standing, if_neg fun isNew => apart isNew.1.symm]
    exact ⟨rfl, rfl⟩

theorem unsubscribe (follows : Follows subscriptions history) (event : String)
    {subscription : Subscription} (callable : history.Callable subscription) :
    Follows (subscriptions.unsubscribe history.alive event subscription).2
      (.unsubscribes event subscription :: history) := by
  apply follows.relisted event (follows.distinct.unsubscribes event subscription) rfl
    fun _ => List.mem_cons_of_mem _
  · rw [listed_unsubscribe, if_pos rfl, follows.live, History.standing, if_pos rfl]
    apply List.filter_congr
    intro other stands
    apply Bool.eq_iff_iff.mpr
    rw [Bool.not_eq_true', decide_eq_true_iff, ← Bool.not_eq_true,
      follows.samePair_iff callable stands]
  · intro other stands
    rw [History.standing, if_pos rfl] at stands
    exact follows.callable (List.mem_filter.mp stands).1
  · intro other apart
    rw [listed_unsubscribe, if_neg apart, History.standing, if_neg (Ne.symm apart)]
    exact ⟨rfl, rfl⟩

end Follows

/-- Whatever happens, what is live stands. -/
theorem Runs.follows {first last : Told} (runs : Runs first last) (follows : Follows first.1 first.2) :
    Follows last.1 last.2 := by
  induction runs with
  | stays state => exact follows
  | arrives runs subscriber fresh free inductionHypothesis =>
    exact (inductionHypothesis follows).arrives fresh free
  | leaves runs subscriber isThere inductionHypothesis =>
    exact (inductionHypothesis follows).leaves subscriber
  | subscribes runs event subscription callable inductionHypothesis =>
    exact (inductionHypothesis follows).subscribe event callable
  | unsubscribes runs event subscription callable inductionHypothesis =>
    exact (inductionHypothesis follows).unsubscribe event callable
  | @dispatches _ subscriptions history runs event run called inductionHypothesis later =>
    obtain ⟨outcomes, last, calls, dispatched⟩ :=
      dispatch_calls history.alive event run subscriptions history
    rw [dispatched, calls.last_eq]
    -- the handlers are called one after another, and after each of them what is live stands
    have after : ∀ before rest, subscriptions.live history.alive event = before ++ rest →
        Follows (afterCalls run (subscriptions.prune history.alive event, history) before).1
          (afterCalls run (subscriptions.prune history.alive event, history) before).2 := by
      intro before
      induction before using List.reverseRecOn with
      | nil =>
        intro rest _
        exact (inductionHypothesis follows).prune event
      | append_singleton before subscription earlier =>
        intro rest split
        rw [List.append_assoc] at split
        exact later before subscription rest split (earlier _ split)
    exact after _ [] (List.append_nil _).symm

/-- How subscriptions serve those who have made them, by what has happened. -/
structure Serves (subscriptions : Subscriptions) (history : History) : Prop where
  /-- What is live stands. -/
  live : ∀ event, subscriptions.live history.alive event = history.standing event
  /-- It is what was made and has not ended since, -/
  stands : ∀ event subscription, subscription ∈ subscriptions.live history.alive event ↔
    history.Stands event subscription
  /-- no pair twice, -/
  nodup : ∀ event, (subscriptions.live history.alive event).Nodup
  /-- in the order in which it was made. -/
  ordered : ∀ event, (subscriptions.live history.alive event).Pairwise (history.StoodBefore event)
  /-- Who subscribes is told whether the pair is there already. -/
  subscribe : ∀ event subscription, history.Callable subscription →
    ((subscriptions.subscribe history.alive event subscription).1 = false ↔
      subscription ∈ subscriptions.live history.alive event)
  /-- A dispatch calls what is live, once each and in order, whatever comes of the calls, and
  counts those that succeed. -/
  dispatch : ∀ {World : Type} (event : String)
    (run : Subscription → StateM (Subscriptions × World) Bool) (world : World),
    ∃ outcomes last,
      Calls run (subscriptions.live history.alive event)
        (subscriptions.prune history.alive event, world) outcomes last ∧
        Subscriptions.dispatch history.alive event run (subscriptions, world) =
          (outcomes.count true, last)
  /-- What is done with one event leaves the lists of others alone. -/
  apart : ∀ event other subscription, other ≠ event →
    (subscriptions.subscribe history.alive event subscription).2.listed other =
      subscriptions.listed other ∧
    (subscriptions.unsubscribe history.alive event subscription).2.listed other =
      subscriptions.listed other ∧
    (subscriptions.prune history.alive event).listed other = subscriptions.listed other

theorem Follows.serves {subscriptions : Subscriptions} {history : History}
    (follows : Follows subscriptions history) : Serves subscriptions history where
  live := follows.live
  stands event subscription := by
    rw [follows.live]
    exact History.mem_standing_iff
  nodup event := by
    rw [follows.live]
    exact History.nodup_standing event history
  ordered event := by
    rw [follows.live]
    exact History.standing_ordered event history
  subscribe event subscription callable := by
    rw [follows.live, ← follows.any_samePair event callable]
    unfold Subscriptions.subscribe
    dsimp only
    split
    · next isThere => exact iff_of_true rfl isThere
    · next isNew => exact iff_of_false Bool.noConfusion isNew
  dispatch event run world := dispatch_calls history.alive event run subscriptions world
  apart event other subscription apart := by
    rw [listed_subscribe, listed_unsubscribe, listed_prune, if_neg apart, if_neg apart, if_neg apart]
    exact ⟨rfl, rfl, rfl⟩

/-- Whatever happens from the beginning, the subscriptions serve those who have made them. -/
theorem Runs.serves_throughout {subscriptions : Subscriptions} {history : History}
    (runs : Runs ({}, []) (subscriptions, history)) : Serves subscriptions history :=
  (runs.follows .empty).serves

/-- One who leaves is still listed when another comes with the same address, who can subscribe
with the same handler all the same. That one is called then, and subscribes with a second. -/
theorem serves_throughout_inheritedAddress :
    let heir : Subscriber := ⟨1, 7⟩
    ∃ subscriptions history, Runs ({}, []) (subscriptions, history) ∧
      .leaves ⟨0, 7⟩ ∈ history ∧
      subscriptions.listed "changed" = [⟨heir, "join"⟩, ⟨heir, "count"⟩] ∧
      Serves subscriptions history := by
  intro heir
  have listed : Runs ({}, []) _ :=
    ((Runs.stays _).arrives ⟨0, 7⟩ (by simp) (by simp [History.living])).subscribes "changed"
      ⟨some ⟨0, 7⟩, "join"⟩ (by simp [History.Callable, History.living])
  have inherited := ((listed.leaves ⟨0, 7⟩ (by simp [History.living])).arrives heir (by simp [heir])
    (by simp [History.living])).subscribes "changed" ⟨heir, "join"⟩
      (by simp [History.Callable, History.living])
  have called := inherited.dispatches "changed"
    (fun _ state =>
      (true, (state.1.subscribe state.2.alive "changed" ⟨heir, "count"⟩).2,
        .subscribes "changed" ⟨heir, "count"⟩ :: state.2))
    (by
      intro before subscription after split
      have alone : before = [] := by
        cases before with
        | nil => rfl
        | cons first others =>
          have none : [] = others ++ subscription :: after := (List.cons.inj split).2
          simp at none
      subst alone
      exact (Runs.stays _).subscribes "changed" ⟨heir, "count"⟩
        (by simp [History.Callable, History.living, heir]))
  exact ⟨_, _, called, by simp, rfl, called.serves_throughout⟩

end Subscriptions

end RelationalAccess
