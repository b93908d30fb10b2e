/-!
Runs: what a step makes of a state, one event after another. What holds in every state
of a run follows from what one step keeps.
-/

namespace RelationalAccess

variable {State Event : Type} {step : State → Event → State}

/-- Something holds of every event of a run and of the state it happens in. -/
def Throughout (step : State → Event → State) (holds : State → Event → Prop) :
    State → List Event → Prop
  | _, [] => True
  | state, event :: events => holds state event ∧ Throughout step holds (step state event) events

theorem Throughout.of_forall {holds : State → Event → Prop} (all : ∀ state event, holds state event)
    (state : State) (events : List Event) : Throughout step holds state events := by
  induction events generalizing state with
  | nil => trivial
  | cons event events inductionHypothesis => exact ⟨all state event, inductionHypothesis _⟩

theorem Throughout.and_forall {holds : State → Event → Prop} {fact : Event → Prop} {state : State}
    {events : List Event} (all : Throughout step holds state events)
    (each : ∀ event ∈ events, fact event) :
    Throughout step (fun state event => holds state event ∧ fact event) state events := by
  induction events generalizing state with
  | nil => trivial
  | cons event events inductionHypothesis =>
    obtain ⟨now, later⟩ := all
    obtain ⟨factNow, factsLater⟩ := List.forall_mem_cons.mp each
    exact ⟨⟨now, factNow⟩, inductionHypothesis later factsLater⟩

/-- What holds in every state of a run holds in the state of each event. -/
theorem Throughout.of_prefixes {fact : State → Prop} {state : State} {events : List Event}
    (along : ∀ done, done <+: events → fact (done.foldl step state)) :
    Throughout step (fun state _ => fact state) state events := by
  induction events generalizing state with
  | nil => trivial
  | cons event events inductionHypothesis =>
    refine ⟨along [] List.nil_prefix, inductionHypothesis fun done short => ?_⟩
    exact along (event :: done) (List.cons_prefix_cons.mpr ⟨rfl, short⟩)

/-- What every step keeps holds after a run. -/
theorem Throughout.keeps {settled : State → Prop} {allowed : State → Event → Prop}
    (settled_step : ∀ state event, settled state → allowed state event → settled (step state event))
    {state : State} (isSettled : settled state) {events : List Event}
    (areAllowed : Throughout step allowed state events) : settled (events.foldl step state) := by
  induction events generalizing state with
  | nil => exact isSettled
  | cons event events inductionHypothesis =>
    exact inductionHypothesis (settled_step state event isSettled areAllowed.1) areAllowed.2

/-- A property that holds at first holds in all states of a run if and only if all events
are sound, where an event is sound exactly if the property holds after it. -/
theorem forall_prefix_iff {settled good : State → Prop} {allowed sound : State → Event → Prop}
    (good_step_iff : ∀ state event, settled state → good state → allowed state event →
      (good (step state event) ↔ sound state event))
    (settled_step : ∀ state event, settled state → good state → allowed state event →
      good (step state event) → settled (step state event))
    {state : State} (isSettled : settled state) (isGood : good state) {events : List Event}
    (areAllowed : Throughout step allowed state events) :
    (∀ done, done <+: events → good (done.foldl step state)) ↔
      Throughout step sound state events := by
  induction events generalizing state with
  | nil =>
    refine iff_of_true (fun done short => ?_) trivial
    rw [List.prefix_nil.mp short]
    exact isGood
  | cons event events inductionHypothesis =>
    obtain ⟨allowedNow, allowedLater⟩ := areAllowed
    have either := good_step_iff _ _ isSettled isGood allowedNow
    have settledThen := settled_step _ _ isSettled isGood allowedNow
    constructor
    · intro along
      have goodThen : good (step state event) := along [event] (by simp)
      refine ⟨either.mp goodThen, ?_⟩
      refine (inductionHypothesis (settledThen goodThen) goodThen allowedLater).mp ?_
      intro done short
      exact along (event :: done) (List.cons_prefix_cons.mpr ⟨rfl, short⟩)
    · rintro ⟨soundNow, soundLater⟩ done short
      have goodThen := either.mpr soundNow
      cases done with
      | nil => exact isGood
      | cons first rest =>
        obtain ⟨rfl, shorter⟩ := List.cons_prefix_cons.mp short
        exact (inductionHypothesis (settledThen goodThen) goodThen allowedLater).mpr soundLater
          rest shorter

end RelationalAccess
