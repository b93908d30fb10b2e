import Mathlib.Data.List.Forall2
import RelationalAccess.Error

/-!
How actions on a state are reasoned about: what holds before an action leads to
what holds after it, with its result or with its failure.
-/

namespace RelationalAccess

variable {State α β : Type}

/-- An action leads from a condition on the state to one on its result and the state
it leaves, or, where it fails, to one on the state it leaves then. -/
def Leads (before : State → Prop) (action : ExceptT Error (StateM State) α)
    (after : α → State → Prop) (failed : State → Prop) : Prop :=
  ∀ state, before state →
    match action state with
    | (.ok result, state) => after result state
    | (.error _, state) => failed state

/-- The condition that no state meets, which says of an action that it does not fail. -/
def Never (_ : State) : Prop := False

theorem bind_apply (action : ExceptT Error (StateM State) α)
    (next : α → ExceptT Error (StateM State) β) (state : State) :
    (action >>= next) state =
      match action state with
      | (.ok result, state) => next result state
      | (.error refusal, state) => (.error refusal, state) := by
  show (ExceptT.bind action next : ExceptT Error (StateM State) β) state = _
  simp only [ExceptT.bind, ExceptT.mk, bind, StateT.bind]
  rcases action state with ⟨_ | _, _⟩ <;> rfl

theorem modify_apply (change : State → State) (state : State) :
    (modify change : ExceptT Error (StateM State) PUnit) state = (.ok ⟨⟩, change state) :=
  rfl

theorem lift_apply (attempt : Except Error α) (state : State) :
    (liftM attempt : ExceptT Error (StateM State) α) state = (attempt, state) := by
  cases attempt <;> rfl

/-- An attempt that succeeded is followed by what follows its result. -/
theorem lift_ok_bind (result : α) (next : α → ExceptT Error (StateM State) β) :
    ((liftM (.ok result : Except Error α) : ExceptT Error (StateM State) α) >>= next) = next result :=
  rfl

theorem discard_apply (action : ExceptT Error (StateM State) α) (state : State) :
    (discard action : ExceptT Error (StateM State) PUnit) state =
      ((action state).1.map fun _ => ⟨⟩, (action state).2) := by
  show (ExceptT.map (Function.const α PUnit.unit) action : ExceptT Error (StateM State) PUnit) state = _
  simp only [ExceptT.map, ExceptT.mk, bind, StateT.bind]
  rcases action state with ⟨_ | _, _⟩ <;> rfl

theorem tryCatch_apply (action : ExceptT Error (StateM State) α)
    (handler : Error → ExceptT Error (StateM State) α) (state : State) :
    tryCatch action handler state =
      match action state with
      | (.ok result, state) => (.ok result, state)
      | (.error refusal, state) => handler refusal state := by
  show (ExceptT.tryCatch action handler : ExceptT Error (StateM State) α) state = _
  simp only [ExceptT.tryCatch, ExceptT.mk, bind, StateT.bind]
  rcases action state with ⟨_ | _, _⟩ <;> rfl

namespace Leads

variable {before : State → Prop} {action : ExceptT Error (StateM State) α}
  {after : α → State → Prop} {failed : State → Prop}

theorem weaken {before' : State → Prop} {after' : α → State → Prop} {failed' : State → Prop}
    (leads : Leads before action after failed) (stronger : ∀ state, before' state → before state)
    (weaker : ∀ result state, after result state → after' result state)
    (weakerFailed : ∀ state, failed state → failed' state) :
    Leads before' action after' failed' := by
  intro state holds
  have reached := leads state (stronger state holds)
  revert reached
  rcases action state with ⟨_ | result, state'⟩
  · exact weakerFailed state'
  · exact weaker result state'

theorem bind {next : α → ExceptT Error (StateM State) β} {last : β → State → Prop}
    (first : Leads before action after failed)
    (second : ∀ result, Leads (after result) (next result) last failed) :
    Leads before (action >>= next) last failed := by
  intro state holds
  have reached := first state holds
  revert reached
  rw [bind_apply]
  rcases action state with ⟨_ | result, state'⟩
  · exact id
  · exact second result state'

theorem discard {last failed : State → Prop} (leads : Leads before action (fun _ => last) failed) :
    Leads before (Functor.discard action : ExceptT Error (StateM State) PUnit) (fun _ => last) failed := by
  intro state holds
  have reached := leads state holds
  revert reached
  rw [discard_apply]
  rcases action state with ⟨_ | result, state'⟩
  · exact id
  · exact id

theorem returns {result : α} (holds : ∀ state, before state → after result state) :
    Leads before (pure result : ExceptT Error (StateM State) α) after failed :=
  holds

theorem throws {refusal : Error} (holds : ∀ state, before state → failed state) :
    Leads before (throw refusal : ExceptT Error (StateM State) α) after failed :=
  holds

/-- A fact that is part of the condition is a fact. -/
theorem given {fact : Prop} (leads : fact → Leads before action after failed) :
    Leads (fun state => before state ∧ fact) action after failed :=
  fun state holds => leads holds.2 state holds.1

/-- What an action leads to, whether it fails or not, holds of the state it leaves. -/
theorem final {last : State → Prop} (leads : Leads before action (fun _ => last) last) {state : State}
    (holds : before state) : last (action state).2 := by
  have reached := leads state holds
  revert reached
  rcases action state with ⟨_ | result, state'⟩
  · exact id
  · exact id

/-- Where an action fails, it has led to what it leads to then. -/
theorem fails (leads : Leads before action after failed) {state : State} (holds : before state)
    {refusal : Error} (isFailed : (action state).1 = .error refusal) : failed (action state).2 := by
  have reached := leads state holds
  revert reached isFailed
  rcases action state with ⟨_ | result, last⟩
  · exact fun _ reached => reached
  · intro isFailed
    cases isFailed

/-- Where an action comes to a result, it has led to what it leads to then. -/
theorem returned (leads : Leads before action after failed) {state last : State} (holds : before state)
    {result : α} (isResult : action state = (.ok result, last)) : after result last := by
  have reached := leads state holds
  rwa [isResult] at reached

/-- An action that does not fail comes to a result. -/
theorem succeeds (leads : Leads before action after Never) {state : State} (holds : before state) :
    ∃ result last, action state = (.ok result, last) ∧ after result last := by
  have reached := leads state holds
  revert reached
  rcases action state with ⟨_ | result, last⟩
  · exact False.elim
  · intro reached
    exact ⟨result, last, rfl, reached⟩

theorem forSome {index : Type} {before : index → State → Prop}
    (leads : ∀ value, Leads (before value) action after failed) :
    Leads (fun state => ∃ value, before value state) action after failed := by
  rintro state ⟨value, holds⟩
  exact leads value state holds

theorem lift {attempt : Except Error α} (refused : ∀ state, before state → failed state) :
    Leads before (liftM attempt : ExceptT Error (StateM State) α)
      (fun result state => before state ∧ attempt = .ok result) failed := by
  intro state holds
  rw [lift_apply]
  cases attempt with
  | error refusal => exact refused state holds
  | ok result => exact ⟨holds, rfl⟩

/-- What follows an attempt has its result, unless the attempt is refused. -/
theorem attempt {attempt : Except Error α} {next : α → ExceptT Error (StateM State) β}
    {last : β → State → Prop}
    (refused : ∀ refusal, attempt = .error refusal → ∀ state, before state → failed state)
    (leads : ∀ result, attempt = .ok result → Leads before (next result) last failed) :
    Leads before (liftM attempt >>= next) last failed := by
  cases attempt with
  | error refusal => exact throws (refused refusal rfl)
  | ok result =>
    rw [lift_ok_bind]
    exact leads result rfl

/-- A loop over a list, with a condition on what is left of the list and on what
has been gathered. -/
theorem foldlM {body : α → β → ExceptT Error (StateM State) α}
    (invariant : List β → α → State → Prop)
    (step : ∀ item rest gathered,
      Leads (invariant (item :: rest) gathered) (body gathered item) (invariant rest) failed)
    (items : List β) (gathered : α) :
    Leads (invariant items gathered) (items.foldlM body gathered) (invariant []) failed := by
  induction items generalizing gathered with
  | nil => exact Leads.returns fun _ holds => holds
  | cons item rest inductionHypothesis =>
    rw [List.foldlM_cons]
    exact (step item rest gathered).bind inductionHypothesis

/-- A list mapped by an action, of which each result is good. -/
theorem mapM {good : β → Prop} {body : α → ExceptT Error (StateM State) β} {items : List α}
    (step : ∀ item ∈ items,
      Leads before (body item) (fun result state => before state ∧ good result) failed) :
    Leads before (items.mapM body)
      (fun results state => before state ∧ ∀ result ∈ results, good result) failed := by
  induction items with
  | nil =>
    rw [List.mapM_nil]
    exact Leads.returns fun _ holds => ⟨holds, fun _ membership => by cases membership⟩
  | cons item rest inductionHypothesis =>
    obtain ⟨now, later⟩ := List.forall_mem_cons.mp step
    rw [List.mapM_cons]
    refine now.bind fun first => given fun isGood => ?_
    refine (inductionHypothesis later).bind fun others => given fun areGood => returns ?_
    intro state holds
    exact ⟨holds, List.forall_mem_cons.mpr ⟨isGood, areGood⟩⟩

/-- A list mapped by an action, of which each result suits the item that it is of. -/
theorem mapM_each {γ : Type} {good : β → γ → Prop} {body : β → ExceptT Error (StateM State) γ}
    {items : List β}
    (step : ∀ item ∈ items,
      Leads before (body item) (fun result state => before state ∧ good item result) failed) :
    Leads before (items.mapM body)
      (fun results state => before state ∧ items.Forall₂ good results) failed := by
  induction items with
  | nil =>
    rw [List.mapM_nil]
    exact Leads.returns fun _ holds => ⟨holds, .nil⟩
  | cons item rest inductionHypothesis =>
    obtain ⟨now, later⟩ := List.forall_mem_cons.mp step
    rw [List.mapM_cons]
    refine now.bind fun first => given fun isGood => ?_
    refine (inductionHypothesis later).bind fun others => given fun areGood => returns ?_
    exact fun _ holds => ⟨holds, .cons isGood areGood⟩

end Leads

/-- An action does not fail, and what holds before it still holds after it. -/
def Keeps (condition : State → Prop) (action : ExceptT Error (StateM State) α) : Prop :=
  Leads condition action (fun _ => condition) Never

/-- What an action keeps holds of the state it leaves. -/
theorem Keeps.final {condition : State → Prop} {action : ExceptT Error (StateM State) α}
    (keeps : Keeps condition action) {state : State} (holds : condition state) :
    condition (action state).2 := by
  obtain ⟨_, _, isResult, kept⟩ := Leads.succeeds keeps holds
  rw [isResult]
  exact kept

/-- What holds before an action still holds after it, even where it fails. -/
def Preserves (condition : State → Prop) (action : ExceptT Error (StateM State) α) : Prop :=
  Leads condition action (fun _ => condition) condition

namespace Preserves

variable {condition : State → Prop} {action : ExceptT Error (StateM State) α}

theorem bind {next : α → ExceptT Error (StateM State) β} (first : Preserves condition action)
    (second : ∀ result, Preserves condition (next result)) : Preserves condition (action >>= next) :=
  Leads.bind first second

theorem returns {result : α} :
    Preserves condition (pure result : ExceptT Error (StateM State) α) :=
  fun _ holds => holds

theorem lift {attempt : Except Error α} :
    Preserves condition (liftM attempt : ExceptT Error (StateM State) α) :=
  (Leads.lift fun _ => id).weaken (fun _ => id) (fun _ _ holds => holds.1) fun _ => id

end Preserves

/-- What follows an attempt comes to a result only if the attempt does. -/
theorem ok_of_bind {attempt : Except Error α} {next : α → Except Error β} {result : β}
    (run : (attempt >>= next) = .ok result) :
    ∃ first, attempt = .ok first ∧ next first = .ok result := by
  cases attempt with
  | error refusal => cases run
  | ok first => exact ⟨first, rfl, run⟩

/-- An attempt that succeeds with its faults renamed succeeds. -/
theorem ok_of_mapError {fault : Type} {attempt : Except fault α} {rename : fault → Error}
    {result : α} (run : attempt.mapError rename = .ok result) : attempt = .ok result := by
  cases attempt with
  | error refusal => cases run
  | ok found => exact congrArg _ (Except.ok.inj run)

theorem toOption_eq_some_iff {attempt : Except Error α} {result : α} :
    attempt.toOption = some result ↔ attempt = .ok result := by
  cases attempt <;> simp [Except.toOption]

/-- What every step of a loop that may fail keeps holds where the loop ends. -/
theorem foldlM_keeps {invariant : α → Prop} {body : α → β → Except Error α}
    (step : ∀ gathered item next, invariant gathered → body gathered item = .ok next →
      invariant next)
    {items : List β} {gathered last : α} (holds : invariant gathered)
    (run : items.foldlM body gathered = .ok last) : invariant last := by
  induction items generalizing gathered with
  | nil =>
    cases run
    exact holds
  | cons item rest inductionHypothesis =>
    rw [List.foldlM_cons] at run
    cases now : body gathered item with
    | error refusal =>
      rw [now] at run
      cases run
    | ok next =>
      rw [now] at run
      exact inductionHypothesis (step gathered item next holds now) run

/-- A pass over a list succeeds exactly if no item is refused. -/
theorem forM_eq_ok_iff {items : List β} {check : β → Except Error Unit} :
    forM items check = .ok () ↔ ∀ item ∈ items, check item = .ok () := by
  induction items with
  | nil => exact ⟨fun _ => List.forall_mem_nil _, fun _ => rfl⟩
  | cons first rest inductionHypothesis =>
    rw [List.forM_cons, List.forall_mem_cons, ← inductionHypothesis]
    cases check first with
    | error refusal => exact ⟨nofun, nofun⟩
    | ok done => exact ⟨fun run => ⟨rfl, run⟩, And.right⟩

/-- A pass over a list is refused exactly as the first of its items that is refused. -/
theorem forM_eq_error_iff {items : List β} {check : β → Except Error Unit} {refusal : Error} :
    forM items check = .error refusal ↔ ∃ before item after, items = before ++ item :: after ∧
      (∀ earlier ∈ before, check earlier = .ok ()) ∧ check item = .error refusal := by
  induction items with
  | nil =>
    constructor
    · intro run
      cases run
    · rintro ⟨before, item, after, split, _⟩
      exact absurd split (by simp)
  | cons first rest inductionHypothesis =>
    rw [List.forM_cons]
    cases judged : check first with
    | error fault =>
      constructor
      · intro run
        cases run
        exact ⟨[], first, rest, rfl, List.forall_mem_nil _, judged⟩
      · rintro ⟨_ | ⟨earlier, others⟩, item, after, split, passed, refused⟩
        · cases split
          exact judged.symm.trans refused
        · cases split
          exact absurd (judged.symm.trans (passed first List.mem_cons_self)) nofun
    | ok done =>
      show forM rest check = _ ↔ _
      rw [inductionHypothesis]
      constructor
      · rintro ⟨before, item, after, rfl, passed, refused⟩
        have allPassed : ∀ earlier ∈ first :: before, check earlier = .ok () :=
          List.forall_mem_cons.mpr ⟨judged, passed⟩
        exact ⟨first :: before, item, after, rfl, allPassed, refused⟩
      · rintro ⟨_ | ⟨earlier, others⟩, item, after, split, passed, refused⟩
        · cases split
          exact absurd (judged.symm.trans refused) nofun
        · cases split
          exact ⟨others, item, after, rfl, (List.forall_mem_cons.mp passed).2, refused⟩

end RelationalAccess
