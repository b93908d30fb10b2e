/-!
Subscriptions to events. A subscription does not keep its subscriber alive: who
is alive is known outside, and the subscriptions of those who are not are
pruned when their event is next used. A subscriber is matched by its address,
which may be that of an earlier one that is gone.
-/

namespace RelationalAccess

/-- One who subscribes. The identity is its own for ever, the address only for
as long as it lives. -/
structure Subscriber where
  identity : Nat
  address : Nat
  deriving DecidableEq

/-- A handler that runs on an event, either with a subscriber or by itself. -/
structure Subscription where
  subscriber : Option Subscriber
  handler : String
  deriving DecidableEq

namespace Subscription

/-- A handler that runs by itself is always alive. -/
def isAlive (alive : Nat → Bool) (subscription : Subscription) : Bool :=
  subscription.subscriber.all fun subscriber => alive subscriber.identity

/-- Two subscriptions are of the same pair if handler and address agree. -/
def samePair (left right : Subscription) : Bool :=
  left.handler == right.handler &&
    left.subscriber.map Subscriber.address == right.subscriber.map Subscriber.address

end Subscription

/-- For each event its subscriptions in the order in which they were made. -/
structure Subscriptions where
  lists : List (String × List Subscription) := []

namespace Subscriptions

/-- The subscriptions of an event, those of the dead included. -/
def listed (subscriptions : Subscriptions) (event : String) : List Subscription :=
  (subscriptions.lists.lookup event).getD []

/-- The subscriptions of an event whose subscribers are alive. -/
def live (alive : Nat → Bool) (subscriptions : Subscriptions) (event : String) :
    List Subscription :=
  (subscriptions.listed event).filter (·.isAlive alive)

/-- The subscriptions of an event replaced. -/
def put (subscriptions : Subscriptions) (event : String) (list : List Subscription) :
    Subscriptions :=
  ⟨(event, list) :: subscriptions.lists.filter fun entry => entry.1 != event⟩

/-- The event rid of the subscriptions of the dead. -/
def prune (alive : Nat → Bool) (subscriptions : Subscriptions) (event : String) : Subscriptions :=
  subscriptions.put event (subscriptions.live alive event)

/-- A subscription added, and whether it was not there before. -/
def subscribe (alive : Nat → Bool) (subscriptions : Subscriptions) (event : String)
    (subscription : Subscription) : Bool × Subscriptions :=
  let live := subscriptions.live alive event
  if live.any (·.samePair subscription) then (false, subscriptions.put event live)
  else (true, subscriptions.put event (live ++ [subscription]))

/-- A subscription taken away together with those of the dead, and whether any
was taken away at all. -/
def unsubscribe (alive : Nat → Bool) (subscriptions : Subscriptions) (event : String)
    (subscription : Subscription) : Bool × Subscriptions :=
  let kept := (subscriptions.live alive event).filter (!·.samePair subscription)
  (decide (kept.length < (subscriptions.listed event).length), subscriptions.put event kept)

/-- How many live subscriptions an event has. -/
def count (alive : Nat → Bool) (subscriptions : Subscriptions) (event : String) : Nat :=
  (subscriptions.live alive event).length

def clear (_subscriptions : Subscriptions) : Subscriptions := {}

/-- Runs the handlers of the live subscriptions of an event, and counts those
that succeed. Handlers may subscribe and unsubscribe; who is called was settled
before the first of them ran. -/
def dispatch {World : Type} (alive : Nat → Bool) (event : String)
    (run : Subscription → StateM (Subscriptions × World) Bool) :
    StateM (Subscriptions × World) Nat := do
  modify fun (subscriptions, world) => (subscriptions.prune alive event, world)
  let (subscriptions, _) ← get
  (subscriptions.listed event).foldlM (fun delivered subscription => do
    return if ← run subscription then delivered + 1 else delivered) 0

end Subscriptions

end RelationalAccess
