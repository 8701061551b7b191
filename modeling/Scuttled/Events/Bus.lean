import Mathlib.Logic.Function.Basic
import Scuttled.Events.Event
import Scuttled.Foundation.Machine
import Scuttled.Rust.Channel
import Scuttled.Rust.HashMap

/-!
# The event bus

The loop of the bus processes one command at a time.  While it walks over its
subscribers, or waits for acknowledgements, no other command is processed, but
subscribers go on taking events from their queues, acknowledging them and
dropping their receivers.
-/

namespace Scuttled

open Rust Foundation

/-- `SubscriptionId`, a random UUID. -/
structure SubscriptionId where
  uuid : BitVec 128
  deriving DecidableEq, Repr

inductive SubscriptionType where
  | async
  | sync
  deriving DecidableEq, Repr

/-- `EventDelivery`; an acknowledgement channel is known by its number. -/
inductive EventDelivery where
  | async (event : Event)
  | sync (event : Event) (ack : Nat)
  deriving DecidableEq, Repr

def EventDelivery.event : EventDelivery → Event
  | .async event => event
  | .sync event _ => event

/-- The acknowledgement channel that goes with a delivery. -/
def EventDelivery.ack? : EventDelivery → Option Nat
  | .async _ => none
  | .sync _ ack => some ack

/-- `Subscriber`; a queue is known by its number. -/
structure Subscriber where
  kinds : List EventKind
  subscriptionType : SubscriptionType
  sender : Nat
  deriving DecidableEq, Repr

/-- The capacity of a subscriber's queue. -/
def subscriberCapacity : Nat := 100

/-- An acknowledgement channel: waited for, used, or dropped with its delivery. -/
inductive AckState where
  | pending
  | sent
  | dropped
  deriving DecidableEq, Repr

/-- Where the loop of the bus is. -/
inductive BusPhase where
  /-- It waits for a command. -/
  | receiving
  /-- It is in the `for` loop of `handle_publish_async` or `handle_publish_sync`. -/
  | publishing (sync : Bool) (event : Event)
      (remaining : List (Sigma fun _ : SubscriptionId => Subscriber)) (delivered : Nat)
      (ackReceivers : List Nat)
  /-- It waits for acknowledgements; without any it replies. -/
  | awaiting (event : Event) (delivered syncCount : Nat) (ackReceivers : List Nat)

/-- An event was placed in the queue of a subscription: publications are counted
from 0. -/
structure Placement where
  publication : Nat
  id : SubscriptionId
  sender : Nat
  deriving DecidableEq, Repr

/-- The bus and the queues of its subscribers.  The last two fields record what
happened and are never read. -/
structure Bus where
  subscribers : HashMap SubscriptionId Subscriber
  iterations : Nat
  phase : BusPhase
  /-- The queues, and how many were opened so far. -/
  queues : Nat → BoundedQueue EventDelivery subscriberCapacity
  opened : Nat
  /-- The acknowledgement channels, how many were made so far, and those that
  came with a delivery a subscriber has taken and not finished. -/
  acks : Nat → AckState
  asked : Nat
  held : List Nat
  publications : List Event
  placed : List Placement

/-- What happens next on the bus or at one of its subscribers. -/
inductive BusMove where
  | subscribe (id : SubscriptionId) (kinds : List EventKind) (subscriptionType : SubscriptionType)
  | unsubscribe (id : SubscriptionId)
  | publish (event : Event)
  | publishSync (event : Event)
  /-- The next iteration of the `for` loop, or its end. -/
  | tryNext
  | endLoop
  /-- The next acknowledgement is there, or the reply is sent. -/
  | ackResolved
  | reply
  /-- A subscriber receives from its queue, finishes a delivery with or without
  acknowledging it, or drops its receiver. -/
  | take (sender : Nat)
  | acknowledge (ack : Nat)
  | abandon (ack : Nat)
  | close (sender : Nat)
  deriving DecidableEq, Repr

namespace Bus

def new : Bus where
  subscribers := ∅
  iterations := 0
  phase := .receiving
  queues _ := .new
  opened := 0
  acks _ := .pending
  asked := 0
  held := []
  publications := []
  placed := []

/-- `subscribe_with_type`: a queue is opened and its sender registered. -/
def subscribe (id : SubscriptionId) (kinds : List EventKind)
    (subscriptionType : SubscriptionType) (bus : Bus) : Bus :=
  { bus with
    subscribers := bus.subscribers.insert id { kinds, subscriptionType, sender := bus.opened }
    queues := Function.update bus.queues bus.opened .new
    opened := bus.opened + 1 }

def unsubscribe (id : SubscriptionId) (bus : Bus) : Bus :=
  { bus with subscribers := bus.subscribers.erase id }

/-- A publication begins: the loop walks over the subscribers. -/
def publish (order : HashOrder SubscriptionId Subscriber) (sync : Bool) (event : Event)
    (bus : Bus) : Bus :=
  { bus with
    phase := .publishing sync event (order.arrange bus.iterations bus.subscribers.entries) 0 []
    iterations := bus.iterations + 1
    publications := bus.publications ++ [event] }

/-- The body of the `for` loop for one subscriber: an interested one is sent a
delivery, with an acknowledgement channel if publication and subscription are
synchronous.  A delivery that cannot be sent is dropped, and logged only. -/
def offer (sync : Bool) (event : Event) (id : SubscriptionId) (subscriber : Subscriber)
    (remaining : List (Sigma fun _ : SubscriptionId => Subscriber)) (delivered : Nat)
    (ackReceivers : List Nat) (bus : Bus) : Bus :=
  if event.kind ∈ subscriber.kinds then
    let acknowledged := sync && subscriber.subscriptionType = .sync
    let delivery := if acknowledged then .sync event bus.asked else .async event
    let ackReceivers := if acknowledged then ackReceivers ++ [bus.asked] else ackReceivers
    let bus := { bus with asked := if acknowledged then bus.asked + 1 else bus.asked }
    match (bus.queues subscriber.sender).trySend delivery with
    | (.ok (), queue) =>
        { bus with
          queues := Function.update bus.queues subscriber.sender queue
          phase := .publishing sync event remaining (delivered + 1) ackReceivers
          placed := bus.placed ++ [⟨bus.publications.length - 1, id, subscriber.sender⟩] }
    | (.error _, _) =>
        { bus with
          acks := fun ack => if delivery.ack? = some ack then .dropped else bus.acks ack
          phase := .publishing sync event remaining delivered ackReceivers }
  else { bus with phase := .publishing sync event remaining delivered ackReceivers }

def take (sender : Nat) (bus : Bus) : Option Bus :=
  match (bus.queues sender).recv with
  | none => none
  | some (delivery, queue) =>
      some { bus with
        queues := Function.update bus.queues sender queue
        held := bus.held ++ delivery.ack?.toList }

/-- A subscriber finishes a delivery it holds. -/
def finish (ack : Nat) (outcome : AckState) (bus : Bus) : Option Bus :=
  if ack ∈ bus.held then
    some { bus with
      acks := Function.update bus.acks ack outcome
      held := bus.held.erase ack }
  else none

/-- A subscriber drops its receiver: the deliveries in the queue are dropped. -/
def close (sender : Nat) (bus : Bus) : Bus :=
  { bus with
    queues := Function.update bus.queues sender (bus.queues sender).close
    acks := fun ack =>
      if some ack ∈ (bus.queues sender).items.map EventDelivery.ack? then .dropped
      else bus.acks ack }

end Bus

/-- One move of the bus or of a subscriber.  Commands are processed only while the
loop waits for them. -/
def busStep (order : HashOrder SubscriptionId Subscriber) (bus : Bus) : BusMove → Option Bus
  | .subscribe id kinds subscriptionType =>
      match bus.phase with
      | .receiving => some (bus.subscribe id kinds subscriptionType)
      | _ => none
  | .unsubscribe id =>
      match bus.phase with
      | .receiving => some (bus.unsubscribe id)
      | _ => none
  | .publish event =>
      match bus.phase with
      | .receiving => some (bus.publish order false event)
      | _ => none
  | .publishSync event =>
      match bus.phase with
      | .receiving => some (bus.publish order true event)
      | _ => none
  | .tryNext =>
      match bus.phase with
      | .publishing sync event (⟨id, subscriber⟩ :: remaining) delivered ackReceivers =>
          some (bus.offer sync event id subscriber remaining delivered ackReceivers)
      | _ => none
  | .endLoop =>
      match bus.phase with
      | .publishing _ event [] delivered ackReceivers =>
          some { bus with phase := .awaiting event delivered ackReceivers.length ackReceivers }
      | _ => none
  | .ackResolved =>
      match bus.phase with
      | .awaiting event delivered syncCount (ack :: ackReceivers) =>
          if bus.acks ack = .pending then none
          else some { bus with phase := .awaiting event delivered syncCount ackReceivers }
      | _ => none
  | .reply =>
      match bus.phase with
      | .awaiting _ _ _ [] => some { bus with phase := .receiving }
      | _ => none
  | .take sender => bus.take sender
  | .acknowledge ack => bus.finish ack .sent
  | .abandon ack => bus.finish ack .dropped
  | .close sender => some (bus.close sender)

/-! ## What a move can do -/

namespace Bus

/-- One offer: the subscriber is not interested, or the delivery is placed, or it
is dropped. -/
inductive Offered (sync : Bool) (event : Event) (id : SubscriptionId) (subscriber : Subscriber)
    (remaining : List (Sigma fun _ : SubscriptionId => Subscriber)) (delivered : Nat)
    (ackReceivers : List Nat) (bus : Bus) : Bus → Prop where
  | passed (hkind : event.kind ∉ subscriber.kinds) :
      Offered sync event id subscriber remaining delivered ackReceivers bus
        { bus with phase := .publishing sync event remaining delivered ackReceivers }
  | placed (hkind : event.kind ∈ subscriber.kinds)
      {queue : BoundedQueue EventDelivery subscriberCapacity}
      (hsend : (bus.queues subscriber.sender).trySend (.async event) = (.ok (), queue)) :
      Offered sync event id subscriber remaining delivered ackReceivers bus
        { bus with
          queues := Function.update bus.queues subscriber.sender queue
          phase := .publishing sync event remaining (delivered + 1) ackReceivers
          placed := bus.placed ++ [⟨bus.publications.length - 1, id, subscriber.sender⟩] }
  | dropped (hkind : event.kind ∈ subscriber.kinds)
      (hfull : (bus.queues subscriber.sender).receiverAlive = true →
        (bus.queues subscriber.sender).items.length = subscriberCapacity) :
      Offered sync event id subscriber remaining delivered ackReceivers bus
        { bus with phase := .publishing sync event remaining delivered ackReceivers }
  | placedSync (hkind : event.kind ∈ subscriber.kinds) (hsync : sync = true)
      (htype : subscriber.subscriptionType = .sync)
      {queue : BoundedQueue EventDelivery subscriberCapacity}
      (hsend : (bus.queues subscriber.sender).trySend (.sync event bus.asked) =
        (.ok (), queue)) :
      Offered sync event id subscriber remaining delivered ackReceivers bus
        { bus with
          asked := bus.asked + 1
          queues := Function.update bus.queues subscriber.sender queue
          phase := .publishing sync event remaining (delivered + 1) (ackReceivers ++ [bus.asked])
          placed := bus.placed ++ [⟨bus.publications.length - 1, id, subscriber.sender⟩] }
  | droppedSync (hkind : event.kind ∈ subscriber.kinds) (hsync : sync = true)
      (htype : subscriber.subscriptionType = .sync)
      (hfull : (bus.queues subscriber.sender).receiverAlive = true →
        (bus.queues subscriber.sender).items.length = subscriberCapacity) :
      Offered sync event id subscriber remaining delivered ackReceivers bus
        { bus with
          asked := bus.asked + 1
          acks := Function.update bus.acks bus.asked .dropped
          phase := .publishing sync event remaining delivered (ackReceivers ++ [bus.asked]) }

theorem offer_cases (sync : Bool) (event : Event) (id : SubscriptionId) (subscriber : Subscriber)
    (remaining : List (Sigma fun _ : SubscriptionId => Subscriber)) (delivered : Nat)
    (ackReceivers : List Nat) (bus : Bus) :
    Offered sync event id subscriber remaining delivered ackReceivers bus
      (bus.offer sync event id subscriber remaining delivered ackReceivers) := by
  unfold offer
  split
  · rename_i hkind
    cases hacknowledged : sync && decide (subscriber.subscriptionType = .sync) with
    | true =>
        obtain ⟨hsync, htype⟩ := Bool.and_eq_true_iff.mp hacknowledged
        rw [decide_eq_true_eq] at htype
        simp only [if_true]
        cases hsend : (bus.queues subscriber.sender).trySend (.sync event bus.asked) with
        | mk result queue =>
            cases result with
            | ok => exact .placedSync hkind hsync htype hsend
            | error failure =>
                have hacks : (fun ack => if EventDelivery.ack? (.sync event bus.asked) = some ack then
                    AckState.dropped else bus.acks ack) =
                    Function.update bus.acks bus.asked .dropped := by
                  funext ack
                  simp [EventDelivery.ack?, Function.update_apply, eq_comm]
                simp only [hacks]
                exact .droppedSync hkind hsync htype (BoundedQueue.length_of_trySend_error hsend)
    | false =>
        simp only [Bool.false_eq_true, if_false]
        cases hsend : (bus.queues subscriber.sender).trySend (.async event) with
        | mk result queue =>
            cases result with
            | ok => exact .placed hkind hsend
            | error failure => exact .dropped hkind (BoundedQueue.length_of_trySend_error hsend)
  · exact .passed ‹_›

/-- What an offer does to a queue: it may add to it as long as its receiver is
alive. -/
theorem queue_of_offered {sync : Bool} {event : Event} {id : SubscriptionId}
    {subscriber : Subscriber} {remaining : List (Sigma fun _ : SubscriptionId => Subscriber)}
    {delivered : Nat} {ackReceivers : List Nat} {bus bus' : Bus}
    (hoffered : Offered sync event id subscriber remaining delivered ackReceivers bus bus')
    (queue : Nat) :
    (bus'.queues queue).receiverAlive = (bus.queues queue).receiverAlive ∧
      ((bus.queues queue).receiverAlive = false →
        (bus'.queues queue).items = (bus.queues queue).items) ∧
      (bus.queues queue).items.length ≤ (bus'.queues queue).items.length ∧
      (bus'.queues queue).items.length ≤
        (bus.queues queue).items.length + if queue = subscriber.sender then 1 else 0 := by
  have hplaced {delivery : EventDelivery} {placed : BoundedQueue EventDelivery subscriberCapacity}
      (hsend : (bus.queues subscriber.sender).trySend delivery = (.ok (), placed)) :
      (Function.update bus.queues subscriber.sender placed queue).receiverAlive =
          (bus.queues queue).receiverAlive ∧
        ((bus.queues queue).receiverAlive = false →
          (Function.update bus.queues subscriber.sender placed queue).items =
            (bus.queues queue).items) ∧
        (bus.queues queue).items.length ≤
          (Function.update bus.queues subscriber.sender placed queue).items.length ∧
        (Function.update bus.queues subscriber.sender placed queue).items.length ≤
          (bus.queues queue).items.length + if queue = subscriber.sender then 1 else 0 := by
    obtain ⟨hitems, halive⟩ := BoundedQueue.items_of_trySend hsend
    by_cases hqueue : queue = subscriber.sender
    · subst hqueue
      have hkept := BoundedQueue.receiverAlive_trySend delivery (bus.queues subscriber.sender)
      rw [hsend] at hkept
      rw [Function.update_self, hkept, hitems, halive, List.length_append, if_pos rfl]
      exact ⟨rfl, nofun, Nat.le_add_right _ _, Nat.le_refl _⟩
    · rw [Function.update_of_ne hqueue]
      exact ⟨rfl, fun _ => rfl, Nat.le_refl _, Nat.le_add_right _ _⟩
  cases hoffered with
  | passed | dropped | droppedSync =>
      exact ⟨rfl, fun _ => rfl, Nat.le_refl _, Nat.le_add_right _ _⟩
  | placed hkind hsend => exact hplaced hsend
  | placedSync hkind hsync htype hsend => exact hplaced hsend

theorem phase_of_offered {sync : Bool} {event : Event} {id : SubscriptionId}
    {subscriber : Subscriber} {remaining : List (Sigma fun _ : SubscriptionId => Subscriber)}
    {delivered : Nat} {ackReceivers : List Nat} {bus bus' : Bus}
    (hoffered : Offered sync event id subscriber remaining delivered ackReceivers bus bus') :
    ∃ delivered' ackReceivers',
      bus'.phase = .publishing sync event remaining delivered' ackReceivers' := by
  cases hoffered <;> exact ⟨_, _, rfl⟩

/-- One move of the bus or of a subscriber, by cases. -/
inductive Moves (order : HashOrder SubscriptionId Subscriber) (bus : Bus) : BusMove → Bus → Prop where
  | subscribe {id : SubscriptionId} {kinds : List EventKind} {subscriptionType : SubscriptionType}
      (hphase : bus.phase = .receiving) :
      Moves order bus (.subscribe id kinds subscriptionType)
        (bus.subscribe id kinds subscriptionType)
  | unsubscribe {id : SubscriptionId} (hphase : bus.phase = .receiving) :
      Moves order bus (.unsubscribe id) (bus.unsubscribe id)
  | publish {event : Event} (hphase : bus.phase = .receiving) :
      Moves order bus (.publish event) (bus.publish order false event)
  | publishSync {event : Event} (hphase : bus.phase = .receiving) :
      Moves order bus (.publishSync event) (bus.publish order true event)
  | tryNext {sync : Bool} {event : Event} {id : SubscriptionId} {subscriber : Subscriber}
      {remaining : List (Sigma fun _ : SubscriptionId => Subscriber)} {delivered : Nat}
      {ackReceivers : List Nat} {bus' : Bus}
      (hphase : bus.phase =
        .publishing sync event (⟨id, subscriber⟩ :: remaining) delivered ackReceivers)
      (hoffered : Offered sync event id subscriber remaining delivered ackReceivers bus bus') :
      Moves order bus .tryNext bus'
  | endLoop {sync : Bool} {event : Event} {delivered : Nat} {ackReceivers : List Nat}
      (hphase : bus.phase = .publishing sync event [] delivered ackReceivers) :
      Moves order bus .endLoop
        { bus with phase := .awaiting event delivered ackReceivers.length ackReceivers }
  | ackResolved {event : Event} {delivered syncCount ack : Nat} {ackReceivers : List Nat}
      (hphase : bus.phase = .awaiting event delivered syncCount (ack :: ackReceivers))
      (hresolved : bus.acks ack ≠ .pending) :
      Moves order bus .ackResolved
        { bus with phase := .awaiting event delivered syncCount ackReceivers }
  | reply {event : Event} {delivered syncCount : Nat}
      (hphase : bus.phase = .awaiting event delivered syncCount []) :
      Moves order bus .reply { bus with phase := .receiving }
  | take {sender : Nat} {delivery : EventDelivery}
      {queue : BoundedQueue EventDelivery subscriberCapacity}
      (hrecv : (bus.queues sender).recv = some (delivery, queue)) :
      Moves order bus (.take sender)
        { bus with
          queues := Function.update bus.queues sender queue
          held := bus.held ++ delivery.ack?.toList }
  | acknowledge {ack : Nat} (hheld : ack ∈ bus.held) :
      Moves order bus (.acknowledge ack)
        { bus with acks := Function.update bus.acks ack .sent, held := bus.held.erase ack }
  | abandon {ack : Nat} (hheld : ack ∈ bus.held) :
      Moves order bus (.abandon ack)
        { bus with acks := Function.update bus.acks ack .dropped, held := bus.held.erase ack }
  | close {sender : Nat} : Moves order bus (.close sender) (bus.close sender)

theorem moves_of_busStep {order : HashOrder SubscriptionId Subscriber} {bus bus' : Bus}
    {move : BusMove} (hstep : busStep order bus move = some bus') : Moves order bus move bus' := by
  cases move with
  | subscribe | unsubscribe | publish | publishSync =>
      simp only [busStep] at hstep
      split at hstep
      · obtain rfl := Option.some.inj hstep
        constructor
        assumption
      · cases hstep
  | tryNext =>
      simp only [busStep] at hstep
      split at hstep
      · obtain rfl := Option.some.inj hstep
        exact .tryNext ‹_› (offer_cases ..)
      · cases hstep
  | endLoop =>
      simp only [busStep] at hstep
      split at hstep
      · obtain rfl := Option.some.inj hstep
        exact .endLoop ‹_›
      · cases hstep
  | ackResolved =>
      simp only [busStep] at hstep
      split at hstep
      · split at hstep
        · cases hstep
        · obtain rfl := Option.some.inj hstep
          exact .ackResolved ‹_› ‹_›
      · cases hstep
  | reply =>
      simp only [busStep] at hstep
      split at hstep
      · obtain rfl := Option.some.inj hstep
        exact .reply ‹_›
      · cases hstep
  | take sender =>
      simp only [busStep, take] at hstep
      split at hstep
      · cases hstep
      · obtain rfl := Option.some.inj hstep
        exact .take ‹_›
  | acknowledge ack =>
      simp only [busStep, finish] at hstep
      split at hstep
      · obtain rfl := Option.some.inj hstep
        exact .acknowledge ‹_›
      · cases hstep
  | abandon ack =>
      simp only [busStep, finish] at hstep
      split at hstep
      · obtain rfl := Option.some.inj hstep
        exact .abandon ‹_›
      · cases hstep
  | close sender =>
      obtain rfl := Option.some.inj hstep
      exact .close

end Bus

end Scuttled
