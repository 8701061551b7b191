import Scuttled.Events.Bus

/-!
# Delivery to every subscriber

A publication whose `try_send` finds a full queue is only logged, and the
publisher is told Ok.  Along the runs in which no live interested subscriber
lags behind by the capacity of its queue, an Ok means that every registered,
interested, live subscriber was sent the event.
-/

namespace Scuttled

open Rust Foundation

namespace Bus

/-- The call that published the event returns Ok with the next reply. -/
def ReturnsOk (event : Event) (bus : Bus) : Prop :=
  ∃ delivered syncCount, bus.phase = .awaiting event delivered syncCount []

/-- The current publication was placed in the queue of the subscription. -/
def Reached (bus : Bus) (id : SubscriptionId) (subscriber : Subscriber) : Prop :=
  ⟨bus.publications.length - 1, id, subscriber.sender⟩ ∈ bus.placed

instance (bus : Bus) (id : SubscriptionId) (subscriber : Subscriber) :
    Decidable (bus.Reached id subscriber) := inferInstanceAs (Decidable (_ ∈ _))

/-- The subscription is registered for the kind of the event, and its receiver
is alive. -/
structure Expects (bus : Bus) (event : Event) (id : SubscriptionId) (subscriber : Subscriber) :
    Prop where
  registered : bus.subscribers.lookup id = some subscriber
  interested : event.kind ∈ subscriber.kinds
  alive : (bus.queues subscriber.sender).receiverAlive = true

/-- The event is the last that was published, and every subscription that
expects it was reached, or the loop has still to come to it. -/
structure Owes (bus : Bus) (event : Event)
    (remaining : List (Sigma fun _ : SubscriptionId => Subscriber)) : Prop where
  last : bus.publications.getLast? = some event
  reached : ∀ id subscriber, bus.Expects event id subscriber →
    ⟨id, subscriber⟩ ∈ remaining ∨ bus.Reached id subscriber

/-- While an event is published, it is owed to the rest of the subscribers only. -/
def Delivering (bus : Bus) : Prop :=
  match bus.phase with
  | .receiving => True
  | .publishing _ event remaining _ _ => bus.Owes event remaining
  | .awaiting event _ _ _ => bus.Owes event []

/-- Whatever is sent to a live interested subscriber finds room in its queue. -/
def HasRoom (bus : Bus) : BusMove → Prop
  | .tryNext =>
      match bus.phase with
      | .publishing _ event (⟨_, subscriber⟩ :: _) _ _ =>
          event.kind ∈ subscriber.kinds →
            (bus.queues subscriber.sender).receiverAlive = true →
              (bus.queues subscriber.sender).items.length < subscriberCapacity
      | _ => True
  | _ => True

instance (bus : Bus) (move : BusMove) : Decidable (bus.HasRoom move) := by
  unfold HasRoom
  split
  · split <;> infer_instance
  · infer_instance

/-- Between two states of one publication: no subscription comes or goes, what
was placed stays recorded, and receivers that are alive were alive. -/
structure Continues (bus bus' : Bus) : Prop where
  subscribers : bus'.subscribers = bus.subscribers
  publications : bus'.publications = bus.publications
  placed : ∀ placement ∈ bus.placed, placement ∈ bus'.placed
  alive : ∀ sender, (bus'.queues sender).receiverAlive = true →
    (bus.queues sender).receiverAlive = true

variable {bus bus' : Bus} {event : Event}
  {remaining : List (Sigma fun _ : SubscriptionId => Subscriber)}

theorem Continues.expects (hcontinues : bus.Continues bus') {id : SubscriptionId}
    {subscriber : Subscriber} (hexpects : bus'.Expects event id subscriber) :
    bus.Expects event id subscriber where
  registered := hcontinues.subscribers ▸ hexpects.registered
  interested := hexpects.interested
  alive := hcontinues.alive _ hexpects.alive

theorem Continues.reached (hcontinues : bus.Continues bus') {id : SubscriptionId}
    {subscriber : Subscriber} (hreached : bus.Reached id subscriber) :
    bus'.Reached id subscriber := by
  unfold Reached at hreached ⊢
  rw [hcontinues.publications]
  exact hcontinues.placed _ hreached

theorem Continues.owes (hcontinues : bus.Continues bus') (howes : bus.Owes event remaining) :
    bus'.Owes event remaining where
  last := by
    rw [hcontinues.publications]
    exact howes.last
  reached := fun id subscriber hexpects =>
    (howes.reached id subscriber (hcontinues.expects hexpects)).imp_right hcontinues.reached

theorem Delivering.continues (hdelivering : bus.Delivering) (hcontinues : bus.Continues bus')
    (hphase : bus'.phase = bus.phase) : bus'.Delivering := by
  unfold Delivering at hdelivering ⊢
  rw [hphase]
  cases hcurrent : bus.phase with
  | receiving => trivial
  | publishing sync event remaining delivered ackReceivers =>
      rw [hcurrent] at hdelivering
      exact hcontinues.owes hdelivering
  | awaiting event delivered syncCount ackReceivers =>
      rw [hcurrent] at hdelivering
      exact hcontinues.owes hdelivering

/-! ## What is offered -/

theorem alive_update {queues : Nat → BoundedQueue EventDelivery subscriberCapacity} {sender : Nat}
    {queue : BoundedQueue EventDelivery subscriberCapacity}
    (hqueue : queue.receiverAlive = true → (queues sender).receiverAlive = true) (other : Nat)
    (halive : (Function.update queues sender queue other).receiverAlive = true) :
    (queues other).receiverAlive = true := by
  by_cases hother : other = sender
  · subst hother
    rw [Function.update_self] at halive
    exact hqueue halive
  · rwa [Function.update_of_ne hother] at halive

theorem continues_of_offered {sync : Bool} {id : SubscriptionId} {subscriber : Subscriber}
    {delivered : Nat} {ackReceivers : List Nat}
    (hoffered : Offered sync event id subscriber remaining delivered ackReceivers bus bus') :
    bus.Continues bus' where
  subscribers := by cases hoffered <;> rfl
  publications := by cases hoffered <;> rfl
  placed := by
    intro placement hplacement
    cases hoffered with
    | passed | dropped | droppedSync => exact hplacement
    | placed | placedSync => exact List.mem_append_left _ hplacement
  alive := fun sender halive => (queue_of_offered hoffered sender).1 ▸ halive

theorem reached_of_offered {sync : Bool} {id : SubscriptionId} {subscriber : Subscriber}
    {delivered : Nat} {ackReceivers : List Nat}
    (hoffered : Offered sync event id subscriber remaining delivered ackReceivers bus bus')
    (hinterested : event.kind ∈ subscriber.kinds)
    (halive : (bus.queues subscriber.sender).receiverAlive = true)
    (hroom : (bus.queues subscriber.sender).items.length < subscriberCapacity) :
    bus'.Reached id subscriber := by
  cases hoffered with
  | passed hkind => exact absurd hinterested hkind
  | placed | placedSync => exact List.mem_append_right _ List.mem_cons_self
  | dropped hkind hfull => exact absurd (hfull halive) (Nat.ne_of_lt hroom)
  | droppedSync hkind hsync htype hfull => exact absurd (hfull halive) (Nat.ne_of_lt hroom)

/-! ## Every move keeps what is owed -/

theorem delivering_of_receiving (hphase : bus.phase = .receiving) : bus.Delivering := by
  unfold Delivering
  rw [hphase]
  trivial

theorem delivering_publish (order : HashOrder SubscriptionId Subscriber) (sync : Bool)
    (event : Event) (bus : Bus) : (bus.publish order sync event).Delivering where
  last := List.getLast?_concat
  reached := fun _ _ hexpects => .inl (HashMap.mem_arrange_iff.mpr hexpects.registered)

theorem delivering_tryNext {sync : Bool} {id : SubscriptionId} {subscriber : Subscriber}
    {delivered : Nat} {ackReceivers : List Nat}
    (howes : bus.Owes event (⟨id, subscriber⟩ :: remaining))
    (hoffered : Offered sync event id subscriber remaining delivered ackReceivers bus bus')
    (hroom : event.kind ∈ subscriber.kinds →
      (bus.queues subscriber.sender).receiverAlive = true →
        (bus.queues subscriber.sender).items.length < subscriberCapacity) :
    bus'.Delivering := by
  have hcontinues := continues_of_offered hoffered
  obtain ⟨delivered', ackReceivers', hphase⟩ := phase_of_offered hoffered
  unfold Delivering
  rw [hphase]
  refine ⟨(hcontinues.owes howes).last, fun other expecting hexpects => ?_⟩
  rcases (hcontinues.owes howes).reached other expecting hexpects with hremaining | hdone
  · rcases List.mem_cons.mp hremaining with hfirst | hlater
    · cases hfirst
      have hbefore := hcontinues.expects hexpects
      exact .inr (reached_of_offered hoffered hbefore.interested hbefore.alive
        (hroom hbefore.interested hbefore.alive))
    · exact .inl hlater
  · exact .inr hdone

theorem delivering_step {order : HashOrder SubscriptionId Subscriber} {move : BusMove}
    (hdelivering : bus.Delivering) (hroom : bus.HasRoom move) (hmoves : bus.Moves order move bus') :
    bus'.Delivering := by
  cases hmoves with
  | subscribe hphase | unsubscribe hphase => exact delivering_of_receiving hphase
  | publish | publishSync => exact delivering_publish order _ _ bus
  | tryNext hphase hoffered =>
      unfold Delivering at hdelivering
      unfold HasRoom at hroom
      rw [hphase] at hdelivering hroom
      exact delivering_tryNext hdelivering hoffered hroom
  | endLoop hphase | ackResolved hphase =>
      unfold Delivering at hdelivering
      rw [hphase] at hdelivering
      exact ⟨hdelivering.last, fun id subscriber hexpects =>
        hdelivering.reached id subscriber ⟨hexpects.registered, hexpects.interested,
          hexpects.alive⟩⟩
  | reply => exact delivering_of_receiving rfl
  | @take sender delivery queue hrecv =>
      have halive := BoundedQueue.receiverAlive_of_recv hrecv
      exact hdelivering.continues
        ⟨rfl, rfl, fun _ hplaced => hplaced, alive_update halive.symm.trans⟩ rfl
  | acknowledge | abandon =>
      exact hdelivering.continues ⟨rfl, rfl, fun _ hplaced => hplaced, fun _ halive => halive⟩ rfl
  | close =>
      exact hdelivering.continues ⟨rfl, rfl, fun _ hplaced => hplaced, alive_update nofun⟩ rfl

/--
An Ok means delivery, along every run in which whatever is sent to a live
interested subscriber finds room: when the call that published an event returns
Ok, the event was placed in the queue of every subscription that is registered
for its kind and whose receiver is alive.
-/
theorem reached_of_hasRoom (order : HashOrder SubscriptionId Subscriber) (moves : List BusMove)
    (bus : Bus) (event : Event)
    (hrun : Steps (guarded HasRoom fun source move target =>
      busStep order source move = some target) .new moves bus)
    (hreturns : bus.ReturnsOk event) :
    bus.publications.getLast? = some event ∧
      ∀ id subscriber, bus.Expects event id subscriber → bus.Reached id subscriber := by
  have hdelivering : bus.Delivering :=
    hrun.invariant_of_guarded (fun _ _ _ hsource hroom hstep =>
      delivering_step hsource hroom (moves_of_busStep hstep)) (delivering_of_receiving rfl)
  obtain ⟨delivered, syncCount, hphase⟩ := hreturns
  unfold Delivering at hdelivering
  rw [hphase] at hdelivering
  refine ⟨hdelivering.last, fun id subscriber hexpects => ?_⟩
  exact (hdelivering.reached id subscriber hexpects).resolve_left (List.not_mem_nil)

/-! ## A subscriber that lags behind -/

/-- A publication to one subscriber, up to its reply. -/
def publishOnce (event : Event) : List BusMove := [.publish event, .tryNext, .endLoop]

/-- The event whose publisher is told Ok with the next reply. -/
def returning (bus : Bus) : Option Event :=
  match bus.phase with
  | .awaiting event _ _ [] => some event
  | _ => none

theorem returnsOk_of_returning (hreturning : bus.returning = some event) :
    bus.ReturnsOk event := by
  unfold returning at hreturning
  split at hreturning
  · rename_i published delivered syncCount hphase
    obtain rfl := Option.some.inj hreturning
    exact ⟨delivered, syncCount, hphase⟩
  · cases hreturning

/-- A subscription, and so many publications to it, the last not yet replied to. -/
def publishRepeatedly (event : Event) (count : Nat) : List BusMove :=
  .subscribe ⟨1⟩ [event.kind] .async ::
    ((List.replicate (count - 1) (publishOnce event ++ [.reply])).flatten ++ publishOnce event)

/-- The law for a subscriber that leaves 100 deliveries in its queue. -/
theorem reached_of_hasRoom_hundred :
    ∃ bus, Steps (guarded HasRoom fun source move target =>
        busStep .listed source move = some target) .new
          (publishRepeatedly (.mailboxCreated "ann" "box") 100) bus ∧
      bus.ReturnsOk (.mailboxCreated "ann" "box") ∧
      ∀ id subscriber, bus.Expects (.mailboxCreated "ann" "box") id subscriber →
        bus.Reached id subscriber := by
  have hreturns : ((publishRepeatedly (.mailboxCreated "ann" "box") 100).foldlM
      (fun bus move => if HasRoom bus move then busStep .listed bus move else none) .new).map
        returning = some (some (.mailboxCreated "ann" "box")) := by
    decide +kernel
  obtain ⟨bus, hbus, hreturning⟩ := Option.map_eq_some_iff.mp hreturns
  have hrun := Steps.guarded_of_foldlM hbus
  have hok := returnsOk_of_returning hreturning
  exact ⟨bus, hrun, hok, (reached_of_hasRoom .listed _ bus _ hrun hok).2⟩

/-- Of 101 publications to a subscriber that takes none, the last is lost, and
its publisher is told Ok. -/
theorem lagging_subscriber_misses_event :
    ∃ moves bus event id subscriber, Steps
        (fun source move target => busStep .listed source move = some target) .new moves bus ∧
      bus.ReturnsOk event ∧ bus.Expects event id subscriber ∧ ¬ bus.Reached id subscriber := by
  let event : Event := .mailboxCreated "ann" "box"
  let subscriber : Subscriber :=
    { kinds := [.mailboxCreated], subscriptionType := .async, sender := 0 }
  have hsummary : ((publishRepeatedly event 101).foldlM (busStep .listed) .new).map (fun bus =>
      (bus.returning, bus.subscribers.lookup ⟨1⟩, (bus.queues 0).receiverAlive,
        decide (bus.Reached ⟨1⟩ subscriber))) =
      some (some event, some subscriber, true, false) := by
    decide +kernel
  obtain ⟨bus, hbus, hvalues⟩ := Option.map_eq_some_iff.mp hsummary
  simp only [Prod.mk.injEq, decide_eq_false_iff_not] at hvalues
  obtain ⟨hreturning, hlookup, halive, hreached⟩ := hvalues
  exact ⟨publishRepeatedly event 101, bus, event, ⟨1⟩, subscriber, Steps.of_foldlM hbus,
    returnsOk_of_returning hreturning, ⟨hlookup, by decide, halive⟩, hreached⟩

end Bus

end Scuttled
