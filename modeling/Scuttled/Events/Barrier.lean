import Scuttled.Events.Delivery
import Scuttled.Events.Order

/-!
# The barrier of `publish_sync`

The loop replies when every acknowledgement it made was sent or dropped.  What it
waits for is on its way: a delivery in some queue, or one that a subscriber has
taken and not finished.  Until then it processes no other command.
-/

namespace Scuttled

open Rust Foundation

namespace Bus

/-- The acknowledgements the loop collected and has not seen resolved. -/
def waitingFor (bus : Bus) : List Nat :=
  match bus.phase with
  | .receiving => []
  | .publishing _ _ _ _ ackReceivers => ackReceivers
  | .awaiting _ _ _ ackReceivers => ackReceivers

/-- The acknowledgement goes with a delivery in some queue, or with one that a
subscriber has taken. -/
def Outstanding (bus : Bus) (ack : Nat) : Prop :=
  (∃ queue, ack ∈ (bus.queues queue).items.filterMap EventDelivery.ack?) ∨ ack ∈ bus.held

/-- Every acknowledgement that was made and is pending is waited for, and goes
with a delivery. -/
structure Accounted (bus : Bus) : Prop where
  /-- Numbers are handed out one after the other. -/
  made : ∀ ack, bus.Outstanding ack → ack < bus.asked
  waited : ∀ ack < bus.asked, bus.acks ack = .pending → ack ∈ bus.waitingFor
  outstanding : ∀ ack < bus.asked, bus.acks ack = .pending → bus.Outstanding ack
  waitedMade : ∀ ack ∈ bus.waitingFor, ack < bus.asked
  /-- Deliveries are placed in queues that were opened. -/
  unopened : ∀ queue, bus.opened ≤ queue → (bus.queues queue).items = []
  registered : ∀ id subscriber, bus.subscribers.lookup id = some subscriber →
    subscriber.sender < bus.opened
  remaining : ∀ sync event remaining delivered ackReceivers,
    bus.phase = .publishing sync event remaining delivered ackReceivers →
      ∀ entry ∈ remaining, entry.2.sender < bus.opened

theorem accounted_new : Accounted .new where
  made := by
    rintro ack (⟨queue, hmem⟩ | hheld)
    · cases hmem
    · cases hheld
  waited := nofun
  outstanding := nofun
  waitedMade := nofun
  unopened _ _ := rfl
  registered := nofun
  remaining := nofun

variable {bus : Bus}

/-! ## Moves that leave the deliveries alone -/

/-- A move of the loop that makes no acknowledgement: what it still waits for is
what it waited for before, but for what was resolved. -/
theorem Accounted.proceed (haccounted : bus.Accounted) {bus' : Bus}
    (hqueues : bus'.queues = bus.queues) (hopened : bus'.opened = bus.opened)
    (hacks : bus'.acks = bus.acks) (hasked : bus'.asked = bus.asked)
    (hheld : bus'.held = bus.held)
    (hwaiting : ∀ ack ∈ bus'.waitingFor, ack ∈ bus.waitingFor)
    (hresolved : ∀ ack ∈ bus.waitingFor, bus.acks ack = .pending → ack ∈ bus'.waitingFor)
    (hregistered : ∀ id subscriber, bus'.subscribers.lookup id = some subscriber →
      subscriber.sender < bus.opened)
    (hremaining : ∀ sync event remaining delivered ackReceivers,
      bus'.phase = .publishing sync event remaining delivered ackReceivers →
        ∀ entry ∈ remaining, entry.2.sender < bus.opened) :
    bus'.Accounted where
  made := by
    unfold Outstanding
    rw [hqueues, hheld, hasked]
    exact haccounted.made
  waited ack hmade hpending := by
    rw [hasked] at hmade
    rw [hacks] at hpending
    exact hresolved ack (haccounted.waited ack hmade hpending) hpending
  outstanding := by
    unfold Outstanding
    rw [hqueues, hheld, hasked, hacks]
    exact haccounted.outstanding
  waitedMade := by
    rw [hasked]
    exact fun ack hwait => haccounted.waitedMade ack (hwaiting ack hwait)
  unopened := by
    rw [hqueues, hopened]
    exact haccounted.unopened
  registered := by
    rw [hopened]
    exact hregistered
  remaining := by
    rw [hopened]
    exact hremaining

theorem Accounted.subscribe (haccounted : bus.Accounted) (hphase : bus.phase = .receiving)
    (id : SubscriptionId) (kinds : List EventKind) (subscriptionType : SubscriptionType) :
    (bus.subscribe id kinds subscriptionType).Accounted := by
  have hitems (queue : Nat) : ((bus.subscribe id kinds subscriptionType).queues queue).items =
      (bus.queues queue).items := by
    simp only [Bus.subscribe, Function.update_apply]
    split
    · rename_i hqueue
      rw [hqueue, haccounted.unopened bus.opened (Nat.le_refl _)]
      rfl
    · rfl
  constructor
  · simp only [Outstanding, hitems]
    exact haccounted.made
  · exact haccounted.waited
  · simp only [Outstanding, hitems]
    exact haccounted.outstanding
  · exact haccounted.waitedMade
  · intro queue hqueue
    rw [hitems]
    exact haccounted.unopened queue (Nat.le_of_succ_le hqueue)
  · intro other subscriber hlookup
    simp only [Bus.subscribe, HashMap.lookup_insert_eq] at hlookup
    split at hlookup
    · rw [← Option.some.inj hlookup]
      exact Nat.lt_succ_self _
    · exact Nat.lt_succ_of_lt (haccounted.registered other subscriber hlookup)
  · intro sync event remaining delivered ackReceivers hpublishing
    cases hphase.symm.trans hpublishing

/-! ## Moves of deliveries -/

theorem filterMap_of_trySend {queues : Nat → BoundedQueue EventDelivery subscriberCapacity}
    {sender : Nat} {delivery : EventDelivery}
    {queue : BoundedQueue EventDelivery subscriberCapacity}
    (hsend : (queues sender).trySend delivery = (.ok (), queue)) (other : Nat) :
    (Function.update queues sender queue other).items.filterMap EventDelivery.ack? =
      (queues other).items.filterMap EventDelivery.ack? ++
        if other = sender then delivery.ack?.toList else [] := by
  by_cases hother : other = sender
  · subst hother
    rw [Function.update_self, (BoundedQueue.items_of_trySend hsend).1, List.filterMap_append,
      if_pos rfl]
    cases delivery <;> rfl
  · rw [Function.update_of_ne hother, if_neg hother, List.append_nil]

theorem Accounted.unopened_update (haccounted : bus.Accounted) {sender : Nat}
    (hsender : sender < bus.opened) (queue : BoundedQueue EventDelivery subscriberCapacity)
    (other : Nat) (hother : bus.opened ≤ other) :
    (Function.update bus.queues sender queue other).items = [] := by
  rw [Function.update_of_ne (Nat.ne_of_gt (Nat.lt_of_lt_of_le hsender hother))]
  exact haccounted.unopened other hother

theorem Accounted.placed (haccounted : bus.Accounted) {event : Event} {sender : Nat}
    (hsender : sender < bus.opened) {queue : BoundedQueue EventDelivery subscriberCapacity}
    (hsend : (bus.queues sender).trySend (.async event) = (.ok (), queue)) (placed : List Placement) :
    Accounted { bus with queues := Function.update bus.queues sender queue, placed } := by
  have hitems (other : Nat) :
      (Function.update bus.queues sender queue other).items.filterMap EventDelivery.ack? =
        (bus.queues other).items.filterMap EventDelivery.ack? := by
    rw [filterMap_of_trySend hsend]
    simp [EventDelivery.ack?]
  refine ⟨?_, haccounted.waited, ?_, haccounted.waitedMade, haccounted.unopened_update hsender queue,
    haccounted.registered, haccounted.remaining⟩
  · simp only [Outstanding, hitems]
    exact haccounted.made
  · simp only [Outstanding, hitems]
    exact haccounted.outstanding

/-- A synchronous delivery is placed: it is outstanding, and waited for. -/
theorem Accounted.placedSync (haccounted : bus.Accounted) {event : Event} {sender : Nat}
    (hsender : sender < bus.opened) {queue : BoundedQueue EventDelivery subscriberCapacity}
    (hsend : (bus.queues sender).trySend (.sync event bus.asked) = (.ok (), queue))
    (placed : List Placement) {phase : BusPhase}
    (hwaiting : ∀ ack, ack ∈ Bus.waitingFor { bus with phase } ↔
      ack ∈ bus.waitingFor ∨ ack = bus.asked)
    (hremaining : ∀ sync event remaining delivered ackReceivers,
      phase = .publishing sync event remaining delivered ackReceivers →
        ∀ entry ∈ remaining, entry.2.sender < bus.opened) :
    Accounted { bus with
      asked := bus.asked + 1
      queues := Function.update bus.queues sender queue
      phase
      placed } := by
  have houtstanding (ack : Nat) : Outstanding
      { bus with
        asked := bus.asked + 1
        queues := Function.update bus.queues sender queue
        phase
        placed } ack ↔ bus.Outstanding ack ∨ ack = bus.asked := by
    simp only [Outstanding, filterMap_of_trySend hsend, List.mem_append]
    constructor
    · rintro (⟨other, hold | hnew⟩ | hheld)
      · exact .inl (.inl ⟨other, hold⟩)
      · split at hnew
        · exact .inr (List.mem_singleton.mp hnew)
        · cases hnew
      · exact .inl (.inr hheld)
    · rintro ((⟨other, hold⟩ | hheld) | rfl)
      · exact .inl ⟨other, .inl hold⟩
      · exact .inr hheld
      · refine .inl ⟨sender, .inr ?_⟩
        rw [if_pos rfl]
        exact List.mem_singleton_self _
  refine ⟨fun ack houts => ?_, fun ack hmade hpending => ?_, fun ack hmade hpending => ?_,
    fun ack hwait => ?_, haccounted.unopened_update hsender queue, haccounted.registered,
    hremaining⟩
  · rcases (houtstanding ack).mp houts with hold | rfl
    · exact Nat.lt_succ_of_lt (haccounted.made ack hold)
    · exact Nat.lt_succ_self _
  · rcases Nat.lt_succ_iff_lt_or_eq.mp hmade with hold | rfl
    · exact (hwaiting ack).mpr (.inl (haccounted.waited ack hold hpending))
    · exact (hwaiting _).mpr (.inr rfl)
  · rcases Nat.lt_succ_iff_lt_or_eq.mp hmade with hold | rfl
    · exact (houtstanding ack).mpr (.inl (haccounted.outstanding ack hold hpending))
    · exact (houtstanding _).mpr (.inr rfl)
  · rcases (hwaiting ack).mp hwait with hold | rfl
    · exact Nat.lt_succ_of_lt (haccounted.waitedMade ack hold)
    · exact Nat.lt_succ_self _

/-- A synchronous delivery cannot be placed: it is waited for, but resolved
already. -/
theorem Accounted.droppedSync (haccounted : bus.Accounted) {phase : BusPhase}
    (hwaiting : ∀ ack, ack ∈ Bus.waitingFor { bus with phase } ↔
      ack ∈ bus.waitingFor ∨ ack = bus.asked)
    (hremaining : ∀ sync event remaining delivered ackReceivers,
      phase = .publishing sync event remaining delivered ackReceivers →
        ∀ entry ∈ remaining, entry.2.sender < bus.opened) :
    Accounted { bus with
      asked := bus.asked + 1
      acks := Function.update bus.acks bus.asked .dropped
      phase } := by
  have hold {ack : Nat} (hmade : ack < bus.asked + 1)
      (hpending : Function.update bus.acks bus.asked .dropped ack = .pending) :
      ack < bus.asked ∧ bus.acks ack = .pending := by
    rw [Function.update_apply] at hpending
    split at hpending
    · cases hpending
    · rename_i hne
      exact ⟨Nat.lt_of_le_of_ne (Nat.le_of_lt_succ hmade) hne, hpending⟩
  refine ⟨fun ack houts => ?_, fun ack hmade hpending => ?_, fun ack hmade hpending => ?_,
    fun ack hwait => ?_, haccounted.unopened, haccounted.registered, hremaining⟩
  · exact Nat.lt_succ_of_lt (haccounted.made ack houts)
  · obtain ⟨hlt, hbefore⟩ := hold hmade hpending
    exact (hwaiting ack).mpr (.inl (haccounted.waited ack hlt hbefore))
  · obtain ⟨hlt, hbefore⟩ := hold hmade hpending
    exact haccounted.outstanding ack hlt hbefore
  · rcases (hwaiting ack).mp hwait with hold | rfl
    · exact Nat.lt_succ_of_lt (haccounted.waitedMade ack hold)
    · exact Nat.lt_succ_self _

/-- A subscriber receives a delivery: it is outstanding still. -/
theorem Accounted.take (haccounted : bus.Accounted) {sender : Nat} {delivery : EventDelivery}
    {queue : BoundedQueue EventDelivery subscriberCapacity}
    (hrecv : (bus.queues sender).recv = some (delivery, queue)) :
    Accounted { bus with
      queues := Function.update bus.queues sender queue
      held := bus.held ++ delivery.ack?.toList } := by
  have hitems := BoundedQueue.items_of_recv hrecv
  have houtstanding (ack : Nat) : Outstanding
      { bus with
        queues := Function.update bus.queues sender queue
        held := bus.held ++ delivery.ack?.toList } ack ↔ bus.Outstanding ack := by
    have hsender : (bus.queues sender).items.filterMap EventDelivery.ack? =
        delivery.ack?.toList ++ queue.items.filterMap EventDelivery.ack? := by
      rw [hitems]
      cases delivery <;> rfl
    simp only [Outstanding, Function.update_apply, List.mem_append]
    constructor
    · rintro (⟨other, hmem⟩ | hheld | htaken)
      · split at hmem
        · refine .inl ⟨sender, ?_⟩
          rw [hsender]
          exact List.mem_append_right _ hmem
        · exact .inl ⟨other, hmem⟩
      · exact .inr hheld
      · refine .inl ⟨sender, ?_⟩
        rw [hsender]
        exact List.mem_append_left _ htaken
    · rintro (⟨other, hmem⟩ | hheld)
      · by_cases hother : other = sender
        · rw [hother, hsender] at hmem
          rcases List.mem_append.mp hmem with htaken | hrest
          · exact .inr (.inr htaken)
          · refine .inl ⟨sender, ?_⟩
            rw [if_pos rfl]
            exact hrest
        · refine .inl ⟨other, ?_⟩
          rw [if_neg hother]
          exact hmem
      · exact .inr (.inl hheld)
  refine ⟨fun ack houts => haccounted.made ack ((houtstanding ack).mp houts), haccounted.waited,
    fun ack hmade hpending => (houtstanding ack).mpr (haccounted.outstanding ack hmade hpending),
    haccounted.waitedMade, fun other hother => ?_, haccounted.registered, haccounted.remaining⟩
  simp only [Function.update_apply]
  split
  · rename_i hsender
    have hempty := haccounted.unopened other hother
    rw [hsender, hitems] at hempty
    cases hempty
  · exact haccounted.unopened other hother

theorem Accounted.finish (haccounted : bus.Accounted) {ack : Nat} {outcome : AckState}
    (houtcome : outcome ≠ .pending) :
    Accounted { bus with
      acks := Function.update bus.acks ack outcome
      held := bus.held.erase ack } := by
  have hold {other : Nat} (hpending : Function.update bus.acks ack outcome other = .pending) :
      other ≠ ack ∧ bus.acks other = .pending := by
    rw [Function.update_apply] at hpending
    split at hpending
    · exact absurd hpending houtcome
    · exact ⟨‹_›, hpending⟩
  refine ⟨fun other houts => haccounted.made other (houts.imp_right List.mem_of_mem_erase),
    fun other hmade hpending => haccounted.waited other hmade (hold hpending).2,
    fun other hmade hpending => ?_, haccounted.waitedMade, haccounted.unopened,
    haccounted.registered, haccounted.remaining⟩
  obtain ⟨hne, hbefore⟩ := hold hpending
  exact (haccounted.outstanding other hmade hbefore).imp_right (List.mem_erase_of_ne hne).mpr

/-- A subscriber drops its receiver: what was in its queue is resolved. -/
theorem Accounted.close (haccounted : bus.Accounted) (sender : Nat) :
    (bus.close sender).Accounted := by
  have hitems (queue : Nat) : ((bus.close sender).queues queue).items =
      if queue = sender then [] else (bus.queues queue).items := by
    simp only [Bus.close, Function.update_apply]
    split <;> rfl
  have hold {ack : Nat} (hpending : (bus.close sender).acks ack = .pending) :
      ack ∉ (bus.queues sender).items.filterMap EventDelivery.ack? ∧ bus.acks ack = .pending := by
    simp only [Bus.close] at hpending
    split at hpending
    · cases hpending
    · rename_i hmem
      refine ⟨fun hqueued => hmem ?_, hpending⟩
      obtain ⟨delivery, hdelivery, hack⟩ := List.mem_filterMap.mp hqueued
      exact List.mem_map.mpr ⟨delivery, hdelivery, hack⟩
  refine ⟨fun ack houts => haccounted.made ack ?_,
    fun ack hmade hpending => haccounted.waited ack hmade (hold hpending).2,
    fun ack hmade hpending => ?_, haccounted.waitedMade, fun queue hqueue => ?_,
    haccounted.registered, haccounted.remaining⟩
  · rcases houts with ⟨queue, hmem⟩ | hheld
    · rw [hitems] at hmem
      split at hmem
      · cases hmem
      · exact .inl ⟨queue, hmem⟩
    · exact .inr hheld
  · obtain ⟨hkept, hbefore⟩ := hold hpending
    rcases haccounted.outstanding ack hmade hbefore with ⟨queue, hmem⟩ | hheld
    · refine .inl ⟨queue, ?_⟩
      rw [hitems, if_neg]
      · exact hmem
      · rintro rfl
        exact hkept hmem
    · exact .inr hheld
  · rw [hitems]
    split
    · rfl
    · exact haccounted.unopened queue hqueue

/-! ## Runs -/

theorem waitingFor_of_publishing {sync : Bool} {event : Event}
    {remaining : List (Sigma fun _ : SubscriptionId => Subscriber)} {delivered : Nat}
    {ackReceivers : List Nat}
    (hphase : bus.phase = .publishing sync event remaining delivered ackReceivers) :
    bus.waitingFor = ackReceivers := by
  rw [waitingFor, hphase]

theorem waitingFor_of_awaiting {event : Event} {delivered syncCount : Nat}
    {ackReceivers : List Nat}
    (hphase : bus.phase = .awaiting event delivered syncCount ackReceivers) :
    bus.waitingFor = ackReceivers := by
  rw [waitingFor, hphase]

/-- The loop offers the event to the next subscriber. -/
theorem Accounted.offered (haccounted : bus.Accounted) {sync : Bool} {event : Event}
    {id : SubscriptionId} {subscriber : Subscriber}
    {remaining : List (Sigma fun _ : SubscriptionId => Subscriber)} {delivered : Nat}
    {ackReceivers : List Nat}
    (hphase : bus.phase =
      .publishing sync event (⟨id, subscriber⟩ :: remaining) delivered ackReceivers)
    {bus' : Bus} (hoffered : Offered sync event id subscriber remaining delivered ackReceivers bus
      bus') : bus'.Accounted := by
  have hsender : subscriber.sender < bus.opened :=
    haccounted.remaining _ _ _ _ _ hphase _ List.mem_cons_self
  have hremaining {delivered' : Nat} {ackReceivers' : List Nat} (sync' : Bool) (event' : Event)
      (remaining' : List (Sigma fun _ : SubscriptionId => Subscriber)) (delivered'' : Nat)
      (ackReceivers'' : List Nat)
      (hpublishing : BusPhase.publishing sync event remaining delivered' ackReceivers' =
        .publishing sync' event' remaining' delivered'' ackReceivers'') :
      ∀ entry ∈ remaining', entry.2.sender < bus.opened := by
    obtain ⟨-, -, rfl, -⟩ := BusPhase.publishing.inj hpublishing
    exact fun entry hentry =>
      haccounted.remaining _ _ _ _ _ hphase entry (List.mem_cons_of_mem _ hentry)
  have hwaiting := waitingFor_of_publishing hphase
  -- the loop goes on to the next subscriber, waiting for what it waited for
  have hskip (delivered' : Nat) : Accounted
      { bus with phase := .publishing sync event remaining delivered' ackReceivers } :=
    haccounted.proceed rfl rfl rfl rfl rfl (fun ack hwait => hwaiting ▸ hwait)
      (fun ack hwait _ => hwaiting ▸ hwait) haccounted.registered hremaining
  have hcollects (delivered' : Nat) (ack : Nat) :
      ack ∈ Bus.waitingFor { bus with
        phase := .publishing sync event remaining delivered' (ackReceivers ++ [bus.asked]) } ↔
      ack ∈ bus.waitingFor ∨ ack = bus.asked := by
    rw [hwaiting]
    simp [waitingFor]
  cases hoffered with
  | passed | dropped => exact hskip delivered
  | placed hkind hsend => exact (hskip (delivered + 1)).placed hsender hsend _
  | placedSync hkind hsync htype hsend =>
      exact haccounted.placedSync hsender hsend _ (hcollects _) hremaining
  | droppedSync => exact haccounted.droppedSync (hcollects _) hremaining

theorem Accounted.step {order : HashOrder SubscriptionId Subscriber} {move : BusMove} {bus' : Bus}
    (haccounted : bus.Accounted) (hmoves : Moves order bus move bus') : bus'.Accounted := by
  cases hmoves with
  | subscribe hphase => exact haccounted.subscribe hphase _ _ _
  | unsubscribe hphase =>
      refine haccounted.proceed rfl rfl rfl rfl rfl (fun _ hwait => hwait) (fun _ hwait _ => hwait)
        (fun other subscriber hlookup => ?_) haccounted.remaining
      simp only [Bus.unsubscribe, HashMap.lookup_erase_eq] at hlookup
      split at hlookup
      · cases hlookup
      · exact haccounted.registered other subscriber hlookup
  | publish hphase | publishSync hphase =>
      refine haccounted.proceed rfl rfl rfl rfl rfl
        (fun _ hwait => absurd hwait List.not_mem_nil) (fun ack hwait _ => ?_)
        haccounted.registered fun _ _ _ _ _ hpublishing => ?_
      · rw [waitingFor, hphase] at hwait
        cases hwait
      · obtain ⟨-, -, rfl, -⟩ := BusPhase.publishing.inj hpublishing
        exact fun entry hentry =>
          haccounted.registered entry.1 entry.2 (HashMap.mem_arrange_iff.mp hentry)
  | tryNext hphase hoffered => exact haccounted.offered hphase hoffered
  | endLoop hphase =>
      have hwaiting := waitingFor_of_publishing hphase
      exact haccounted.proceed rfl rfl rfl rfl rfl (fun _ hwait => hwaiting ▸ hwait)
        (fun _ hwait _ => hwaiting ▸ hwait) haccounted.registered (by simp)
  | ackResolved hphase hresolved =>
      have hwaiting := waitingFor_of_awaiting hphase
      refine haccounted.proceed rfl rfl rfl rfl rfl
        (fun _ hwait => hwaiting ▸ List.mem_cons_of_mem _ hwait) (fun ack hwait hpending => ?_)
        haccounted.registered (by simp)
      rw [hwaiting] at hwait
      rcases List.mem_cons.mp hwait with rfl | hrest
      · exact absurd hpending hresolved
      · exact hrest
  | reply hphase =>
      have hwaiting := waitingFor_of_awaiting hphase
      exact haccounted.proceed rfl rfl rfl rfl rfl (fun _ hwait => absurd hwait List.not_mem_nil)
        (fun _ hwait _ => absurd (hwaiting ▸ hwait) List.not_mem_nil) haccounted.registered
        (by simp)
  | take hrecv => exact haccounted.take hrecv
  | acknowledge hheld => exact haccounted.finish (by simp)
  | abandon hheld => exact haccounted.finish (by simp)
  | close => exact haccounted.close _

theorem accounted_of_steps {order : HashOrder SubscriptionId Subscriber} {moves : List BusMove}
    (hrun : Steps (fun source move target => busStep order source move = some target) .new moves
      bus) : bus.Accounted :=
  hrun.invariant (fun _ _ _ hsource hstep => hsource.step (moves_of_busStep hstep)) accounted_new

theorem reply_of_resolved (order : HashOrder SubscriptionId Subscriber) {event : Event}
    {delivered syncCount : Nat} {ackReceivers : List Nat}
    (hphase : bus.phase = .awaiting event delivered syncCount ackReceivers)
    (hresolved : ∀ ack ∈ ackReceivers, bus.acks ack ≠ .pending) :
    (List.replicate ackReceivers.length BusMove.ackResolved ++ [BusMove.reply]).foldlM
        (busStep order) bus =
      some { bus with phase := .receiving } := by
  induction ackReceivers generalizing bus with
  | nil => simp [busStep, hphase]
  | cons ack rest ih =>
      have hfirst : busStep order bus .ackResolved =
          some { bus with phase := .awaiting event delivered syncCount rest } := by
        simp [busStep, hphase, hresolved ack List.mem_cons_self]
      let next : Bus := { bus with phase := .awaiting event delivered syncCount rest }
      have hrest := @ih next rfl fun other hother =>
        hresolved other (List.mem_cons_of_mem _ hother)
      rw [List.length_cons, List.replicate_succ, List.cons_append, List.foldlM_cons, hfirst]
      exact hrest

theorem publications_of_steps {order : HashOrder SubscriptionId Subscriber} {source target : Bus}
    {moves : List BusMove}
    (hrun : Steps (fun source move target => busStep order source move = some target) source moves
      target) (hreply : .reply ∉ moves) (hphase : source.phase ≠ .receiving) :
    target.publications = source.publications := by
  let Busy (current : Bus) : Prop :=
    current.phase ≠ .receiving ∧ current.publications = source.publications
  have hkept : Busy target := by
    refine hrun.invariant_on ?_ ⟨hphase, rfl⟩
    rintro current move hmem next ⟨hbusy, hsame⟩ hstep
    cases moves_of_busStep hstep with
    | subscribe hidle | unsubscribe hidle | publish hidle | publishSync hidle =>
        exact absurd hidle hbusy
    | tryNext hpublishing hoffered => cases hoffered <;> exact ⟨nofun, hsame⟩
    | endLoop | ackResolved => exact ⟨nofun, hsame⟩
    | reply => exact absurd hmem hreply
    | take | acknowledge | abandon | close => exact ⟨hbusy, hsame⟩
  exact hkept.2

/--
`publish_sync` is a barrier.  When it returns, every acknowledgement that was
made was sent or dropped, those of its own deliveries among them; until it
replies nothing that is published later is placed anywhere.  While it waits, what
it waits for goes with a delivery in some queue or in the hands of a subscriber;
as soon as none of that is pending, the loop replies by itself.
-/
theorem publishSync_barrier (order : HashOrder SubscriptionId Subscriber) (moves : List BusMove)
    (bus : Bus) (hrun : Steps (fun source move target => busStep order source move = some target)
      .new moves bus) :
    (∀ queue delivery ack, delivery ∈ (bus.queues queue).items → delivery.ack? = some ack →
      ack < bus.asked) ∧
    (∀ event, bus.ReturnsOk event → ∀ ack < bus.asked, bus.acks ack ≠ .pending) ∧
    (∀ before event during, moves = before ++ .publishSync event :: during → .reply ∉ during →
      ∀ placement ∈ bus.placed,
        placement.publication ≤ (before.filterMap BusMove.published).length) ∧
    ∀ event delivered syncCount ackReceivers,
      bus.phase = .awaiting event delivered syncCount ackReceivers →
      (∀ ack ∈ ackReceivers, bus.acks ack = .pending → bus.Outstanding ack) ∧
      ((∀ ack ∈ ackReceivers, bus.acks ack ≠ .pending) →
        (List.replicate ackReceivers.length BusMove.ackResolved ++ [BusMove.reply]).foldlM
          (busStep order) bus = some { bus with phase := .receiving }) := by
  have haccounted := accounted_of_steps hrun
  refine ⟨fun queue delivery ack hdelivery hack => ?_, fun event hreturns ack hmade hpending => ?_,
    fun before event during hmoves hreply placement hplacement => ?_,
    fun event delivered syncCount ackReceivers hphase => ⟨fun ack hack hpending => ?_,
      reply_of_resolved order hphase⟩⟩
  · exact haccounted.made ack (.inl ⟨queue, List.mem_filterMap.mpr ⟨delivery, hdelivery, hack⟩⟩)
  · obtain ⟨delivered, syncCount, hphase⟩ := hreturns
    have hwaits := haccounted.waited ack hmade hpending
    rw [waitingFor_of_awaiting hphase] at hwaits
    cases hwaits
  · subst hmoves
    obtain ⟨source, hbefore, hrest⟩ := hrun.exists_of_append
    obtain ⟨started, hstart, hduring⟩ := hrest.exists_of_cons
    obtain ⟨hphase, hpublications⟩ : started.phase ≠ .receiving ∧
        started.publications = source.publications ++ [event] := by
      cases moves_of_busStep hstart
      exact ⟨nofun, rfl⟩
    have hplaced : placement.publication ∈ bus.placedIn placement.sender :=
      List.mem_map_of_mem (List.mem_filter.mpr ⟨hplacement, decide_eq_true rfl⟩)
    have hlt := (inOrder_of_steps hrun).lt_of_mem_placedIn hplaced
    rw [publications_of_steps hduring hreply hphase, hpublications, List.length_append,
      (inOrder_of_steps hbefore).publications] at hlt
    exact Nat.le_of_lt_succ hlt
  · rw [← waitingFor_of_awaiting hphase] at hack
    exact haccounted.outstanding ack (haccounted.waitedMade ack hack) hpending

/-- A synchronous publication to one subscriber, up to its reply. -/
def publishSyncOnce : List BusMove :=
  [.subscribe ⟨1⟩ [.mailboxCreated] .sync, .publishSync (.mailboxCreated "ann" "box"), .tryNext,
    .endLoop, .take 0, .acknowledge 0, .ackResolved]

theorem publishSync_barrier_once :
    ∃ bus, Steps (fun source move target => busStep .listed source move = some target) .new
        publishSyncOnce bus ∧
      bus.asked = 1 ∧ bus.acks 0 ≠ .pending := by
  have hsummary : (publishSyncOnce.foldlM (busStep .listed) .new).map (fun bus =>
      (bus.returning, bus.asked)) = some (some (.mailboxCreated "ann" "box"), 1) := by
    decide +kernel
  obtain ⟨bus, hbus, hvalues⟩ := Option.map_eq_some_iff.mp hsummary
  obtain ⟨hreturning, hasked⟩ := Prod.mk.inj hvalues
  have hrun := Steps.of_foldlM hbus
  refine ⟨bus, hrun, hasked, (publishSync_barrier .listed _ bus hrun).2.1 _
    (returnsOk_of_returning hreturning) 0 ?_⟩
  rw [hasked]
  exact Nat.zero_lt_one

end Bus

end Scuttled
