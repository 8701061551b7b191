import Mathlib.Data.List.Sort
import Scuttled.Events.Bus

/-!
# Order and agreement

What is placed in the queue of a subscription is, in order and without
repetition, among the publications its window covers.  So any two subscriptions
receive what both receive in one order, whatever the order of iterations.
-/

namespace Scuttled

open Rust Foundation

/-! ## Windows of subscriptions -/

def BusMove.published : BusMove → Option Event
  | .publish event | .publishSync event => some event
  | _ => none

/-- What the commands say about the subscription that opened a queue: how many
queues were opened and events published so far, the subscription while it is
registered, and the numbers of the publications it asked for in that time. -/
structure Window where
  opened : Nat
  published : Nat
  registered : Option (SubscriptionId × List EventKind)
  covered : List Nat

namespace Window

def empty : Window where
  opened := 0
  published := 0
  registered := none
  covered := []

/-- An event is published: it is covered if it is asked for. -/
def publish (event : Event) (window : Window) : Window :=
  { window with
    published := window.published + 1
    covered := window.covered ++
      if event.kind ∈ (window.registered.map Prod.snd).getD [] then [window.published] else [] }

/-- One move: the window of a queue opens with the command that opened the queue
and closes with the Unsubscribe of that subscription. -/
def step (queue : Nat) (window : Window) : BusMove → Window
  | .subscribe id kinds _ =>
      { window with
        opened := window.opened + 1
        registered := if window.opened = queue then some (id, kinds) else window.registered }
  | .unsubscribe id =>
      { window with registered := window.registered.filter fun subscription => subscription.1 ≠ id }
  | .publish event | .publishSync event => window.publish event
  | _ => window

/-- The window of a queue after some moves. -/
def after (queue : Nat) (moves : List BusMove) : Window := moves.foldl (step queue) empty

theorem after_concat (queue : Nat) (moves : List BusMove) (move : BusMove) :
    after queue (moves ++ [move]) = (after queue moves).step queue move := by
  rw [after, List.foldl_append]
  rfl

theorem covered_sorted (queue : Nat) (moves : List BusMove) :
    (after queue moves).covered.Pairwise (· < ·) ∧
      ∀ number ∈ (after queue moves).covered, number < (after queue moves).published := by
  induction moves using List.reverseRecOn with
  | nil => exact ⟨.nil, nofun⟩
  | append_singleton moves move ih =>
      obtain ⟨hsorted, hbound⟩ := ih
      have hpublish (event : Event) :
          ((after queue moves).publish event).covered.Pairwise (· < ·) ∧
            ∀ number ∈ ((after queue moves).publish event).covered,
              number < ((after queue moves).publish event).published := by
        unfold publish
        split
        · refine ⟨List.pairwise_append.mpr ⟨hsorted, List.pairwise_singleton _ _, ?_⟩, ?_⟩
          · intro number hnumber last hlast
            rw [List.mem_singleton.mp hlast]
            exact hbound number hnumber
          · intro number hnumber
            rcases List.mem_append.mp hnumber with hold | hlast
            · exact Nat.lt_succ_of_lt (hbound number hold)
            · rw [List.mem_singleton.mp hlast]
              exact Nat.lt_succ_self _
        · rw [List.append_nil]
          exact ⟨hsorted, fun number hnumber => Nat.lt_succ_of_lt (hbound number hnumber)⟩
      rw [after_concat]
      cases move with
      | publish event => exact hpublish event
      | publishSync event => exact hpublish event
      | _ => exact ⟨hsorted, hbound⟩

end Window

/-! ## What is placed -/

namespace Bus

/-- The numbers of the publications that were placed in a queue, in order. -/
def placedIn (bus : Bus) (queue : Nat) : List Nat :=
  (bus.placed.filter fun placement => placement.sender = queue).map Placement.publication

/-- The number of the current publication for every entry that still waits for it
and asked for it. -/
def pendingIn (bus : Bus) (queue : Nat) : List Nat :=
  match bus.phase with
  | .publishing _ event remaining _ _ =>
      (remaining.filter fun entry => entry.2.sender = queue ∧ event.kind ∈ entry.2.kinds).map
        fun _ => bus.publications.length - 1
  | _ => []

/-- The events that were placed in a queue. -/
def eventsIn (bus : Bus) (queue : Nat) : List Event :=
  (bus.placedIn queue).filterMap (bus.publications[·]?)

/-- What the moves say, and what the bus did. -/
structure InOrder (moves : List BusMove) (bus : Bus) : Prop where
  opened : ∀ queue, (Window.after queue moves).opened = bus.opened
  published : ∀ queue, (Window.after queue moves).published = bus.publications.length
  publications : bus.publications = moves.filterMap BusMove.published
  /-- A registered subscription is the one that opened its queue. -/
  registered : ∀ id subscriber, bus.subscribers.lookup id = some subscriber →
    subscriber.sender < bus.opened ∧
      (Window.after subscriber.sender moves).registered = some (id, subscriber.kinds)
  /-- What was placed, and what may still be, is covered. -/
  covered : ∀ queue,
    (bus.placedIn queue ++ bus.pendingIn queue).Sublist (Window.after queue moves).covered
  current : ∀ sync event remaining delivered ackReceivers,
    bus.phase = .publishing sync event remaining delivered ackReceivers →
      bus.publications.getLast? = some event
  /-- A queue holds the last events that were placed in it. -/
  queued : ∀ queue,
    ((bus.queues queue).items.map EventDelivery.event).IsSuffix (bus.eventsIn queue)

variable {moves : List BusMove} {bus : Bus}

theorem inOrder_new : InOrder [] Bus.new where
  opened _ := rfl
  published _ := rfl
  publications := rfl
  registered := by
    intro id subscriber hlookup
    simp [Bus.new] at hlookup
  covered _ := .refl _
  current := by
    intro sync event remaining delivered ackReceivers hphase
    cases hphase
  queued _ := List.nil_suffix

theorem InOrder.aside (horder : InOrder moves bus) {move : BusMove}
    (hwindow : ∀ queue window, Window.step queue window move = window)
    (hpublished : move.published = none) {bus' : Bus}
    (hsubscribers : bus'.subscribers = bus.subscribers) (hopened : bus'.opened = bus.opened)
    (hpublications : bus'.publications = bus.publications) (hplaced : bus'.placed = bus.placed)
    (hpending : ∀ queue, (bus'.pendingIn queue).Sublist (bus.pendingIn queue))
    (hcurrent : ∀ sync event remaining delivered ackReceivers,
      bus'.phase = .publishing sync event remaining delivered ackReceivers →
        bus.publications.getLast? = some event)
    (hqueued : ∀ queue, ((bus'.queues queue).items.map EventDelivery.event).IsSuffix
      (bus.eventsIn queue)) :
    InOrder (moves ++ [move]) bus' where
  opened queue := by rw [Window.after_concat, hwindow, hopened, horder.opened]
  published queue := by rw [Window.after_concat, hwindow, hpublications, horder.published]
  publications := by
    rw [hpublications, horder.publications, List.filterMap_append]
    simp [hpublished]
  registered := by
    intro id subscriber hlookup
    rw [Window.after_concat, hwindow, hopened]
    exact horder.registered id subscriber (hsubscribers ▸ hlookup)
  covered queue := by
    rw [Window.after_concat, hwindow, placedIn, hplaced]
    exact ((List.Sublist.refl _).append (hpending queue)).trans (horder.covered queue)
  current := by
    rw [hpublications]
    exact hcurrent
  queued queue := by
    rw [eventsIn, placedIn, hplaced, hpublications]
    exact hqueued queue

/-- A subscription: its window opens with its queue. -/
theorem InOrder.subscribe (horder : InOrder moves bus)
    (id : SubscriptionId) (kinds : List EventKind) (subscriptionType : SubscriptionType) :
    InOrder (moves ++ [.subscribe id kinds subscriptionType])
      (bus.subscribe id kinds subscriptionType) where
  opened queue := by
    rw [Window.after_concat]
    exact congrArg (· + 1) (horder.opened queue)
  published queue := by
    rw [Window.after_concat]
    exact horder.published queue
  publications := by
    rw [List.filterMap_append]
    exact horder.publications.trans (List.append_nil _).symm
  registered := by
    intro other subscriber hlookup
    simp only [Bus.subscribe, HashMap.lookup_insert_eq] at hlookup
    split at hlookup
    · rename_i hother
      obtain rfl := Option.some.inj hlookup
      refine ⟨Nat.lt_succ_self _, ?_⟩
      rw [Window.after_concat, Window.step, if_pos (horder.opened _), hother]
    · obtain ⟨hlt, hregistered⟩ := horder.registered other subscriber hlookup
      refine ⟨Nat.lt_succ_of_lt hlt, ?_⟩
      rw [Window.after_concat, Window.step, if_neg, hregistered]
      rw [horder.opened]
      exact Nat.ne_of_gt hlt
  covered queue := by
    rw [Window.after_concat]
    exact horder.covered queue
  current := horder.current
  queued queue := by
    change (List.map EventDelivery.event (Function.update bus.queues bus.opened .new queue).items) <:+
      bus.eventsIn queue
    rw [Function.update_apply]
    split
    · exact List.nil_suffix
    · exact horder.queued queue

theorem InOrder.unsubscribe (horder : InOrder moves bus) (id : SubscriptionId) :
    InOrder (moves ++ [.unsubscribe id]) (bus.unsubscribe id) where
  opened queue := by
    rw [Window.after_concat]
    exact horder.opened queue
  published queue := by
    rw [Window.after_concat]
    exact horder.published queue
  publications := by
    rw [List.filterMap_append]
    exact horder.publications.trans (List.append_nil _).symm
  registered := by
    intro other subscriber hlookup
    simp only [Bus.unsubscribe, HashMap.lookup_erase_eq] at hlookup
    split at hlookup
    · cases hlookup
    · rename_i hother
      obtain ⟨hlt, hregistered⟩ := horder.registered other subscriber hlookup
      refine ⟨hlt, ?_⟩
      rw [Window.after_concat, Window.step, hregistered]
      simp [hother]
  covered queue := by
    rw [Window.after_concat]
    exact horder.covered queue
  current := horder.current
  queued := horder.queued

theorem InOrder.length_filter_le_one (horder : InOrder moves bus)
    (order : HashOrder SubscriptionId Subscriber) (iteration queue : Nat)
    (asked : Subscriber → Prop) [DecidablePred asked] :
    ((order.arrange iteration bus.subscribers.entries).filter fun entry =>
      entry.2.sender = queue ∧ asked entry.2).length ≤ 1 := by
  generalize hfound : (order.arrange iteration bus.subscribers.entries).filter _ = found
  have hkeys : (found.map Sigma.fst).Nodup := by
    rw [← hfound]
    exact HashMap.nodup_keys_arrange.sublist (List.filter_sublist.map _)
  have hentry (entry : Sigma fun _ : SubscriptionId => Subscriber) (hmem : entry ∈ found) :
      (Window.after queue moves).registered = some (entry.1, entry.2.kinds) := by
    rw [← hfound, List.mem_filter, HashMap.mem_arrange_iff, decide_eq_true_eq] at hmem
    obtain ⟨hlookup, rfl, -⟩ := hmem
    exact (horder.registered entry.1 entry.2 hlookup).2
  match found with
  | [] => exact Nat.zero_le 1
  | [_] => exact Nat.le_refl 1
  | first :: second :: rest =>
      have hfirst := hentry first List.mem_cons_self
      have hsecond := hentry second (List.mem_cons_of_mem _ List.mem_cons_self)
      have hsame := (Prod.mk.inj (Option.some.inj (hfirst.symm.trans hsecond))).1
      simp [hsame] at hkeys

theorem InOrder.placed_covered (horder : InOrder moves bus) (queue : Nat) :
    (bus.placedIn queue).Sublist (Window.after queue moves).covered :=
  (List.sublist_append_left _ _).trans (horder.covered queue)

theorem InOrder.lt_of_mem_placedIn (horder : InOrder moves bus) {queue number : Nat}
    (hplaced : number ∈ bus.placedIn queue) : number < bus.publications.length := by
  rw [← horder.published queue]
  exact (Window.covered_sorted queue moves).2 number
    ((horder.placed_covered queue).subset hplaced)

theorem InOrder.eventsIn_concat (horder : InOrder moves bus) (queue : Nat) (event : Event) :
    (bus.placedIn queue).filterMap ((bus.publications ++ [event])[·]?) = bus.eventsIn queue :=
  List.filterMap_congr fun _ hnumber =>
    List.getElem?_append_left (horder.lt_of_mem_placedIn hnumber)

theorem InOrder.pending_covered (horder : InOrder moves bus)
    (order : HashOrder SubscriptionId Subscriber) (sync : Bool) (event : Event) (queue : Nat) :
    ((bus.publish order sync event).pendingIn queue).Sublist
      (if event.kind ∈ ((Window.after queue moves).registered.map Prod.snd).getD [] then
        [(Window.after queue moves).published] else []) := by
  have hlength := horder.length_filter_le_one order bus.iterations queue
    fun subscriber => event.kind ∈ subscriber.kinds
  simp only [pendingIn, Bus.publish, List.length_append, List.length_singleton,
    Nat.add_sub_cancel, horder.published]
  cases hwaiting : (order.arrange bus.iterations bus.subscribers.entries).filter fun entry =>
      entry.2.sender = queue ∧ event.kind ∈ entry.2.kinds with
  | nil => exact List.nil_sublist _
  | cons entry rest =>
      have hmem : entry ∈ (order.arrange bus.iterations bus.subscribers.entries).filter
          fun entry => entry.2.sender = queue ∧ event.kind ∈ entry.2.kinds := by
        rw [hwaiting]
        exact List.mem_cons_self
      rw [List.mem_filter, HashMap.mem_arrange_iff, decide_eq_true_eq] at hmem
      obtain ⟨hlookup, rfl, hkind⟩ := hmem
      rw [hwaiting, List.length_cons, Nat.succ_le_succ_iff, Nat.le_zero] at hlength
      rw [(horder.registered entry.1 entry.2 hlookup).2, List.length_eq_zero_iff.mp hlength]
      simp [hkind]

/-- A publication begins. -/
theorem InOrder.publish (horder : InOrder moves bus)
    {move : BusMove} {event : Event} (hpublished : move.published = some event)
    (hwindow : ∀ queue window, Window.step queue window move = window.publish event)
    (order : HashOrder SubscriptionId Subscriber) (sync : Bool) :
    InOrder (moves ++ [move]) (bus.publish order sync event) where
  opened queue := by
    rw [Window.after_concat, hwindow]
    exact horder.opened queue
  published queue := by
    rw [Window.after_concat, hwindow]
    simp only [Window.publish, Bus.publish, horder.published, List.length_append,
      List.length_singleton]
  publications := by
    rw [List.filterMap_append, ← horder.publications]
    simp [Bus.publish, hpublished]
  registered := by
    intro id subscriber hlookup
    rw [Window.after_concat, hwindow]
    exact horder.registered id subscriber hlookup
  covered queue := by
    rw [Window.after_concat, hwindow]
    exact (horder.placed_covered queue).append (horder.pending_covered order sync event queue)
  current := by
    intro sync' event' remaining delivered ackReceivers hpublishing
    simp only [Bus.publish, BusPhase.publishing.injEq] at hpublishing
    rw [← hpublishing.2.1]
    exact List.getLast?_concat
  queued queue := by
    have hevents : (bus.publish order sync event).eventsIn queue = bus.eventsIn queue :=
      horder.eventsIn_concat queue event
    rw [hevents]
    exact horder.queued queue

theorem pendingIn_of_phase {sync : Bool} {event : Event}
    {remaining : List (Sigma fun _ : SubscriptionId => Subscriber)} {delivered : Nat}
    {ackReceivers : List Nat}
    (hphase : bus.phase = .publishing sync event remaining delivered ackReceivers) (queue : Nat) :
    bus.pendingIn queue =
      (remaining.filter fun entry => entry.2.sender = queue ∧ event.kind ∈ entry.2.kinds).map
        fun _ => bus.publications.length - 1 := by
  rw [pendingIn, hphase]

/-- The loop places the event in the queue of the next subscriber: what may be
placed there has been. -/
theorem InOrder.place (horder : InOrder moves bus) {sync : Bool} {event : Event}
    {id : SubscriptionId} {subscriber : Subscriber}
    {remaining : List (Sigma fun _ : SubscriptionId => Subscriber)} {delivered : Nat}
    {ackReceivers : List Nat}
    (hphase : bus.phase =
      .publishing sync event (⟨id, subscriber⟩ :: remaining) delivered ackReceivers)
    (hkind : event.kind ∈ subscriber.kinds) {delivery : EventDelivery}
    (hdelivery : delivery.event = event) {queue : BoundedQueue EventDelivery subscriberCapacity}
    (hsend : (bus.queues subscriber.sender).trySend delivery = (.ok (), queue)) {bus' : Bus}
    (hsubscribers : bus'.subscribers = bus.subscribers) (hopened : bus'.opened = bus.opened)
    (hpublications : bus'.publications = bus.publications)
    (hqueues : bus'.queues = Function.update bus.queues subscriber.sender queue)
    (hplaced : bus'.placed =
      bus.placed ++ [⟨bus.publications.length - 1, id, subscriber.sender⟩])
    {ackReceivers' : List Nat} {delivered' : Nat}
    (hphase' : bus'.phase = .publishing sync event remaining delivered' ackReceivers') :
    InOrder (moves ++ [.tryNext]) bus' := by
  have hcurrent := horder.current _ _ _ _ _ hphase
  have hplacedIn (other : Nat) : bus'.placedIn other = bus.placedIn other ++
      if subscriber.sender = other then [bus.publications.length - 1] else [] := by
    rw [placedIn, hplaced, List.filter_append, List.map_append]
    by_cases hother : subscriber.sender = other <;> simp [placedIn, hother]
  constructor
  · intro other
    rw [Window.after_concat, hopened]
    exact horder.opened other
  · intro other
    rw [Window.after_concat, hpublications]
    exact horder.published other
  · rw [hpublications, List.filterMap_append]
    exact horder.publications.trans (List.append_nil _).symm
  · intro other registered hlookup
    rw [Window.after_concat, hopened]
    exact horder.registered other registered (hsubscribers ▸ hlookup)
  · intro other
    -- the number moves from what is pending to what is placed
    have hmoved : bus'.placedIn other ++ bus'.pendingIn other =
        bus.placedIn other ++ bus.pendingIn other := by
      rw [hplacedIn, pendingIn_of_phase hphase', pendingIn_of_phase hphase, hpublications,
        List.append_assoc]
      by_cases hother : subscriber.sender = other <;> simp [hother, hkind]
    rw [Window.after_concat, hmoved]
    exact horder.covered other
  · intro sync' event' remaining' delivered'' ackReceivers'' hpublishing
    rw [hphase'] at hpublishing
    obtain ⟨-, rfl, -⟩ := BusPhase.publishing.inj hpublishing
    rw [hpublications]
    exact hcurrent
  · intro other
    rw [eventsIn, hplacedIn, hpublications, hqueues, List.filterMap_append]
    by_cases hother : subscriber.sender = other
    · subst hother
      obtain ⟨earlier, hearlier⟩ := horder.queued subscriber.sender
      have hlast : [bus.publications.length - 1].filterMap (bus.publications[·]?) = [event] := by
        rw [List.getLast?_eq_getElem?] at hcurrent
        simp [hcurrent]
      rw [Function.update_self, (BoundedQueue.items_of_trySend hsend).1, if_pos rfl,
        List.map_append, hlast]
      refine ⟨earlier, ?_⟩
      rw [← List.append_assoc, hearlier]
      simp [hdelivery, eventsIn]
    · rw [Function.update_of_ne (Ne.symm hother), if_neg hother]
      simpa [eventsIn] using horder.queued other

theorem InOrder.skip (horder : InOrder moves bus) {sync : Bool} {event : Event}
    {id : SubscriptionId} {subscriber : Subscriber}
    {remaining : List (Sigma fun _ : SubscriptionId => Subscriber)} {delivered : Nat}
    {ackReceivers : List Nat}
    (hphase : bus.phase =
      .publishing sync event (⟨id, subscriber⟩ :: remaining) delivered ackReceivers)
    {bus' : Bus} (hsubscribers : bus'.subscribers = bus.subscribers)
    (hopened : bus'.opened = bus.opened) (hpublications : bus'.publications = bus.publications)
    (hplaced : bus'.placed = bus.placed) (hqueues : bus'.queues = bus.queues) {delivered' : Nat}
    {ackReceivers' : List Nat}
    (hphase' : bus'.phase = .publishing sync event remaining delivered' ackReceivers') :
    InOrder (moves ++ [.tryNext]) bus' := by
  refine horder.aside (fun _ _ => rfl) rfl hsubscribers hopened hpublications hplaced
    (fun queue => ?_) (fun sync' event' remaining' delivered'' ackReceivers'' hpublishing => ?_)
    (fun queue => ?_)
  · rw [pendingIn_of_phase hphase', pendingIn_of_phase hphase, hpublications]
    exact ((List.sublist_cons_self _ _).filter _).map _
  · rw [hphase'] at hpublishing
    obtain ⟨-, rfl, -⟩ := BusPhase.publishing.inj hpublishing
    exact horder.current _ _ _ _ _ hphase
  · rw [hqueues]
    exact horder.queued queue

theorem InOrder.receiver (horder : InOrder moves bus) {move : BusMove}
    (hwindow : ∀ queue window, Window.step queue window move = window)
    (hpublished : move.published = none) {bus' : Bus}
    (hsubscribers : bus'.subscribers = bus.subscribers) (hopened : bus'.opened = bus.opened)
    (hpublications : bus'.publications = bus.publications) (hplaced : bus'.placed = bus.placed)
    (hphase : bus'.phase = bus.phase)
    (hqueued : ∀ queue, (bus'.queues queue).items.IsSuffix (bus.queues queue).items) :
    InOrder (moves ++ [move]) bus' := by
  refine horder.aside hwindow hpublished hsubscribers hopened hpublications hplaced
    (fun queue => ?_) (fun sync event remaining delivered ackReceivers hpublishing => ?_)
    (fun queue => ((hqueued queue).map _).trans (horder.queued queue))
  · rw [pendingIn, hphase, hpublications]
    exact .refl _
  · exact horder.current _ _ _ _ _ (hphase.symm.trans hpublishing)

theorem InOrder.awaiting (horder : InOrder moves bus) {move : BusMove}
    (hwindow : ∀ queue window, Window.step queue window move = window)
    (hpublished : move.published = none) {phase : BusPhase}
    (hphase : ∀ sync event remaining delivered ackReceivers,
      phase ≠ .publishing sync event remaining delivered ackReceivers) :
    InOrder (moves ++ [move]) { bus with phase } := by
  refine horder.aside hwindow hpublished rfl rfl rfl rfl (fun queue => ?_)
    (fun sync event remaining delivered ackReceivers hpublishing =>
      absurd hpublishing (hphase _ _ _ _ _)) horder.queued
  rw [pendingIn]
  split
  · rename_i hpublishing
    exact absurd hpublishing (hphase _ _ _ _ _)
  · exact List.nil_sublist _

/-- Every move keeps the order. -/
theorem InOrder.step {order : HashOrder SubscriptionId Subscriber} (horder : InOrder moves bus)
    {move : BusMove} {bus' : Bus} (hmoves : Moves order bus move bus') :
    InOrder (moves ++ [move]) bus' := by
  cases hmoves with
  | subscribe hphase => exact horder.subscribe _ _ _
  | unsubscribe hphase => exact horder.unsubscribe _
  | publish hphase => exact horder.publish rfl (fun _ _ => rfl) order false
  | publishSync hphase => exact horder.publish rfl (fun _ _ => rfl) order true
  | tryNext hphase hoffered =>
      cases hoffered with
      | passed | dropped | droppedSync => exact horder.skip hphase rfl rfl rfl rfl rfl rfl
      | placed hkind hsend => exact horder.place hphase hkind rfl hsend rfl rfl rfl rfl rfl rfl
      | placedSync hkind hsync htype hsend =>
          exact horder.place hphase hkind rfl hsend rfl rfl rfl rfl rfl rfl
  | endLoop hphase => exact horder.awaiting (fun _ _ => rfl) rfl nofun
  | ackResolved hphase hresolved => exact horder.awaiting (fun _ _ => rfl) rfl nofun
  | reply hphase => exact horder.awaiting (fun _ _ => rfl) rfl nofun
  | @take sender delivery rest hrecv =>
      refine horder.receiver (fun _ _ => rfl) rfl rfl rfl rfl rfl rfl fun queue => ?_
      simp only [Function.update_apply]
      split
      · rename_i hqueue
        rw [hqueue, BoundedQueue.items_of_recv hrecv]
        exact List.suffix_cons _ _
      · exact List.suffix_rfl
  | acknowledge hheld | abandon hheld =>
      exact horder.receiver (fun _ _ => rfl) rfl rfl rfl rfl rfl rfl fun _ => List.suffix_rfl
  | @close sender =>
      refine horder.receiver (fun _ _ => rfl) rfl rfl rfl rfl rfl rfl fun queue => ?_
      simp only [Bus.close, Function.update_apply]
      split
      · exact List.nil_suffix
      · exact List.suffix_rfl

theorem inOrder_of_steps {order : HashOrder SubscriptionId Subscriber}
    (hrun : Steps (fun source move target => busStep order source move = some target) .new moves
      bus) : InOrder moves bus :=
  hrun.history_invariant (fun _ _ _ _ hsource hstep => hsource.step (moves_of_busStep hstep))
    inOrder_new

/--
Ordered, duplicate-free delivery and agreement.  The publications are those the
commands published, in order.  What was placed in a queue is a subsequence of the
publications the window of its subscription covers, each at most once; the queue
holds the last of the events that were placed.  Publications that were placed in
two queues were placed in both in one order.
-/
theorem placed_inOrder (order : HashOrder SubscriptionId Subscriber) (moves : List BusMove)
    (bus : Bus) (hrun : Steps (fun source move target => busStep order source move = some target)
      .new moves bus) :
    bus.publications = moves.filterMap BusMove.published ∧
    (∀ queue, (bus.placedIn queue).Sublist (Window.after queue moves).covered ∧
      (bus.placedIn queue).Nodup ∧
      ((bus.queues queue).items.map EventDelivery.event).IsSuffix (bus.eventsIn queue)) ∧
    ∀ (queue queue' : Nat) (common : List Nat), common.Sublist (bus.placedIn queue) →
      (∀ number ∈ common, number ∈ bus.placedIn queue') →
        common.Sublist (bus.placedIn queue') := by
  have horder := inOrder_of_steps hrun
  have hsorted (queue : Nat) : (bus.placedIn queue).Pairwise (· < ·) :=
    (Window.covered_sorted queue moves).1.sublist (horder.placed_covered queue)
  refine ⟨horder.publications, fun queue => ⟨horder.placed_covered queue, ?_, horder.queued queue⟩,
    fun queue queue' common hcommon hplaced => ?_⟩
  · exact (hsorted queue).imp Nat.ne_of_lt
  · have hpairwise := (hsorted queue).sublist hcommon
    have hsubperm := List.subperm_of_subset (hpairwise.imp Nat.ne_of_lt) hplaced
    exact List.sublist_of_subperm_of_pairwise hsubperm hpairwise (hsorted queue')

/-- Two subscriptions, one of them to a kind twice, and two publications; the
second comes after one of them was given up. -/
def twoPublications : List BusMove :=
  [.subscribe ⟨1⟩ [.mailboxCreated, .mailboxCreated] .async,
    .subscribe ⟨2⟩ [.mailboxCreated] .async,
    .publish (.mailboxCreated "ann" "box"), .tryNext, .tryNext, .endLoop, .reply, .take 0,
    .unsubscribe ⟨2⟩, .publish (.mailboxCreated "ann" "sent"), .tryNext, .endLoop, .reply]

example : (Window.after 0 twoPublications).covered = [0, 1] := by decide

example : (Window.after 1 twoPublications).covered = [0] := by decide

theorem placed_inOrder_twoPublications :
    ∃ bus, Steps (fun source move target => busStep .listed source move = some target) .new
        twoPublications bus ∧
      (bus.placedIn 0).Sublist [0, 1] ∧ (bus.placedIn 1).Sublist [0] := by
  obtain ⟨bus, hbus⟩ := Option.isSome_iff_exists.mp
    (show (twoPublications.foldlM (busStep .listed) .new).isSome from by decide +kernel)
  have hrun := Steps.of_foldlM hbus
  have hinOrder := (placed_inOrder .listed twoPublications bus hrun).2.1
  exact ⟨bus, hrun, (hinOrder 0).1, (hinOrder 1).1⟩

end Bus

end Scuttled
