import Scuttled.Events.Bus

/-!
# The counts of `publish_sync`

The loop counts an acknowledgement before it sends the delivery and a delivery
after it was sent.  When the acknowledgements are in, one count is taken from the
other.  What decides which is greater is what the loop meets at the queues it comes
to.
-/

namespace Scuttled

open Rust Foundation

/-- The channel is open and has room, so that `try_send` places what it is given. -/
def Rust.BoundedQueue.ready {α : Type} {capacity : Nat} (queue : BoundedQueue α capacity) : Bool :=
  queue.receiverAlive && decide (queue.items.length < capacity)

theorem Rust.BoundedQueue.isOk_trySend {α : Type} {capacity : Nat}
    (queue : BoundedQueue α capacity) (item : α) :
    queue.ready = true ↔ (queue.trySend item).1 = .ok () := by
  rw [trySend_eq_ok_iff, ready, Bool.and_eq_true, decide_eq_true_eq]

/-- What the loop meets at a subscriber that is interested in the event. -/
structure Meeting where
  subscriptionType : SubscriptionType
  ready : Bool
  deriving DecidableEq, Repr

/-- A synchronous subscriber whose queue is full or closed. -/
def Meeting.refuses (meeting : Meeting) : Bool :=
  meeting.subscriptionType == .sync && !meeting.ready

/-- An asynchronous subscriber whose queue is open and has room. -/
def Meeting.accepts (meeting : Meeting) : Bool :=
  meeting.subscriptionType == .async && meeting.ready

namespace Bus

/-- The subscriber the loop comes to with its next iteration. -/
def meeting (bus : Bus) : BusMove → Option Meeting
  | .tryNext =>
      match bus.phase with
      | .publishing _ event (⟨_, subscriber⟩ :: _) _ _ =>
          if event.kind ∈ subscriber.kinds then
            some ⟨subscriber.subscriptionType, (bus.queues subscriber.sender).ready⟩
          else none
      | _ => none
  | _ => none

/-- A move of the bus, and whom the loop meets with it. -/
def meets (order : HashOrder SubscriptionId Subscriber) (source : Bus)
    (label : BusMove × Option Meeting) (target : Bus) : Prop :=
  busStep order source label.1 = some target ∧ label.2 = source.meeting label.1

/-- The subscribers the loop has met. -/
def meetings (labels : List (BusMove × Option Meeting)) : List Meeting :=
  labels.filterMap Prod.snd

/-- What was placed and what was collected differ by what was met. -/
structure Balanced (met : List Meeting) (delivered collected : Nat) : Prop where
  balance : delivered + met.countP Meeting.refuses = collected + met.countP Meeting.accepts

theorem balanced_nil : Balanced [] 0 0 where
  balance := rfl

theorem Balanced.concat {met : List Meeting} {delivered collected : Nat}
    (hbalanced : Balanced met delivered collected) (meeting : Meeting) :
    Balanced (met ++ [meeting]) (delivered + if meeting.ready then 1 else 0)
      (collected + if meeting.subscriptionType = .sync then 1 else 0) := by
  have hbalance := hbalanced.balance
  obtain ⟨_ | _, _ | _⟩ := meeting <;>
    exact ⟨by simp [List.countP_append, Meeting.refuses, Meeting.accepts]; omega⟩

variable {bus bus' : Bus} {event : Event} {subscriber : Subscriber}

/-- What one iteration does to the counts: the acknowledgement of a synchronous
subscriber is collected whether or not the delivery is placed. -/
theorem phase_offer_sync (bus : Bus) (id : SubscriptionId)
    (remaining : List (Sigma fun _ : SubscriptionId => Subscriber)) (delivered : Nat)
    (ackReceivers : List Nat) (hkind : event.kind ∈ subscriber.kinds) :
    ∃ collected,
      (bus.offer true event id subscriber remaining delivered ackReceivers).phase =
        .publishing true event remaining
          (delivered + if (bus.queues subscriber.sender).ready then 1 else 0)
          (ackReceivers ++ collected) ∧
      collected.length = if subscriber.subscriptionType = .sync then 1 else 0 := by
  have hsent (delivery : EventDelivery) :=
    (bus.queues subscriber.sender).isOk_trySend delivery
  unfold offer
  rw [if_pos hkind]
  cases htype : subscriber.subscriptionType with
  | sync =>
      refine ⟨[bus.asked], ?_, rfl⟩
      have hready := hsent (.sync event bus.asked)
      cases hsend : (bus.queues subscriber.sender).trySend (.sync event bus.asked) with
      | mk result queue =>
          rw [hsend] at hready
          cases result with
          | ok sent => simp [hsend, hready.mpr rfl]
          | error failure => simp [hsend, mt hready.mp nofun]
  | async =>
      refine ⟨[], ?_, rfl⟩
      have hready := hsent (.async event)
      cases hsend : (bus.queues subscriber.sender).trySend (.async event) with
      | mk result queue =>
          rw [hsend] at hready
          cases result with
          | ok sent => simp [hsend, hready.mpr rfl]
          | error failure => simp [hsend, mt hready.mp nofun]

/-- While an event is published synchronously the counts are balanced. -/
def Counted (met : List Meeting) (bus : Bus) : Prop :=
  match bus.phase with
  | .receiving => False
  | .publishing sync _ _ delivered ackReceivers =>
      sync = true ∧ Balanced met delivered ackReceivers.length
  | .awaiting _ delivered syncCount _ => Balanced met delivered syncCount

theorem counted_publish (order : HashOrder SubscriptionId Subscriber) (event : Event) (bus : Bus) :
    Counted (meetings []) (bus.publish order true event) :=
  ⟨rfl, balanced_nil⟩

theorem Counted.idle {met : List Meeting} (hcounted : Counted met bus)
    (hphase : bus'.phase = bus.phase) : Counted met bus' := by
  unfold Counted
  rw [hphase]
  exact hcounted

/-- Until the reply is sent every move keeps the counts balanced. -/
theorem Counted.step {order : HashOrder SubscriptionId Subscriber}
    {labels : List (BusMove × Option Meeting)} {label : BusMove × Option Meeting}
    (hcounted : Counted (meetings labels) bus) (hreply : label.1 ≠ .reply)
    (hmeets : meets order bus label bus') : Counted (meetings (labels ++ [label])) bus' := by
  obtain ⟨move, met⟩ := label
  obtain ⟨hstep, hmet⟩ := hmeets
  dsimp only at hstep hmet hreply
  subst hmet
  have hmeetings : meetings (labels ++ [(move, bus.meeting move)]) =
      meetings labels ++ (bus.meeting move).toList := by
    rw [meetings, List.filterMap_append]
    cases bus.meeting move <;> simp [meetings]
  rw [hmeetings]
  have hquiet (hmove : bus.meeting move = none) (hphase : bus'.phase = bus.phase) :
      Counted (meetings labels ++ (bus.meeting move).toList) bus' := by
    rw [hmove, Option.toList_none, List.append_nil]
    exact hcounted.idle hphase
  have hmoves := moves_of_busStep hstep
  cases hmoves with
  | subscribe hphase | unsubscribe hphase | publish hphase | publishSync hphase =>
      unfold Counted at hcounted
      rw [hphase] at hcounted
      exact hcounted.elim
  | @tryNext sync event id subscriber remaining delivered ackReceivers _ hphase hoffered =>
      simp only [busStep, hphase, Option.some.injEq] at hstep
      unfold Counted at hcounted
      rw [hphase] at hcounted
      obtain ⟨rfl, hbalanced⟩ := hcounted
      rw [meeting, hphase]
      dsimp only
      split
      · rename_i hkind
        obtain ⟨collected, hnext, hlength⟩ :=
          phase_offer_sync bus id remaining delivered ackReceivers hkind
        unfold Counted
        rw [← hstep, hnext]
        refine ⟨rfl, ?_⟩
        rw [List.length_append, hlength]
        exact hbalanced.concat ⟨subscriber.subscriptionType, _⟩
      · rename_i hkind
        unfold Counted
        rw [← hstep, offer, if_neg hkind, Option.toList_none, List.append_nil]
        exact ⟨rfl, hbalanced⟩
  | endLoop hphase =>
      have hmove : bus.meeting .endLoop = none := rfl
      unfold Counted at hcounted
      rw [hphase] at hcounted
      rw [hmove, Option.toList_none, List.append_nil]
      exact hcounted.2
  | ackResolved hphase =>
      have hmove : bus.meeting .ackResolved = none := rfl
      unfold Counted at hcounted
      rw [hphase] at hcounted
      rw [hmove, Option.toList_none, List.append_nil]
      exact hcounted
  | reply => exact absurd rfl hreply
  | take | acknowledge | abandon | close => exact hquiet rfl rfl

/-- The counts are balanced as long as the reply has not been sent. -/
def CountedUntilReply (labels : List (BusMove × Option Meeting)) (bus : Bus) : Prop :=
  (∀ label ∈ labels, label.1 ≠ .reply) → Counted (meetings labels) bus

/--
The subtraction in the debug message of `publish_sync`.  From every state of the
bus and its queues, whatever subscribers do meanwhile: when the acknowledgements are
in, the deliveries are at least as many as the acknowledgements exactly if the
asynchronous subscribers the loop met with an open queue that had room are at least
as many as the synchronous ones it met with a full or closed queue.
-/
theorem syncCount_le_delivered_iff (order : HashOrder SubscriptionId Subscriber) (bus last : Bus)
    (event : Event) (labels : List (BusMove × Option Meeting))
    (hrun : Steps (meets order) (bus.publish order true event) labels last)
    (hreply : ∀ label ∈ labels, label.1 ≠ .reply) (delivered syncCount : Nat)
    (hphase : last.phase = .awaiting event delivered syncCount []) :
    syncCount ≤ delivered ↔
      (meetings labels).countP Meeting.refuses ≤ (meetings labels).countP Meeting.accepts := by
  have hcounted : CountedUntilReply labels last := by
    have hfirst : CountedUntilReply [] (bus.publish order true event) :=
      fun _ => counted_publish order event bus
    refine hrun.history_invariant ?_ hfirst
    intro before source label target hsource hmeets hreply
    have hearlier := hsource fun earlier hearlier =>
      hreply earlier (List.mem_append_left _ hearlier)
    exact hearlier.step (hreply label (List.mem_append_right _ List.mem_cons_self)) hmeets
  have hbalanced := hcounted hreply
  unfold Counted at hbalanced
  rw [hphase] at hbalanced
  have hbalance := hbalanced.balance
  omega

/-- The counts when the acknowledgements are in. -/
def counts (bus : Bus) : Option (Event × Nat × Nat) :=
  match bus.phase with
  | .awaiting event delivered syncCount [] => some (event, delivered, syncCount)
  | _ => none

theorem phase_of_counts {delivered syncCount : Nat}
    (hcounts : bus.counts = some (event, delivered, syncCount)) :
    bus.phase = .awaiting event delivered syncCount [] := by
  unfold counts at hcounts
  split at hcounts
  · rename_i hphase
    cases hcounts
    exact hphase
  · cases hcounts

theorem steps_meets_of_foldlM {order : HashOrder SubscriptionId Subscriber}
    {labels : List (BusMove × Option Meeting)}
    (hrun : labels.foldlM (fun source label =>
      if label.2 = source.meeting label.1 then busStep order source label.1 else none) bus =
        some bus') :
    Steps (meets order) bus labels bus' := by
  refine (Steps.guarded_of_foldlM hrun).mono fun source label target hmove => ?_
  exact ⟨hmove.2, hmove.1⟩

/-- An asynchronous subscriber, and a synchronous one that has dropped its receiver. -/
def oneOfEach : List BusMove :=
  [.subscribe ⟨1⟩ [.mailboxCreated] .async, .subscribe ⟨2⟩ [.mailboxCreated] .sync, .close 1]

/-- The law for a loop that meets one subscriber of each type. -/
theorem syncCount_le_delivered_iff_each :
    ∃ bus labels last, oneOfEach.foldlM (busStep .listed) .new = some bus ∧
      Steps (meets .listed) (bus.publish .listed true (.mailboxCreated "ann" "box")) labels last ∧
      ((1 : Nat) ≤ 1 ↔
        (meetings labels).countP Meeting.refuses ≤ (meetings labels).countP Meeting.accepts) := by
  let labels : List (BusMove × Option Meeting) :=
    [(.tryNext, some ⟨.sync, false⟩), (.tryNext, some ⟨.async, true⟩), (.endLoop, none),
      (.ackResolved, none)]
  have hcounts : ((oneOfEach.foldlM (busStep .listed) .new).bind fun bus =>
      (labels.foldlM (fun source label =>
        if label.2 = source.meeting label.1 then busStep .listed source label.1 else none)
          (bus.publish .listed true (.mailboxCreated "ann" "box"))).map counts) =
      some (some (.mailboxCreated "ann" "box", 1, 1)) := by
    decide +kernel
  obtain ⟨bus, hbus, hcounts⟩ := Option.bind_eq_some_iff.mp hcounts
  obtain ⟨last, hlast, hcounts⟩ := Option.map_eq_some_iff.mp hcounts
  have hrun := steps_meets_of_foldlM hlast
  exact ⟨bus, labels, last, hbus, hrun, syncCount_le_delivered_iff .listed bus last _ labels hrun
    (by decide) 1 1 (phase_of_counts hcounts)⟩

/-- With one synchronous subscriber, whose receiver was dropped without
unsubscribing, there is an acknowledgement and no delivery. -/
theorem syncCount_exceeds_delivered :
    ∃ (moves : List BusMove) (bus : Bus) (labels : List (BusMove × Option Meeting)) (last : Bus)
        (event : Event) (delivered syncCount : Nat),
      moves.foldlM (busStep .listed) .new = some bus ∧
      Steps (meets .listed) (bus.publish .listed true event) labels last ∧
      last.phase = .awaiting event delivered syncCount [] ∧ ¬ syncCount ≤ delivered := by
  let moves : List BusMove := [.subscribe ⟨1⟩ [.mailboxCreated] .sync, .close 0]
  let labels : List (BusMove × Option Meeting) :=
    [(.tryNext, some ⟨.sync, false⟩), (.endLoop, none), (.ackResolved, none)]
  have hcounts : ((moves.foldlM (busStep .listed) .new).bind fun bus =>
      (labels.foldlM (fun source label =>
        if label.2 = source.meeting label.1 then busStep .listed source label.1 else none)
          (bus.publish .listed true (.mailboxCreated "ann" "box"))).map counts) =
      some (some (.mailboxCreated "ann" "box", 0, 1)) := by
    decide +kernel
  obtain ⟨bus, hbus, hcounts⟩ := Option.bind_eq_some_iff.mp hcounts
  obtain ⟨last, hlast, hcounts⟩ := Option.map_eq_some_iff.mp hcounts
  exact ⟨moves, bus, labels, last, _, 0, 1, hbus, steps_meets_of_foldlM hlast,
    phase_of_counts hcounts, by decide⟩

end Bus

end Scuttled
