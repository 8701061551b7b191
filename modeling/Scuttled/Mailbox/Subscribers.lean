import Scuttled.Mailbox.StateLoop

/-!
# The subscribers of a mailbox

A notification is sent to all subscribers with `try_send`, and those it fails for
are taken off the list.  It fails for a receiver that was dropped, and for one
that has not taken the last hundred notifications.
-/

namespace Scuttled

open Rust Foundation

/-- What is seen of the subscribers. -/
inductive SubscriptionEvent where
  | subscribed (queue : Nat)
  | notified (notification : MailboxNotification)
  | received (queue : Nat) (notification : MailboxNotification)
  deriving DecidableEq, Repr

namespace SubscriptionEvent

def notification? : SubscriptionEvent → Option MailboxNotification
  | .notified notification => some notification
  | _ => none

/-- The notification a receiver took from its queue. -/
def receivedFrom (queue : Nat) : SubscriptionEvent → Option MailboxNotification
  | .received other notification => if other = queue then some notification else none
  | _ => none

end SubscriptionEvent

/-- What a step shows of the subscribers. -/
def subscriptionEvents (state : InternalMailboxState) : MailboxInput → List SubscriptionEvent
  | .serve .subscribe => [.subscribed state.subscribe.1]
  | .serve (.notify notification) => [.notified notification]
  | .take queue => (state.take queue).1.toList.map (.received queue)
  | _ => []

/-- The notifications processed after a subscription. -/
def dueTo (queue : Nat) (history : List SubscriptionEvent) : List MailboxNotification :=
  (history.dropWhile (· != .subscribed queue)).filterMap SubscriptionEvent.notification?

/-- The notifications a receiver has taken. -/
def takenFrom (queue : Nat) (history : List SubscriptionEvent) : List MailboxNotification :=
  history.filterMap (SubscriptionEvent.receivedFrom queue)

section Append

variable {queue : Nat} {history : List SubscriptionEvent}

theorem takenFrom_append (queue : Nat) (first second : List SubscriptionEvent) :
    takenFrom queue (first ++ second) = takenFrom queue first ++ takenFrom queue second :=
  List.filterMap_append

theorem dueTo_append (hsubscribed : .subscribed queue ∈ history)
    (later : List SubscriptionEvent) :
    dueTo queue (history ++ later) =
      dueTo queue history ++ later.filterMap SubscriptionEvent.notification? := by
  have hfound : (history.dropWhile (· != .subscribed queue)).isEmpty = false := by
    cases hempty : (history.dropWhile (· != .subscribed queue)).isEmpty with
    | false => rfl
    | true =>
        have hnone := List.dropWhile_eq_nil_iff.mp (List.isEmpty_iff.mp hempty) _ hsubscribed
        rw [bne_self_eq_false] at hnone
        cases hnone
  rw [dueTo, List.dropWhile_append, hfound, if_neg Bool.false_ne_true, List.filterMap_append]
  rfl

theorem dueTo_subscribed (hfresh : .subscribed queue ∉ history) :
    dueTo queue (history ++ [.subscribed queue]) = [] := by
  have hnone : history.dropWhile (· != .subscribed queue) = [] := by
    rw [List.dropWhile_eq_nil_iff]
    intro event hevent
    rw [bne_iff_ne]
    rintro rfl
    exact hfresh hevent
  rw [dueTo, List.dropWhile_append, hnone]
  simp [SubscriptionEvent.notification?]

end Append

namespace InternalMailboxState

/-- Every subscriber whose receiver is alive is on the list, and what was placed in
its queue, taken or not, is what is due to it. -/
structure MissesNothing (history : List SubscriptionEvent) (state : InternalMailboxState) :
    Prop where
  placed : ∀ queue, .subscribed queue ∈ history → (state.queues queue).receiverAlive = true →
    takenFrom queue history ++ (state.queues queue).items = dueTo queue history
  kept : ∀ queue, .subscribed queue ∈ history → (state.queues queue).receiverAlive = true →
    queue ∈ state.subscribers

/-- A notification that is processed finds room in the queue of every subscriber
whose receiver is alive. -/
def RoomForAll (state : InternalMailboxState) : MailboxInput → Prop
  | .serve (.notify _) => ∀ queue ∈ state.subscribers,
      (state.queues queue).receiverAlive = true →
        (state.queues queue).items.length < notificationCapacity
  | _ => True

/-- The queues that were opened are those of the subscriptions, and nothing was
placed in any other. -/
structure Listed (history : List SubscriptionEvent) (state : InternalMailboxState) : Prop where
  law : MissesNothing history state
  opened : ∀ queue, .subscribed queue ∈ history ↔ queue < state.opened
  listed : ∀ queue ∈ state.subscribers, queue < state.opened
  unopened : ∀ queue, state.opened ≤ queue →
    (state.queues queue).items = [] ∧ takenFrom queue history = []

variable {history : List SubscriptionEvent} {state : InternalMailboxState}

theorem listed_new (username name : String) (uidValidity : UInt32) :
    Listed [] (new username name uidValidity) where
  law := ⟨fun _ hmem => (nomatch hmem), fun _ hmem => (nomatch hmem)⟩
  opened queue := ⟨fun hmem => (nomatch hmem), fun hlt => absurd hlt (Nat.not_lt_zero queue)⟩
  listed _ hmem := nomatch hmem
  unopened _ _ := ⟨rfl, rfl⟩

theorem Listed.idle (hlisted : Listed history state) {state' : InternalMailboxState}
    (hsubscribers : state'.subscribers = state.subscribers)
    (hqueues : state'.queues = state.queues) (hopened : state'.opened = state.opened) :
    Listed (history ++ []) state' := by
  rw [List.append_nil]
  constructor
  · constructor
    · rw [hqueues]
      exact hlisted.law.placed
    · rw [hqueues, hsubscribers]
      exact hlisted.law.kept
  · rw [hopened]
    exact hlisted.opened
  · rw [hsubscribers, hopened]
    exact hlisted.listed
  · rw [hqueues, hopened]
    exact hlisted.unopened

/-- A subscription opens an empty queue. -/
theorem Listed.subscribe (hlisted : Listed history state) :
    Listed (history ++ [.subscribed state.opened]) state.subscribe.2 := by
  have hfresh : .subscribed state.opened ∉ history :=
    fun hmem => Nat.lt_irrefl _ ((hlisted.opened _).mp hmem)
  have htaken (queue : Nat) :
      takenFrom queue (history ++ [.subscribed state.opened]) = takenFrom queue history := by
    rw [takenFrom_append]
    exact List.append_nil _
  have hknown (queue : Nat) (hmem : .subscribed queue ∈ history ++ [.subscribed state.opened]) :
      queue = state.opened ∨ queue ≠ state.opened ∧ .subscribed queue ∈ history := by
    rcases List.mem_append.mp hmem with hbefore | hnow
    · refine .inr ⟨?_, hbefore⟩
      rintro rfl
      exact hfresh hbefore
    · exact .inl (SubscriptionEvent.subscribed.inj (List.mem_singleton.mp hnow))
  constructor
  · constructor
    · intro queue hmem halive
      rw [htaken]
      simp only [InternalMailboxState.subscribe] at halive ⊢
      rcases hknown queue hmem with rfl | ⟨hne, hbefore⟩
      · rw [Function.update_self, dueTo_subscribed hfresh,
          (hlisted.unopened _ (Nat.le_refl _)).2]
        rfl
      · rw [Function.update_of_ne hne] at halive ⊢
        rw [dueTo_append hbefore, hlisted.law.placed queue hbefore halive]
        exact (List.append_nil _).symm
    · intro queue hmem halive
      simp only [InternalMailboxState.subscribe] at halive ⊢
      rcases hknown queue hmem with rfl | ⟨hne, hbefore⟩
      · exact List.mem_append_right _ List.mem_cons_self
      · rw [Function.update_of_ne hne] at halive
        exact List.mem_append_left _ (hlisted.law.kept queue hbefore halive)
  · intro queue
    simp only [List.mem_append, List.mem_singleton, SubscriptionEvent.subscribed.injEq,
      hlisted.opened, InternalMailboxState.subscribe]
    omega
  · intro queue hqueue
    simp only [InternalMailboxState.subscribe, List.mem_append, List.mem_singleton] at hqueue ⊢
    rcases hqueue with hbefore | rfl
    · exact Nat.lt_succ_of_lt (hlisted.listed queue hbefore)
    · exact Nat.lt_succ_self _
  · intro queue hqueue
    simp only [InternalMailboxState.subscribe] at hqueue ⊢
    rw [Function.update_of_ne (by omega), htaken]
    exact hlisted.unopened queue (Nat.le_of_succ_le hqueue)

/-- A receiver that takes a notification takes the oldest it was sent. -/
theorem Listed.take (hlisted : Listed history state) (queue : Nat) :
    Listed (history ++ (state.take queue).1.toList.map (.received queue)) (state.take queue).2 := by
  unfold InternalMailboxState.take
  cases hrecv : (state.queues queue).recv with
  | none => exact hlisted.idle rfl rfl rfl
  | some pair =>
      obtain ⟨notification, rest⟩ := pair
      have hitems := BoundedQueue.items_of_recv hrecv
      have halive' := BoundedQueue.receiverAlive_of_recv hrecv
      have hopened : queue < state.opened := by
        by_contra hge
        rw [(hlisted.unopened queue (Nat.le_of_not_lt hge)).1] at hitems
        cases hitems
      have hmem (other : Nat) : (.subscribed other ∈ history ++ [.received queue notification]) ↔
          .subscribed other ∈ history := by simp
      simp only [Option.toList_some, List.map_cons, List.map_nil]
      constructor
      · constructor
        · intro other hsubscribed halive
          dsimp only at halive ⊢
          rw [hmem] at hsubscribed
          rw [dueTo_append hsubscribed, takenFrom_append]
          by_cases hother : other = queue
          · subst hother
            rw [Function.update_self] at halive ⊢
            rw [halive'] at halive
            have hplaced := hlisted.law.placed other hsubscribed halive
            rw [hitems] at hplaced
            rw [← hplaced]
            simp [takenFrom, SubscriptionEvent.receivedFrom, SubscriptionEvent.notification?]
          · rw [Function.update_of_ne hother] at halive ⊢
            have hplaced := hlisted.law.placed other hsubscribed halive
            rw [← hplaced]
            simp [takenFrom, SubscriptionEvent.receivedFrom, SubscriptionEvent.notification?,
              Ne.symm hother]
        · intro other hsubscribed halive
          dsimp only at halive ⊢
          rw [hmem] at hsubscribed
          by_cases hother : other = queue
          · subst hother
            rw [Function.update_self, halive'] at halive
            exact hlisted.law.kept other hsubscribed halive
          · rw [Function.update_of_ne hother] at halive
            exact hlisted.law.kept other hsubscribed halive
      · intro other
        rw [hmem]
        exact hlisted.opened other
      · exact hlisted.listed
      · intro other hother
        have hne : other ≠ queue := by
          rintro rfl
          exact absurd hopened (Nat.not_lt.mpr hother)
        dsimp only at hother ⊢
        rw [Function.update_of_ne hne, takenFrom_append]
        obtain ⟨hitems, htaken⟩ := hlisted.unopened other hother
        refine ⟨hitems, ?_⟩
        rw [htaken]
        simp [takenFrom, SubscriptionEvent.receivedFrom, Ne.symm hne]

/-- A receiver that is dropped gets nothing any more. -/
theorem Listed.close (hlisted : Listed history state) (queue : Nat) :
    Listed (history ++ []) (state.close queue) := by
  have halive {other : Nat}
      (halive : ((state.close queue).queues other).receiverAlive = true) :
      other ≠ queue ∧ (state.queues other).receiverAlive = true := by
    by_cases hother : other = queue
    · subst hother
      simp only [InternalMailboxState.close, Function.update_self] at halive
      cases halive
    · simp only [InternalMailboxState.close, Function.update_of_ne hother] at halive
      exact ⟨hother, halive⟩
  rw [List.append_nil]
  constructor
  · constructor
    · intro other hsubscribed hlive
      obtain ⟨hother, hlive⟩ := halive hlive
      simp only [InternalMailboxState.close, Function.update_of_ne hother]
      exact hlisted.law.placed other hsubscribed hlive
    · intro other hsubscribed hlive
      exact hlisted.law.kept other hsubscribed (halive hlive).2
  · exact hlisted.opened
  · exact hlisted.listed
  · intro other hother
    obtain ⟨hitems, htaken⟩ := hlisted.unopened other hother
    refine ⟨?_, htaken⟩
    by_cases hqueue : other = queue
    · subst hqueue
      simp only [InternalMailboxState.close, Function.update_self]
      rfl
    · simp only [InternalMailboxState.close, Function.update_of_ne hqueue]
      exact hitems

/-- A notification that finds room is placed at the end of every live queue. -/
theorem Listed.notify (hlisted : Listed history state) (notification : MailboxNotification)
    (hroom : state.RoomForAll (.serve (.notify notification))) :
    Listed (history ++ [.notified notification]) (state.notify notification) := by
  have hmem (other : Nat) : (.subscribed other ∈ history ++ [.notified notification]) ↔
      .subscribed other ∈ history := by simp
  have htaken (other : Nat) : takenFrom other (history ++ [.notified notification]) =
      takenFrom other history := by
    rw [takenFrom_append]
    exact List.append_nil _
  have hlive {other : Nat}
      (halive : ((state.notify notification).queues other).receiverAlive = true) :
      (state.queues other).receiverAlive = true := by
    simp only [InternalMailboxState.notify] at halive
    split at halive
    · rwa [BoundedQueue.receiverAlive_trySend] at halive
    · exact halive
  have hsend {other : Nat} (hsubscribed : .subscribed other ∈ history)
      (halive : (state.queues other).receiverAlive = true) :
      other ∈ state.subscribers ∧ ((state.queues other).trySend notification).1 = .ok () ∧
        ((state.queues other).trySend notification).2.items =
          (state.queues other).items ++ [notification] := by
    have hlist := hlisted.law.kept other hsubscribed halive
    have hok : ((state.queues other).trySend notification).1 = .ok () :=
      BoundedQueue.trySend_eq_ok_iff.mpr ⟨halive, hroom other hlist halive⟩
    exact ⟨hlist, hok, (BoundedQueue.items_of_trySend (Prod.ext hok rfl)).1⟩
  constructor
  · constructor
    · intro other hsubscribed halive
      rw [hmem] at hsubscribed
      obtain ⟨hlist, -, hitems⟩ := hsend hsubscribed (hlive halive)
      rw [htaken, dueTo_append hsubscribed, ← hlisted.law.placed other hsubscribed (hlive halive)]
      simp only [InternalMailboxState.notify, if_pos hlist, hitems, List.append_assoc]
      rfl
    · intro other hsubscribed halive
      rw [hmem] at hsubscribed
      obtain ⟨hlist, hok, -⟩ := hsend hsubscribed (hlive halive)
      exact List.mem_filter.mpr ⟨hlist, by rw [hok]; rfl⟩
  · intro other
    rw [hmem]
    exact hlisted.opened other
  · exact fun other hother => hlisted.listed other (List.mem_filter.mp hother).1
  · intro other hother
    have hlist : other ∉ state.subscribers :=
      fun hlist => absurd (hlisted.listed other hlist) (Nat.not_lt.mpr hother)
    rw [htaken]
    simp only [InternalMailboxState.notify, if_neg hlist]
    exact hlisted.unopened other hother

/-- Every step that finds room keeps the subscribers up to date. -/
theorem Listed.step (hlisted : Listed history state) {input : MailboxInput}
    (hroom : state.RoomForAll input) :
    Listed (history ++ subscriptionEvents state input) (mailboxStateLoop.step state input).1 := by
  cases input with
  | take queue => exact hlisted.take queue
  | close queue => exact hlisted.close queue
  | serve command =>
      cases command with
      | subscribe => exact hlisted.subscribe
      | notify notification => exact hlisted.notify notification hroom
      | getPath uid => exact hlisted.idle rfl rfl rfl
      | getUid path => exact hlisted.idle rfl rfl rfl
      | getState => exact hlisted.idle rfl rfl rfl
      | assignUid path =>
          obtain ⟨uid, -, hrefused⟩ | ⟨-, hassigned⟩ := state.assignUid_cases path
          · simp only [mailboxStateLoop, mailboxStep, hrefused]
            exact hlisted.idle rfl rfl rfl
          · simp only [mailboxStateLoop, mailboxStep, hassigned]
            exact hlisted.idle rfl rfl rfl
      | removeMessage uid =>
          obtain ⟨-, hrefused⟩ | ⟨path, -, hdone⟩ := state.removeMessage_cases uid
          · simp only [mailboxStateLoop, mailboxStep, hrefused]
            exact hlisted.idle rfl rfl rfl
          · simp only [mailboxStateLoop, mailboxStep, hdone]
            exact hlisted.idle rfl rfl rfl
      | updatePath uid newPath =>
          obtain ⟨-, hrefused⟩ | ⟨path, -, hdone⟩ := state.updatePath_cases uid newPath
          · simp only [mailboxStateLoop, mailboxStep, hrefused]
            exact hlisted.idle rfl rfl rfl
          · simp only [mailboxStateLoop, mailboxStep, hdone]
            exact hlisted.idle rfl rfl rfl

theorem Listed.roomForAll (hlisted : Listed history state) {input : MailboxInput}
    (hnext : MissesNothing (history ++ subscriptionEvents state input)
      (mailboxStateLoop.step state input).1) : state.RoomForAll input := by
  unfold RoomForAll
  split
  · rename_i notification
    intro queue hqueue halive
    have hsubscribed : .subscribed queue ∈ history ++ [.notified notification] :=
      List.mem_append_left _ ((hlisted.opened queue).mpr (hlisted.listed queue hqueue))
    have hstays : ((state.notify notification).queues queue).receiverAlive = true := by
      simp only [InternalMailboxState.notify, if_pos hqueue, BoundedQueue.receiverAlive_trySend]
      exact halive
    have hkept : queue ∈ (state.notify notification).subscribers :=
      hnext.kept queue hsubscribed hstays
    have hsent := (List.mem_filter.mp hkept).2
    cases htry : ((state.queues queue).trySend notification).1 with
    | ok sent => exact (BoundedQueue.trySend_eq_ok_iff.mp htry).2
    | error failure =>
        rw [htry] at hsent
        cases hsent
  · trivial

/--
Subscribers miss nothing, all along a run of the loop, exactly if every
notification finds room in the queue of every subscriber whose receiver is alive:
then each live subscriber is on the list, and has been sent, once and in order,
what was notified after it subscribed.
-/
theorem missesNothing_iff (username name : String) (uidValidity : UInt32)
    (inputs : List MailboxInput) :
    (∀ done rest, inputs = done ++ rest →
        MissesNothing
          (mailboxStateLoop.observed subscriptionEvents (new username name uidValidity) done)
          (mailboxStateLoop.final (new username name uidValidity) done)) ↔
      ∀ done input rest, inputs = done ++ input :: rest →
        (mailboxStateLoop.final (new username name uidValidity) done).RoomForAll input := by
  have hlaw (history : List SubscriptionEvent) (state : InternalMailboxState)
      (hlisted : Listed history state) : MissesNothing history state := hlisted.law
  have hnecessary (history : List SubscriptionEvent) (state : InternalMailboxState)
      (input : MailboxInput) (hlisted : Listed history state)
      (hnext : MissesNothing (history ++ subscriptionEvents state input)
        (mailboxStateLoop.step state input).1) : state.RoomForAll input :=
    hlisted.roomForAll hnext
  have hsufficient (history : List SubscriptionEvent) (state : InternalMailboxState)
      (input : MailboxInput) (hlisted : Listed history state) (hroom : state.RoomForAll input) :
      Listed (history ++ subscriptionEvents state input) (mailboxStateLoop.step state input).1 :=
    hlisted.step hroom
  exact Machine.observed_always_iff_of_guard hlaw hnecessary hsufficient
    (listed_new username name uidValidity) inputs

/-- A subscription, and so many notifications after it. -/
def unread (count : Nat) : List MailboxInput :=
  .serve .subscribe :: List.replicate count (.serve (.notify (.messageAdded 1)))

theorem final_unread_succ (count : Nat) :
    mailboxStateLoop.final (new "ann" "box" 1) (unread (count + 1)) =
      (mailboxStateLoop.final (new "ann" "box" 1) (unread count)).notify (.messageAdded 1) := by
  rw [unread, List.replicate_succ', ← List.cons_append, ← unread, Machine.final_append]
  rfl

theorem unread_waiting {count : Nat} (hcount : count ≤ notificationCapacity) :
    (mailboxStateLoop.final (new "ann" "box" 1) (unread count)).subscribers = [0] ∧
      ((mailboxStateLoop.final (new "ann" "box" 1) (unread count)).queues 0).receiverAlive = true ∧
      ((mailboxStateLoop.final (new "ann" "box" 1) (unread count)).queues 0).items.length =
        count := by
  induction count with
  | zero => exact ⟨rfl, rfl, rfl⟩
  | succ count ih =>
      obtain ⟨hsubscribers, halive, hlength⟩ := ih (Nat.le_of_succ_le hcount)
      rw [final_unread_succ]
      generalize mailboxStateLoop.final (new "ann" "box" 1) (unread count) = state at *
      have hok : ((state.queues 0).trySend (.messageAdded 1)).1 = .ok () :=
        BoundedQueue.trySend_eq_ok_iff.mpr ⟨halive, hlength ▸ hcount⟩
      obtain ⟨hitems, -⟩ := BoundedQueue.items_of_trySend (Prod.ext hok rfl)
      simp only [InternalMailboxState.notify, hsubscribers, List.mem_singleton, if_true,
        BoundedQueue.receiverAlive_trySend, halive, hitems, List.length_append, hlength]
      exact ⟨by simp [hok, Except.isOk, Except.toBool], trivial, rfl⟩

/-- A subscriber that takes nothing while one notification more than its queue holds
is processed is taken off the list. -/
theorem slow_subscriber_removed :
    ¬ MissesNothing
      (mailboxStateLoop.observed subscriptionEvents (new "ann" "box" 1)
        (unread (notificationCapacity + 1)))
      (mailboxStateLoop.final (new "ann" "box" 1) (unread (notificationCapacity + 1))) := by
  intro hlaw
  have hsubscribed : .subscribed 0 ∈ mailboxStateLoop.observed subscriptionEvents
      (new "ann" "box" 1) (unread (notificationCapacity + 1)) := by
    rw [unread, Machine.observed]
    exact List.mem_append_left _ List.mem_cons_self
  have hkept := hlaw.kept 0 hsubscribed
  obtain ⟨hsubscribers, halive, hlength⟩ := unread_waiting (Nat.le_refl notificationCapacity)
  rw [final_unread_succ] at hkept
  generalize mailboxStateLoop.final (new "ann" "box" 1) (unread notificationCapacity) = state at *
  have hstays : ((state.notify (.messageAdded 1)).queues 0).receiverAlive = true := by
    simp only [InternalMailboxState.notify, hsubscribers, List.mem_singleton, if_true,
      BoundedQueue.receiverAlive_trySend]
    exact halive
  have hsent := (List.mem_filter.mp (hkept hstays)).2
  cases htry : ((state.queues 0).trySend (.messageAdded 1)).1 with
  | ok sent =>
      have hroom := (BoundedQueue.trySend_eq_ok_iff.mp htry).2
      exact absurd hlength (Nat.ne_of_lt hroom)
  | error failure =>
      rw [htry] at hsent
      cases hsent

end InternalMailboxState

end Scuttled
