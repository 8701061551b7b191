import Scuttled.Events.Tasks

/-!
# Calls that wait for nothing of their own

A task that waits for a reply acknowledges nothing.  It may call the bus as long
as it owes no acknowledgement and will not be asked for one before its call is
answered; what lies ahead of the call in the channel says whether it will.
-/

namespace Scuttled

open Rust Foundation

namespace BusTasks

/-! ## What a caller may be asked -/

/-- The room an event takes in the queue of a subscription for these kinds. -/
def roomFor (event : Event) (kinds : List EventKind) : Nat := if event.kind ∈ kinds then 1 else 0

/-- A synchronous publication for these kinds comes before the subscription is
given up, and finds room in its queue; each publication takes some of the room. -/
def asksAhead (id : SubscriptionId) (kinds : List EventKind) : Nat → List BusCommand → Bool
  | _, [] => false
  | room, .publish event :: rest => asksAhead id kinds (room - roomFor event kinds) rest
  | room, .publishSync event :: rest =>
      if event.kind ∈ kinds then decide (0 < room) else asksAhead id kinds room rest
  | room, .subscribe _ _ :: rest => asksAhead id kinds room rest
  | room, .unsubscribe other :: rest =>
      if other = id then false else asksAhead id kinds room rest

/-- The room that is left in the queue of a subscription, once the publication
the loop is at has come to it. -/
def room (tasks : BusTasks) (entry : Sigma fun _ : SubscriptionId => Subscriber) : Nat :=
  let free := subscriberCapacity - (tasks.bus.queues entry.2.sender).items.length
  match tasks.bus.phase with
  | .publishing _ event remaining _ _ =>
      if entry ∈ remaining then free - roomFor event entry.2.kinds else free
  | _ => free

/-- The task has no synchronous delivery to finish. -/
def Unburdened (tasks : BusTasks) (task : Nat) : Prop :=
  (∀ handled ∈ tasks.handling, handled.1 = task → handled.2.ack? = none) ∧
    ∀ queue < tasks.bus.opened, tasks.owner queue = some task →
      (tasks.bus.queues queue).items.filterMap EventDelivery.ack? = []

/-- The publication the loop is at will not ask the task for an acknowledgement. -/
def Passed (tasks : BusTasks) (task : Nat) : Prop :=
  match tasks.bus.phase with
  | .publishing true event remaining _ _ =>
      ∀ entry ∈ remaining, entry.2.subscriptionType = .sync → event.kind ∈ entry.2.kinds →
        tasks.owner entry.2.sender = some task →
          (tasks.bus.queues entry.2.sender).items.length = subscriberCapacity
  | _ => True

/-- Nor will any of these commands. -/
def NotAsked (tasks : BusTasks) (task : Nat) (commands : List BusCommand) : Prop :=
  ∀ entry ∈ tasks.bus.subscribers.entries, entry.2.subscriptionType = .sync →
    tasks.owner entry.2.sender = some task →
      asksAhead entry.1 entry.2.kinds (tasks.room entry) commands = false

/-- A task calls the bus while it has nothing to acknowledge, and will have
nothing to acknowledge before its call is answered. -/
def CallsFree (tasks : BusTasks) : TaskMove → Prop
  | .call task command =>
      tasks.Unburdened task ∧ tasks.Passed task ∧
        tasks.NotAsked task (tasks.commands.map Prod.snd ++ [command])
  | _ => True

instance (tasks : BusTasks) (task : Nat) : Decidable (tasks.Unburdened task) :=
  inferInstanceAs (Decidable (_ ∧ _))

instance (tasks : BusTasks) (task : Nat) : Decidable (tasks.Passed task) := by
  unfold Passed
  split <;> infer_instance

instance (tasks : BusTasks) (task : Nat) (commands : List BusCommand) :
    Decidable (tasks.NotAsked task commands) :=
  inferInstanceAs (Decidable (∀ entry ∈ tasks.bus.subscribers.entries, _))

instance (tasks : BusTasks) (move : TaskMove) : Decidable (tasks.CallsFree move) := by
  unfold CallsFree
  split <;> infer_instance

/-! ## Free callers -/

/-- No task that waits for a reply owes an acknowledgement, or will be asked for
one before its turn. -/
structure Free (tasks : BusTasks) : Prop where
  unburdened : ∀ task ∈ tasks.callers, tasks.Unburdened task
  passed : ∀ task ∈ tasks.callers, tasks.Passed task
  notAsked : ∀ front task command back, tasks.commands = front ++ (task, command) :: back →
    tasks.NotAsked task (front.map Prod.snd ++ [command])

theorem free_new : Free .new where
  unburdened := nofun
  passed := nofun
  notAsked := by
    intro front task command back hcommands
    exact absurd hcommands.symm (List.append_ne_nil_of_right_ne_nil _ (List.cons_ne_nil _ _))

variable {tasks : BusTasks}

/-! ## Every step keeps the callers free -/

theorem Unburdened.mono {tasks' : BusTasks} {task : Nat} (hunburdened : tasks.Unburdened task)
    (hhandling : ∀ handled ∈ tasks'.handling, handled.1 = task → handled ∈ tasks.handling)
    (hqueues : ∀ queue < tasks'.bus.opened, tasks'.owner queue = some task →
      queue < tasks.bus.opened ∧ tasks.owner queue = some task ∧
        ∀ ack ∈ (tasks'.bus.queues queue).items.filterMap EventDelivery.ack?,
          ack ∈ (tasks.bus.queues queue).items.filterMap EventDelivery.ack?) :
    tasks'.Unburdened task := by
  refine ⟨fun handled hmem htask => ?_, fun queue hqueue howner => ?_⟩
  · exact hunburdened.1 handled (hhandling handled hmem htask) htask
  · obtain ⟨hopened, hbefore, hacks⟩ := hqueues queue hqueue howner
    rw [hunburdened.2 queue hopened hbefore] at hacks
    exact List.eq_nil_iff_forall_not_mem.mpr fun ack hack => List.not_mem_nil (hacks ack hack)

theorem passed_of_phase {task : Nat}
    (hphase : ∀ event remaining delivered ackReceivers,
      tasks.bus.phase ≠ .publishing true event remaining delivered ackReceivers) :
    tasks.Passed task := by
  unfold Passed
  split
  · rename_i hpublishing
    exact absurd hpublishing (hphase _ _ _ _)
  · trivial

theorem asksAhead_zero (id : SubscriptionId) (kinds : List EventKind) (commands : List BusCommand) :
    asksAhead id kinds 0 commands = false := by
  induction commands with
  | nil => rfl
  | cons command rest ih =>
      cases command with
      | publish => simpa [asksAhead] using ih
      | publishSync => simpa [asksAhead] using fun _ => ih
      | subscribe => exact ih
      | unsubscribe => simpa [asksAhead] using fun _ => ih

theorem asksAhead_of_le {id : SubscriptionId} {kinds : List EventKind}
    {commands : List BusCommand} {room room' : Nat} (hle : room' ≤ room)
    (hasks : asksAhead id kinds room commands = false) :
    asksAhead id kinds room' commands = false := by
  induction commands generalizing room room' with
  | nil => rfl
  | cons command rest ih =>
      cases command with
      | publish event => exact ih (Nat.sub_le_sub_right hle _) hasks
      | publishSync event =>
          simp only [asksAhead] at hasks ⊢
          split at hasks
          · rw [if_pos ‹_›]
            rw [decide_eq_false_iff_not] at hasks ⊢
            omega
          · rw [if_neg ‹_›]
            exact ih hle hasks
      | subscribe => exact ih hle hasks
      | unsubscribe other =>
          simp only [asksAhead] at hasks ⊢
          split at hasks
          · rw [if_pos ‹_›]
          · rw [if_neg ‹_›]
            exact ih hle hasks

/-- The room a command takes in the queue of a subscription for these kinds. -/
def roomTaken (kinds : List EventKind) : BusCommand → Nat
  | .publish event | .publishSync event => roomFor event kinds
  | .subscribe _ _ | .unsubscribe _ => 0

theorem asksAhead_of_cons {id : SubscriptionId} {kinds : List EventKind} {room : Nat}
    {command : BusCommand} {commands : List BusCommand}
    (hasks : asksAhead id kinds room (command :: commands) = false)
    (hcommand : command ≠ .unsubscribe id) :
    asksAhead id kinds (room - roomTaken kinds command) commands = false := by
  cases command with
  | publish | subscribe => exact hasks
  | publishSync event =>
      simp only [asksAhead, roomTaken, roomFor] at hasks ⊢
      split at hasks
      · rename_i hkind
        have hnone : room = 0 := Nat.eq_zero_of_not_pos (of_decide_eq_false hasks)
        rw [hnone, Nat.zero_sub]
        exact asksAhead_zero id kinds commands
      · rw [if_neg ‹_›]
        exact hasks
  | unsubscribe other =>
      have hother : other ≠ id := by
        rintro rfl
        exact hcommand rfl
      rwa [asksAhead, if_neg hother] at hasks

theorem room_of_receiving (hphase : tasks.bus.phase = .receiving)
    (entry : Sigma fun _ : SubscriptionId => Subscriber) : tasks.room entry =
      subscriberCapacity - (tasks.bus.queues entry.2.sender).items.length := by
  simp only [room, hphase]

theorem room_le (entry : Sigma fun _ : SubscriptionId => Subscriber) : tasks.room entry ≤
    subscriberCapacity - (tasks.bus.queues entry.2.sender).items.length := by
  unfold room
  split
  · split
    · exact Nat.sub_le _ _
    · exact Nat.le_refl _
  · exact Nat.le_refl _

theorem Free.notAsked_of_process (hfree : tasks.Free) {tasks' : BusTasks}
    {head : Nat × BusCommand} (hcommands : tasks.commands = head :: tasks'.commands)
    (hentries : ∀ entry ∈ tasks'.bus.subscribers.entries, ∀ task ∈ tasks'.commands.map Prod.fst,
      tasks'.owner entry.2.sender = some task →
        entry ∈ tasks.bus.subscribers.entries ∧ tasks.owner entry.2.sender = some task ∧
          head.2 ≠ .unsubscribe entry.1 ∧
          tasks'.room entry ≤ tasks.room entry - roomTaken entry.2.kinds head.2)
    (front : List (Nat × BusCommand)) (task : Nat) (command : BusCommand)
    (back : List (Nat × BusCommand)) (hsplit : tasks'.commands = front ++ (task, command) :: back) :
    tasks'.NotAsked task (front.map Prod.snd ++ [command]) := by
  intro entry hentry htype howner
  have htask : task ∈ tasks'.commands.map Prod.fst := by
    rw [hsplit, List.map_append, List.map_cons]
    exact List.mem_append_right _ List.mem_cons_self
  obtain ⟨hbefore, hownerBefore, hhead, hroom⟩ := hentries entry hentry task htask howner
  have hsplitBefore : tasks.commands = (head :: front) ++ (task, command) :: back := by
    rw [hcommands, hsplit, List.cons_append]
  have hasks := hfree.notAsked (head :: front) task command back hsplitBefore entry hbefore htype
    hownerBefore
  exact asksAhead_of_le hroom (asksAhead_of_cons hasks hhead)

/-- The loop goes on with what it is at: no subscription and no command is
touched, and queues have no more room than they were going to have. -/
theorem Free.loop (hfree : tasks.Free) (hsound : tasks.Sound) {bus : Bus} {caller : Option Nat}
    (hsubscribers : bus.subscribers = tasks.bus.subscribers)
    (hcaller : ∀ task ∈ caller, tasks.caller = some task)
    (hcallers : ∀ task ∈ tasks.callers,
      Unburdened { tasks with bus } task ∧ Passed { tasks with bus } task)
    (hroom : ∀ entry : Sigma fun _ : SubscriptionId => Subscriber,
      (tasks.bus.queues entry.2.sender).receiverAlive = true →
        room { tasks with bus } entry ≤ tasks.room entry) :
    Free { tasks with bus, caller } := by
  have hbefore (task : Nat) (htask : task ∈ BusTasks.callers { tasks with bus, caller }) :
      task ∈ tasks.callers := by
    rcases List.mem_append.mp htask with hpublishing | hwaiting
    · refine List.mem_append_left _ ?_
      rw [hcaller task (Option.mem_toList.mp hpublishing)]
      exact List.mem_singleton_self _
    · exact List.mem_append_right _ hwaiting
  refine ⟨fun task htask => (hcallers task (hbefore task htask)).1,
    fun task htask => (hcallers task (hbefore task htask)).2,
    fun front task command back hcommands entry hentry htype howner => ?_⟩
  rw [hsubscribers] at hentry
  have hopened := hsound.accounted.registered entry.1 entry.2 (HashMap.lookup_eq_some_iff.mpr hentry)
  have halive := hsound.owned entry.2.sender hopened
  rw [show tasks.owner entry.2.sender = some task from howner] at halive
  exact asksAhead_of_le (hroom entry halive)
    (hfree.notAsked front task command back hcommands entry hentry htype howner)

theorem room_of_offered {sync : Bool} {event : Event} {id : SubscriptionId}
    {subscriber : Subscriber} {remaining : List (Sigma fun _ : SubscriptionId => Subscriber)}
    {delivered : Nat} {ackReceivers : List Nat} {bus : Bus}
    (hphase : tasks.bus.phase =
      .publishing sync event (⟨id, subscriber⟩ :: remaining) delivered ackReceivers)
    (hoffered : Bus.Offered sync event id subscriber remaining delivered ackReceivers tasks.bus bus)
    (entry : Sigma fun _ : SubscriptionId => Subscriber)
    (halive : (tasks.bus.queues entry.2.sender).receiverAlive = true) :
    room { tasks with bus } entry ≤ tasks.room entry := by
  have hlength := (Bus.queue_of_offered hoffered entry.2.sender).2.2.1
  by_cases hhere : entry = ⟨id, subscriber⟩
  · -- this is the subscription the event was offered to
    refine Nat.le_trans (room_le entry) ?_
    simp only [room, hphase]
    rw [if_pos (hhere ▸ List.mem_cons_self)]
    subst hhere
    cases hoffered with
    | passed hkind => simp [roomFor, hkind]
    | dropped hkind hfull | droppedSync hkind hsync htype hfull => simp [hfull halive]
    | placed hkind hsend | placedSync hkind hsync htype hsend =>
        simp only [roomFor, if_pos hkind, Function.update_self,
          (BoundedQueue.items_of_trySend hsend).1, List.length_append, List.length_singleton]
        omega
  · obtain ⟨delivered', ackReceivers', hphase'⟩ := Bus.phase_of_offered hoffered
    simp only [room, hphase, hphase', List.mem_cons, hhere, false_or]
    split <;> omega

/-- The loop offers the event to the next subscriber, who does not wait for a
reply if it is asked to acknowledge. -/
theorem Free.offered (hfree : tasks.Free) {sync : Bool} {event : Event} {id : SubscriptionId}
    {subscriber : Subscriber} {remaining : List (Sigma fun _ : SubscriptionId => Subscriber)}
    {delivered : Nat} {ackReceivers : List Nat} {bus : Bus}
    (hphase : tasks.bus.phase =
      .publishing sync event (⟨id, subscriber⟩ :: remaining) delivered ackReceivers)
    (hoffered : Bus.Offered sync event id subscriber remaining delivered ackReceivers tasks.bus bus)
    {task : Nat} (htask : task ∈ tasks.callers) :
    Unburdened { tasks with bus } task ∧ Passed { tasks with bus } task := by
  have hunburdened := hfree.unburdened task htask
  have hpassed := hfree.passed task htask
  refine ⟨?_, ?_⟩
  · have hsame (bus' : Bus) (hqueues : bus'.queues = tasks.bus.queues)
        (hopened : bus'.opened = tasks.bus.opened) : Unburdened { tasks with bus := bus' } task := by
      refine hunburdened.mono (fun _ hmem _ => hmem) fun queue hqueue howner => ?_
      simp only [hqueues]
      exact ⟨hopened ▸ hqueue, howner, fun _ hack => hack⟩
    cases hoffered with
    | passed | dropped | droppedSync => exact hsame _ rfl rfl
    | placed hkind hsend =>
        refine hunburdened.mono (fun _ hmem _ => hmem) fun queue hqueue howner => ?_
        refine ⟨hqueue, howner, fun ack hack => ?_⟩
        rw [Bus.filterMap_of_trySend hsend] at hack
        simpa [EventDelivery.ack?] using hack
    | placedSync hkind hsync htype hsend =>
        subst hsync
        refine hunburdened.mono (fun _ hmem _ => hmem) fun queue hqueue howner => ?_
        have hother : queue ≠ subscriber.sender := by
          rintro rfl
          unfold Passed at hpassed
          rw [hphase] at hpassed
          have hfull := hpassed _ List.mem_cons_self htype hkind howner
          have hroom : (tasks.bus.queues subscriber.sender).items.length < subscriberCapacity :=
            (BoundedQueue.trySend_eq_ok_iff.mp (congrArg Prod.fst hsend)).2
          exact Nat.ne_of_lt hroom hfull
        refine ⟨hqueue, howner, fun ack hack => ?_⟩
        rwa [Bus.filterMap_of_trySend hsend, if_neg hother, List.append_nil] at hack
  · obtain ⟨delivered', ackReceivers', hphase'⟩ := Bus.phase_of_offered hoffered
    cases sync with
    | false => exact passed_of_phase (by simp [hphase'])
    | true =>
        unfold Passed at hpassed ⊢
        rw [hphase] at hpassed
        rw [hphase']
        -- what is left to offer was left before, and a full queue stays full
        intro entry hentry htype hkind howner
        have hfull := hpassed entry (List.mem_cons_of_mem _ hentry) htype hkind howner
        have hlength := (Bus.queue_of_offered hoffered entry.2.sender).2.2.1
        exact Nat.le_antisymm (BoundedQueue.length_le _)
          (Nat.le_trans (Nat.le_of_eq hfull.symm) hlength)

/-- A task that waits for its reply neither receives nor finishes anything; what
others do leaves it free. -/
theorem Free.elsewhere (hfree : tasks.Free) {tasks' : BusTasks}
    (hsubscribers : tasks'.bus.subscribers = tasks.bus.subscribers)
    (hphase : tasks'.bus.phase = tasks.bus.phase) (hopened : tasks'.bus.opened = tasks.bus.opened)
    (hcommands : tasks'.commands = tasks.commands) (hcaller : tasks'.caller = tasks.caller)
    (hhandling : ∀ handled ∈ tasks'.handling, handled.1 ∈ tasks.callers →
      handled ∈ tasks.handling)
    (hqueues : ∀ task ∈ tasks.callers, ∀ queue, tasks'.owner queue = some task →
      tasks.owner queue = some task ∧ tasks'.bus.queues queue = tasks.bus.queues queue) :
    tasks'.Free := by
  have hcallers : tasks'.callers = tasks.callers := by
    rw [BusTasks.callers, BusTasks.callers, hcommands, hcaller]
  refine ⟨fun task htask => ?_, fun task htask => ?_,
    fun front task command back hsplit entry hentry htype howner => ?_⟩
  · rw [hcallers] at htask
    refine (hfree.unburdened task htask).mono (fun handled hmem hhandled => ?_)
      fun queue hqueue howner => ?_
    · exact hhandling handled hmem (hhandled ▸ htask)
    · obtain ⟨hbefore, hqueue'⟩ := hqueues task htask queue howner
      rw [hqueue']
      exact ⟨hopened ▸ hqueue, hbefore, fun _ hack => hack⟩
  · rw [hcallers] at htask
    have hpassed := hfree.passed task htask
    unfold Passed at hpassed ⊢
    rw [hphase]
    split at hpassed
    · intro entry hentry htype hkind howner
      obtain ⟨hbefore, hqueue⟩ := hqueues task htask _ howner
      rw [hqueue]
      exact hpassed entry hentry htype hkind hbefore
    · trivial
  · rw [hcommands] at hsplit
    rw [hsubscribers] at hentry
    have htask : task ∈ tasks.callers := by
      refine List.mem_append_right _ (List.mem_map.mpr ⟨(task, command), ?_, rfl⟩)
      rw [hsplit]
      exact List.mem_append_right _ List.mem_cons_self
    obtain ⟨hbefore, hqueue⟩ := hqueues task htask _ howner
    have hroom : tasks'.room entry = tasks.room entry := by
      simp only [room, hphase, hqueue]
    rw [hroom]
    exact hfree.notAsked front task command back hsplit entry hentry htype hbefore

theorem Free.step {order : HashOrder SubscriptionId Subscriber} {move : TaskMove}
    {tasks' : BusTasks} (hfree : tasks.Free) (hsound : tasks.Sound)
    (hguard : tasks.CallsFree move) (hmoves : tasks.Moves order move tasks') : tasks'.Free := by
  have hpublished {sync : Bool} {event : Event} {commands : List (Nat × BusCommand)} {caller : Nat}
      (hphase : tasks.bus.phase = .receiving) {entry : Sigma fun _ : SubscriptionId => Subscriber}
      (hentry : entry ∈ tasks.bus.subscribers.entries) :
      room { tasks with bus := tasks.bus.publish order sync event, commands, caller } entry =
        tasks.room entry - roomFor event entry.2.kinds := by
    rw [room_of_receiving hphase]
    simp only [room, Bus.publish]
    rw [if_pos ((order.perm tasks.bus.iterations _).mem_iff.mpr hentry)]
  cases hmoves with
  | @call task command hidle =>
      have hcallers (other : Nat)
          (hother : other ∈ BusTasks.callers
            { tasks with commands := tasks.commands ++ [(task, command)] }) :
          other ∈ tasks.callers ∨ other = task := by
        rw [BusTasks.callers, List.map_append, ← List.append_assoc] at hother
        exact (List.mem_append.mp hother).imp_right List.mem_singleton.mp
      refine ⟨fun other hother => ?_, fun other hother => ?_,
        fun front other otherCommand back hsplit => ?_⟩
      · rcases hcallers other hother with hwaiting | rfl
        · exact hfree.unburdened other hwaiting
        · exact hguard.1
      · rcases hcallers other hother with hwaiting | rfl
        · exact hfree.passed other hwaiting
        · exact hguard.2.1
      · -- the new command is the last, or behind the one that is asked about
        rcases List.eq_nil_or_concat' back with rfl | ⟨back, last, rfl⟩
        · obtain ⟨rfl, hlast⟩ := List.append_inj' hsplit rfl
          obtain ⟨rfl, rfl⟩ := Prod.mk.inj (List.singleton_inj.mp hlast)
          exact hguard.2.2
        · rw [← List.cons_append, ← List.append_assoc] at hsplit
          obtain ⟨hcommands, -⟩ := List.append_inj' hsplit rfl
          exact hfree.notAsked front other otherCommand back hcommands
  | publish hcommands hphase =>
      have hcallers := callers_of_commands hcommands
      refine ⟨fun other hother => hfree.unburdened other (hcallers.subset hother),
        fun other hother => passed_of_phase (by simp [Bus.publish]), ?_⟩
      exact hfree.notAsked_of_process hcommands fun entry hentry _ _ howner =>
        ⟨hentry, howner, (by simp), Nat.le_of_eq (hpublished hphase hentry)⟩
  | @publishSync fresh task event commands hcommands hphase =>
      have hcallers := callers_of_commands hcommands
      refine ⟨fun other hother => hfree.unburdened other (hcallers.subset hother),
        fun other hother => ?_, ?_⟩
      · -- the publication was ahead of the call, or is the call
        intro entry hentry htype hkind howner
        have hentries : entry ∈ tasks.bus.subscribers.entries :=
          (order.perm tasks.bus.iterations _).mem_iff.mp hentry
        have hasks : ∃ rest, asksAhead entry.1 entry.2.kinds (tasks.room entry)
            (.publishSync event :: rest) = false := by
          rcases List.mem_cons.mp hother with rfl | hbehind
          · exact ⟨_, hfree.notAsked [] other _ commands hcommands entry hentries htype howner⟩
          · obtain ⟨⟨other, command⟩, hmem, rfl⟩ := List.mem_map.mp hbehind
            obtain ⟨front, back, rfl⟩ := List.append_of_mem hmem
            exact ⟨_, hfree.notAsked ((task, .publishSync event) :: front) other command back
              hcommands entry hentries htype howner⟩
        obtain ⟨rest, hasks⟩ := hasks
        rw [asksAhead, if_pos hkind, decide_eq_false_iff_not, room_of_receiving hphase] at hasks
        have hle := (tasks.bus.queues entry.2.sender).length_le
        exact Nat.le_antisymm hle (Nat.le_of_sub_eq_zero (Nat.eq_zero_of_not_pos hasks))
      · exact hfree.notAsked_of_process hcommands fun entry hentry _ _ howner =>
          ⟨hentry, howner, (by simp), Nat.le_of_eq (hpublished hphase hentry)⟩
  | @subscribe fresh task kinds subscriptionType commands hcommands hphase =>
      have hnodup := hsound.callers
      rw [BusTasks.callers, hcommands, List.map_cons, List.nodup_middle, List.nodup_cons] at hnodup
      have hcallers : (tasks.caller.toList ++ commands.map Prod.fst).Sublist tasks.callers := by
        rw [BusTasks.callers, hcommands]
        exact (List.Sublist.refl _).append (List.sublist_cons_self _ _)
      -- the new queue is that of the task which has its reply now
      have howner {other queue : Nat} (hother : other ∈ tasks.caller.toList ++ commands.map Prod.fst)
          (howner : Function.update tasks.owner tasks.bus.opened (some task) queue = some other) :
          queue ≠ tasks.bus.opened ∧ tasks.owner queue = some other := by
        rw [Function.update_apply] at howner
        split at howner
        · exact absurd (Option.some.inj howner ▸ hother) hnodup.1
        · exact ⟨‹_›, howner⟩
      refine ⟨fun other hother => ?_,
        fun other hother => passed_of_phase (by simp [Bus.subscribe, hphase]), ?_⟩
      · refine (hfree.unburdened other (hcallers.subset hother)).mono (fun _ hmem _ => hmem)
          fun queue hqueue hqueueOwner => ?_
        obtain ⟨hne, hbefore⟩ := howner hother hqueueOwner
        refine ⟨Nat.lt_of_le_of_ne (Nat.le_of_lt_succ hqueue) hne, hbefore, ?_⟩
        simp only [Bus.subscribe, Function.update_of_ne hne]
        exact fun ack hack => hack
      · refine hfree.notAsked_of_process hcommands fun entry hentry other hother hentryOwner => ?_
        obtain ⟨hne, hbefore⟩ := howner (List.mem_append_right _ hother) hentryOwner
        refine ⟨?_, hbefore, (by simp), ?_⟩
        · rw [← HashMap.lookup_eq_some_iff] at hentry ⊢
          simp only [Bus.subscribe, HashMap.lookup_insert_eq] at hentry
          split at hentry
          · exact absurd (congrArg Subscriber.sender (Option.some.inj hentry)).symm hne
          · exact hentry
        · refine Nat.le_trans (room_le entry) ?_
          simp only [Bus.subscribe, Function.update_of_ne hne, room_of_receiving hphase]
          exact Nat.le_refl _
  | @unsubscribe fresh task id commands hcommands hphase =>
      have hcallers : (tasks.caller.toList ++ commands.map Prod.fst).Sublist tasks.callers := by
        rw [BusTasks.callers, hcommands]
        exact (List.Sublist.refl _).append (List.sublist_cons_self _ _)
      refine ⟨fun other hother => hfree.unburdened other (hcallers.subset hother),
        fun other hother => passed_of_phase (by simp [Bus.unsubscribe, hphase]), ?_⟩
      refine hfree.notAsked_of_process hcommands fun entry hentry other hother hentryOwner => ?_
      rw [← HashMap.lookup_eq_some_iff] at hentry ⊢
      simp only [Bus.unsubscribe, HashMap.lookup_erase_eq] at hentry
      split at hentry
      · cases hentry
      · rename_i hne
        refine ⟨hentry, hentryOwner, fun hhead => hne ?_, Nat.le_refl _⟩
        exact (BusCommand.unsubscribe.inj hhead).symm
  | tryNext hloop =>
      cases hloop with
      | tryNext hphase hoffered =>
          refine hfree.loop hsound ?_ (fun _ htask => htask)
            (fun task htask => hfree.offered hphase hoffered htask) (room_of_offered hphase hoffered)
          cases hoffered <;> rfl
  | endLoop hloop =>
      cases hloop with
      | endLoop hphase =>
          refine hfree.loop hsound rfl (fun _ htask => htask)
            (fun task htask => ⟨hfree.unburdened task htask, passed_of_phase (by simp)⟩)
            fun entry _ => Nat.le_of_eq ?_
          simp only [room, hphase, List.not_mem_nil, if_false]
  | ackResolved hloop =>
      cases hloop with
      | ackResolved hphase hresolved =>
          refine hfree.loop hsound rfl (fun _ htask => htask)
            (fun task htask => ⟨hfree.unburdened task htask, passed_of_phase (by simp)⟩)
            fun entry _ => Nat.le_of_eq ?_
          simp only [room, hphase]
  | reply hloop =>
      cases hloop with
      | reply hphase =>
          refine hfree.loop hsound rfl (by simp)
            (fun task htask => ⟨hfree.unburdened task htask, passed_of_phase (by simp)⟩)
            fun entry _ => Nat.le_of_eq ?_
          simp only [room, hphase]
  | @receive task queue delivery rest hidle howner hready hrecv =>
      refine hfree.elsewhere rfl rfl rfl rfl rfl (fun handled hmem hcaller => ?_)
        fun other hother otherQueue hotherOwner => ⟨hotherOwner, ?_⟩
      · rcases List.mem_append.mp hmem with hbefore | hnew
        · exact hbefore
        · obtain rfl := List.mem_singleton.mp hnew
          exact absurd hcaller hidle
      · have hne : otherQueue ≠ queue := by
          rintro rfl
          obtain rfl := Option.some.inj (howner.symm.trans hotherOwner)
          exact hidle hother
        simp only [Function.update_of_ne hne]
  | finishAsync hidle hmem htask hack =>
      exact hfree.elsewhere rfl rfl rfl rfl rfl (fun handled hmem _ => List.mem_of_mem_erase hmem)
        fun other hother queue howner => ⟨howner, rfl⟩
  | finishSync hidle hmem htask hack houtcome =>
      exact hfree.elsewhere rfl rfl rfl rfl rfl (fun handled hmem _ => List.mem_of_mem_erase hmem)
        fun other hother queue howner => ⟨howner, rfl⟩
  | @close task queue hidle howner =>
      refine hfree.elsewhere rfl rfl rfl rfl rfl (fun _ hmem _ => hmem)
        fun other hother otherQueue hotherOwner => ?_
      simp only [Function.update_apply] at hotherOwner
      split at hotherOwner
      · cases hotherOwner
      · rename_i hne
        exact ⟨hotherOwner, Function.update_of_ne hne _ _⟩

end BusTasks

end Scuttled
