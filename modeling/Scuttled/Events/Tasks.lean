import Scuttled.Events.Barrier

/-!
# The bus and its callers

Tasks call the bus and wait for its reply.  Their commands wait in the channel of
the bus, in order; the loop replies to one before it takes the next.  A task that
subscribed owns the receiver: it receives one delivery at a time, may call the
bus while it handles it, and finishes it afterwards.
-/

namespace Scuttled

open Rust Foundation

/-- `BusCommand`, without its reply channel. -/
inductive BusCommand where
  | publish (event : Event)
  | publishSync (event : Event)
  | subscribe (kinds : List EventKind) (subscriptionType : SubscriptionType)
  | unsubscribe (id : SubscriptionId)
  deriving DecidableEq, Repr

/-- What the loop does with a command; a subscription draws an identifier. -/
def BusCommand.move (fresh : SubscriptionId) : BusCommand → BusMove
  | .publish event => .publish event
  | .publishSync event => .publishSync event
  | .subscribe kinds subscriptionType => .subscribe fresh kinds subscriptionType
  | .unsubscribe id => .unsubscribe id

/-- The bus and the tasks around it. -/
structure BusTasks where
  bus : Bus
  /-- Commands that were sent and not yet taken by the loop, each with the task
  that waits for the reply.  Senders that wait for room in the channel are among
  them, since room is given out in order. -/
  commands : List (Nat × BusCommand)
  /-- The task whose publication the loop is at. -/
  caller : Option Nat
  /-- The task that has the receiver of a queue. -/
  owner : Nat → Option Nat
  /-- The deliveries that tasks have received and not finished. -/
  handling : List (Nat × EventDelivery)

/-- What happens next: a task calls the bus, the loop goes on, or a task receives
a delivery, finishes one or drops a receiver. -/
inductive TaskMove where
  | call (task : Nat) (command : BusCommand)
  | process (fresh : SubscriptionId)
  | tryNext
  | endLoop
  | ackResolved
  | reply
  | receive (task queue : Nat)
  | finish (task : Nat) (acknowledged : Bool)
  | close (task queue : Nat)
  deriving DecidableEq, Repr

namespace BusTasks

def new : BusTasks where
  bus := .new
  commands := []
  caller := none
  owner _ := none
  handling := []

/-- The tasks that wait for a reply, the one the loop serves first. -/
def callers (tasks : BusTasks) : List Nat := tasks.caller.toList ++ tasks.commands.map Prod.fst

/-- A subscriber receives from its queue. -/
def receive (order : HashOrder SubscriptionId Subscriber) (task queue : Nat) (tasks : BusTasks) :
    Option BusTasks :=
  if task ∈ tasks.callers ∨ tasks.owner queue ≠ some task ∨
      task ∈ tasks.handling.map Prod.fst then none
  else
    match (tasks.bus.queues queue).items.head? with
    | none => none
    | some delivery =>
        (busStep order tasks.bus (.take queue)).map fun bus =>
          { tasks with bus, handling := tasks.handling ++ [(task, delivery)] }

/-- A subscriber finishes the delivery it handles: it acknowledges it, which is a
no-op for an asynchronous one, or drops it. -/
def finish (order : HashOrder SubscriptionId Subscriber) (task : Nat) (acknowledged : Bool)
    (tasks : BusTasks) : Option BusTasks :=
  if task ∈ tasks.callers then none
  else
    match tasks.handling.find? fun handled => handled.1 = task with
    | none => none
    | some handled =>
        match handled.2.ack? with
        | none => some { tasks with handling := tasks.handling.erase handled }
        | some ack =>
            (busStep order tasks.bus
              (if acknowledged then .acknowledge ack else .abandon ack)).map fun bus =>
                { tasks with bus, handling := tasks.handling.erase handled }

end BusTasks

/-- One step of the bus and its tasks. -/
def taskStep (order : HashOrder SubscriptionId Subscriber) (tasks : BusTasks) :
    TaskMove → Option BusTasks
  | .call task command =>
      if task ∈ tasks.callers then none
      else some { tasks with commands := tasks.commands ++ [(task, command)] }
  | .process fresh =>
      match tasks.commands with
      | [] => none
      | (task, command) :: commands =>
          (busStep order tasks.bus (command.move fresh)).map fun bus =>
            match command with
            | .publish _ | .publishSync _ => { tasks with bus, commands, caller := some task }
            | .subscribe _ _ =>
                { tasks with
                  bus
                  commands
                  owner := Function.update tasks.owner tasks.bus.opened (some task) }
            | .unsubscribe _ => { tasks with bus, commands }
  | .tryNext => (busStep order tasks.bus .tryNext).map fun bus => { tasks with bus }
  | .endLoop => (busStep order tasks.bus .endLoop).map fun bus => { tasks with bus }
  | .ackResolved => (busStep order tasks.bus .ackResolved).map fun bus => { tasks with bus }
  | .reply => (busStep order tasks.bus .reply).map fun bus => { tasks with bus, caller := none }
  | .receive task queue => tasks.receive order task queue
  | .finish task acknowledged => tasks.finish order task acknowledged
  | .close task queue =>
      if task ∈ tasks.callers ∨ tasks.owner queue ≠ some task then none
      else
        (busStep order tasks.bus (.close queue)).map fun bus =>
          { tasks with bus, owner := Function.update tasks.owner queue none }

/-! ## What a step can do -/

namespace BusTasks

inductive Moves (order : HashOrder SubscriptionId Subscriber) (tasks : BusTasks) :
    TaskMove → BusTasks → Prop where
  | call {task : Nat} {command : BusCommand} (hidle : task ∉ tasks.callers) :
      Moves order tasks (.call task command)
        { tasks with commands := tasks.commands ++ [(task, command)] }
  | publish {fresh : SubscriptionId} {task : Nat} {event : Event}
      {commands : List (Nat × BusCommand)}
      (hcommands : tasks.commands = (task, .publish event) :: commands)
      (hphase : tasks.bus.phase = .receiving) :
      Moves order tasks (.process fresh)
        { tasks with bus := tasks.bus.publish order false event, commands, caller := some task }
  | publishSync {fresh : SubscriptionId} {task : Nat} {event : Event}
      {commands : List (Nat × BusCommand)}
      (hcommands : tasks.commands = (task, .publishSync event) :: commands)
      (hphase : tasks.bus.phase = .receiving) :
      Moves order tasks (.process fresh)
        { tasks with bus := tasks.bus.publish order true event, commands, caller := some task }
  | subscribe {fresh : SubscriptionId} {task : Nat} {kinds : List EventKind}
      {subscriptionType : SubscriptionType} {commands : List (Nat × BusCommand)}
      (hcommands : tasks.commands = (task, .subscribe kinds subscriptionType) :: commands)
      (hphase : tasks.bus.phase = .receiving) :
      Moves order tasks (.process fresh)
        { tasks with
          bus := tasks.bus.subscribe fresh kinds subscriptionType
          commands
          owner := Function.update tasks.owner tasks.bus.opened (some task) }
  | unsubscribe {fresh : SubscriptionId} {task : Nat} {id : SubscriptionId}
      {commands : List (Nat × BusCommand)}
      (hcommands : tasks.commands = (task, .unsubscribe id) :: commands)
      (hphase : tasks.bus.phase = .receiving) :
      Moves order tasks (.process fresh)
        { tasks with bus := tasks.bus.unsubscribe id, commands }
  | tryNext {bus : Bus} (hmoves : tasks.bus.Moves order .tryNext bus) :
      Moves order tasks .tryNext { tasks with bus }
  | endLoop {bus : Bus} (hmoves : tasks.bus.Moves order .endLoop bus) :
      Moves order tasks .endLoop { tasks with bus }
  | ackResolved {bus : Bus} (hmoves : tasks.bus.Moves order .ackResolved bus) :
      Moves order tasks .ackResolved { tasks with bus }
  | reply {bus : Bus} (hmoves : tasks.bus.Moves order .reply bus) :
      Moves order tasks .reply { tasks with bus, caller := none }
  | receive {task queue : Nat} {delivery : EventDelivery}
      {rest : BoundedQueue EventDelivery subscriberCapacity} (hidle : task ∉ tasks.callers)
      (howner : tasks.owner queue = some task) (hready : task ∉ tasks.handling.map Prod.fst)
      (hrecv : (tasks.bus.queues queue).recv = some (delivery, rest)) :
      Moves order tasks (.receive task queue)
        { tasks with
          bus := { tasks.bus with
            queues := Function.update tasks.bus.queues queue rest
            held := tasks.bus.held ++ delivery.ack?.toList }
          handling := tasks.handling ++ [(task, delivery)] }
  | finishAsync {task : Nat} {acknowledged : Bool} {handled : Nat × EventDelivery}
      (hidle : task ∉ tasks.callers) (hmem : handled ∈ tasks.handling) (htask : handled.1 = task)
      (hack : handled.2.ack? = none) :
      Moves order tasks (.finish task acknowledged)
        { tasks with handling := tasks.handling.erase handled }
  | finishSync {task : Nat} {acknowledged : Bool} {handled : Nat × EventDelivery} {ack : Nat}
      {outcome : AckState} (hidle : task ∉ tasks.callers) (hmem : handled ∈ tasks.handling)
      (htask : handled.1 = task) (hack : handled.2.ack? = some ack) (houtcome : outcome ≠ .pending) :
      Moves order tasks (.finish task acknowledged)
        { tasks with
          bus := { tasks.bus with
            acks := Function.update tasks.bus.acks ack outcome
            held := tasks.bus.held.erase ack }
          handling := tasks.handling.erase handled }
  | close {task queue : Nat} (hidle : task ∉ tasks.callers)
      (howner : tasks.owner queue = some task) :
      Moves order tasks (.close task queue)
        { tasks with
          bus := tasks.bus.close queue
          owner := Function.update tasks.owner queue none }

theorem moves_of_taskStep {order : HashOrder SubscriptionId Subscriber} {tasks tasks' : BusTasks}
    {move : TaskMove} (hstep : taskStep order tasks move = some tasks') :
    Moves order tasks move tasks' := by
  cases move with
  | call task command =>
      simp only [taskStep] at hstep
      split at hstep
      · cases hstep
      · obtain rfl := Option.some.inj hstep
        exact .call ‹_›
  | process fresh =>
      simp only [taskStep] at hstep
      split at hstep
      · cases hstep
      · rename_i task command commands hcommands
        obtain ⟨bus, hbus, rfl⟩ := Option.map_eq_some_iff.mp hstep
        have hmoves := Bus.moves_of_busStep hbus
        cases command with
        | publish event =>
            cases hmoves with
            | publish hphase => exact .publish hcommands hphase
        | publishSync event =>
            cases hmoves with
            | publishSync hphase => exact .publishSync hcommands hphase
        | subscribe kinds subscriptionType =>
            cases hmoves with
            | subscribe hphase => exact .subscribe hcommands hphase
        | unsubscribe id =>
            cases hmoves with
            | unsubscribe hphase => exact .unsubscribe hcommands hphase
  | tryNext =>
      obtain ⟨bus, hbus, rfl⟩ := Option.map_eq_some_iff.mp hstep
      exact .tryNext (Bus.moves_of_busStep hbus)
  | endLoop =>
      obtain ⟨bus, hbus, rfl⟩ := Option.map_eq_some_iff.mp hstep
      exact .endLoop (Bus.moves_of_busStep hbus)
  | ackResolved =>
      obtain ⟨bus, hbus, rfl⟩ := Option.map_eq_some_iff.mp hstep
      exact .ackResolved (Bus.moves_of_busStep hbus)
  | reply =>
      obtain ⟨bus, hbus, rfl⟩ := Option.map_eq_some_iff.mp hstep
      exact .reply (Bus.moves_of_busStep hbus)
  | receive task queue =>
      simp only [taskStep, receive] at hstep
      split at hstep
      · cases hstep
      · rename_i hready
        rw [not_or, not_or, not_not] at hready
        split at hstep
        · cases hstep
        · rename_i delivery hhead
          obtain ⟨bus, hbus, rfl⟩ := Option.map_eq_some_iff.mp hstep
          cases Bus.moves_of_busStep hbus with
          | take hrecv =>
              rw [BoundedQueue.items_of_recv hrecv, List.head?_cons] at hhead
              obtain rfl := Option.some.inj hhead
              exact .receive hready.1 hready.2.1 hready.2.2 hrecv
  | finish task acknowledged =>
      simp only [taskStep, finish] at hstep
      split at hstep
      · cases hstep
      · rename_i hidle
        split at hstep
        · cases hstep
        · rename_i handled hfind
          have hmem := List.mem_of_find?_eq_some hfind
          have htask : handled.1 = task := by simpa using List.find?_some hfind
          split at hstep
          · obtain rfl := Option.some.inj hstep
            exact .finishAsync hidle hmem htask ‹_›
          · rename_i ack hack
            obtain ⟨bus, hbus, rfl⟩ := Option.map_eq_some_iff.mp hstep
            have hmoves := Bus.moves_of_busStep hbus
            cases acknowledged with
            | true =>
                cases hmoves with
                | acknowledge hheld => exact .finishSync hidle hmem htask hack nofun
            | false =>
                cases hmoves with
                | abandon hheld => exact .finishSync hidle hmem htask hack nofun
  | close task queue =>
      simp only [taskStep] at hstep
      split at hstep
      · cases hstep
      · rename_i hready
        rw [not_or, not_not] at hready
        obtain ⟨bus, hbus, rfl⟩ := Option.map_eq_some_iff.mp hstep
        cases Bus.moves_of_busStep hbus with
        | close => exact .close hready.1 hready.2

/-! ## Tasks and bus agree -/

/-- What tasks hold and own is what the bus knows of. -/
structure Sound (tasks : BusTasks) : Prop where
  accounted : tasks.bus.Accounted
  callers : tasks.callers.Nodup
  handling : (tasks.handling.map Prod.fst).Nodup
  held : tasks.bus.held.Perm (tasks.handling.filterMap fun handled => handled.2.ack?)
  /-- A queue has its receiver as long as a task owns it; then it is empty. -/
  owned : ∀ queue < tasks.bus.opened,
    (tasks.bus.queues queue).receiverAlive = (tasks.owner queue).isSome
  closed : ∀ queue, (tasks.bus.queues queue).receiverAlive = false →
    (tasks.bus.queues queue).items = []

theorem sound_new : Sound .new where
  accounted := Bus.accounted_new
  callers := List.nodup_nil
  handling := List.nodup_nil
  held := .refl _
  owned := nofun
  closed := nofun

variable {tasks : BusTasks}

theorem filterMap_erase {handling : List (Nat × EventDelivery)} {handled : Nat × EventDelivery}
    (hmem : handled ∈ handling) :
    (handling.filterMap fun handled => handled.2.ack?).Perm
      (handled.2.ack?.toList ++ (handling.erase handled).filterMap fun handled => handled.2.ack?) := by
  have hperm := (List.perm_cons_erase hmem).filterMap fun handled => handled.2.ack?
  rw [List.filterMap_cons] at hperm
  cases hack : handled.2.ack? <;> simpa [hack] using hperm

theorem Sound.loop (hsound : tasks.Sound) {order : HashOrder SubscriptionId Subscriber}
    {move : BusMove} {bus : Bus} (hmoves : tasks.bus.Moves order move bus)
    (hheld : bus.held = tasks.bus.held) (hopened : bus.opened = tasks.bus.opened)
    (hqueues : ∀ queue,
      (bus.queues queue).receiverAlive = (tasks.bus.queues queue).receiverAlive ∧
        ((tasks.bus.queues queue).receiverAlive = false →
          (bus.queues queue).items = (tasks.bus.queues queue).items))
    {commands : List (Nat × BusCommand)} {caller : Option Nat}
    (hcallers : (caller.toList ++ commands.map Prod.fst).Sublist tasks.callers) :
    Sound { tasks with bus, commands, caller } where
  accounted := hsound.accounted.step hmoves
  callers := hsound.callers.sublist hcallers
  handling := hsound.handling
  held := by
    rw [hheld]
    exact hsound.held
  owned queue hqueue := by
    rw [hopened] at hqueue
    rw [(hqueues queue).1]
    exact hsound.owned queue hqueue
  closed queue hclosed := by
    rw [(hqueues queue).1] at hclosed
    rw [(hqueues queue).2 hclosed]
    exact hsound.closed queue hclosed

theorem callers_of_commands {task : Nat} {command : BusCommand}
    {commands : List (Nat × BusCommand)} (hcommands : tasks.commands = (task, command) :: commands) :
    (task :: commands.map Prod.fst).Sublist tasks.callers := by
  rw [callers, hcommands]
  exact List.sublist_append_right _ _

theorem Sound.step {order : HashOrder SubscriptionId Subscriber} {move : TaskMove}
    {tasks' : BusTasks} (hsound : tasks.Sound) (hmoves : tasks.Moves order move tasks') :
    tasks'.Sound := by
  have hunchanged (queue : Nat) : (tasks.bus.queues queue).receiverAlive =
      (tasks.bus.queues queue).receiverAlive ∧ ((tasks.bus.queues queue).receiverAlive = false →
        (tasks.bus.queues queue).items = (tasks.bus.queues queue).items) := ⟨rfl, fun _ => rfl⟩
  cases hmoves with
  | call hidle =>
      refine ⟨hsound.accounted, ?_, hsound.handling, hsound.held, hsound.owned, hsound.closed⟩
      have hcallers := hsound.callers
      rw [BusTasks.callers, List.map_append, ← List.append_assoc]
      refine List.nodup_append.mpr ⟨hcallers, List.nodup_singleton _, fun other hother _ htask => ?_⟩
      obtain rfl := List.mem_singleton.mp htask
      rintro rfl
      exact hidle hother
  | publish hcommands hphase =>
      exact hsound.loop (.publish hphase) rfl rfl hunchanged (callers_of_commands hcommands)
  | publishSync hcommands hphase =>
      exact hsound.loop (.publishSync hphase) rfl rfl hunchanged (callers_of_commands hcommands)
  | @subscribe fresh task kinds subscriptionType commands hcommands hphase =>
      refine ⟨hsound.accounted.subscribe hphase _ _ _, ?_, hsound.handling, hsound.held,
        fun queue hqueue => ?_, fun queue hclosed => ?_⟩
      · refine hsound.callers.sublist ?_
        rw [BusTasks.callers, BusTasks.callers, hcommands]
        exact (List.Sublist.refl _).append (List.sublist_cons_self _ _)
      · simp only [Bus.subscribe, Function.update_apply]
        split
        · rfl
        · rename_i hother
          exact hsound.owned queue (Nat.lt_of_le_of_ne (Nat.le_of_lt_succ hqueue) hother)
      · simp only [Bus.subscribe, Function.update_apply] at hclosed ⊢
        split at hclosed
        · cases hclosed
        · rename_i hother
          rw [if_neg hother]
          exact hsound.closed queue hclosed
  | @unsubscribe fresh task id commands hcommands hphase =>
      have hloop : tasks.bus.Moves order (.unsubscribe id) _ := .unsubscribe hphase
      refine hsound.loop hloop rfl rfl hunchanged ?_
      rw [BusTasks.callers, hcommands]
      exact (List.Sublist.refl _).append (List.sublist_cons_self _ _)
  | tryNext hloop =>
      have hkept := hloop
      cases hloop with
      | tryNext hphase hoffered =>
          refine hsound.loop hkept ?_ ?_ (fun queue => ?_) (.refl _)
          · cases hoffered <;> rfl
          · cases hoffered <;> rfl
          · obtain ⟨halive, hclosed, -⟩ := Bus.queue_of_offered hoffered queue
            exact ⟨halive, hclosed⟩
  | endLoop hloop =>
      have hkept := hloop
      cases hloop with
      | endLoop hphase => exact hsound.loop hkept rfl rfl hunchanged (.refl _)
  | ackResolved hloop =>
      have hkept := hloop
      cases hloop with
      | ackResolved hphase hresolved => exact hsound.loop hkept rfl rfl hunchanged (.refl _)
  | reply hloop =>
      have hkept := hloop
      cases hloop with
      | reply hphase =>
          exact hsound.loop hkept rfl rfl hunchanged (List.sublist_append_right _ _)
  | @receive task queue delivery rest hidle howner hready hrecv =>
      have halive := BoundedQueue.receiverAlive_of_recv hrecv
      refine ⟨hsound.accounted.take hrecv, hsound.callers, ?_, ?_, fun other hother => ?_,
        fun other hclosed => ?_⟩
      · rw [List.map_append, List.nodup_append]
        refine ⟨hsound.handling, List.nodup_singleton _, fun first hfirst second hsecond => ?_⟩
        obtain rfl := List.mem_singleton.mp hsecond
        rintro rfl
        exact hready hfirst
      · rw [List.filterMap_append]
        refine hsound.held.append (.of_eq ?_)
        cases delivery <;> rfl
      · simp only [Function.update_apply]
        split
        · rename_i hqueue
          subst hqueue
          rw [halive]
          exact hsound.owned other hother
        · exact hsound.owned other hother
      · simp only [Function.update_apply] at hclosed ⊢
        split
        · rename_i hqueue
          subst hqueue
          rw [if_pos rfl, halive] at hclosed
          have hempty := hsound.closed other hclosed
          rw [BoundedQueue.items_of_recv hrecv] at hempty
          cases hempty
        · rename_i hqueue
          rw [if_neg hqueue] at hclosed
          exact hsound.closed other hclosed
  | finishAsync hidle hmem htask hack =>
      refine ⟨hsound.accounted, hsound.callers, hsound.handling.sublist ?_, ?_, hsound.owned,
        hsound.closed⟩
      · exact List.erase_sublist.map _
      · have hperm := filterMap_erase hmem
        rw [hack] at hperm
        exact hsound.held.trans hperm
  | @finishSync task acknowledged handled ack outcome hidle hmem htask hack houtcome =>
      refine ⟨hsound.accounted.finish houtcome, hsound.callers, hsound.handling.sublist ?_, ?_,
        hsound.owned, hsound.closed⟩
      · exact List.erase_sublist.map _
      · have hperm := hsound.held.trans (filterMap_erase hmem)
        rw [hack] at hperm
        have herased := hperm.erase ack
        rwa [Option.toList_some, List.singleton_append, List.erase_cons_head] at herased
  | @close task queue hidle howner =>
      refine ⟨hsound.accounted.close queue, hsound.callers, hsound.handling, hsound.held,
        fun other hother => ?_, fun other hclosed => ?_⟩
      · simp only [Bus.close, Function.update_apply]
        split
        · rfl
        · exact hsound.owned other hother
      · simp only [Bus.close, Function.update_apply] at hclosed ⊢
        split
        · rfl
        · rename_i hne
          rw [if_neg hne] at hclosed
          exact hsound.closed other hclosed

end BusTasks

end Scuttled
