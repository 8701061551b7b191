import Mathlib.Algebra.BigOperators.Group.Finset.Piecewise
import Mathlib.Algebra.Order.BigOperators.Group.Finset
import Scuttled.Events.Callers

/-!
# Deadlocks between the bus and its callers

A task that waits for a reply acknowledges nothing, and the loop that waits for
an acknowledgement replies to nobody.  As long as no task calls the bus while it
owes an acknowledgement, or is going to owe one before its call is answered, the
loop gets all it waits for and comes to every command.
-/

namespace Scuttled

open Rust Foundation

namespace BusTasks

/-! ## Deadlocks -/

/-- The acknowledgement is for the task to send: it handles the delivery, or has
it in a queue. -/
def Owes (tasks : BusTasks) (task ack : Nat) : Prop :=
  (∃ delivery, (task, delivery) ∈ tasks.handling ∧ delivery.ack? = some ack) ∨
    ∃ queue, tasks.owner queue = some task ∧
      ack ∈ (tasks.bus.queues queue).items.filterMap EventDelivery.ack?

/-- The loop waits for an acknowledgement of a task that waits for the loop. -/
def Deadlocked (tasks : BusTasks) : Prop :=
  ∃ event delivered syncCount ackReceivers ack task,
    tasks.bus.phase = .awaiting event delivered syncCount ackReceivers ∧ ack ∈ ackReceivers ∧
      tasks.bus.acks ack = .pending ∧ tasks.Owes task ack ∧ task ∈ tasks.callers

/-- What `Deadlocked` asks of a task and what it handles, computed. -/
def waitsFor (tasks : BusTasks) (ack task : Nat) : Bool :=
  match tasks.bus.phase with
  | .awaiting _ _ _ ackReceivers =>
      decide (ack ∈ ackReceivers ∧ tasks.bus.acks ack = .pending ∧ task ∈ tasks.callers) &&
        tasks.handling.any fun handled => handled.1 = task && handled.2.ack? = some ack
  | _ => false

theorem deadlocked_of_waitsFor {tasks : BusTasks} {ack task : Nat}
    (hwaits : tasks.waitsFor ack task = true) : tasks.Deadlocked := by
  unfold waitsFor at hwaits
  split at hwaits
  · rename_i event delivered syncCount ackReceivers hphase
    obtain ⟨hloop, hhandles⟩ := Bool.and_eq_true_iff.mp hwaits
    obtain ⟨hmem, hpending, hcaller⟩ := of_decide_eq_true hloop
    obtain ⟨⟨other, delivery⟩, hhandled, htask⟩ := List.any_eq_true.mp hhandles
    obtain ⟨hother, hack⟩ := Bool.and_eq_true_iff.mp htask
    obtain rfl : other = task := of_decide_eq_true hother
    exact ⟨event, delivered, syncCount, ackReceivers, ack, other, hphase, hmem, hpending,
      .inl ⟨delivery, hhandled, of_decide_eq_true hack⟩, hcaller⟩
  · cases hwaits

variable {tasks : BusTasks}

theorem Unburdened.not_owes (hsound : tasks.Sound) {task : Nat}
    (hunburdened : tasks.Unburdened task) (ack : Nat) : ¬ tasks.Owes task ack := by
  rintro (⟨delivery, hmem, hack⟩ | ⟨queue, howner, hmem⟩)
  · rw [hunburdened.1 _ hmem rfl] at hack
    cases hack
  · rcases Nat.lt_or_ge queue tasks.bus.opened with hopened | hunopened
    · rw [hunburdened.2 queue hopened howner] at hmem
      cases hmem
    · rw [hsound.accounted.unopened queue hunopened] at hmem
      cases hmem

theorem Free.not_deadlocked (hfree : tasks.Free) (hsound : tasks.Sound) : ¬ tasks.Deadlocked := by
  rintro ⟨event, delivered, syncCount, ackReceivers, ack, task, -, -, -, howes, hcaller⟩
  exact (hfree.unburdened task hcaller).not_owes hsound ack howes

/-! ## The loop comes to every command -/

/-- A step that is no call. -/
def Proceeds (order : HashOrder SubscriptionId Subscriber) (tasks tasks' : BusTasks) : Prop :=
  ∃ move, (∀ task command, move ≠ .call task command) ∧ taskStep order tasks move = some tasks'

/-- What the loop is still going to do for its publication: it offers the event,
collects acknowledgements and replies. -/
def phaseWorkload : BusPhase → Nat
  | .receiving => 0
  | .publishing _ _ remaining _ ackReceivers => 4 * remaining.length + ackReceivers.length + 2
  | .awaiting _ _ _ ackReceivers => ackReceivers.length + 1

/-- What is left to do, if nobody calls, until the loop replies: a delivery in a
queue is received, and then finished. -/
def workload (tasks : BusTasks) : Nat :=
  phaseWorkload tasks.bus.phase +
    2 * ∑ queue ∈ Finset.range tasks.bus.opened, (tasks.bus.queues queue).items.length +
    tasks.handling.length

theorem Proceeds.sound {order : HashOrder SubscriptionId Subscriber} {tasks' : BusTasks}
    (hproceeds : tasks.Proceeds order tasks') (hsound : tasks.Sound) : tasks'.Sound := by
  obtain ⟨move, -, hstep⟩ := hproceeds
  exact hsound.step (moves_of_taskStep hstep)

theorem Proceeds.free {order : HashOrder SubscriptionId Subscriber} {tasks' : BusTasks}
    (hproceeds : tasks.Proceeds order tasks') (hsound : tasks.Sound) (hfree : tasks.Free) :
    tasks'.Free := by
  obtain ⟨move, hcall, hstep⟩ := hproceeds
  refine hfree.step hsound ?_ (moves_of_taskStep hstep)
  cases move with
  | call task command => exact absurd rfl (hcall task command)
  | _ => trivial

theorem exists_finish (order : HashOrder SubscriptionId Subscriber) (hsound : tasks.Sound)
    {task : Nat} (hhandles : task ∈ tasks.handling.map Prod.fst) (hidle : task ∉ tasks.callers) :
    ∃ tasks', tasks.Proceeds order tasks' ∧ tasks'.commands = tasks.commands ∧
      tasks'.workload < tasks.workload := by
  obtain ⟨mine, hmine, hmineTask⟩ := List.mem_map.mp hhandles
  obtain ⟨handled, hfind⟩ : ∃ handled,
      (tasks.handling.find? fun handled => handled.1 = task) = some handled := by
    refine Option.isSome_iff_exists.mp (List.find?_isSome.mpr ⟨mine, hmine, ?_⟩)
    exact decide_eq_true hmineTask
  have hmem := List.mem_of_find?_eq_some hfind
  have hshorter : (tasks.handling.erase handled).length < tasks.handling.length := by
    rw [List.length_erase_of_mem hmem]
    exact Nat.sub_lt (List.length_pos_of_mem hmem) Nat.one_pos
  cases hack : handled.2.ack? with
  | none =>
      refine ⟨{ tasks with handling := tasks.handling.erase handled },
        ⟨.finish task true, nofun, ?_⟩, rfl, Nat.add_lt_add_left hshorter _⟩
      simp only [taskStep, finish, if_neg hidle, hfind, hack]
  | some ack =>
      have hheld : ack ∈ tasks.bus.held :=
        hsound.held.mem_iff.mpr (List.mem_filterMap.mpr ⟨handled, hmem, hack⟩)
      refine ⟨{ tasks with
          bus := { tasks.bus with
            acks := Function.update tasks.bus.acks ack .sent
            held := tasks.bus.held.erase ack }
          handling := tasks.handling.erase handled },
        ⟨.finish task true, nofun, ?_⟩, rfl, Nat.add_lt_add_left hshorter _⟩
      simp only [taskStep, finish, if_neg hidle, hfind, hack, if_true, busStep, Bus.finish,
        if_pos hheld, Option.map_some]

/-- A task that waits for no reply and handles nothing can receive what is in its
queue. -/
theorem exists_receive (order : HashOrder SubscriptionId Subscriber) {task queue : Nat}
    (hidle : task ∉ tasks.callers) (howner : tasks.owner queue = some task)
    (hready : task ∉ tasks.handling.map Prod.fst) (hopened : queue < tasks.bus.opened)
    (hitems : (tasks.bus.queues queue).items ≠ []) :
    ∃ tasks', tasks.Proceeds order tasks' ∧ tasks'.commands = tasks.commands ∧
      tasks'.workload < tasks.workload := by
  obtain ⟨delivery, rest, hrecv⟩ := BoundedQueue.exists_recv hitems
  have hqueue := BoundedQueue.items_of_recv hrecv
  refine ⟨{ tasks with
      bus := { tasks.bus with
        queues := Function.update tasks.bus.queues queue rest
        held := tasks.bus.held ++ delivery.ack?.toList }
      handling := tasks.handling ++ [(task, delivery)] }, ⟨.receive task queue, nofun, ?_⟩, rfl, ?_⟩
  · simp only [taskStep, receive, if_neg (not_or.mpr ⟨hidle, not_or.mpr ⟨not_not.mpr howner,
      hready⟩⟩), hqueue, List.head?_cons, busStep, Bus.take, hrecv, Option.map_some]
  · have hlength (other : Nat) : (tasks.bus.queues other).items.length =
        (Function.update tasks.bus.queues queue rest other).items.length +
          if other = queue then 1 else 0 := by
      by_cases hother : other = queue
      · subst hother
        rw [Function.update_self, hqueue, if_pos rfl, List.length_cons]
      · rw [Function.update_of_ne hother, if_neg hother, Nat.add_zero]
    have hsum := Finset.sum_congr (rfl : Finset.range tasks.bus.opened = _)
      fun other _ => hlength other
    rw [Finset.sum_add_distrib, Finset.sum_ite_eq', if_pos (Finset.mem_range.mpr hopened)] at hsum
    simp only [workload, List.length_append, List.length_singleton]
    omega

theorem Free.exists_proceeds_of_queued (hfree : tasks.Free) (hsound : tasks.Sound)
    (order : HashOrder SubscriptionId Subscriber) {queue ack : Nat}
    (hqueue : ack ∈ (tasks.bus.queues queue).items.filterMap EventDelivery.ack?) :
    ∃ tasks', tasks.Proceeds order tasks' ∧ tasks'.commands = tasks.commands ∧
      tasks'.workload < tasks.workload := by
  have hitems : (tasks.bus.queues queue).items ≠ [] := by
    intro hempty
    rw [hempty] at hqueue
    cases hqueue
  have hopened : queue < tasks.bus.opened :=
    Nat.lt_of_not_le fun hunopened => hitems (hsound.accounted.unopened queue hunopened)
  obtain ⟨task, howner⟩ : ∃ task, tasks.owner queue = some task := by
    refine Option.isSome_iff_exists.mp ?_
    rw [← hsound.owned queue hopened, ← Bool.not_eq_false]
    exact fun hclosed => hitems (hsound.closed queue hclosed)
  have hidle : task ∉ tasks.callers := fun hcaller =>
    (hfree.unburdened task hcaller).not_owes hsound ack (.inr ⟨queue, howner, hqueue⟩)
  by_cases hhandles : task ∈ tasks.handling.map Prod.fst
  · exact exists_finish order hsound hhandles hidle
  · exact exists_receive order hidle howner hhandles hopened hitems

/-- An offer places at most one delivery, and asks for at most one
acknowledgement. -/
theorem workload_of_offered {sync : Bool} {event : Event} {id : SubscriptionId}
    {subscriber : Subscriber} {remaining : List (Sigma fun _ : SubscriptionId => Subscriber)}
    {delivered : Nat} {ackReceivers : List Nat} {bus : Bus}
    (hphase : tasks.bus.phase =
      .publishing sync event (⟨id, subscriber⟩ :: remaining) delivered ackReceivers)
    (hoffered : Bus.Offered sync event id subscriber remaining delivered ackReceivers tasks.bus
      bus) : workload { tasks with bus } < tasks.workload := by
  have hload : phaseWorkload bus.phase + 2 < phaseWorkload tasks.bus.phase := by
    rw [hphase]
    cases hoffered <;> simp only [phaseWorkload, List.length_cons, List.length_append,
      List.length_nil] <;> omega
  have hopened : bus.opened = tasks.bus.opened := by
    cases hoffered <;> rfl
  have hsum := Finset.sum_le_sum fun queue (_ : queue ∈ Finset.range tasks.bus.opened) =>
    (Bus.queue_of_offered hoffered queue).2.2.2
  rw [Finset.sum_add_distrib, Finset.sum_ite_eq'] at hsum
  simp only [workload, hopened]
  split at hsum <;> omega

/-- Busy with a publication, somebody can always go on without a call: the loop,
or the task it waits for. -/
theorem Free.exists_proceeds (hfree : tasks.Free) (hsound : tasks.Sound)
    (order : HashOrder SubscriptionId Subscriber) (hbusy : tasks.bus.phase ≠ .receiving) :
    ∃ tasks', tasks.Proceeds order tasks' ∧ tasks'.commands = tasks.commands ∧
      tasks'.workload < tasks.workload := by
  cases hphase : tasks.bus.phase with
  | receiving => exact absurd hphase hbusy
  | publishing sync event remaining delivered ackReceivers =>
      cases remaining with
      | nil =>
          refine ⟨{ tasks with bus := { tasks.bus with
            phase := .awaiting event delivered ackReceivers.length ackReceivers } },
            ⟨.endLoop, (by simp), ?_⟩, rfl, ?_⟩
          · simp only [taskStep, busStep, hphase, Option.map_some]
          · simp only [workload, phaseWorkload, hphase]
            omega
      | cons entry remaining =>
          obtain ⟨id, subscriber⟩ := entry
          have hoffered := Bus.offer_cases sync event id subscriber remaining delivered ackReceivers
            tasks.bus
          refine ⟨{ tasks with
              bus := tasks.bus.offer sync event id subscriber remaining delivered ackReceivers },
            ⟨.tryNext, (by simp), ?_⟩, rfl, workload_of_offered hphase hoffered⟩
          simp only [taskStep, busStep, hphase, Option.map_some]
  | awaiting event delivered syncCount ackReceivers =>
      cases ackReceivers with
      | nil =>
          refine ⟨{ tasks with bus := { tasks.bus with phase := .receiving }, caller := none },
            ⟨.reply, (by simp), ?_⟩, rfl, ?_⟩
          · simp only [taskStep, busStep, hphase, Option.map_some]
          · simp only [workload, phaseWorkload, hphase]
            omega
      | cons ack ackReceivers =>
          by_cases hpending : tasks.bus.acks ack = .pending
          · have hwaiting : ack ∈ tasks.bus.waitingFor := by
              rw [Bus.waitingFor_of_awaiting hphase]
              exact List.mem_cons_self
            have hmade := hsound.accounted.waitedMade ack hwaiting
            rcases hsound.accounted.outstanding ack hmade hpending with ⟨queue, hqueue⟩ | hheld
            · exact hfree.exists_proceeds_of_queued hsound order hqueue
            · obtain ⟨handled, hmem, hack⟩ :=
                List.mem_filterMap.mp (hsound.held.mem_iff.mp hheld)
              refine exists_finish order hsound (List.mem_map_of_mem hmem) fun hcaller => ?_
              exact (hfree.unburdened _ hcaller).not_owes hsound ack
                (.inl ⟨handled.2, hmem, hack⟩)
          · refine ⟨{ tasks with bus := { tasks.bus with
              phase := .awaiting event delivered syncCount ackReceivers } },
              ⟨.ackResolved, (by simp), ?_⟩, rfl, ?_⟩
            · simp only [taskStep, busStep, hphase, if_neg hpending, Option.map_some]
            · simp only [workload, phaseWorkload, hphase, List.length_cons]
              omega

theorem Free.exists_receiving (hfree : tasks.Free) (hsound : tasks.Sound)
    (order : HashOrder SubscriptionId Subscriber) :
    ∃ tasks', Relation.ReflTransGen (Proceeds order) tasks tasks' ∧
      tasks'.bus.phase = .receiving ∧ tasks'.commands = tasks.commands ∧ tasks'.Sound ∧
        tasks'.Free := by
  induction hload : tasks.workload using Nat.strong_induction_on generalizing tasks with
  | h load ih =>
      by_cases hphase : tasks.bus.phase = .receiving
      · exact ⟨tasks, .refl, hphase, rfl, hsound, hfree⟩
      · obtain ⟨next, hproceeds, hcommands, hless⟩ := hfree.exists_proceeds hsound order hphase
        obtain ⟨tasks', hrest, hreceiving, hsame, hsound', hfree'⟩ :=
          ih next.workload (hload ▸ hless) (hproceeds.free hsound hfree) (hproceeds.sound hsound) rfl
        exact ⟨tasks', .head hproceeds hrest, hreceiving, hsame.trans hcommands, hsound', hfree'⟩

theorem exists_processed (order : HashOrder SubscriptionId Subscriber)
    (hphase : tasks.bus.phase = .receiving) {task : Nat} {command : BusCommand}
    {commands : List (Nat × BusCommand)} (hcommands : tasks.commands = (task, command) :: commands)
    (fresh : SubscriptionId) :
    ∃ tasks', taskStep order tasks (.process fresh) = some tasks' ∧ tasks'.commands = commands := by
  cases command <;>
    simp only [taskStep, hcommands, BusCommand.move, busStep, hphase, Option.map_some,
      Option.some.injEq, exists_eq_left']

theorem Free.exists_head (hfree : tasks.Free) (hsound : tasks.Sound)
    (order : HashOrder SubscriptionId Subscriber) {before after : List (Nat × BusCommand)}
    {task : Nat} {command : BusCommand}
    (hcommands : tasks.commands = before ++ (task, command) :: after) :
    ∃ tasks', Relation.ReflTransGen (Proceeds order) tasks tasks' ∧
      tasks'.bus.phase = .receiving ∧ tasks'.commands = (task, command) :: after := by
  induction before generalizing tasks with
  | nil =>
      obtain ⟨tasks', hreach, hphase, hsame, -⟩ := hfree.exists_receiving hsound order
      exact ⟨tasks', hreach, hphase, hsame.trans hcommands⟩
  | cons head before ih =>
      obtain ⟨other, otherCommand⟩ := head
      obtain ⟨idle, hidle, hphase, hsame, hsound', hfree'⟩ := hfree.exists_receiving hsound order
      obtain ⟨next, hstep, hnext⟩ := exists_processed order hphase (hsame.trans hcommands) ⟨0⟩
      have hproceeds : idle.Proceeds order next := ⟨.process ⟨0⟩, nofun, hstep⟩
      obtain ⟨tasks', hrest, hdone⟩ :=
        ih (hproceeds.free hsound' hfree') (hproceeds.sound hsound') hnext
      exact ⟨tasks', hidle.trans (.head hproceeds hrest), hdone⟩

/--
As long as tasks call the bus only when they have nothing to acknowledge, and
will not be asked before their call is answered, the loop never waits for a task
that waits for the loop; and an unsubscription that was sent, whatever the loop is
at, is processed once the tasks finish their deliveries.
-/
theorem noDeadlock_of_callsFree (order : HashOrder SubscriptionId Subscriber)
    (moves : List TaskMove) (tasks : BusTasks)
    (hrun : Steps (guarded CallsFree fun source move target =>
      taskStep order source move = some target) .new moves tasks) :
    ¬ tasks.Deadlocked ∧
    ∀ before task id after fresh, tasks.commands = before ++ (task, .unsubscribe id) :: after →
      ∃ reached processed, Relation.ReflTransGen (Proceeds order) tasks reached ∧
        reached.commands = (task, .unsubscribe id) :: after ∧
        taskStep order reached (.process fresh) = some processed := by
  let Kept (current : BusTasks) : Prop := current.Sound ∧ current.Free
  have hkept : Kept tasks := by
    refine hrun.invariant_of_guarded ?_ ⟨sound_new, free_new⟩
    rintro source move target ⟨hsound, hfree⟩ hguard hstep
    have hmoves := moves_of_taskStep hstep
    exact ⟨hsound.step hmoves, hfree.step hsound hguard hmoves⟩
  obtain ⟨hsound, hfree⟩ := hkept
  refine ⟨hfree.not_deadlocked hsound, fun before task id after fresh hcommands => ?_⟩
  obtain ⟨reached, hreach, hphase, hhead⟩ := hfree.exists_head hsound order hcommands
  obtain ⟨processed, hstep, -⟩ := exists_processed order hphase hhead fresh
  exact ⟨reached, processed, hreach, hhead, hstep⟩

/-- An unsubscription is sent while the loop waits for a subscriber. -/
def unsubscribeWhileWaiting : List TaskMove :=
  [.call 0 (.subscribe [.mailboxCreated] .sync), .process ⟨1⟩,
    .call 1 (.publishSync (.mailboxCreated "ann" "box")), .process ⟨2⟩, .tryNext, .endLoop,
    .call 2 (.unsubscribe ⟨1⟩)]

theorem noDeadlock_of_callsFree_waiting :
    ∃ tasks, Steps (guarded CallsFree fun source move target =>
        taskStep .listed source move = some target) .new unsubscribeWhileWaiting tasks ∧
      ¬ tasks.Deadlocked := by
  obtain ⟨tasks, htasks⟩ := Option.isSome_iff_exists.mp (show (unsubscribeWhileWaiting.foldlM
    (fun source move => if CallsFree source move then taskStep .listed source move else none)
      .new).isSome from by decide +kernel)
  have hrun := Steps.guarded_of_foldlM htasks
  exact ⟨tasks, hrun, (noDeadlock_of_callsFree .listed _ tasks hrun).1⟩

/-- A handler that publishes: the loop waits for its acknowledgement, and the
handler for its reply. -/
def handlerPublishes : List TaskMove :=
  [.call 0 (.subscribe [.mailboxCreated] .sync), .process ⟨1⟩,
    .call 1 (.publishSync (.mailboxCreated "ann" "box")), .process ⟨2⟩, .tryNext, .endLoop,
    .receive 0 0, .call 0 (.publish (.mailboxDeleted "ann" "box"))]

theorem handler_that_publishes_deadlocks :
    ∃ tasks, Steps (fun source move target => taskStep .listed source move = some target) .new
        handlerPublishes tasks ∧ tasks.Deadlocked := by
  have hrun : (handlerPublishes.foldlM (taskStep .listed) .new).map (fun tasks =>
      tasks.waitsFor 0 0) = some true := by
    decide +kernel
  obtain ⟨tasks, htasks, hwaits⟩ := Option.map_eq_some_iff.mp hrun
  exact ⟨tasks, Steps.of_foldlM htasks, deadlocked_of_waitsFor hwaits⟩

end BusTasks

end Scuttled
