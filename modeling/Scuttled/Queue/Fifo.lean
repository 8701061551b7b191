import Scuttled.Foundation.SharedObject
import Scuttled.Queue.ChannelQueue

/-!
# First in, first out

What the queue is for: one list of tasks, taken from the front.  The queue with its
channel and its writer loop is that list to all its clients at once, so tasks are not
overtaken, whatever is removed, cleared or given up meanwhile.
-/

namespace Scuttled

open Foundation

/-! ## The list of tasks -/

/-- What a client may do with the queue. -/
inductive QueueOp (Content : Type) where
  | enqueue (task : QueueTask Content)
  | dequeue
  | remove (id : BitVec 128)
  | clear
  | peek
  | len
  | isEmpty

inductive QueueResult (Content : Type) where
  | enqueued
  | dequeued (task : Option (QueueTask Content))
  | removed (found : Bool)
  | cleared
  | front (task : Option (QueueTask Content))
  | length (length : Nat)
  | empty (empty : Bool)

/-- The queue as a list of tasks. -/
def fifo (Content : Type) :
    Machine (List (QueueTask Content)) (QueueOp Content) (QueueResult Content) where
  step tasks
    | .enqueue task => (tasks ++ [task], .enqueued)
    | .dequeue => (tasks.tail, .dequeued tasks.head?)
    | .remove id =>
        (tasks.eraseP fun task => task.id = id, .removed (tasks.any fun task => task.id = id))
    | .clear => ([], .cleared)
    | .peek => (tasks, .front tasks.head?)
    | .len => (tasks, .length tasks.length)
    | .isEmpty => (tasks, .empty tasks.isEmpty)

/-- The list among its clients: writes go through `channel(100)`, reads take the lock. -/
def queueService (Content : Type) :
    Service (List (QueueTask Content)) (QueueOp Content) (QueueResult Content) where
  object := fifo Content
  direct
    | .enqueue _ | .dequeue | .remove _ | .clear => false
    | .peek | .len | .isEmpty => true
  capacity := queueChannelCapacity

/-- The tasks that are enqueued, in order. -/
def enqueuedBy {Content : Type} (ops : List (QueueOp Content)) : List (QueueTask Content) :=
  ops.filterMap fun
    | .enqueue task => some task
    | _ => none

section Fifo

variable {Content : Type} {tasks : List (QueueTask Content)} {ops : List (QueueOp Content)}

@[simp] theorem enqueuedBy_append (first second : List (QueueOp Content)) :
    enqueuedBy (first ++ second) = enqueuedBy first ++ enqueuedBy second :=
  List.filterMap_append

theorem enqueuedBy_sublist {ops' : List (QueueOp Content)} (hops : ops.Sublist ops') :
    (enqueuedBy ops).Sublist (enqueuedBy ops') :=
  hops.filterMap _

/-- The tasks in the queue are those that were there and those that were enqueued, in
order; some are gone. -/
theorem fifo_final_sublist (tasks : List (QueueTask Content)) (ops : List (QueueOp Content)) :
    ((fifo Content).final tasks ops).Sublist (tasks ++ enqueuedBy ops) := by
  induction ops using List.reverseRecOn with
  | nil => exact List.sublist_append_left _ _
  | append_singleton ops op ih =>
      rw [Machine.final_append, enqueuedBy_append, ← List.append_assoc]
      have hkept : ((fifo Content).final tasks ops).Sublist
          (tasks ++ enqueuedBy ops ++ enqueuedBy [op]) :=
        ih.trans (List.sublist_append_left _ _)
      cases op with
      | enqueue task => exact ih.append (List.Sublist.refl [task])
      | dequeue => exact (List.tail_sublist _).trans hkept
      | remove id => exact (List.eraseP_sublist).trans hkept
      | clear => exact List.nil_sublist _
      | peek | len | isEmpty => exact hkept

/-- When a task is at the front, those enqueued before it are not in the queue any more. -/
theorem not_overtaken {past between : List (QueueOp Content)} {later : List (QueueTask Content)}
    {task task' : QueueTask Content}
    (hnodup : (enqueuedBy past ++ (enqueuedBy between ++ later)).Nodup)
    (horder : [task, task'].Sublist (enqueuedBy past ++ (enqueuedBy between ++ later)))
    (hfront : ((fifo Content).final [] past).head? = some task') :
    ((fifo Content).final ((fifo Content).final [] past).tail between).head? ≠ some task := by
  obtain ⟨behind, hqueue⟩ := List.head?_eq_some_iff.mp hfront
  have hpast := fifo_final_sublist [] past
  rw [hqueue, List.nil_append] at hpast
  obtain ⟨hpastNodup, -, hapart⟩ := List.nodup_append'.mp hnodup
  -- the front task was enqueued by then, and so was the one before it
  have hpair : [task, task'].Sublist (enqueuedBy past) := by
    obtain ⟨early, late, hsplit, hearly, hlate⟩ := List.sublist_append_iff.mp horder
    have hmem : task' ∈ enqueuedBy past := hpast.subset List.mem_cons_self
    have hnone : late = [] := by
      refine List.eq_nil_iff_forall_not_mem.mpr fun one hone => hapart hmem (hlate.subset ?_)
      have hlast : task' ∈ late := by
        cases late using List.reverseRecOn with
        | nil => cases hone
        | append_singleton late last =>
            rw [← List.append_assoc] at hsplit
            have hsame := (List.append_inj' (show [task] ++ [task'] = early ++ late ++ [last] from hsplit)
              rfl).2
            exact List.mem_append_right _ (hsame ▸ List.mem_cons_self)
      exact hlast
    rw [hnone, List.append_nil] at hsplit
    exact hsplit ▸ hearly
  rw [hqueue, List.tail_cons]
  intro hagain
  have hmem : task ∈ behind ++ enqueuedBy between :=
    (fifo_final_sublist behind between).subset (List.mem_of_head? hagain)
  rcases List.mem_append.mp hmem with hbehind | hbetween
  · refine not_pair_sublist_of_nodup hpastNodup hpair (List.Sublist.trans ?_ hpast)
    exact (List.singleton_sublist.mpr hbehind).cons_cons task'
  · exact hapart (hpair.subset List.mem_cons_self) (List.mem_append_left _ hbetween)

end Fifo

/-! ## Nobody is overtaken -/

section Order

variable {Content : Type} {events : List (SharedEvent (QueueOp Content))}

/-- What the clients of the queue see. -/
abbrev taskHistory (events : List (SharedEvent (QueueOp Content))) :
    List (CallEvent (QueueOp Content) (QueueResult Content)) :=
  Shared.history (queueService Content) [] events

theorem nodup_turns (hdistinct : (enqueuedBy (Shared.asked events)).Nodup) :
    (enqueuedBy ((Shared.turns (queueService Content) [] events).map Prod.snd)).Nodup := by
  obtain ⟨ops, hperm, hsublist⟩ := Shared.subperm_asked (queueService Content) [] events
  exact ((hperm.filterMap _).nodup_iff).mp (hdistinct.sublist (hsublist.filterMap _))

/--
One task is enqueued before another, and the other is dequeued: whoever asks after that
does not get the one, whatever else is removed, cleared or given up.
-/
theorem fifo_order (hdistinct : (enqueuedBy (Shared.asked events)).Nodup)
    {task task' : QueueTask Content} {first second one other : Nat}
    {found : Option (QueueTask Content)}
    (hfirst : .invoke first (.enqueue task) ∈ taskHistory events)
    (hfirst' : .respond first (some .enqueued) ∈ taskHistory events)
    (hsecond : .invoke second (.enqueue task') ∈ taskHistory events)
    (hsecond' : .respond second (some .enqueued) ∈ taskHistory events)
    (horder : ReturnsBefore (taskHistory events) first second)
    (hone : .invoke one .dequeue ∈ taskHistory events)
    (hone' : .respond one (some (.dequeued (some task'))) ∈ taskHistory events)
    (hother : .invoke other .dequeue ∈ taskHistory events)
    (hother' : .respond other (some (.dequeued found)) ∈ taskHistory events)
    (hbefore : ReturnsBefore (taskHistory events) one other) :
    found ≠ some task := by
  have hnodup := nodup_turns hdistinct
  obtain ⟨past, between, rest, hturns, hfront, hfound⟩ :=
    Shared.inTurn_of_returnsBefore hone hone' hother hother' hbefore
  have henqueued : [task, task'].Sublist
      (enqueuedBy ((Shared.turns (queueService Content) [] events).map Prod.snd)) := by
    obtain ⟨past, between, rest, hturns, -, -⟩ :=
      Shared.inTurn_of_returnsBefore hfirst hfirst' hsecond hsecond' horder
    have hpair : [QueueOp.enqueue task, .enqueue task'].Sublist
        ((Shared.turns (queueService Content) [] events).map Prod.snd) := by
      rw [hturns]
      simp [List.sublist_append_of_sublist_right]
    exact enqueuedBy_sublist hpair
  have hsplit : enqueuedBy ((Shared.turns (queueService Content) [] events).map Prod.snd) =
      enqueuedBy (past.map Prod.snd) ++
        (enqueuedBy (between.map Prod.snd) ++ enqueuedBy (rest.map Prod.snd)) := by
    rw [hturns, List.map_append, List.map_cons, List.map_append, List.map_cons, enqueuedBy_append]
    congr 1
    exact enqueuedBy_append _ _
  rw [hsplit] at hnodup henqueued
  have hnot := not_overtaken hnodup henqueued (QueueResult.dequeued.inj hfront).symm
  rintro rfl
  exact hnot (QueueResult.dequeued.inj hfound).symm

/-- Two tasks are enqueued one after the other and dequeued; then there is none. -/
def twoTasks : List (SharedEvent (QueueOp Nat)) :=
  [.call (.operation (.enqueue ⟨1, 10⟩)), .send 0, .receive, .process, .take 0,
    .call (.operation (.enqueue ⟨2, 20⟩)), .call (.operation .dequeue), .send 1, .send 2, .receive,
    .process, .take 1, .receive, .process, .call (.operation .dequeue), .send 3, .abandon 2,
    .receive, .process, .take 3, .call (.operation .dequeue), .send 4, .receive, .process, .take 4]

theorem taskHistory_twoTasks :
    taskHistory twoTasks =
      [.invoke 0 (.enqueue ⟨1, 10⟩), .respond 0 (some .enqueued), .invoke 1 (.enqueue ⟨2, 20⟩),
        .invoke 2 .dequeue, .respond 1 (some .enqueued), .invoke 3 .dequeue,
        .respond 3 (some (.dequeued (some ⟨2, 20⟩))), .invoke 4 .dequeue,
        .respond 4 (some (.dequeued none))] := by
  rfl

/-- The law for this history: who dequeues last does not get the first task. -/
theorem fifo_order_twoTasks : ∃ found,
    .respond 4 (some (.dequeued found)) ∈ taskHistory twoTasks ∧ found ≠ some ⟨1, 10⟩ := by
  have hdistinct : (enqueuedBy (Shared.asked twoTasks)).Nodup := by
    simp [enqueuedBy, Shared.asked, twoTasks, Request.operation?]
  have horder : ReturnsBefore (taskHistory twoTasks) 0 1 := by
    rw [taskHistory_twoTasks]
    exact ⟨.enqueued, .enqueue ⟨2, 20⟩, by simp⟩
  have hbefore : ReturnsBefore (taskHistory twoTasks) 3 4 := by
    rw [taskHistory_twoTasks]
    refine ⟨.dequeued (some ⟨2, 20⟩), .dequeue, ?_⟩
    exact .cons _ (.cons _ (.cons _ (.cons _ (.cons _ (.cons _ (.cons_cons _ (.cons_cons _
      (List.nil_sublist _))))))))
  have hsecond : .invoke 1 (.enqueue ⟨2, 20⟩) ∈ taskHistory twoTasks := by
    simp [taskHistory_twoTasks]
  refine ⟨none, ?_, fifo_order hdistinct ?_ ?_ hsecond ?_ horder ?_ ?_ ?_ ?_ hbefore⟩ <;>
    simp [taskHistory_twoTasks]

end Order

/-! ## The channel and the writer loop are such a list -/

section Refinement

variable {Content : Type}

/-- The command as a request to the list. -/
def QueueCommand.request : QueueCommand Content → Request (QueueOp Content)
  | .enqueue task => .operation (.enqueue task)
  | .dequeue => .operation .dequeue
  | .remove id => .operation (.remove id)
  | .clear => .operation .clear
  | .shutdown => .shutdown

def QueueRead.op : QueueRead → QueueOp Content
  | .peek => .peek
  | .len => .len
  | .isEmpty => .isEmpty

/-- What the list answers, if it is asked at all. -/
def QueueAnswer.result? : QueueAnswer Content → Option (QueueResult Content)
  | .enqueued => some .enqueued
  | .dequeued task => some (.dequeued (task.map Prod.snd))
  | .removed found => some (.removed found)
  | .cleared => some .cleared
  | .front task => some (.front (task.map Prod.snd))
  | .length count => some (.length count)
  | .empty holds => some (.empty holds)
  | .stopped | .failed _ => none

def CallPhase.stage : CallPhase Content → CallStage (QueueOp Content) (QueueResult Content)
  | .sending command => .sending command.request
  | .waiting _ => .waiting
  | .reading read => .sending (.operation read.op)
  | .replied answer => .replied answer.result?
  | .returned _ => .returned
  | .gone => .gone

def QueueEvent.shared : QueueEvent Content → SharedEvent (QueueOp Content)
  | .call command => .call command.request
  | .ask read => .call (.operation read.op)
  | .look number => .perform number
  | .send number => .send number
  | .receive => .receive
  | .process => .process
  | .return number => .take number
  | .abandon number => .abandon number

namespace ChannelQueue

/-- What is seen of a step from outside. -/
def seen (queue : ChannelQueue Content) :
    QueueEvent Content → Option (CallEvent (QueueOp Content) (QueueResult Content))
  | .call command => command.request.operation?.map fun op => .invoke queue.calls.length op
  | .ask read => some (.invoke queue.calls.length read.op)
  | event => (queue.step event).2.map fun answered => .respond answered.1 answered.2.result?

/-- What the clients of the queue see along a run. -/
def history (events : List (QueueEvent Content)) :
    List (CallEvent (QueueOp Content) (QueueResult Content)) :=
  machine.observed (fun queue event => (queue.seen event).toList) new events

/-- The queue without its numbers is the list among its clients. -/
structure Refines (queue : ChannelQueue Content)
    (shared : Shared (List (QueueTask Content)) (QueueOp Content) (QueueResult Content)) :
    Prop where
  state : shared.state = queue.state.map Prod.snd
  channel : shared.channel = queue.channel.map fun entry => (entry.1, entry.2.request)
  current : shared.current = queue.current.map fun entry => (entry.1, entry.2.request)
  stopped : shared.stopped = queue.stopped
  calls : shared.calls = queue.calls.map CallPhase.stage

variable {queue : ChannelQueue Content}
  {shared : Shared (List (QueueTask Content)) (QueueOp Content) (QueueResult Content)}

theorem refines_new : Refines (new : ChannelQueue Content) (Shared.new []) := by
  constructor <;> rfl

theorem Refines.set (hrefines : queue.Refines shared) (call : Nat) (phase : CallPhase Content) :
    Refines { queue with calls := queue.calls.set call phase }
      { shared with calls := shared.calls.set call phase.stage } where
  state := hrefines.state
  channel := hrefines.channel
  current := hrefines.current
  stopped := hrefines.stopped
  calls := by rw [hrefines.calls, List.map_set]

theorem Refines.getElem? (hrefines : queue.Refines shared) (call : Nat) :
    shared.calls[call]? = (queue.calls[call]?).map CallPhase.stage := by
  rw [hrefines.calls, List.getElem?_map]

theorem Refines.reply (hrefines : queue.Refines shared) (call : Nat) (answer : QueueAnswer Content)
    {result : QueueResult Content} (hresult : answer.result? = some result) :
    (queue.reply call answer).Refines (shared.reply call result) := by
  have hcall := hrefines.getElem? call
  unfold ChannelQueue.reply Shared.reply
  cases hphase : queue.calls[call]? with
  | none =>
      rw [hphase] at hcall
      rw [hcall]
      exact hrefines
  | some phase =>
      rw [hphase] at hcall
      rw [hcall]
      cases phase with
      | waiting command =>
          have hset := hrefines.set call (.replied answer)
          rw [CallPhase.stage, hresult] at hset
          exact hset
      | sending command => exact hrefines
      | reading read => exact hrefines
      | replied answered => exact hrefines
      | returned answered => exact hrefines
      | gone => exact hrefines

theorem result_refused (command : QueueCommand Content) (reason : String) :
    (command.refused reason).result? = none := by
  cases command <;> rfl

theorem stages_stop_reply (call : Nat) (queue : ChannelQueue Content) :
    ((queue.reply call .stopped).stop).calls.map CallPhase.stage =
      (queue.calls.map CallPhase.stage).map CallStage.dropped := by
  have hstages (queue : ChannelQueue Content) : queue.stop.calls.map CallPhase.stage =
      (queue.calls.map CallPhase.stage).map CallStage.dropped := by
    simp only [ChannelQueue.stop, List.map_map]
    refine List.map_congr_left fun phase _ => ?_
    cases phase with
    | waiting command => exact congrArg CallStage.replied (result_refused command _)
    | _ => rfl
  rw [hstages]
  unfold ChannelQueue.reply
  split
  · rename_i hwaiting
    have hdropped : ((queue.calls.map CallPhase.stage).map CallStage.dropped)[call]? =
        some (.replied none) := by
      rw [List.getElem?_map, List.getElem?_map, hwaiting]
      rfl
    obtain ⟨hlt, hstage⟩ := List.getElem?_eq_some_iff.mp hdropped
    have hsame : (CallPhase.replied (.stopped : QueueAnswer Content)).stage.dropped =
        ((queue.calls.map CallPhase.stage).map CallStage.dropped)[call] := hstage.symm
    rw [List.map_set, List.map_set, hsame]
    exact List.set_getElem_self hlt
  · rfl

/-- The writer loop serves a command as the list performs its operation. -/
theorem Refines.serve (hrefines : queue.Refines shared) (call : Nat)
    (command : QueueCommand Content) :
    (queue.serve call command).Refines
      (shared.serve (queueService Content) call command.request) := by
  -- the state on both sides is what the rest of the proof is about
  have happly {state : List (Nat × QueueTask Content)} (enqueued dequeued removed cleared : List Nat)
      (op : QueueOp Content)
      (hstate : ((fifo Content).step (queue.state.map Prod.snd) op).1 = state.map Prod.snd) :
      Refines { queue with state, enqueued, dequeued, removed, cleared }
        (shared.apply (queueService Content) call op) := by
    refine ⟨?_, hrefines.channel, hrefines.current, hrefines.stopped, hrefines.calls⟩
    rw [← hstate, ← hrefines.state]
    rfl
  have hanswer (op : QueueOp Content) : ((queueService Content).object.step shared.state op).2 =
      ((fifo Content).step (queue.state.map Prod.snd) op).2 := by
    rw [hrefines.state]
    rfl
  cases command with
  | enqueue task =>
      refine (happly (queue.enqueued ++ [call]) queue.dequeued queue.removed queue.cleared
        (.enqueue task) ?_).reply call .enqueued rfl
      rw [List.map_append]
      rfl
  | dequeue =>
      simp only [ChannelQueue.serve, ChannelQueue.popFront, Shared.serve, QueueCommand.request,
        hanswer]
      cases hqueue : queue.state with
      | nil =>
          have hsame := @happly queue.state queue.enqueued queue.dequeued queue.removed queue.cleared
            .dequeue (by rw [hqueue]; rfl)
          exact hsame.reply call (.dequeued none) rfl
      | cons entry rest =>
          refine (happly queue.enqueued (queue.dequeued ++ [entry.1]) queue.removed queue.cleared
            .dequeue ?_).reply call (.dequeued (some entry)) rfl
          rw [hqueue]
          rfl
  | remove id =>
      simp only [ChannelQueue.serve, ChannelQueue.removeFirst, Shared.serve, QueueCommand.request,
        hanswer]
      have herased : ((fifo Content).step (queue.state.map Prod.snd) (.remove id)).1 =
          (queue.state.eraseP fun entry => entry.2.id = id).map Prod.snd := List.eraseP_map
      have hfound : ((fifo Content).step (queue.state.map Prod.snd) (.remove id)).2 =
          .removed (queue.state.findIdx? fun entry => entry.2.id = id).isSome := by
        rw [List.findIdx?_isSome]
        exact congrArg QueueResult.removed List.any_map
      rw [List.eraseP_eq_eraseIdx] at herased
      rw [hfound]
      cases hindex : queue.state.findIdx? fun entry => entry.2.id = id with
      | none =>
          rw [hindex] at herased
          exact (happly queue.enqueued queue.dequeued queue.removed queue.cleared (.remove id)
            herased).reply call (.removed false) rfl
      | some index =>
          rw [hindex] at herased
          exact (happly queue.enqueued queue.dequeued
            (queue.removed ++ (queue.state[index]?.map Prod.fst).toList) queue.cleared (.remove id)
            herased).reply call (.removed true) rfl
  | clear =>
      exact (happly queue.enqueued queue.dequeued queue.removed
        (queue.cleared ++ queue.state.map Prod.fst) .clear rfl).reply call .cleared rfl
  | shutdown =>
      refine ⟨?_, rfl, ?_, rfl, ?_⟩
      · exact hrefines.state.trans (congrArg _ (reply_state call .stopped queue).symm)
      · exact hrefines.current.trans (congrArg _ (reply_current call .stopped queue).symm)
      · refine Eq.trans ?_ (stages_stop_reply call queue).symm
        exact congrArg (List.map CallStage.dropped) hrefines.calls

theorem Refines.read (hrefines : queue.Refines shared) (read : QueueRead) :
    (queue.read read).result? = some ((fifo Content).step shared.state read.op).2 ∧
      ((fifo Content).step shared.state read.op).1 = shared.state := by
  rw [hrefines.state]
  cases read with
  | peek => exact ⟨by simp [ChannelQueue.read, QueueRead.op, QueueAnswer.result?, fifo], rfl⟩
  | len => exact ⟨by simp [ChannelQueue.read, QueueRead.op, QueueAnswer.result?, fifo], rfl⟩
  | isEmpty => exact ⟨by simp [ChannelQueue.read, QueueRead.op, QueueAnswer.result?, fifo], rfl⟩

theorem byClient_read (read : QueueRead) :
    (queueService Content).byClient (.operation read.op) = true := by
  cases read <;> rfl

theorem not_byClient (command : QueueCommand Content) :
    (queueService Content).byClient command.request = false := by
  cases command <;> rfl

/-- Both sides take a step alike, and the same is seen of it. -/
theorem Refines.step (hrefines : queue.Refines shared) (event : QueueEvent Content) :
    (queue.step event).1.Refines (shared.step (queueService Content) event.shared).1 ∧
      (shared.step (queueService Content) event.shared).2 = queue.seen event := by
  cases event with
  | call command =>
      refine ⟨⟨hrefines.state, hrefines.channel, hrefines.current, hrefines.stopped, ?_⟩, ?_⟩
      · change shared.calls ++ [CallStage.sending command.request] =
          (queue.calls ++ [CallPhase.sending command]).map CallPhase.stage
        rw [List.map_append, ← hrefines.calls]
        rfl
      · simp only [seen, QueueEvent.shared, Shared.step, hrefines.calls, List.length_map]
  | ask read =>
      refine ⟨⟨hrefines.state, hrefines.channel, hrefines.current, hrefines.stopped, ?_⟩, ?_⟩
      · change shared.calls ++ [CallStage.sending (.operation read.op)] =
          (queue.calls ++ [CallPhase.reading read]).map CallPhase.stage
        rw [List.map_append, ← hrefines.calls]
        rfl
      · simp only [seen, QueueEvent.shared, Shared.step, hrefines.calls, List.length_map,
          Request.operation?, Option.map_some]
  | look call =>
      have hcall := hrefines.getElem? call
      simp only [seen, ChannelQueue.step, QueueEvent.shared, Shared.step]
      cases hphase : queue.calls[call]? with
      | none =>
          rw [hcall, hphase]
          exact ⟨hrefines, rfl⟩
      | some phase =>
          rw [hcall, hphase]
          cases phase with
          | reading read =>
              obtain ⟨hresult, hstate⟩ := hrefines.read read
              have hdirect : (queueService Content).direct read.op = true := byClient_read read
              simp only [Option.map_some, CallPhase.stage, hdirect, if_true]
              refine ⟨⟨hstate.trans hrefines.state, hrefines.channel, hrefines.current,
                hrefines.stopped, ?_⟩, rfl⟩
              have hset := (hrefines.set call (.replied (queue.read read))).calls
              rw [CallPhase.stage, hresult] at hset
              exact hset
          | sending command =>
              cases command <;> exact ⟨hrefines, rfl⟩
          | waiting _ | replied _ | returned _ | gone => exact ⟨hrefines, rfl⟩
  | send call =>
      have hcall := hrefines.getElem? call
      simp only [seen, ChannelQueue.step, QueueEvent.shared, Shared.step]
      cases hphase : queue.calls[call]? with
      | none =>
          rw [hcall, hphase]
          exact ⟨hrefines, rfl⟩
      | some phase =>
          rw [hcall, hphase]
          cases phase with
          | sending command =>
              simp only [Option.map_some, CallPhase.stage, not_byClient, Bool.false_eq_true,
                if_false, hrefines.stopped, hrefines.channel, List.length_map]
              by_cases hstopped : queue.stopped = true
              · rw [if_pos hstopped, if_pos hstopped]
                refine ⟨⟨hrefines.state, rfl, hrefines.current, rfl,
                  (hrefines.set call (.returned (command.refused "Channel closed"))).calls⟩, ?_⟩
                simp only [Option.map_some, result_refused]
              · rw [if_neg hstopped, if_neg hstopped]
                by_cases hroom : queue.channel.length < queueChannelCapacity
                · rw [if_pos hroom, if_pos (show queue.channel.length <
                    (queueService Content).capacity from hroom)]
                  refine ⟨⟨hrefines.state, ?_, hrefines.current, rfl,
                    (hrefines.set call (.waiting command)).calls⟩, rfl⟩
                  rw [List.map_append]
                  rfl
                · rw [if_neg hroom, if_neg (show ¬ queue.channel.length <
                    (queueService Content).capacity from hroom)]
                  exact ⟨hrefines, rfl⟩
          | reading read =>
              simp only [Option.map_some, CallPhase.stage, byClient_read, if_true]
              exact ⟨hrefines, rfl⟩
          | waiting _ | replied _ | returned _ | gone => exact ⟨hrefines, rfl⟩
  | receive =>
      simp only [seen, ChannelQueue.step, QueueEvent.shared, Shared.step, hrefines.current,
        hrefines.channel]
      cases hcurrent : queue.current with
      | some entry => exact ⟨hrefines, rfl⟩
      | none =>
          cases hchannel : queue.channel with
          | nil => exact ⟨hrefines, rfl⟩
          | cons entry rest =>
              exact ⟨⟨hrefines.state, rfl, rfl, hrefines.stopped, hrefines.calls⟩, rfl⟩
  | process =>
      simp only [seen, ChannelQueue.step, QueueEvent.shared, Shared.step, hrefines.current]
      cases hcurrent : queue.current with
      | none => exact ⟨hrefines, rfl⟩
      | some entry =>
          have htaken : Refines { queue with current := none } { shared with current := none } :=
            ⟨hrefines.state, hrefines.channel, rfl, hrefines.stopped, hrefines.calls⟩
          exact ⟨htaken.serve entry.1 entry.2, rfl⟩
  | «return» call =>
      have hcall := hrefines.getElem? call
      simp only [seen, ChannelQueue.step, QueueEvent.shared, Shared.step]
      cases hphase : queue.calls[call]? with
      | none =>
          rw [hcall, hphase]
          exact ⟨hrefines, rfl⟩
      | some phase =>
          rw [hcall, hphase]
          cases phase with
          | replied answer => exact ⟨hrefines.set call (.returned answer), rfl⟩
          | sending _ | waiting _ | reading _ | returned _ | gone => exact ⟨hrefines, rfl⟩
  | abandon call =>
      have hcall := hrefines.getElem? call
      simp only [seen, ChannelQueue.step, QueueEvent.shared, Shared.step]
      cases hphase : queue.calls[call]? with
      | none =>
          rw [hcall, hphase]
          exact ⟨hrefines.set call .gone, rfl⟩
      | some phase =>
          rw [hcall, hphase]
          cases phase with
          | returned _ => exact ⟨hrefines, rfl⟩
          | sending _ | waiting _ | reading _ | replied _ | gone =>
              exact ⟨hrefines.set call .gone, rfl⟩

theorem Refines.final (hrefines : queue.Refines shared) (events : List (QueueEvent Content)) :
    (machine.final queue events).Refines
        ((Shared.machine (queueService Content)).final shared (events.map QueueEvent.shared)) ∧
      machine.observed (fun queue event => (queue.seen event).toList) queue events =
        (((Shared.machine (queueService Content)).transcript shared
          (events.map QueueEvent.shared)).filterMap Prod.snd) := by
  induction events generalizing queue shared with
  | nil => exact ⟨hrefines, rfl⟩
  | cons event rest ih =>
      obtain ⟨hnext, hseen⟩ := hrefines.step event
      obtain ⟨hfinal, hrest⟩ := ih hnext
      refine ⟨hfinal, ?_⟩
      rw [Machine.observed, List.map_cons, Machine.transcript_cons, Shared.filterMap_snd_cons]
      exact congrArg₂ (fun one rest => Option.toList one ++ rest) hseen.symm hrest

/--
However the calls of the clients overlap, and whichever are given up: what the queue
returns is what a list of tasks would have returned to the same calls one after the
other, in an order that respects which returned before which started, and what the queue
holds is what is in that list.
-/
theorem queue_linearizable (events : List (QueueEvent Content)) :
    ∃ turns : List (Nat × QueueOp Content),
      Linearizes (fifo Content) [] (history events) turns ∧
      (machine.final new events).state.map Prod.snd =
        (fifo Content).final [] (turns.map Prod.snd) := by
  obtain ⟨hrefines, hhistory⟩ := (refines_new : Refines (new : ChannelQueue Content) (Shared.new [])).final events
  obtain ⟨hlinear, hstate⟩ :=
    Shared.linearizes (queueService Content) [] (events.map QueueEvent.shared)
  refine ⟨Shared.turns (queueService Content) [] (events.map QueueEvent.shared), ?_, ?_⟩
  · rw [history, hhistory]
    exact hlinear
  · rw [← hrefines.state]
    exact hstate

end ChannelQueue

end Refinement

end Scuttled
