import Scuttled.Foundation.Machine
import Scuttled.Types

/-!
# The task queue

`ChannelQueue` serves the calls of its clients one at a time.  A client may
abandon a call wherever it waits: for room in the channel, for the reply, or
when the reply is there and was not taken so far.
-/

namespace Scuttled

open Foundation

/-! ## Calls -/

/-- `QueueTask`; its type, time and payload are passed on unseen. -/
structure QueueTask (Content : Type) where
  id : BitVec 128
  content : Content

/-- `WriteCommand`, without its reply channel. -/
inductive QueueCommand (Content : Type) where
  | enqueue (task : QueueTask Content)
  | dequeue
  | remove (id : BitVec 128)
  | clear
  | shutdown

/-- What a client reads by itself. -/
inductive QueueRead where
  | peek
  | len
  | isEmpty

/-- The replies; a task goes with the number of the call that enqueued it. -/
inductive QueueAnswer (Content : Type) where
  | enqueued
  | dequeued (task : Option (Nat × QueueTask Content))
  | removed (found : Bool)
  | cleared
  | front (task : Option (Nat × QueueTask Content))
  | length (count : Nat)
  | empty (holds : Bool)
  | stopped
  | failed (error : Error)

/-- What a caller is told whom the loop does not answer: `shutdown` does not look. -/
def QueueCommand.refused {Content : Type} (reason : String) :
    QueueCommand Content → QueueAnswer Content
  | .shutdown => .stopped
  | .enqueue _ | .dequeue | .remove _ | .clear => .failed (.queueError reason)

/-- How far a call has come. -/
inductive CallPhase (Content : Type) where
  /-- It waits for room in the channel. -/
  | sending (command : QueueCommand Content)
  | waiting (command : QueueCommand Content)
  /-- It waits for the lock. -/
  | reading (read : QueueRead)
  /-- The reply is in its channel. -/
  | replied (answer : QueueAnswer Content)
  | returned (answer : QueueAnswer Content)
  | gone

/-- The call was answered with the task of that number. -/
def QueueAnswer.holds {Content : Type} (ticket : Nat) : QueueAnswer Content → Bool
  | .dequeued (some entry) => entry.1 = ticket
  | _ => false

theorem holds_refused {Content : Type} (command : QueueCommand Content) (reason : String)
    (ticket : Nat) : (command.refused reason).holds ticket = false := by
  cases command <;> rfl

/-- The caller has the task of that number, or will take it. -/
def CallPhase.holds {Content : Type} (ticket : Nat) : CallPhase Content → Bool
  | .replied answer => answer.holds ticket
  | .returned answer => answer.holds ticket
  | _ => false

/-- The command of the call is in the channel or was. -/
def CallPhase.sent {Content : Type} : CallPhase Content → Bool
  | .sending _ => false
  | .reading _ => false
  | _ => true

/-- Nobody has answered the call, which may be gone. -/
def CallPhase.unanswered {Content : Type} : CallPhase Content → Bool
  | .waiting _ => true
  | .gone => true
  | _ => false

/-- `channel(100)`. -/
def queueChannelCapacity : Nat := 100

/-- The queue, its channel, the command the writer loop holds while it waits for the
lock, and the calls.  A task carries the number of the call that enqueued it; which
were enqueued, dequeued, removed and cleared is noted for the statements only. -/
structure ChannelQueue (Content : Type) where
  state : List (Nat × QueueTask Content)
  channel : List (Nat × QueueCommand Content)
  current : Option (Nat × QueueCommand Content)
  stopped : Bool
  calls : List (CallPhase Content)
  enqueued : List Nat
  dequeued : List Nat
  removed : List Nat
  cleared : List Nat

inductive QueueEvent (Content : Type) where
  | call (command : QueueCommand Content)
  | ask (read : QueueRead)
  /-- A client gets the lock and reads. -/
  | look (call : Nat)
  /-- The command of a call gets into the channel, or finds it closed. -/
  | send (call : Nat)
  | receive
  /-- The writer loop gets the lock and serves its command. -/
  | process
  /-- A client takes its reply. -/
  | return (call : Nat)
  | abandon (call : Nat)

namespace ChannelQueue

variable {Content : Type}

def new : ChannelQueue Content where
  state := []
  channel := []
  current := none
  stopped := false
  calls := []
  enqueued := []
  dequeued := []
  removed := []
  cleared := []

/-- `let _ = reply.send(..)`: what a caller who has gone does not get is dropped. -/
def reply (call : Nat) (answer : QueueAnswer Content) (queue : ChannelQueue Content) :
    ChannelQueue Content :=
  match queue.calls[call]? with
  | some (.waiting _) => { queue with calls := queue.calls.set call (.replied answer) }
  | _ => queue

/-- The writer loop stops: who waits for a reply does not get one. -/
def stop (queue : ChannelQueue Content) : ChannelQueue Content :=
  { queue with
    channel := []
    stopped := true
    calls := queue.calls.map fun
      | .waiting command => .replied (command.refused "Reply channel closed")
      | phase => phase }

/-- `queue.push_back(task)`. -/
def pushBack (call : Nat) (task : QueueTask Content) (queue : ChannelQueue Content) :
    ChannelQueue Content :=
  { queue with
    state := queue.state ++ [(call, task)]
    enqueued := queue.enqueued ++ [call] }

/-- `queue.pop_front()`, and its reply. -/
def popFront (call : Nat) (queue : ChannelQueue Content) : ChannelQueue Content :=
  match queue.state with
  | [] => queue.reply call (.dequeued none)
  | entry :: rest =>
      { queue with
        state := rest
        dequeued := queue.dequeued ++ [entry.1] }.reply call (.dequeued (some entry))

/-- `queue.remove(index)` of the first task with the id, and its reply. -/
def removeFirst (call : Nat) (id : BitVec 128) (queue : ChannelQueue Content) :
    ChannelQueue Content :=
  match queue.state.findIdx? (fun entry => entry.2.id = id) with
  | some index =>
      { queue with
        state := queue.state.eraseIdx index
        removed := queue.removed ++ (queue.state[index]?.map Prod.fst).toList }.reply call
          (.removed true)
  | none => queue.reply call (.removed false)

/-- `queue.clear()`. -/
def clear (queue : ChannelQueue Content) : ChannelQueue Content :=
  { queue with
    state := []
    cleared := queue.cleared ++ queue.state.map Prod.fst }

/-- One command of the writer loop. -/
def serve (call : Nat) (queue : ChannelQueue Content) :
    QueueCommand Content → ChannelQueue Content
  | .enqueue task => (queue.pushBack call task).reply call .enqueued
  | .dequeue => queue.popFront call
  | .remove id => queue.removeFirst call id
  | .clear => queue.clear.reply call .cleared
  | .shutdown => (queue.reply call .stopped).stop

/-- What a client reads under the lock. -/
def read (queue : ChannelQueue Content) : QueueRead → QueueAnswer Content
  | .peek => .front queue.state.head?
  | .len => .length queue.state.length
  | .isEmpty => .empty queue.state.isEmpty

/-- One step of the clients and the writer loop.  What is not due does not happen. -/
def step (queue : ChannelQueue Content) :
    QueueEvent Content → ChannelQueue Content × Option (Nat × QueueAnswer Content)
  | .call command => ({ queue with calls := queue.calls ++ [.sending command] }, none)
  | .ask read => ({ queue with calls := queue.calls ++ [.reading read] }, none)
  | .look call =>
      match queue.calls[call]? with
      | some (.reading read) =>
          ({ queue with calls := queue.calls.set call (.replied (queue.read read)) }, none)
      | _ => (queue, none)
  | .send call =>
      match queue.calls[call]? with
      | some (.sending command) =>
          if queue.stopped then
            let answer := command.refused "Channel closed"
            ({ queue with calls := queue.calls.set call (.returned answer) }, some (call, answer))
          else if queue.channel.length < queueChannelCapacity then
            ({ queue with
                calls := queue.calls.set call (.waiting command)
                channel := queue.channel ++ [(call, command)] }, none)
          else (queue, none)
      | _ => (queue, none)
  | .receive =>
      match queue.current, queue.channel with
      | none, entry :: rest => ({ queue with current := some entry, channel := rest }, none)
      | _, _ => (queue, none)
  | .process =>
      match queue.current with
      | some (call, command) => ({ queue with current := none }.serve call command, none)
      | none => (queue, none)
  | .return call =>
      match queue.calls[call]? with
      | some (.replied answer) =>
          ({ queue with calls := queue.calls.set call (.returned answer) }, some (call, answer))
      | _ => (queue, none)
  | .abandon call =>
      match queue.calls[call]? with
      | some (.returned _) => (queue, none)
      | _ => ({ queue with calls := queue.calls.set call .gone }, none)

def machine : Machine (ChannelQueue Content) (QueueEvent Content)
    (Option (Nat × QueueAnswer Content)) where
  step := step

/-! ## Where a task is -/

/-- In how many places a task is: the queue, the calls of `dequeue` that hold it, what
was removed and what was cleared. -/
def places (queue : ChannelQueue Content) (ticket : Nat) : Nat :=
  (queue.state.map Prod.fst).count ticket + queue.calls.countP (·.holds ticket) +
    queue.removed.count ticket + queue.cleared.count ticket

/-- Every task that was enqueued is in one place, and tasks are dequeued in the order
in which they were enqueued. -/
structure NoTaskLost (queue : ChannelQueue Content) : Prop where
  accounted : ∀ ticket ∈ queue.enqueued, queue.places ticket = 1
  inOrder : queue.dequeued.Sublist queue.enqueued

/-- A call of `dequeue` that gets a task is not abandoned before it is served, nor
while the task waits for it. -/
def Delivers (queue : ChannelQueue Content) : QueueEvent Content → Prop
  | .process => ∀ call, queue.current = some (call, .dequeue) → queue.state ≠ [] →
      ∀ phase, queue.calls[call]? = some phase → phase ≠ .gone
  | .abandon call => ∀ entry, queue.calls[call]? ≠ some (.replied (.dequeued (some entry)))
  | _ => True

/-! ## Replies -/

@[simp] theorem reply_state (call : Nat) (answer : QueueAnswer Content)
    (queue : ChannelQueue Content) : (queue.reply call answer).state = queue.state := by
  unfold reply
  split <;> rfl

@[simp] theorem reply_current (call : Nat) (answer : QueueAnswer Content)
    (queue : ChannelQueue Content) : (queue.reply call answer).current = queue.current := by
  unfold reply
  split <;> rfl

@[simp] theorem reply_enqueued (call : Nat) (answer : QueueAnswer Content)
    (queue : ChannelQueue Content) : (queue.reply call answer).enqueued = queue.enqueued := by
  unfold reply
  split <;> rfl

@[simp] theorem reply_dequeued (call : Nat) (answer : QueueAnswer Content)
    (queue : ChannelQueue Content) : (queue.reply call answer).dequeued = queue.dequeued := by
  unfold reply
  split <;> rfl

@[simp] theorem reply_removed (call : Nat) (answer : QueueAnswer Content)
    (queue : ChannelQueue Content) : (queue.reply call answer).removed = queue.removed := by
  unfold reply
  split <;> rfl

@[simp] theorem reply_cleared (call : Nat) (answer : QueueAnswer Content)
    (queue : ChannelQueue Content) : (queue.reply call answer).cleared = queue.cleared := by
  unfold reply
  split <;> rfl

theorem reply_waiting {call : Nat} {queue : ChannelQueue Content} {command : QueueCommand Content}
    (hwaiting : queue.calls[call]? = some (.waiting command)) (answer : QueueAnswer Content) :
    (queue.reply call answer).calls = queue.calls.set call (.replied answer) := by
  unfold reply
  rw [hwaiting]

theorem reply_gone {call : Nat} {queue : ChannelQueue Content}
    (hgone : queue.calls[call]? = some .gone) (answer : QueueAnswer Content) :
    queue.reply call answer = queue := by
  unfold reply
  rw [hgone]

theorem countP_set_getElem? {calls : List (CallPhase Content)} {call : Nat}
    {phase : CallPhase Content} (hphase : calls[call]? = some phase) (next : CallPhase Content)
    (p : CallPhase Content → Bool) :
    (calls.set call next).countP p + (if p phase then 1 else 0) =
      calls.countP p + if p next then 1 else 0 := by
  obtain ⟨hlt, rfl⟩ := List.getElem?_eq_some_iff.mp hphase
  rw [List.countP_set hlt]
  have hpos (hholds : p calls[call] = true) : 0 < calls.countP p :=
    List.countP_pos_iff.mpr ⟨_, List.getElem_mem hlt, hholds⟩
  by_cases hbefore : p calls[call] = true
  · have hone := hpos hbefore
    rw [if_pos hbefore]
    omega
  · rw [if_neg hbefore]
    omega

theorem reply_countP (call : Nat) {answer : QueueAnswer Content} (queue : ChannelQueue Content)
    {ticket : Nat} (hnone : answer.holds ticket = false) :
    (queue.reply call answer).calls.countP (·.holds ticket) =
      queue.calls.countP (·.holds ticket) := by
  unfold reply
  split
  case h_1 hwaiting =>
    have hcount := countP_set_getElem? hwaiting (.replied answer) (·.holds ticket)
    simpa [CallPhase.holds, hnone] using hcount
  case h_2 => rfl

/-! ## The numbers of the calls -/

/-- The commands that are still to be served. -/
def pending (queue : ChannelQueue Content) : List (Nat × QueueCommand Content) :=
  queue.current.toList ++ queue.channel

/-- A call is served once, and its command is not sent again. -/
structure Numbered (queue : ChannelQueue Content) : Prop where
  distinct : (queue.pending.map Prod.fst ++ queue.enqueued).Nodup
  waits : ∀ entry ∈ queue.pending, ∃ phase, queue.calls[entry.1]? = some phase ∧ phase.unanswered
  past : ∀ call ∈ queue.enqueued, ∃ phase, queue.calls[call]? = some phase ∧ phase.sent

theorem numbered_new : Numbered (new : ChannelQueue Content) := by
  constructor <;> simp [new, pending]

theorem Numbered.unsent {queue : ChannelQueue Content} (hnumbered : queue.Numbered) {call : Nat}
    {command : QueueCommand Content} (hphase : queue.calls[call]? = some (.sending command)) :
    call ∉ queue.pending.map Prod.fst ++ queue.enqueued := by
  intro hmem
  rcases List.mem_append.mp hmem with hpending | henqueued
  · obtain ⟨entry, hentry, rfl⟩ := List.mem_map.mp hpending
    obtain ⟨phase, hsome, hunanswered⟩ := hnumbered.waits entry hentry
    obtain rfl := Option.some.inj (hsome.symm.trans hphase)
    cases hunanswered
  · obtain ⟨phase, hsome, hsent⟩ := hnumbered.past call henqueued
    obtain rfl := Option.some.inj (hsome.symm.trans hphase)
    cases hsent

theorem Numbered.set {queue : ChannelQueue Content} (hnumbered : queue.Numbered) {call : Nat}
    {next : CallPhase Content} (hsent : next.sent)
    (hpending : call ∈ queue.pending.map Prod.fst → next.unanswered) :
    Numbered { queue with calls := queue.calls.set call next } := by
  have hmoved {other : Nat} {p : CallPhase Content → Bool} (hnew : other = call → p next)
      (hold : ∃ phase, queue.calls[other]? = some phase ∧ p phase) :
      ∃ phase, (queue.calls.set call next)[other]? = some phase ∧ p phase := by
    obtain ⟨phase, hphase, hp⟩ := hold
    obtain ⟨hlt, -⟩ := List.getElem?_eq_some_iff.mp hphase
    by_cases hsame : call = other
    · subst hsame
      exact ⟨next, List.getElem?_set_self hlt, hnew rfl⟩
    · exact ⟨phase, (List.getElem?_set_ne hsame).trans hphase, hp⟩
  constructor
  case distinct => exact hnumbered.distinct
  case waits =>
    intro entry hentry
    refine hmoved (fun hsame => hpending ?_) (hnumbered.waits entry hentry)
    exact hsame ▸ List.mem_map_of_mem hentry
  case past => exact fun other hother => hmoved (fun _ => hsent) (hnumbered.past other hother)

theorem Numbered.reply {queue : ChannelQueue Content} (hnumbered : queue.Numbered) {call : Nat}
    (hserved : call ∉ queue.pending.map Prod.fst) (answer : QueueAnswer Content) :
    (queue.reply call answer).Numbered := by
  unfold ChannelQueue.reply
  split
  · exact hnumbered.set rfl fun hpending => absurd hpending hserved
  · exact hnumbered

theorem Numbered.taken {queue : ChannelQueue Content} (hnumbered : queue.Numbered) {call : Nat}
    {command : QueueCommand Content} (hcurrent : queue.current = some (call, command)) :
    Numbered { queue with current := none } ∧
      call ∉ queue.channel.map Prod.fst ++ queue.enqueued ∧
        ∃ phase, queue.calls[call]? = some phase ∧ phase.unanswered := by
  have hpending : queue.pending = (call, command) :: queue.channel := by
    unfold pending
    rw [hcurrent]
    rfl
  have hdistinct := hnumbered.distinct
  rw [hpending, List.map_cons, List.cons_append, List.nodup_cons] at hdistinct
  refine ⟨⟨hdistinct.2, fun entry hentry => hnumbered.waits entry ?_, hnumbered.past⟩,
    hdistinct.1, hnumbered.waits (call, command) ?_⟩
  · rw [hpending]
    exact List.mem_cons_of_mem _ hentry
  · rw [hpending]
    exact List.mem_cons_self

theorem Numbered.stop {queue : ChannelQueue Content} (hnumbered : queue.Numbered)
    (hcurrent : queue.current = none) : queue.stop.Numbered := by
  have hpending : queue.stop.pending = [] := by
    simp [pending, ChannelQueue.stop, hcurrent]
  constructor
  case distinct =>
    rw [hpending]
    exact hnumbered.distinct.of_append_right
  case waits =>
    rw [hpending]
    exact fun entry hentry => absurd hentry List.not_mem_nil
  case past =>
    intro call hcall
    obtain ⟨phase, hphase, hsent⟩ := hnumbered.past call hcall
    simp only [ChannelQueue.stop, List.getElem?_map, hphase, Option.map_some]
    refine ⟨_, rfl, ?_⟩
    cases phase with
    | sending => cases hsent
    | reading => cases hsent
    | _ => rfl

theorem Numbered.serve {queue : ChannelQueue Content} (hnumbered : queue.Numbered)
    (hcurrent : queue.current = none) {call : Nat}
    (hserved : call ∉ queue.channel.map Prod.fst ++ queue.enqueued)
    (hphase : ∃ phase, queue.calls[call]? = some phase ∧ phase.unanswered)
    (command : QueueCommand Content) : (queue.serve call command).Numbered := by
  have hpending : queue.pending = queue.channel := by
    unfold pending
    rw [hcurrent]
    rfl
  have hfree : call ∉ queue.pending.map Prod.fst := fun hmem =>
    hserved (List.mem_append_left _ (hpending ▸ hmem))
  cases command with
  | enqueue task =>
      have hpushed : (queue.pushBack call task).Numbered := by
        constructor
        case distinct =>
          change (queue.pending.map Prod.fst ++ (queue.enqueued ++ [call])).Nodup
          rw [← List.append_assoc, List.nodup_append_comm, List.singleton_append, List.nodup_cons]
          exact ⟨hpending ▸ hserved, hnumbered.distinct⟩
        case waits => exact hnumbered.waits
        case past =>
          intro other hother
          rcases List.mem_append.mp hother with hold | hnew
          · exact hnumbered.past other hold
          · obtain rfl := List.mem_singleton.mp hnew
            obtain ⟨phase, hsome, hunanswered⟩ := hphase
            refine ⟨phase, hsome, ?_⟩
            cases phase with
            | sending => cases hunanswered
            | reading => cases hunanswered
            | _ => rfl
      exact hpushed.reply hfree _
  | dequeue =>
      change (queue.popFront call).Numbered
      unfold popFront
      split
      case h_1 => exact hnumbered.reply hfree _
      case h_2 entry rest hstate =>
        have hpopped : Numbered { queue with
            state := rest
            dequeued := queue.dequeued ++ [entry.1] } :=
          ⟨hnumbered.distinct, hnumbered.waits, hnumbered.past⟩
        exact hpopped.reply hfree _
  | remove id =>
      change (queue.removeFirst call id).Numbered
      unfold removeFirst
      split
      case h_1 index hindex =>
        have hremoved : Numbered { queue with
            state := queue.state.eraseIdx index
            removed := queue.removed ++ (queue.state[index]?.map Prod.fst).toList } :=
          ⟨hnumbered.distinct, hnumbered.waits, hnumbered.past⟩
        exact hremoved.reply hfree _
      case h_2 => exact hnumbered.reply hfree _
  | clear =>
      have hcleared : queue.clear.Numbered :=
        ⟨hnumbered.distinct, hnumbered.waits, hnumbered.past⟩
      exact hcleared.reply hfree _
  | shutdown => exact (hnumbered.reply hfree _).stop (by rw [reply_current, hcurrent])

theorem Numbered.queued {queue : ChannelQueue Content} (hnumbered : queue.Numbered) {call : Nat}
    (hunsent : call ∉ queue.pending.map Prod.fst ++ queue.enqueued)
    {command : QueueCommand Content} (hphase : queue.calls[call]? = some (.waiting command)) :
    Numbered { queue with channel := queue.channel ++ [(call, command)] } := by
  have hpending : pending { queue with channel := queue.channel ++ [(call, command)] } =
      queue.pending ++ [(call, command)] :=
    (List.append_assoc _ _ _).symm
  constructor
  case distinct =>
    rw [hpending, List.map_append, List.append_assoc, List.nodup_append_comm, List.append_assoc,
      List.map_singleton, List.singleton_append, List.nodup_cons, List.mem_append, or_comm,
      ← List.mem_append]
    exact ⟨hunsent, List.nodup_append_comm.mp hnumbered.distinct⟩
  case waits =>
    intro entry hentry
    rw [hpending] at hentry
    rcases List.mem_append.mp hentry with hold | hnew
    · exact hnumbered.waits entry hold
    · obtain rfl := List.mem_singleton.mp hnew
      exact ⟨.waiting command, hphase, rfl⟩
  case past => exact hnumbered.past

theorem Numbered.called {queue : ChannelQueue Content} (hnumbered : queue.Numbered)
    (first : CallPhase Content) :
    Numbered { queue with calls := queue.calls ++ [first] } := by
  have hkept {call : Nat} {p : CallPhase Content → Bool}
      (hold : ∃ phase, queue.calls[call]? = some phase ∧ p phase) :
      ∃ phase, (queue.calls ++ [first])[call]? = some phase ∧ p phase := by
    obtain ⟨phase, hphase, hp⟩ := hold
    obtain ⟨hlt, -⟩ := List.getElem?_eq_some_iff.mp hphase
    exact ⟨phase, (List.getElem?_append_left hlt).trans hphase, hp⟩
  exact ⟨hnumbered.distinct, fun entry hentry => hkept (hnumbered.waits entry hentry),
    fun call hcall => hkept (hnumbered.past call hcall)⟩

theorem Numbered.answered {queue : ChannelQueue Content} (hnumbered : queue.Numbered) {call : Nat}
    {phase : CallPhase Content} (hphase : queue.calls[call]? = some phase)
    (hanswered : phase.unanswered = false) : call ∉ queue.pending.map Prod.fst := by
  intro hmem
  obtain ⟨entry, hentry, rfl⟩ := List.mem_map.mp hmem
  obtain ⟨other, hsome, hunanswered⟩ := hnumbered.waits entry hentry
  obtain rfl := Option.some.inj (hsome.symm.trans hphase)
  rw [hanswered] at hunanswered
  cases hunanswered

theorem Numbered.step {queue : ChannelQueue Content} (hnumbered : queue.Numbered)
    (event : QueueEvent Content) : (queue.step event).1.Numbered := by
  cases event with
  | call command => exact hnumbered.called (.sending command)
  | ask read => exact hnumbered.called (.reading read)
  | look call =>
      unfold ChannelQueue.step
      dsimp only
      split
      case h_1 read hphase =>
        exact hnumbered.set rfl fun hmem => absurd hmem (hnumbered.answered hphase rfl)
      case h_2 => exact hnumbered
  | send call =>
      unfold ChannelQueue.step
      dsimp only
      split
      case h_1 command hphase =>
        have hunsent := hnumbered.unsent hphase
        have hpending : call ∉ queue.pending.map Prod.fst := fun hmem =>
          hunsent (List.mem_append_left _ hmem)
        split_ifs with hstopped hroom
        · exact hnumbered.set rfl fun hmem => absurd hmem hpending
        · have hset : Numbered { queue with calls := queue.calls.set call (.waiting command) } :=
            hnumbered.set rfl fun _ => rfl
          obtain ⟨hlt, -⟩ := List.getElem?_eq_some_iff.mp hphase
          exact hset.queued hunsent (List.getElem?_set_self hlt)
        · exact hnumbered
      case h_2 => exact hnumbered
  | receive =>
      unfold ChannelQueue.step
      dsimp only
      split
      case h_1 entry rest hcurrent hchannel =>
        have hpending : pending { queue with current := some entry, channel := rest } =
            queue.pending := by
          unfold pending
          rw [hcurrent, hchannel]
          rfl
        constructor
        case distinct => exact hpending ▸ hnumbered.distinct
        case waits => exact hpending ▸ hnumbered.waits
        case past => exact hnumbered.past
      case h_2 => exact hnumbered
  | process =>
      unfold ChannelQueue.step
      dsimp only
      split
      case h_1 call command hcurrent =>
        obtain ⟨htaken, hserved, hphase⟩ := hnumbered.taken hcurrent
        exact htaken.serve rfl hserved hphase command
      case h_2 => exact hnumbered
  | «return» call =>
      unfold ChannelQueue.step
      dsimp only
      split
      case h_1 answer hphase =>
        exact hnumbered.set rfl fun hmem => absurd hmem (hnumbered.answered hphase rfl)
      case h_2 => exact hnumbered
  | abandon call =>
      unfold ChannelQueue.step
      dsimp only
      split
      case h_1 => exact hnumbered
      case h_2 => exact hnumbered.set rfl fun _ => rfl

/-! ## What a step does with the tasks -/

theorem places_set {queue : ChannelQueue Content} {call : Nat} {phase : CallPhase Content}
    (hphase : queue.calls[call]? = some phase) (next : CallPhase Content) (ticket : Nat) :
    places { queue with calls := queue.calls.set call next } ticket +
        (if phase.holds ticket then 1 else 0) =
      queue.places ticket + if next.holds ticket then 1 else 0 := by
  have hcount := countP_set_getElem? hphase next (·.holds ticket)
  unfold places
  dsimp only
  omega

theorem places_reply (call : Nat) {answer : QueueAnswer Content} (queue : ChannelQueue Content)
    {ticket : Nat} (hnone : answer.holds ticket = false) :
    (queue.reply call answer).places ticket = queue.places ticket := by
  unfold places
  rw [reply_state, reply_removed, reply_cleared, reply_countP call queue hnone]

theorem places_pushBack (call : Nat) (task : QueueTask Content) (queue : ChannelQueue Content)
    (ticket : Nat) :
    (queue.pushBack call task).places ticket = queue.places ticket + [call].count ticket := by
  unfold places pushBack
  simp only [List.map_append, List.map_cons, List.map_nil, List.count_append]
  omega

theorem places_popFront {queue : ChannelQueue Content} {call : Nat}
    {command : QueueCommand Content}
    (hwaiting : queue.calls[call]? = some (.waiting command)) (ticket : Nat) :
    (queue.popFront call).places ticket = queue.places ticket := by
  unfold popFront
  split
  case h_1 => exact places_reply call queue rfl
  case h_2 entry rest hstate =>
    let popped : ChannelQueue Content :=
      { queue with state := rest, dequeued := queue.dequeued ++ [entry.1] }
    have hcalls : popped.calls[call]? = some (.waiting command) := hwaiting
    have hcount := countP_set_getElem? hcalls (.replied (.dequeued (some entry))) (·.holds ticket)
    change (popped.reply call (.dequeued (some entry))).places ticket = _
    unfold places
    rw [reply_waiting hcalls, reply_state, reply_removed, reply_cleared, hstate, List.map_cons,
      List.count_cons]
    simp only [CallPhase.holds, QueueAnswer.holds, decide_eq_true_eq, Bool.false_eq_true,
      if_false, beq_iff_eq, popped] at hcount ⊢
    omega

theorem places_popFront_gone {queue : ChannelQueue Content} {call : Nat}
    (hgone : queue.calls[call]? = some .gone) {entry : Nat × QueueTask Content}
    {rest : List (Nat × QueueTask Content)} (hstate : queue.state = entry :: rest) (ticket : Nat) :
    (queue.popFront call).places ticket + [entry.1].count ticket = queue.places ticket := by
  let popped : ChannelQueue Content :=
    { queue with state := rest, dequeued := queue.dequeued ++ [entry.1] }
  have hpop : queue.popFront call = popped.reply call (.dequeued (some entry)) := by
    unfold popFront
    rw [hstate]
  have hcalls : popped.calls[call]? = some .gone := hgone
  rw [hpop, reply_gone hcalls]
  unfold places
  simp only [popped, hstate, List.map_cons, List.count_cons, List.count_nil]
  omega

theorem places_removeFirst (call : Nat) (id : BitVec 128) (queue : ChannelQueue Content)
    (ticket : Nat) : (queue.removeFirst call id).places ticket = queue.places ticket := by
  unfold removeFirst
  split
  case h_1 index hindex =>
    obtain ⟨hlt, -⟩ := List.findIdx?_eq_some_iff_findIdx_eq.mp hindex
    have hperm := ((List.getElem_cons_eraseIdx_perm hlt).map Prod.fst).count_eq ticket
    rw [places_reply call _ rfl]
    unfold places
    simp only [List.getElem?_eq_getElem hlt, Option.map_some, Option.toList_some, List.count_append]
    rw [List.map_cons, List.count_cons] at hperm
    rw [List.count_singleton]
    omega
  case h_2 => exact places_reply call queue rfl

theorem places_clear (queue : ChannelQueue Content) (ticket : Nat) :
    queue.clear.places ticket = queue.places ticket := by
  unfold places clear
  simp only [List.map_nil, List.count_nil, List.count_append]
  omega

theorem places_stop (queue : ChannelQueue Content) (ticket : Nat) :
    queue.stop.places ticket = queue.places ticket := by
  unfold places stop
  dsimp only
  rw [List.countP_map]
  congr 3
  refine List.countP_congr fun phase _ => ?_
  cases phase with
  | waiting command => simp [CallPhase.holds, holds_refused]
  | _ => rfl

/-! ## Runs -/

/-- Tasks leave the queue at the front, in the order in which they came, or are taken
out. -/
def InOrder (queue : ChannelQueue Content) : Prop :=
  (queue.dequeued ++ queue.state.map Prod.fst).Sublist queue.enqueued

def Counted (queue : ChannelQueue Content) : Prop :=
  ∀ ticket, queue.places ticket = queue.enqueued.count ticket

theorem InOrder.serve {queue : ChannelQueue Content} (hordered : queue.InOrder) (call : Nat)
    (command : QueueCommand Content) : (queue.serve call command).InOrder := by
  cases command with
  | enqueue task =>
      change ((queue.pushBack call task).reply call .enqueued).InOrder
      unfold InOrder
      rw [reply_dequeued, reply_state, reply_enqueued]
      simp only [pushBack, List.map_append, List.map_cons, List.map_nil, ← List.append_assoc]
      exact hordered.append_right _
  | dequeue =>
      change (queue.popFront call).InOrder
      unfold InOrder popFront
      split
      case h_1 =>
        rw [reply_dequeued, reply_state, reply_enqueued]
        exact hordered
      case h_2 entry rest hstate =>
        rw [reply_dequeued, reply_state, reply_enqueued]
        unfold InOrder at hordered
        rw [hstate] at hordered
        simpa using hordered
  | remove id =>
      change (queue.removeFirst call id).InOrder
      unfold InOrder removeFirst
      split
      case h_1 index hindex =>
        rw [reply_dequeued, reply_state, reply_enqueued]
        refine List.Sublist.trans ?_ hordered
        exact ((List.eraseIdx_sublist _ _).map _).append_left _
      case h_2 =>
        rw [reply_dequeued, reply_state, reply_enqueued]
        exact hordered
  | clear =>
      change (queue.clear.reply call .cleared).InOrder
      unfold InOrder
      rw [reply_dequeued, reply_state, reply_enqueued]
      exact List.Sublist.trans ((List.nil_sublist _).append_left _) hordered
  | shutdown =>
      change ((queue.reply call .stopped).dequeued ++
        (queue.reply call .stopped).state.map Prod.fst).Sublist (queue.reply call .stopped).enqueued
      rw [reply_dequeued, reply_state, reply_enqueued]
      exact hordered

theorem InOrder.step {queue : ChannelQueue Content} (hordered : queue.InOrder)
    (event : QueueEvent Content) : (queue.step event).1.InOrder := by
  cases event with
  | process =>
      unfold ChannelQueue.step
      dsimp only
      split
      case h_1 call command _ =>
        have htaken : InOrder { queue with current := none } := hordered
        exact htaken.serve call command
      case h_2 => exact hordered
  | call => exact hordered
  | ask => exact hordered
  | _ =>
      unfold ChannelQueue.step
      dsimp only
      repeat' split
      all_goals exact hordered

theorem popFront_enqueued (call : Nat) (queue : ChannelQueue Content) :
    (queue.popFront call).enqueued = queue.enqueued := by
  unfold popFront
  split <;> rw [reply_enqueued]

theorem removeFirst_enqueued (call : Nat) (id : BitVec 128) (queue : ChannelQueue Content) :
    (queue.removeFirst call id).enqueued = queue.enqueued := by
  unfold removeFirst
  split <;> rw [reply_enqueued]

/-- A command that finds its caller leaves every task in one place. -/
theorem Counted.serve {queue : ChannelQueue Content} (hcounted : queue.Counted) {call : Nat}
    {command : QueueCommand Content}
    (hwaiting : command = .dequeue → queue.state ≠ [] →
      ∃ command, queue.calls[call]? = some (.waiting command)) :
    (queue.serve call command).Counted := by
  intro ticket
  have hbefore := hcounted ticket
  cases command with
  | enqueue task =>
      change ((queue.pushBack call task).reply call .enqueued).places ticket =
        ((queue.pushBack call task).reply call .enqueued).enqueued.count ticket
      rw [places_reply call _ rfl, places_pushBack, hbefore, ← List.count_append, reply_enqueued]
      rfl
  | dequeue =>
      change (queue.popFront call).places ticket = (queue.popFront call).enqueued.count ticket
      rw [popFront_enqueued, ← hbefore]
      by_cases hstate : queue.state = []
      · unfold popFront
        rw [hstate]
        exact places_reply call queue rfl
      · obtain ⟨command, hwaiting⟩ := hwaiting rfl hstate
        exact places_popFront hwaiting ticket
  | remove id =>
      change (queue.removeFirst call id).places ticket =
        (queue.removeFirst call id).enqueued.count ticket
      rw [removeFirst_enqueued, places_removeFirst, hbefore]
  | clear =>
      change (queue.clear.reply call .cleared).places ticket =
        (queue.clear.reply call .cleared).enqueued.count ticket
      rw [places_reply call _ rfl, places_clear, hbefore, reply_enqueued]
      rfl
  | shutdown =>
      change (queue.reply call .stopped).stop.places ticket =
        (queue.reply call .stopped).enqueued.count ticket
      rw [places_stop, places_reply call queue rfl, hbefore, reply_enqueued]

/-- What holds of the runs in which every task is delivered. -/
structure Sound (queue : ChannelQueue Content) : Prop where
  numbered : queue.Numbered
  ordered : queue.InOrder
  counted : queue.Counted

theorem sound_new : Sound (new : ChannelQueue Content) where
  numbered := numbered_new
  ordered := List.Sublist.refl _
  counted _ := rfl

theorem Sound.noTaskLost {queue : ChannelQueue Content} (hsound : queue.Sound) :
    queue.NoTaskLost where
  accounted ticket hticket := by
    rw [hsound.counted ticket]
    exact List.count_eq_one_of_mem hsound.numbered.distinct.of_append_right hticket
  inOrder := (List.sublist_append_left _ _).trans hsound.ordered

theorem Numbered.current_phase {queue : ChannelQueue Content} (hnumbered : queue.Numbered)
    {call : Nat} {command : QueueCommand Content}
    (hcurrent : queue.current = some (call, command)) :
    (∃ command, queue.calls[call]? = some (.waiting command)) ∨
      queue.calls[call]? = some .gone := by
  obtain ⟨-, -, phase, hphase, hunanswered⟩ := hnumbered.taken hcurrent
  cases phase with
  | waiting command => exact .inl ⟨command, hphase⟩
  | gone => exact .inr hphase
  | _ => cases hunanswered

theorem Counted.step {queue : ChannelQueue Content} (hcounted : queue.Counted)
    (hnumbered : queue.Numbered) {event : QueueEvent Content} (hdelivers : queue.Delivers event) :
    (queue.step event).1.Counted := by
  have hset {call : Nat} {phase next : CallPhase Content}
      (hphase : queue.calls[call]? = some phase)
      (hsame : ∀ ticket, phase.holds ticket = next.holds ticket) :
      Counted { queue with calls := queue.calls.set call next } := by
    intro ticket
    have hplaces := places_set hphase next ticket
    rw [hsame, Nat.add_right_cancel_iff] at hplaces
    exact hplaces.trans (hcounted ticket)
  cases event with
  | call command =>
      intro ticket
      refine Eq.trans ?_ (hcounted ticket)
      unfold places ChannelQueue.step
      simp [CallPhase.holds]
  | ask read =>
      intro ticket
      refine Eq.trans ?_ (hcounted ticket)
      unfold places ChannelQueue.step
      simp [CallPhase.holds]
  | look call =>
      unfold ChannelQueue.step
      dsimp only
      split
      case h_1 read hphase =>
        refine hset hphase fun ticket => ?_
        cases read <;> rfl
      case h_2 => exact hcounted
  | send call =>
      unfold ChannelQueue.step
      dsimp only
      split
      case h_1 command hphase =>
        split_ifs with hstopped hroom
        · exact hset hphase fun ticket => (holds_refused command "Channel closed" ticket).symm
        · exact hset hphase fun _ => rfl
        · exact hcounted
      case h_2 => exact hcounted
  | receive =>
      unfold ChannelQueue.step
      dsimp only
      split <;> exact hcounted
  | process =>
      unfold ChannelQueue.step
      dsimp only
      split
      case h_1 call command hcurrent =>
        have htaken : Counted { queue with current := none } := hcounted
        refine htaken.serve fun hdequeue hstate => ?_
        refine (hnumbered.current_phase hcurrent).resolve_right fun hgone => ?_
        exact hdelivers call (hdequeue ▸ hcurrent) hstate .gone hgone rfl
      case h_2 => exact hcounted
  | «return» call =>
      unfold ChannelQueue.step
      dsimp only
      split
      case h_1 answer hphase => exact hset hphase fun _ => rfl
      case h_2 => exact hcounted
  | abandon call =>
      unfold ChannelQueue.step
      dsimp only
      split
      case h_1 => exact hcounted
      case h_2 hnot =>
        cases hphase : queue.calls[call]? with
        | none =>
            rw [List.set_eq_of_length_le (List.getElem?_eq_none_iff.mp hphase)]
            exact hcounted
        | some phase =>
            refine hset hphase fun ticket => ?_
            cases phase with
            | returned answer => exact absurd hphase (hnot answer)
            | replied answer =>
                cases answer with
                | dequeued task =>
                    cases task with
                    | none => rfl
                    | some entry => exact absurd hphase (hdelivers entry)
                | _ => rfl
            | _ => rfl

theorem Sound.step {queue : ChannelQueue Content} (hsound : queue.Sound)
    {event : QueueEvent Content} (hdelivers : queue.Delivers event) :
    (ChannelQueue.machine.step queue event).1.Sound where
  numbered := hsound.numbered.step event
  ordered := hsound.ordered.step event
  counted := hsound.counted.step hsound.numbered hdelivers

theorem Sound.lost {queue queue' : ChannelQueue Content} (hsound : queue.Sound)
    (henqueued : queue'.enqueued = queue.enqueued) {ticket : Nat}
    (hplaces : queue'.places ticket + 1 = queue.places ticket) : ¬ queue'.NoTaskLost := by
  intro hkept
  have hcount := hsound.counted ticket
  have hone : queue.enqueued.count ticket ≤ 1 :=
    List.nodup_iff_count_le_one.mp hsound.numbered.distinct.of_append_right ticket
  have hmem : ticket ∈ queue.enqueued := List.count_pos_iff.mp (by omega)
  have hagain := hkept.accounted ticket (henqueued ▸ hmem)
  omega

/-- A step that keeps every task in one place delivers. -/
theorem Sound.delivers {queue : ChannelQueue Content} (hsound : queue.Sound)
    {event : QueueEvent Content} (hkept : (queue.step event).1.NoTaskLost) :
    queue.Delivers event := by
  cases event with
  | process =>
      rintro call hcurrent hstate phase hphase rfl
      obtain ⟨entry, rest, hstate⟩ := List.exists_cons_of_ne_nil hstate
      let idle : ChannelQueue Content := { queue with current := none }
      have hstep : (queue.step .process).1 = idle.popFront call := by
        unfold ChannelQueue.step
        dsimp only
        rw [hcurrent]
        rfl
      rw [hstep] at hkept
      have hidle : idle.calls[call]? = some .gone := hphase
      have hplaces := places_popFront_gone hidle hstate entry.1
      rw [List.count_singleton_self] at hplaces
      exact hsound.lost (popFront_enqueued call idle) hplaces hkept
  | abandon call =>
      intro entry hphase
      have hstep : (queue.step (.abandon call)).1 =
          { queue with calls := queue.calls.set call .gone } := by
        unfold ChannelQueue.step
        dsimp only
        rw [hphase]
      rw [hstep] at hkept
      have hplaces := places_set hphase .gone entry.1
      simp only [CallPhase.holds, QueueAnswer.holds, decide_true, if_true, Bool.false_eq_true,
        if_false, Nat.add_zero] at hplaces
      refine hsound.lost ?_ hplaces hkept
      rfl
  | _ => trivial

end ChannelQueue

/--
Any number of clients, whose calls are served in any order and abandoned
anywhere: all along the run every task that was enqueued is in exactly one
place, exactly if no call of `dequeue` that gets a task is abandoned before it is
served or while the task waits for it.
-/
theorem no_task_lost_iff {Content : Type} (events : List (QueueEvent Content)) :
    let start : ChannelQueue Content := .new
    (∀ done rest, events = done ++ rest →
        (ChannelQueue.machine.final start done).NoTaskLost) ↔
      ∀ done event rest, events = done ++ event :: rest →
        (ChannelQueue.machine.final start done).Delivers event := by
  intro start
  exact Machine.law_always_iff_of_guard (fun queue hsound => hsound.noTaskLost)
    (fun queue event hsound hkept => hsound.delivers hkept)
    (fun queue event hsound hdelivers => hsound.step hdelivers) ChannelQueue.sound_new events

/-- A client gives up its `dequeue` while the command is on its way: the task it was to
get is nowhere. -/
theorem abandoned_dequeue_loses_task :
    let task : QueueTask Unit := ⟨1, ()⟩
    let queue := ChannelQueue.machine.final .new [.call (.enqueue task), .send 0, .receive,
      .process, .return 0, .call .dequeue, .send 1, .abandon 1, .receive, .process]
    queue.enqueued = [0] ∧ queue.places 0 = 0 ∧ ¬ queue.NoTaskLost := by
  intro task queue
  have henqueued : queue.enqueued = [0] := by decide +kernel
  have hplaces : queue.places 0 = 0 := by decide +kernel
  refine ⟨henqueued, hplaces, fun hkept => ?_⟩
  have hone := hkept.accounted 0 (henqueued ▸ List.mem_singleton_self 0)
  omega

end Scuttled
