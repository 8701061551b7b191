import Mathlib.Data.List.Nodup
import Mathlib.Data.List.Perm.Subperm
import Scuttled.Foundation.Machine

/-!
# Objects shared by clients

An object is kept by a loop that serves the requests of its clients one at a time, from
a bounded channel, and answers each on a channel of its own.  Some operations the
clients perform themselves, under the lock of the object.  Calls overlap as they like,
a client may give up a call at any time, and the loop stops at a shutdown.

However the calls overlap, what they return is what the object would have returned if
they had been made one after the other, in an order that respects which call returned
before which was made.
-/

namespace Scuttled.Foundation

variable {State Op Reply : Type}

/-! ## Histories and orders -/

/-- What is seen of the calls from outside.  A call that returns without a reply has
found the loop stopped, or was the one to stop it. -/
inductive CallEvent (Op Reply : Type) where
  | invoke (call : Nat) (op : Op)
  | respond (call : Nat) (reply : Option Reply)

/-- One call returned with a reply before another was made. -/
def ReturnsBefore (history : List (CallEvent Op Reply)) (one other : Nat) : Prop :=
  ∃ reply op, [.respond one (some reply), .invoke other op].Sublist history

/-- A machine whose inputs carry the number of their call. -/
def Machine.numbered (object : Machine State Op Reply) : Machine State (Nat × Op) Reply where
  step state entry := object.step state entry.2

/-- The calls of a history could have been made one after the other in this order: each
at most once, none that was not made, each that returned a reply with the reply the
object gives it there, none that returned without, and none after a call that was made
when it had returned. -/
structure Linearizes (object : Machine State Op Reply) (first : State)
    (history : List (CallEvent Op Reply)) (order : List (Nat × Op)) : Prop where
  once : (order.map Prod.fst).Nodup
  made : ∀ entry ∈ order, .invoke entry.1 entry.2 ∈ history
  answered : ∀ call reply, .respond call (some reply) ∈ history →
    ∃ op, ((call, op), reply) ∈ object.numbered.transcript first order
  unserved : ∀ call, .respond call none ∈ history → call ∉ order.map Prod.fst
  inTime : ∀ one other, ReturnsBefore history one other → other ∈ order.map Prod.fst →
    [one, other].Sublist (order.map Prod.fst)

/-- The calls that were made, in order. -/
def invocations (history : List (CallEvent Op Reply)) : List (Nat × Op) :=
  history.filterMap fun
    | .invoke call op => some (call, op)
    | .respond _ _ => none

section Linearizes

variable {object : Machine State Op Reply} {first : State}
  {history : List (CallEvent Op Reply)} {order : List (Nat × Op)} {one other : Nat}

theorem Machine.final_numbered (object : Machine State Op Reply) (first : State)
    (order : List (Nat × Op)) :
    object.numbered.final first order = object.final first (order.map Prod.snd) := by
  induction order generalizing first with
  | nil => rfl
  | cons entry rest ih => exact ih _

theorem not_pair_sublist_of_nodup {α : Type} {first second : α} {items : List α}
    (hnodup : items.Nodup) (hfirst : [first, second].Sublist items) :
    ¬ [second, first].Sublist items := by
  induction items with
  | nil => cases hfirst
  | cons item rest ih =>
      obtain ⟨hitem, hrest⟩ := List.nodup_cons.mp hnodup
      intro hsecond
      cases hfirst with
      | cons _ hlater =>
          cases hsecond with
          | cons _ hlater' => exact ih hrest hlater hlater'
          | cons_cons _ hmem => exact hitem (hlater.subset (by simp))
      | cons_cons _ hmem =>
          cases hsecond with
          | cons _ hlater' => exact hitem (hlater'.subset (by simp))
          | cons_cons _ hmem' => exact hitem (hmem.subset (by simp))

theorem Linearizes.turn (hlinear : Linearizes object first history order) {reply : Reply}
    (hreply : .respond one (some reply) ∈ history) :
    ∃ past op rest, order = past ++ (one, op) :: rest ∧ .invoke one op ∈ history ∧
      reply = (object.step (object.final first (past.map Prod.snd)) op).2 := by
  obtain ⟨op, hop⟩ := hlinear.answered one reply hreply
  obtain ⟨past, rest, horder, hanswer⟩ := Machine.mem_transcript_iff.mp hop
  have hmem : (one, op) ∈ order := horder ▸ List.mem_append_right _ List.mem_cons_self
  exact ⟨past, op, rest, horder, hlinear.made _ hmem,
    by rw [hanswer, Machine.final_numbered]; rfl⟩

theorem Linearizes.turns (hlinear : Linearizes object first history order) {reply reply' : Reply}
    (hreply : .respond one (some reply) ∈ history) (hreply' : .respond other (some reply') ∈ history)
    (hsublist : [one, other].Sublist (order.map Prod.fst)) :
    ∃ past op between op' rest, order = past ++ (one, op) :: (between ++ (other, op') :: rest) ∧
      (.invoke one op ∈ history ∧
        reply = (object.step (object.final first (past.map Prod.snd)) op).2) ∧
      .invoke other op' ∈ history ∧
        reply' = (object.step (object.final first
          ((past ++ (one, op) :: between).map Prod.snd)) op').2 := by
  obtain ⟨past, op, rest, rfl, hmade, hanswer⟩ := hlinear.turn hreply
  obtain ⟨past', op', rest', hsplit, hmade', hanswer'⟩ := hlinear.turn hreply'
  rcases append_eq_append_cons hsplit with ⟨tail, rfl, htail⟩ | ⟨before, rfl, hbefore⟩
  · -- the other call would have come first
    refine absurd ?_ (not_pair_sublist_of_nodup hlinear.once hsublist)
    simp [List.append_assoc, List.sublist_append_of_sublist_right]
  · cases before with
    | nil =>
        obtain ⟨hsame, -⟩ := List.cons_eq_cons.mp hbefore
        obtain rfl := (Prod.mk.inj hsame).1
        exact absurd hsublist (not_pair_sublist_of_nodup hlinear.once hsublist)
    | cons head between =>
        obtain ⟨rfl, rfl⟩ := List.cons_eq_cons.mp hbefore
        exact ⟨past, op, between, op', rest', rfl, ⟨hmade, hanswer⟩, hmade', hanswer'⟩

theorem pair_sublist_or {α : Type} {first second : α} {items : List α} (hfirst : first ∈ items)
    (hsecond : second ∈ items) (hdifferent : first ≠ second) :
    [first, second].Sublist items ∨ [second, first].Sublist items := by
  obtain ⟨before, after, rfl⟩ := List.append_of_mem hfirst
  rw [List.mem_append, List.mem_cons] at hsecond
  rcases hsecond with hbefore | hsame | hafter
  · exact .inr ((List.singleton_sublist.mpr hbefore).append
      (List.singleton_sublist.mpr List.mem_cons_self))
  · exact absurd hsame.symm hdifferent
  · exact .inl (List.sublist_append_of_sublist_right
      ((List.singleton_sublist.mpr hafter).cons_cons first))

theorem Linearizes.turns_or (hlinear : Linearizes object first history order)
    {reply reply' : Reply} (hreply : .respond one (some reply) ∈ history)
    (hreply' : .respond other (some reply') ∈ history) (hdifferent : one ≠ other) :
    [one, other].Sublist (order.map Prod.fst) ∨ [other, one].Sublist (order.map Prod.fst) := by
  have hmem {call : Nat} {answer : Reply} (hanswer : .respond call (some answer) ∈ history) :
      call ∈ order.map Prod.fst := by
    obtain ⟨past, op, rest, rfl, -, -⟩ := hlinear.turn hanswer
    simp
  exact pair_sublist_or (hmem hreply) (hmem hreply') hdifferent

theorem Linearizes.subperm (hlinear : Linearizes object first history order) :
    (order.map Prod.snd).Subperm ((invocations history).map Prod.snd) := by
  have hentries : order.Subperm (invocations history) :=
    List.Nodup.subperm (List.Nodup.of_map Prod.fst hlinear.once) fun entry hentry =>
      List.mem_filterMap.mpr ⟨_, hlinear.made entry hentry, rfl⟩
  obtain ⟨entries, hperm, hsublist⟩ := hentries
  exact ⟨entries.map Prod.snd, hperm.map Prod.snd, hsublist.map Prod.snd⟩

end Linearizes

/-! ## The loop and its clients -/

inductive Request (Op : Type) where
  | operation (op : Op)
  | shutdown

/-- The operation that is asked for. -/
def Request.operation? : Request Op → Option Op
  | .operation op => some op
  | .shutdown => none

/-- An object, the operations the clients perform themselves, and the capacity of the
channel for the others. -/
structure Service (State Op Reply : Type) where
  object : Machine State Op Reply
  direct : Op → Bool
  capacity : Nat

/-- The request does not go through the channel. -/
def Service.byClient (service : Service State Op Reply) : Request Op → Bool
  | .operation op => service.direct op
  | .shutdown => false

/-- How far a call has come. -/
inductive CallStage (Op Reply : Type) where
  /-- It waits for room in the channel, or for the lock. -/
  | sending (request : Request Op)
  | waiting
  /-- The reply is there to be taken, or its channel was dropped. -/
  | replied (reply : Option Reply)
  | returned
  | gone

/-- The operation of a call at this stage may have been performed. -/
def CallStage.performed : CallStage Op Reply → Bool
  | .replied (some _) | .returned | .gone => true
  | _ => false

/-- The reply a call waits for is dropped. -/
def CallStage.dropped : CallStage Op Reply → CallStage Op Reply
  | .waiting => .replied none
  | stage => stage

/-- The object, the channel, the request the loop holds while it waits for the lock, and
the calls by number.  In which order the operations were performed is noted for the
statements only. -/
structure Shared (State Op Reply : Type) where
  state : State
  channel : List (Nat × Request Op)
  current : Option (Nat × Request Op)
  stopped : Bool
  calls : List (CallStage Op Reply)
  order : List (Nat × Op)

inductive SharedEvent (Op : Type) where
  | call (request : Request Op)
  /-- The request of a call gets into the channel, or finds it closed. -/
  | send (call : Nat)
  | receive
  /-- The loop gets the lock and serves its request. -/
  | process
  /-- A client gets the lock and performs its operation. -/
  | perform (call : Nat)
  | take (call : Nat)
  | abandon (call : Nat)

namespace Shared

def new (first : State) : Shared State Op Reply where
  state := first
  channel := []
  current := none
  stopped := false
  calls := []
  order := []

/-- A reply that nobody waits for is dropped. -/
def reply (call : Nat) (answer : Reply) (shared : Shared State Op Reply) :
    Shared State Op Reply :=
  match shared.calls[call]? with
  | some .waiting => { shared with calls := shared.calls.set call (.replied (some answer)) }
  | _ => shared

/-- The loop stops, and with it goes every reply it owes. -/
def stop (shared : Shared State Op Reply) : Shared State Op Reply :=
  { shared with
    channel := []
    stopped := true
    calls := shared.calls.map CallStage.dropped }

/-- An operation is performed on the object. -/
def apply (service : Service State Op Reply) (call : Nat) (op : Op)
    (shared : Shared State Op Reply) : Shared State Op Reply :=
  { shared with
    state := (service.object.step shared.state op).1
    order := shared.order ++ [(call, op)] }

def serve (service : Service State Op Reply) (call : Nat) (shared : Shared State Op Reply) :
    Request Op → Shared State Op Reply
  | .operation op => (shared.apply service call op).reply call (service.object.step shared.state op).2
  | .shutdown => shared.stop

/-- One step of the clients and the loop.  What is not due does not happen. -/
def step (service : Service State Op Reply) (shared : Shared State Op Reply) :
    SharedEvent Op → Shared State Op Reply × Option (CallEvent Op Reply)
  | .call request =>
      ({ shared with calls := shared.calls ++ [.sending request] },
        request.operation?.map fun op => .invoke shared.calls.length op)
  | .send call =>
      match shared.calls[call]? with
      | some (.sending request) =>
          if service.byClient request then (shared, none)
          else if shared.stopped then
            ({ shared with calls := shared.calls.set call .returned }, some (.respond call none))
          else if shared.channel.length < service.capacity then
            ({ shared with
                calls := shared.calls.set call .waiting
                channel := shared.channel ++ [(call, request)] }, none)
          else (shared, none)
      | _ => (shared, none)
  | .receive =>
      match shared.current, shared.channel with
      | none, entry :: rest => ({ shared with current := some entry, channel := rest }, none)
      | _, _ => (shared, none)
  | .process =>
      match shared.current with
      | some (call, request) => ({ shared with current := none }.serve service call request, none)
      | none => (shared, none)
  | .perform call =>
      match shared.calls[call]? with
      | some (.sending (.operation op)) =>
          if service.direct op then
            ({ shared.apply service call op with
                calls := shared.calls.set call
                  (.replied (some (service.object.step shared.state op).2)) }, none)
          else (shared, none)
      | _ => (shared, none)
  | .take call =>
      match shared.calls[call]? with
      | some (.replied answer) =>
          ({ shared with calls := shared.calls.set call .returned }, some (.respond call answer))
      | _ => (shared, none)
  | .abandon call =>
      match shared.calls[call]? with
      | some .returned => (shared, none)
      | _ => ({ shared with calls := shared.calls.set call .gone }, none)

def machine (service : Service State Op Reply) :
    Machine (Shared State Op Reply) (SharedEvent Op) (Option (CallEvent Op Reply)) where
  step := step service

/-- What is seen of the calls along a run. -/
def history (service : Service State Op Reply) (first : State) (events : List (SharedEvent Op)) :
    List (CallEvent Op Reply) :=
  ((machine service).transcript (new first) events).filterMap Prod.snd

/-! ## What holds in every state -/

/-- The requests that are still to be served. -/
def pending (shared : Shared State Op Reply) : List (Nat × Request Op) :=
  shared.current.toList ++ shared.channel

/-- What is noted about the calls, and what was seen of them, agree. -/
structure Sound (service : Service State Op Reply) (first : State)
    (history : List (CallEvent Op Reply)) (shared : Shared State Op Reply) : Prop where
  state_eq : shared.state = service.object.numbered.final first shared.order
  distinct : (shared.pending.map Prod.fst ++ shared.order.map Prod.fst).Nodup
  waits : ∀ entry ∈ shared.pending,
    shared.calls[entry.1]? = some .waiting ∨ shared.calls[entry.1]? = some .gone
  queued : ∀ call, shared.calls[call]? = some .waiting → call ∈ shared.pending.map Prod.fst
  past : ∀ call ∈ shared.order.map Prod.fst,
    ∃ stage, shared.calls[call]? = some stage ∧ stage.performed
  made : ∀ entry ∈ shared.order, .invoke entry.1 entry.2 ∈ history
  asked : ∀ call op, (call, .operation op) ∈ shared.pending ∨
    shared.calls[call]? = some (.sending (.operation op)) → .invoke call op ∈ history
  known : ∀ call op, .invoke call op ∈ history → call < shared.calls.length
  single : ∀ call op op', .invoke call op ∈ history → .invoke call op' ∈ history → op = op'
  replied : ∀ call reply, shared.calls[call]? = some (.replied (some reply)) →
    ∃ op, ((call, op), reply) ∈ service.object.numbered.transcript first shared.order
  answered : ∀ call reply, .respond call (some reply) ∈ history →
    ∃ op, ((call, op), reply) ∈ service.object.numbered.transcript first shared.order
  unserved : ∀ call, .respond call none ∈ history →
    shared.calls[call]? = some .returned ∧ call ∉ shared.order.map Prod.fst
  inTime : ∀ one other, ReturnsBefore history one other → other ∈ shared.order.map Prod.fst →
    [one, other].Sublist (shared.order.map Prod.fst)

variable {service : Service State Op Reply} {first : State}
  {history : List (CallEvent Op Reply)} {shared shared' : Shared State Op Reply} {call : Nat}

theorem sound_new (service : Service State Op Reply) (first : State) :
    Sound service first [] (new first) := by
  constructor <;> simp [new, pending, ReturnsBefore]

theorem pair_sublist_concat {α : Type} {one other last : α} {items : List α} :
    [one, other].Sublist (items ++ [last]) ↔
      [one, other].Sublist items ∨ one ∈ items ∧ other = last := by
  constructor
  · intro hsublist
    obtain ⟨init, tail, hpair, hinit, htail⟩ := List.sublist_append_iff.mp hsublist
    rcases List.sublist_singleton.mp htail with rfl | rfl
    · rw [List.append_nil] at hpair
      exact .inl (hpair ▸ hinit)
    · obtain ⟨rfl, hlast⟩ := List.append_inj' (show [one] ++ [other] = init ++ [last] from hpair) rfl
      exact .inr ⟨List.singleton_sublist.mp hinit, List.singleton_inj.mp hlast⟩
  · rintro (hsublist | ⟨hone, rfl⟩)
    · exact hsublist.trans (List.sublist_append_left _ _)
    · exact (List.singleton_sublist.mpr hone).append (List.Sublist.refl [other])

theorem returnsBefore_concat {event : CallEvent Op Reply} {one other : Nat} :
    ReturnsBefore (history ++ [event]) one other ↔
      ReturnsBefore history one other ∨
        (∃ reply, .respond one (some reply) ∈ history) ∧ ∃ op, event = .invoke other op := by
  unfold ReturnsBefore
  simp only [pair_sublist_concat]
  constructor
  · rintro ⟨reply, op, hpair | ⟨hone, hother⟩⟩
    · exact .inl ⟨reply, op, hpair⟩
    · exact .inr ⟨⟨reply, hone⟩, op, hother.symm⟩
  · rintro (⟨reply, op, hpair⟩ | ⟨⟨reply, hone⟩, op, hother⟩)
    · exact ⟨reply, op, .inl hpair⟩
    · exact ⟨reply, op, .inr ⟨hone, hother.symm⟩⟩

theorem Sound.mem_order (hsound : Sound service first history shared) {reply : Reply}
    (hreply : .respond call (some reply) ∈ history) : call ∈ shared.order.map Prod.fst := by
  obtain ⟨op, hop⟩ := hsound.answered call reply hreply
  obtain ⟨past, rest, horder, -⟩ := Machine.mem_transcript_iff.mp hop
  exact List.mem_map.mpr ⟨(call, op), horder ▸ List.mem_append_right _ List.mem_cons_self, rfl⟩

theorem Sound.unsent (hsound : Sound service first history shared) {request : Request Op}
    (hsending : shared.calls[call]? = some (.sending request)) :
    call ∉ shared.pending.map Prod.fst ∧ call ∉ shared.order.map Prod.fst := by
  constructor
  · intro hpending
    obtain ⟨entry, hentry, rfl⟩ := List.mem_map.mp hpending
    rcases hsound.waits entry hentry with hwaits | hgone
    · rw [hsending] at hwaits
      cases hwaits
    · rw [hsending] at hgone
      cases hgone
  · intro horder
    obtain ⟨stage, hstage, hperformed⟩ := hsound.past call horder
    obtain rfl := Option.some.inj (hstage.symm.trans hsending)
    cases hperformed

/-! ## Steps -/

theorem getElem?_set_stage {calls : List (CallStage Op Reply)} {stage : CallStage Op Reply}
    (hstage : calls[call]? = some stage) (next : CallStage Op Reply) (other : Nat) :
    (calls.set call next)[other]? = if call = other then some next else calls[other]? := by
  obtain ⟨hlt, -⟩ := List.getElem?_eq_some_iff.mp hstage
  rw [List.getElem?_set]
  simp [hlt]

/-- A call comes further; nothing else changes. -/
theorem Sound.stage (hsound : Sound service first history shared) {stage next : CallStage Op Reply}
    (hstage : shared.calls[call]? = some stage)
    (hpending : call ∈ shared.pending.map Prod.fst → next = .waiting ∨ next = .gone)
    (hqueued : next = .waiting → call ∈ shared.pending.map Prod.fst)
    (hpast : call ∈ shared.order.map Prod.fst → next.performed)
    (hnext : ∀ request, next ≠ .sending request)
    (hreplied : ∀ reply, next = .replied (some reply) →
      ∃ op, ((call, op), reply) ∈ service.object.numbered.transcript first shared.order)
    (hunserved : .respond call none ∈ history → next = .returned) :
    Sound service first history { shared with calls := shared.calls.set call next } := by
  have hset := getElem?_set_stage hstage next
  constructor
  case state_eq => exact hsound.state_eq
  case distinct => exact hsound.distinct
  case waits =>
    intro entry hentry
    rw [hset]
    split
    · rename_i hsame
      rw [Option.some.injEq, Option.some.injEq]
      exact hpending (hsame ▸ List.mem_map_of_mem hentry)
    · exact hsound.waits entry hentry
  case queued =>
    intro other hother
    rw [hset] at hother
    split at hother
    · rename_i hsame
      exact hsame ▸ hqueued (Option.some.inj hother)
    · exact hsound.queued other hother
  case past =>
    intro other hother
    rw [hset]
    split
    · rename_i hsame
      exact ⟨next, rfl, hpast (hsame ▸ hother)⟩
    · exact hsound.past other hother
  case made => exact hsound.made
  case asked =>
    rintro other op (hpending | hother)
    · exact hsound.asked other op (.inl hpending)
    · rw [hset] at hother
      split at hother
      · exact absurd (Option.some.inj hother) (hnext _)
      · exact hsound.asked other op (.inr hother)
  case known =>
    intro other op hother
    rw [List.length_set]
    exact hsound.known other op hother
  case single => exact hsound.single
  case replied =>
    intro other reply hother
    rw [hset] at hother
    split at hother
    · rename_i hsame
      exact hsame ▸ hreplied reply (Option.some.inj hother)
    · exact hsound.replied other reply hother
  case answered => exact hsound.answered
  case unserved =>
    intro other hother
    rw [hset]
    refine ⟨?_, (hsound.unserved other hother).2⟩
    split
    · rename_i hsame
      rw [hunserved (hsame ▸ hother)]
    · exact (hsound.unserved other hother).1
  case inTime => exact hsound.inTime

theorem Sound.respond (hsound : Sound service first history shared) {answer : Option Reply}
    (hanswered : ∀ reply, answer = some reply →
      ∃ op, ((call, op), reply) ∈ service.object.numbered.transcript first shared.order)
    (hunserved : answer = none →
      shared.calls[call]? = some .returned ∧ call ∉ shared.order.map Prod.fst) :
    Sound service first (history ++ [.respond call answer]) shared where
  state_eq := hsound.state_eq
  distinct := hsound.distinct
  waits := hsound.waits
  queued := hsound.queued
  past := hsound.past
  made entry hentry := List.mem_append_left _ (hsound.made entry hentry)
  asked other op hother := List.mem_append_left _ (hsound.asked other op hother)
  known other op hother := hsound.known other op (by simpa using hother)
  single other op op' hop hop' := hsound.single other op op' (by simpa using hop) (by simpa using hop')
  replied := hsound.replied
  answered other reply hother := by
    rcases List.mem_append.mp hother with hother | hother
    · exact hsound.answered other reply hother
    · obtain ⟨rfl, hreply⟩ := CallEvent.respond.inj (List.mem_singleton.mp hother)
      exact hanswered reply hreply.symm
  unserved other hother := by
    rcases List.mem_append.mp hother with hother | hother
    · exact hsound.unserved other hother
    · obtain ⟨rfl, hnone⟩ := CallEvent.respond.inj (List.mem_singleton.mp hother)
      exact hunserved hnone.symm
  inTime one other hbefore hother := by
    rcases returnsBefore_concat.mp hbefore with hbefore | ⟨-, op, hop⟩
    · exact hsound.inTime one other hbefore hother
    · cases hop

/-- A call is made. -/
theorem Sound.invoke (hsound : Sound service first history shared) (request : Request Op) :
    Sound service first
      (history ++ (request.operation?.map fun op => .invoke shared.calls.length op).toList)
      { shared with calls := shared.calls ++ [.sending request] } := by
  have hold {other : Nat} {stage : CallStage Op Reply} (hstage : shared.calls[other]? = some stage) :
      (shared.calls ++ [.sending request])[other]? = some stage := by
    rw [List.getElem?_append_left (List.getElem?_eq_some_iff.mp hstage).1]
    exact hstage
  have hnew {other : Nat} {stage : CallStage Op Reply}
      (hstage : (shared.calls ++ [.sending request])[other]? = some stage) :
      shared.calls[other]? = some stage ∨
        other = shared.calls.length ∧ stage = .sending request := by
    rcases Nat.lt_trichotomy other shared.calls.length with hlt | rfl | hgt
    · rw [List.getElem?_append_left hlt] at hstage
      exact .inl hstage
    · rw [List.getElem?_concat_length] at hstage
      exact .inr ⟨rfl, (Option.some.inj hstage).symm⟩
    · rw [List.getElem?_eq_none (by rw [List.length_append]; exact hgt)] at hstage
      cases hstage
  have hrespond {other : Nat} {answer : Option Reply}
      (hother : .respond other answer ∈
        history ++ (request.operation?.map fun op => .invoke shared.calls.length op).toList) :
      .respond other answer ∈ history := by
    rcases List.mem_append.mp hother with hother | hother
    · exact hother
    · cases request <;> simp [Request.operation?] at hother
  constructor
  case state_eq => exact hsound.state_eq
  case distinct => exact hsound.distinct
  case waits => exact fun entry hentry => (hsound.waits entry hentry).imp hold hold
  case queued =>
    intro other hother
    rcases hnew hother with hother | ⟨-, hsending⟩
    · exact hsound.queued other hother
    · cases hsending
  case past =>
    intro other hother
    obtain ⟨stage, hstage, hperformed⟩ := hsound.past other hother
    exact ⟨stage, hold hstage, hperformed⟩
  case made => exact fun entry hentry => List.mem_append_left _ (hsound.made entry hentry)
  case asked =>
    rintro other op (hpending | hother)
    · exact List.mem_append_left _ (hsound.asked other op (.inl hpending))
    · rcases hnew hother with hother | ⟨rfl, hsending⟩
      · exact List.mem_append_left _ (hsound.asked other op (.inr hother))
      · obtain rfl := CallStage.sending.inj hsending
        exact List.mem_append_right _ List.mem_cons_self
  case known =>
    intro other op hother
    rw [List.length_append, List.length_singleton]
    rcases List.mem_append.mp hother with hother | hother
    · exact Nat.lt_succ_of_lt (hsound.known other op hother)
    · cases request with
      | shutdown => cases hother
      | operation asked =>
          obtain ⟨rfl, -⟩ := CallEvent.invoke.inj (List.mem_singleton.mp hother)
          exact Nat.lt_succ_self _
  case single =>
    intro other op op' hop hop'
    have hearlier {made : Op}
        (hmade : .invoke other made ∈
          history ++ (request.operation?.map fun op => .invoke shared.calls.length op).toList) :
        .invoke other made ∈ history ∨
          other = shared.calls.length ∧ request = .operation made := by
      rcases List.mem_append.mp hmade with hmade | hmade
      · exact .inl hmade
      · cases request with
        | shutdown => cases hmade
        | operation asked =>
            obtain ⟨rfl, rfl⟩ := CallEvent.invoke.inj (List.mem_singleton.mp hmade)
            exact .inr ⟨rfl, rfl⟩
    rcases hearlier hop with hold | ⟨rfl, hnew⟩
    · rcases hearlier hop' with hold' | ⟨rfl, -⟩
      · exact hsound.single other op op' hold hold'
      · exact absurd (hsound.known _ op hold) (Nat.lt_irrefl _)
    · rcases hearlier hop' with hold' | ⟨-, hnew'⟩
      · exact absurd (hsound.known _ op' hold') (Nat.lt_irrefl _)
      · exact Request.operation.inj (hnew.symm.trans hnew')
  case replied =>
    intro other reply hother
    rcases hnew hother with hother | ⟨-, hsending⟩
    · exact hsound.replied other reply hother
    · cases hsending
  case answered => exact fun other reply hother => hsound.answered other reply (hrespond hother)
  case unserved =>
    intro other hother
    obtain ⟨hreturned, horder⟩ := hsound.unserved other (hrespond hother)
    exact ⟨hold hreturned, horder⟩
  case inTime =>
    intro one other hbefore hother
    cases request with
    | shutdown =>
        refine hsound.inTime one other ?_ hother
        simpa [Request.operation?] using hbefore
    | operation op =>
        rcases returnsBefore_concat.mp hbefore with hbefore | ⟨-, made, hmade⟩
        · exact hsound.inTime one other hbefore hother
        · -- the call is new, so nobody has served it
          obtain ⟨rfl, -⟩ := CallEvent.invoke.inj hmade
          obtain ⟨stage, hstage, -⟩ := hsound.past _ hother
          exact absurd (List.getElem?_eq_some_iff.mp hstage).1 (Nat.lt_irrefl _)

/-- A request gets into the channel. -/
theorem Sound.enqueue (hsound : Sound service first history shared) {request : Request Op}
    (hsending : shared.calls[call]? = some (.sending request)) :
    Sound service first history
      { shared with
        calls := shared.calls.set call .waiting
        channel := shared.channel ++ [(call, request)] } := by
  obtain ⟨hpending, horder⟩ := hsound.unsent hsending
  have hset := getElem?_set_stage hsending .waiting
  have hgrown : ({ shared with
      calls := shared.calls.set call .waiting
      channel := shared.channel ++ [(call, request)] } : Shared State Op Reply).pending =
        shared.pending ++ [(call, request)] := (List.append_assoc _ _ _).symm
  constructor
  case state_eq => exact hsound.state_eq
  case distinct =>
    rw [hgrown, List.map_append, List.append_assoc]
    refine (List.perm_middle.nodup_iff).mpr (List.nodup_cons.mpr ⟨?_, hsound.distinct⟩)
    rw [List.mem_append, not_or]
    exact ⟨hpending, horder⟩
  case waits =>
    intro entry hentry
    rw [hset]
    split
    · exact .inl rfl
    · rename_i hother
      rw [hgrown, List.mem_append, List.mem_singleton] at hentry
      rcases hentry with hentry | rfl
      · exact hsound.waits entry hentry
      · exact absurd rfl hother
  case queued =>
    intro other hother
    rw [hgrown, List.map_append, List.mem_append]
    rw [hset] at hother
    split at hother
    · rename_i hsame
      exact .inr (hsame ▸ List.mem_cons_self)
    · exact .inl (hsound.queued other hother)
  case past =>
    intro other hother
    rw [hset, if_neg fun hsame : call = other => horder (hsame ▸ hother)]
    exact hsound.past other hother
  case made => exact hsound.made
  case asked =>
    rintro other op (hother | hother)
    · rw [hgrown, List.mem_append, List.mem_singleton] at hother
      rcases hother with hother | hother
      · exact hsound.asked other op (.inl hother)
      · obtain ⟨rfl, rfl⟩ := Prod.mk.inj hother
        exact hsound.asked other op (.inr hsending)
    · rw [hset] at hother
      split at hother
      · cases hother
      · exact hsound.asked other op (.inr hother)
  case known =>
    intro other op hother
    rw [List.length_set]
    exact hsound.known other op hother
  case single => exact hsound.single
  case replied =>
    intro other reply hother
    rw [hset] at hother
    split at hother
    · cases hother
    · exact hsound.replied other reply hother
  case answered => exact hsound.answered
  case unserved =>
    intro other hother
    obtain ⟨hreturned, hnot⟩ := hsound.unserved other hother
    refine ⟨?_, hnot⟩
    rw [hset]
    split
    · rename_i hsame
      rw [← hsame, hsending] at hreturned
      cases hreturned
    · exact hreturned
  case inTime => exact hsound.inTime

theorem Sound.receive (hsound : Sound service first history shared)
    {current : Option (Nat × Request Op)} {channel : List (Nat × Request Op)}
    (hpending : current.toList ++ channel = shared.pending) :
    Sound service first history { shared with current, channel } where
  state_eq := hsound.state_eq
  distinct := by
    rw [pending, hpending]
    exact hsound.distinct
  waits entry hentry := hsound.waits entry (hpending ▸ hentry)
  queued other hother := by
    rw [pending, hpending]
    exact hsound.queued other hother
  past := hsound.past
  made := hsound.made
  asked other op hother := hsound.asked other op (hother.imp_left (hpending ▸ ·))
  known := hsound.known
  single := hsound.single
  replied := hsound.replied
  answered := hsound.answered
  unserved := hsound.unserved
  inTime := hsound.inTime

theorem transcript_concat (object : Machine State Op Reply) (order : List (Nat × Op)) (op : Op) :
    object.numbered.transcript first (order ++ [(call, op)]) =
      object.numbered.transcript first order ++
        [((call, op), (object.step (object.numbered.final first order) op).2)] := by
  rw [Machine.transcript_append]
  rfl

/-- An operation is performed: its call was not served before, and is not served again. -/
theorem Sound.apply (hsound : Sound service first history shared) {op : Op}
    {stage : CallStage Op Reply} (hstage : shared.calls[call]? = some stage)
    (next : CallStage Op Reply)
    (hmade : .invoke call op ∈ history) (hfresh : call ∉ shared.order.map Prod.fst)
    (hreturned : stage ≠ .returned) (hperformed : next.performed)
    (hreply : ∀ reply, next = .replied (some reply) →
      reply = (service.object.step shared.state op).2)
    (hstate : shared'.state = (service.object.step shared.state op).1)
    (horder : shared'.order = shared.order ++ [(call, op)])
    (hcalls : shared'.calls = shared.calls.set call next)
    (hpending : ∀ entry, entry ∈ shared'.pending ↔ entry ∈ shared.pending ∧ entry.1 ≠ call)
    (hdistinct : (shared'.pending.map Prod.fst).Nodup) :
    Sound service first history shared' := by
  have hset (other : Nat) :
      shared'.calls[other]? = if call = other then some next else shared.calls[other]? :=
    hcalls ▸ getElem?_set_stage hstage next other
  have htranscript : service.object.numbered.transcript first shared'.order =
      service.object.numbered.transcript first shared.order ++
        [((call, op), (service.object.step shared.state op).2)] := by
    rw [horder, transcript_concat, ← hsound.state_eq]
  have hkept {other : Nat} {reply : Reply}
      (hother : ∃ op, ((other, op), reply) ∈
        service.object.numbered.transcript first shared.order) :
      ∃ op, ((other, op), reply) ∈ service.object.numbered.transcript first shared'.order := by
    obtain ⟨made, hentry⟩ := hother
    exact ⟨made, htranscript ▸ List.mem_append_left _ hentry⟩
  have hnumbers : shared'.order.map Prod.fst = shared.order.map Prod.fst ++ [call] := by
    rw [horder, List.map_append]
    rfl
  constructor
  case state_eq =>
    rw [hstate, horder, Machine.final_append, hsound.state_eq]
    rfl
  case distinct =>
    have hout {number : Nat} (hnumber : number ∈ shared'.pending.map Prod.fst) :
        number ∈ shared.pending.map Prod.fst ∧ number ≠ call := by
      obtain ⟨entry, hentry, rfl⟩ := List.mem_map.mp hnumber
      exact ⟨List.mem_map_of_mem ((hpending entry).mp hentry).1, ((hpending entry).mp hentry).2⟩
    have hapart := List.nodup_append'.mp hsound.distinct
    rw [hnumbers]
    refine List.nodup_append'.mpr ⟨hdistinct, ?_, ?_⟩
    · exact List.nodup_append'.mpr ⟨hapart.2.1, List.nodup_singleton call,
        List.disjoint_singleton.mpr hfresh⟩
    · intro number hnumber hserved
      rcases List.mem_append.mp hserved with hserved | hserved
      · exact hapart.2.2 (hout hnumber).1 hserved
      · exact (hout hnumber).2 (List.mem_singleton.mp hserved)
  case waits =>
    intro entry hentry
    obtain ⟨hentry, hother⟩ := (hpending entry).mp hentry
    rw [hset, if_neg (Ne.symm hother)]
    exact hsound.waits entry hentry
  case queued =>
    intro other hother
    rw [hset] at hother
    split at hother
    · rw [Option.some.inj hother] at hperformed
      cases hperformed
    · rename_i hdifferent
      obtain ⟨entry, hentry, rfl⟩ := List.mem_map.mp (hsound.queued other hother)
      exact List.mem_map_of_mem ((hpending entry).mpr ⟨hentry, Ne.symm hdifferent⟩)
  case past =>
    intro other hother
    rw [hset]
    split
    · exact ⟨next, rfl, hperformed⟩
    · rename_i hdifferent
      rw [hnumbers, List.mem_append, List.mem_singleton] at hother
      exact hsound.past other (hother.resolve_right (Ne.symm hdifferent))
  case made =>
    intro entry hentry
    rw [horder, List.mem_append, List.mem_singleton] at hentry
    rcases hentry with hentry | rfl
    · exact hsound.made entry hentry
    · exact hmade
  case asked =>
    rintro other asked (hother | hother)
    · exact hsound.asked other asked (.inl ((hpending _).mp hother).1)
    · rw [hset] at hother
      split at hother
      · rw [Option.some.inj hother] at hperformed
        cases hperformed
      · exact hsound.asked other asked (.inr hother)
  case known =>
    intro other asked hother
    rw [hcalls, List.length_set]
    exact hsound.known other asked hother
  case single => exact hsound.single
  case replied =>
    intro other reply hother
    rw [hset] at hother
    split at hother
    · rename_i hsame
      rw [hreply reply (Option.some.inj hother), htranscript]
      exact ⟨op, hsame ▸ List.mem_append_right _ List.mem_cons_self⟩
    · exact hkept (hsound.replied other reply hother)
  case answered => exact fun other reply hother => hkept (hsound.answered other reply hother)
  case unserved =>
    intro other hother
    obtain ⟨hstill, hnot⟩ := hsound.unserved other hother
    have hdifferent : call ≠ other := by
      rintro rfl
      exact hreturned (Option.some.inj (hstage.symm.trans hstill))
    rw [hset, if_neg hdifferent, hnumbers, List.mem_append, List.mem_singleton]
    exact ⟨hstill, not_or.mpr ⟨hnot, Ne.symm hdifferent⟩⟩
  case inTime =>
    intro one other hbefore hother
    rw [hnumbers, List.mem_append, List.mem_singleton] at hother
    rw [hnumbers, pair_sublist_concat]
    rcases hother with hother | rfl
    · exact .inl (hsound.inTime one other hbefore hother)
    · -- whoever had returned by then was served before
      obtain ⟨reply, asked, hpair⟩ := hbefore
      exact .inr ⟨hsound.mem_order (hpair.subset List.mem_cons_self), rfl⟩

theorem reply_of_waiting (hwaits : shared.calls[call]? = some .waiting) (answer : Reply) :
    shared.reply call answer =
      { shared with calls := shared.calls.set call (.replied (some answer)) } := by
  rw [reply, hwaits]

theorem reply_of_gone (hgone : shared.calls[call]? = some .gone) (answer : Reply) :
    shared.reply call answer = shared := by
  rw [reply, hgone]

/-- The loop stops with what it was to serve. -/
theorem Sound.stop (hsound : Sound service first history shared) :
    Sound service first history { shared with current := none }.stop := by
  have hstages {other : Nat} {stage : CallStage Op Reply}
      (hother : ({ shared with current := none }.stop).calls[other]? = some stage) :
      shared.calls[other]? = some stage ∨
        shared.calls[other]? = some .waiting ∧ stage = .replied none := by
    rw [Shared.stop, List.getElem?_map] at hother
    obtain ⟨before, hbefore, rfl⟩ := Option.map_eq_some_iff.mp hother
    cases before with
    | waiting => exact .inr ⟨hbefore, rfl⟩
    | _ => exact .inl hbefore
  have hkept {other : Nat} {stage : CallStage Op Reply}
      (hother : shared.calls[other]? = some stage) (hstage : stage ≠ .waiting) :
      ({ shared with current := none }.stop).calls[other]? = some stage := by
    rw [Shared.stop, List.getElem?_map, hother]
    cases stage with
    | waiting => exact absurd rfl hstage
    | _ => rfl
  constructor
  case state_eq => exact hsound.state_eq
  case distinct => exact (List.nodup_append'.mp hsound.distinct).2.1
  case waits => exact fun entry hentry => absurd hentry List.not_mem_nil
  case queued =>
    intro other hother
    rw [Shared.stop, List.getElem?_map] at hother
    obtain ⟨before, -, hbefore⟩ := Option.map_eq_some_iff.mp hother
    cases before <;> cases hbefore
  case past =>
    intro other hother
    obtain ⟨stage, hstage, hperformed⟩ := hsound.past other hother
    refine ⟨stage, hkept hstage ?_, hperformed⟩
    rintro rfl
    cases hperformed
  case made => exact hsound.made
  case asked =>
    rintro other op (hother | hother)
    · cases hother
    · rcases hstages hother with hother | ⟨-, hreplied⟩
      · exact hsound.asked other op (.inr hother)
      · cases hreplied
  case known =>
    intro other op hother
    rw [Shared.stop, List.length_map]
    exact hsound.known other op hother
  case single => exact hsound.single
  case replied =>
    intro other reply hother
    rcases hstages hother with hother | ⟨-, hreplied⟩
    · exact hsound.replied other reply hother
    · cases hreplied
  case answered => exact hsound.answered
  case unserved =>
    intro other hother
    obtain ⟨hreturned, hnot⟩ := hsound.unserved other hother
    exact ⟨hkept hreturned (by simp), hnot⟩
  case inTime => exact hsound.inTime

/-- The loop serves the request it holds. -/
theorem Sound.serve (hsound : Sound service first history shared) {request : Request Op}
    (hcurrent : shared.current = some (call, request)) :
    Sound service first history ({ shared with current := none }.serve service call request) := by
  cases request with
  | shutdown => exact hsound.stop
  | operation op =>
      have hpending : shared.pending = (call, .operation op) :: shared.channel := by
        rw [pending, hcurrent]
        rfl
      have hdistinct := hsound.distinct
      rw [hpending, List.map_cons, List.cons_append, List.nodup_cons, List.mem_append,
        not_or] at hdistinct
      obtain ⟨⟨hchannel, horder⟩, hrest⟩ := hdistinct
      have hmade := hsound.asked call op (.inl (hpending ▸ List.mem_cons_self))
      have hleft (entry : Nat × Request Op) :
          entry ∈ shared.channel ↔ entry ∈ shared.pending ∧ entry.1 ≠ call := by
        rw [hpending, List.mem_cons]
        constructor
        · intro hentry
          refine ⟨.inr hentry, fun hsame => hchannel ?_⟩
          have hnumber := List.mem_map_of_mem (f := Prod.fst) hentry
          rwa [hsame] at hnumber
        · rintro ⟨rfl | hentry, hother⟩
          · exact absurd rfl hother
          · exact hentry
      have hchannelDistinct := (List.nodup_append'.mp hrest).1
      rcases hsound.waits (call, .operation op) (hpending ▸ List.mem_cons_self) with hwaits | hgone
      · have hwaits' : ({ shared with current := none }.apply service call op).calls[call]? =
            some .waiting := hwaits
        rw [Shared.serve, reply_of_waiting hwaits']
        refine hsound.apply hwaits (.replied (some (service.object.step shared.state op).2)) hmade
          horder (by simp) rfl ?_ rfl rfl rfl hleft hchannelDistinct
        exact fun reply hreply => (Option.some.inj (CallStage.replied.inj hreply)).symm
      · have hgone' : ({ shared with current := none }.apply service call op).calls[call]? =
            some .gone := hgone
        rw [Shared.serve, reply_of_gone hgone']
        obtain ⟨hlt, hstage⟩ := List.getElem?_eq_some_iff.mp hgone
        refine hsound.apply hgone .gone hmade horder (by simp) rfl (by simp) rfl rfl ?_ hleft
          hchannelDistinct
        exact hstage ▸ (List.set_getElem_self hlt).symm

theorem Sound.not_pending (hsound : Sound service first history shared) {answer : Option Reply}
    (hreplied : shared.calls[call]? = some (.replied answer)) :
    call ∉ shared.pending.map Prod.fst := by
  intro hpending
  obtain ⟨entry, hentry, rfl⟩ := List.mem_map.mp hpending
  rcases hsound.waits entry hentry with hwaits | hgone
  · rw [hreplied] at hwaits
    cases hwaits
  · rw [hreplied] at hgone
    cases hgone

theorem Sound.take (hsound : Sound service first history shared) {answer : Option Reply}
    (hreplied : shared.calls[call]? = some (.replied answer)) :
    Sound service first (history ++ [.respond call answer])
      { shared with calls := shared.calls.set call .returned } := by
  have hreturned : Sound service first history
      { shared with calls := shared.calls.set call .returned } :=
    hsound.stage hreplied (fun hpending => absurd hpending (hsound.not_pending hreplied)) (by simp)
      (fun _ => rfl) (by simp) (by simp) (fun _ => rfl)
  refine hreturned.respond ?_ ?_
  · rintro reply rfl
    exact hsound.replied call reply hreplied
  · rintro rfl
    refine ⟨(getElem?_set_stage hreplied .returned call).trans (if_pos rfl), fun horder => ?_⟩
    obtain ⟨stage, hstage, hperformed⟩ := hsound.past call horder
    obtain rfl := Option.some.inj (hstage.symm.trans hreplied)
    cases hperformed

theorem Sound.refuse (hsound : Sound service first history shared) {request : Request Op}
    (hsending : shared.calls[call]? = some (.sending request)) :
    Sound service first (history ++ [.respond call none])
      { shared with calls := shared.calls.set call .returned } := by
  obtain ⟨hpending, horder⟩ := hsound.unsent hsending
  have hreturned : Sound service first history
      { shared with calls := shared.calls.set call .returned } :=
    hsound.stage hsending (fun hmem => absurd hmem hpending) (by simp)
      (fun _ => rfl) (by simp) (by simp) (fun _ => rfl)
  refine hreturned.respond (by simp) fun _ => ⟨?_, horder⟩
  exact (getElem?_set_stage hsending .returned call).trans (if_pos rfl)

theorem Sound.perform (hsound : Sound service first history shared) {op : Op}
    (hsending : shared.calls[call]? = some (.sending (.operation op))) :
    Sound service first history
      { shared.apply service call op with
        calls := shared.calls.set call (.replied (some (service.object.step shared.state op).2)) } := by
  obtain ⟨hpending, horder⟩ := hsound.unsent hsending
  refine hsound.apply hsending (.replied (some (service.object.step shared.state op).2))
    (hsound.asked call op (.inr hsending)) horder (by simp) rfl ?_ rfl rfl rfl ?_ ?_
  · exact fun reply hreply => (Option.some.inj (CallStage.replied.inj hreply)).symm
  · refine fun entry => ⟨fun hentry => ⟨hentry, ?_⟩, And.left⟩
    rintro rfl
    exact hpending (List.mem_map_of_mem hentry)
  · exact (List.nodup_append'.mp hsound.distinct).1

theorem Sound.abandon (hsound : Sound service first history shared)
    (hcall : shared.calls[call]? ≠ some .returned) :
    Sound service first history { shared with calls := shared.calls.set call .gone } := by
  cases hstage : shared.calls[call]? with
  | none =>
      rw [List.set_eq_of_length_le (List.getElem?_eq_none_iff.mp hstage)]
      exact hsound
  | some stage =>
      refine hsound.stage hstage (fun _ => .inr rfl) (by simp) (fun _ => rfl) (by simp) (by simp) ?_
      exact fun hunserved => absurd (hsound.unserved call hunserved).1 hcall

/-- Every step keeps what is noted and what was seen in agreement. -/
theorem Sound.step (hsound : Sound service first history shared) (event : SharedEvent Op) :
    Sound service first (history ++ (shared.step service event).2.toList)
      (shared.step service event).1 := by
  cases event with
  | call request => exact hsound.invoke request
  | send call =>
      simp only [Shared.step]
      split
      · rename_i request hsending
        split
        · simpa using hsound
        · split
          · exact hsound.refuse hsending
          · split
            · simpa using hsound.enqueue hsending
            · simpa using hsound
      · simpa using hsound
  | receive =>
      simp only [Shared.step]
      split
      · rename_i entry rest hcurrent hchannel
        have hpending : (some entry).toList ++ rest = shared.pending := by
          rw [pending, hcurrent, hchannel]
          rfl
        simpa using hsound.receive hpending
      · simpa using hsound
  | process =>
      simp only [Shared.step]
      split
      · rename_i call request hcurrent
        simpa using hsound.serve hcurrent
      · simpa using hsound
  | perform call =>
      simp only [Shared.step]
      split
      · rename_i op hsending
        split
        · simpa using hsound.perform hsending
        · simpa using hsound
      · simpa using hsound
  | take call =>
      simp only [Shared.step]
      split
      · rename_i answer hreplied
        exact hsound.take hreplied
      · simpa using hsound
  | abandon call =>
      simp only [Shared.step]
      split
      · simpa using hsound
      · rename_i hcall
        simpa using hsound.abandon hcall

/-! ## Runs -/

theorem filterMap_snd_cons {α β : Type} (entry : α × Option β) (rest : List (α × Option β)) :
    (entry :: rest).filterMap Prod.snd = entry.2.toList ++ rest.filterMap Prod.snd := by
  obtain ⟨label, seen⟩ := entry
  cases seen <;> rfl

theorem sound_final (service : Service State Op Reply) (first : State)
    (events : List (SharedEvent Op)) :
    Sound service first (Shared.history service first events)
      ((machine service).final (new first) events) := by
  have hstep (done : List (SharedEvent Op × Option (CallEvent Op Reply)))
      (shared : Shared State Op Reply) (event : SharedEvent Op)
      (hsound : Sound service first (done.filterMap Prod.snd) shared) :
      Sound service first
        ((done ++ [(event, ((machine service).step shared event).2)]).filterMap Prod.snd)
        ((machine service).step shared event).1 := by
    rw [List.filterMap_append, filterMap_snd_cons, List.filterMap_nil, List.append_nil]
    exact hsound.step event
  exact @Machine.history_invariant _ _ _ (machine service)
    (fun done => Sound service first (done.filterMap Prod.snd)) hstep (new first)
    (sound_new service first) events

/-- The operations the clients ask for along a run. -/
def asked (events : List (SharedEvent Op)) : List Op :=
  events.filterMap fun
    | .call request => request.operation?
    | _ => none

/-- Nothing is seen of a call being made but when it is made. -/
theorem invocations_step (service : Service State Op Reply) (shared : Shared State Op Reply)
    (event : SharedEvent Op) :
    (invocations (shared.step service event).2.toList).map Prod.snd = asked [event] := by
  cases event with
  | call request => cases request <;> rfl
  | send call =>
      simp only [Shared.step]
      split
      · split
        · rfl
        · split
          · rfl
          · split <;> rfl
      · rfl
  | receive =>
      simp only [Shared.step]
      split <;> rfl
  | process =>
      simp only [Shared.step]
      split <;> rfl
  | perform call =>
      simp only [Shared.step]
      split
      · split <;> rfl
      · rfl
  | take call =>
      simp only [Shared.step]
      split <;> rfl
  | abandon call =>
      simp only [Shared.step]
      split <;> rfl

theorem invocations_history (service : Service State Op Reply) (first : State)
    (events : List (SharedEvent Op)) :
    (invocations (Shared.history service first events)).map Prod.snd = asked events := by
  unfold Shared.history
  generalize (new first : Shared State Op Reply) = shared
  induction events generalizing shared with
  | nil => rfl
  | cons event rest ih =>
      have hseen : ((machine service).transcript shared (event :: rest)).filterMap Prod.snd =
          (shared.step service event).2.toList ++
            ((machine service).transcript (shared.step service event).1 rest).filterMap Prod.snd :=
        filterMap_snd_cons _ _
      rw [hseen, invocations, List.filterMap_append, List.map_append, ← invocations, ← invocations,
        invocations_step, ih]
      exact (List.filterMap_append (l := [event])).symm

/-- The calls in the order in which their operations were performed. -/
def turns (service : Service State Op Reply) (first : State) (events : List (SharedEvent Op)) :
    List (Nat × Op) :=
  ((machine service).final (new first) events).order

/-- However calls overlap, the order in which their operations were performed explains
what they returned, and the object is as it would be after them. -/
theorem linearizes (service : Service State Op Reply) (first : State)
    (events : List (SharedEvent Op)) :
    Linearizes service.object first (Shared.history service first events)
        (turns service first events) ∧
      ((machine service).final (new first) events).state =
        service.object.final first ((turns service first events).map Prod.snd) := by
  have hsound := sound_final service first events
  refine ⟨⟨?_, hsound.made, hsound.answered, ?_, hsound.inTime⟩, ?_⟩
  · exact (List.nodup_append'.mp hsound.distinct).2.1
  · exact fun call hcall => (hsound.unserved call hcall).2
  · rw [hsound.state_eq, Machine.final_numbered]
    rfl

section Turns

variable {service : Service State Op Reply} {first : State} {events : List (SharedEvent Op)}
  {one other : Nat} {op op' : Op} {reply reply' : Reply}

theorem subperm_asked (service : Service State Op Reply) (first : State)
    (events : List (SharedEvent Op)) :
    ((turns service first events).map Prod.snd).Subperm (asked events) := by
  rw [← invocations_history service first events]
  exact (linearizes service first events).1.subperm

theorem turn_of_respond
    (hmade : .invoke one op ∈ Shared.history service first events)
    (hreply : .respond one (some reply) ∈ Shared.history service first events) :
    ∃ past rest, turns service first events = past ++ (one, op) :: rest ∧
      reply = (service.object.step (service.object.final first (past.map Prod.snd)) op).2 := by
  obtain ⟨past, served, rest, horder, hserved, hanswer⟩ :=
    (linearizes service first events).1.turn hreply
  obtain rfl := (sound_final service first events).single one served op hserved hmade
  exact ⟨past, rest, horder, hanswer⟩

/-- Two calls were performed one after the other, with other calls before and between. -/
def InTurn (service : Service State Op Reply) (first : State) (turns : List (Nat × Op))
    (one : Nat × Op) (reply : Reply) (other : Nat × Op) (reply' : Reply) : Prop :=
  ∃ past between rest, turns = past ++ one :: (between ++ other :: rest) ∧
    reply = (service.object.step (service.object.final first (past.map Prod.snd)) one.2).2 ∧
    reply' = (service.object.step (service.object.final
      (service.object.step (service.object.final first (past.map Prod.snd)) one.2).1
      (between.map Prod.snd)) other.2).2

theorem inTurn_of_sublist
    (hmade : .invoke one op ∈ Shared.history service first events)
    (hreply : .respond one (some reply) ∈ Shared.history service first events)
    (hmade' : .invoke other op' ∈ Shared.history service first events)
    (hreply' : .respond other (some reply') ∈ Shared.history service first events)
    (hsublist : [one, other].Sublist ((turns service first events).map Prod.fst)) :
    InTurn service first (turns service first events) (one, op) reply (other, op') reply' := by
  obtain ⟨past, served, between, served', rest, horder, ⟨hserved, hanswer⟩, hserved', hanswer'⟩ :=
    (linearizes service first events).1.turns hreply hreply' hsublist
  have hsound := sound_final service first events
  obtain rfl := hsound.single one served op hserved hmade
  obtain rfl := hsound.single other served' op' hserved' hmade'
  refine ⟨past, between, rest, horder, hanswer, ?_⟩
  rw [List.map_append, Machine.final_append] at hanswer'
  exact hanswer'

theorem inTurn_of_returnsBefore
    (hmade : .invoke one op ∈ Shared.history service first events)
    (hreply : .respond one (some reply) ∈ Shared.history service first events)
    (hmade' : .invoke other op' ∈ Shared.history service first events)
    (hreply' : .respond other (some reply') ∈ Shared.history service first events)
    (hbefore : ReturnsBefore (Shared.history service first events) one other) :
    InTurn service first (turns service first events) (one, op) reply (other, op') reply' := by
  refine inTurn_of_sublist hmade hreply hmade' hreply' ?_
  obtain ⟨past, rest, horder, -⟩ := turn_of_respond hmade' hreply'
  exact (linearizes service first events).1.inTime one other hbefore (by simp [horder])

theorem inTurn_or
    (hmade : .invoke one op ∈ Shared.history service first events)
    (hreply : .respond one (some reply) ∈ Shared.history service first events)
    (hmade' : .invoke other op' ∈ Shared.history service first events)
    (hreply' : .respond other (some reply') ∈ Shared.history service first events)
    (hdifferent : one ≠ other) :
    InTurn service first (turns service first events) (one, op) reply (other, op') reply' ∨
      InTurn service first (turns service first events) (other, op') reply' (one, op) reply := by
  refine ((linearizes service first events).1.turns_or hreply hreply' hdifferent).imp ?_ ?_
  · exact inTurn_of_sublist hmade hreply hmade' hreply'
  · exact inTurn_of_sublist hmade' hreply' hmade hreply

theorem InTurn.asked {one other : Nat × Op}
    (hturns : InTurn service first (turns service first events) one reply other reply') :
    ∃ past between : List Op,
      (∀ op ∈ past, op ∈ asked events) ∧ (∀ op ∈ between, op ∈ asked events) ∧
      past.length + between.length + 2 ≤ (asked events).length ∧
      reply = (service.object.step (service.object.final first past) one.2).2 ∧
      reply' = (service.object.step (service.object.final
        (service.object.step (service.object.final first past) one.2).1 between) other.2).2 := by
  obtain ⟨past, between, rest, horder, hanswer, hanswer'⟩ := hturns
  have hsubperm := subperm_asked service first events
  rw [horder] at hsubperm
  have hlength := hsubperm.length_le
  simp only [List.map_append, List.map_cons, List.length_append, List.length_cons,
    List.length_map] at hlength
  refine ⟨past.map Prod.snd, between.map Prod.snd, ?_, ?_, ?_, hanswer, hanswer'⟩
  · exact fun op hop => hsubperm.subset (by simp_all)
  · exact fun op hop => hsubperm.subset (by simp_all)
  · simp only [List.length_map]
    omega

end Turns

end Shared

end Scuttled.Foundation
