import Mathlib.Logic.Function.Basic
import Scuttled.Foundation.SharedObject

/-!
# Clients whose turns overlap

A client takes turns.  In a turn it either does all it does at once, or it asks an object
that it shares with other clients one question, and the answer settles the rest.  While
it waits for the answer, other clients start and end turns of theirs.

Each turn might as well have been taken while nobody else did anything: at the moment
its question was served.  The clients see what they would see if they took their turns
one after the other, in an order that only ever grows at its end.
-/

namespace Scuttled.Foundation

variable {Id Local Input Op Reply Output State Whole : Type}

/-- What a client does with an input. -/
inductive ClientStep (Local Op Reply Output : Type) where
  | done (own : Local) (output : Output)
  | ask (op : Op) (settle : Reply → Local × Output)

/-- A client, by its own state and the input of a turn. -/
abbrev Client (Local Input Op Reply Output : Type) :=
  Local → Input → ClientStep Local Op Reply Output

/-- What a turn leaves: the state of the client, that of the object, and its output. -/
structure Taken (Local State Output : Type) where
  own : Local
  state : State
  output : Output

/-- A turn while nobody else does anything. -/
def Client.take (client : Client Local Input Op Reply Output) (object : Machine State Op Reply)
    (own : Local) (state : State) (input : Input) : Taken Local State Output :=
  match client own input with
  | .done own output => { own, state, output }
  | .ask op settle =>
      { own := (settle (object.step state op).2).1
        state := (object.step state op).1
        output := (settle (object.step state op).2).2 }

/-- The operation a turn asks for. -/
def Client.asks (client : Client Local Input Op Reply Output) (own : Local) (input : Input) :
    List Op :=
  match client own input with
  | .done _ _ => []
  | .ask op _ => [op]

section Take

variable {client : Client Local Input Op Reply Output} {own own' : Local} {input : Input}
  {output : Output} {op : Op} {settle : Reply → Local × Output}

theorem Client.take_of_done (object : Machine State Op Reply) (state : State)
    (hdone : client own input = .done own' output) :
    client.take object own state input = ⟨own', state, output⟩ := by
  rw [Client.take, hdone]

theorem Client.take_of_ask (object : Machine State Op Reply) (state : State)
    (hask : client own input = .ask op settle) :
    client.take object own state input =
      ⟨(settle (object.step state op).2).1, (object.step state op).1,
        (settle (object.step state op).2).2⟩ := by
  rw [Client.take, hask]

theorem Client.asks_of_done (hdone : client own input = .done own' output) :
    client.asks own input = [] := by
  rw [Client.asks, hdone]

theorem Client.asks_of_ask (hask : client own input = .ask op settle) :
    client.asks own input = [op] := by
  rw [Client.asks, hask]

end Take

/-- A machine whose inputs are turns of clients, each taken while nobody else does
anything. -/
structure Serial (Id : Type) [DecidableEq Id] (client : Client Local Input Op Reply Output)
    (object : Machine State Op Reply) (Whole : Type) where
  machine : Machine Whole (Id × Input) Output
  own : Whole → Id → Local
  state : Whole → State
  own_step : ∀ whole id input, own (machine.step whole (id, input)).1 =
    Function.update (own whole) id (client.take object (own whole id) (state whole) input).own
  state_step : ∀ whole id input, state (machine.step whole (id, input)).1 =
    (client.take object (own whole id) (state whole) input).state
  output_step : ∀ whole id input, (machine.step whole (id, input)).2 =
    (client.take object (own whole id) (state whole) input).output

/-- The operations that turns ask for, taken one after the other. -/
def Serial.operations [DecidableEq Id] {client : Client Local Input Op Reply Output}
    {object : Machine State Op Reply} (serial : Serial Id client object Whole)
    (first : Whole) (schedule : List (Id × Input)) : List Op :=
  serial.machine.observed (fun whole turn => client.asks (serial.own whole turn.1) turn.2) first
    schedule

theorem Serial.operations_append [DecidableEq Id] {client : Client Local Input Op Reply Output}
    {object : Machine State Op Reply} (serial : Serial Id client object Whole) (first : Whole)
    (schedule later : List (Id × Input)) :
    serial.operations first (schedule ++ later) =
      serial.operations first schedule ++
        serial.operations (serial.machine.final first schedule) later :=
  Machine.observed_append _ _ _ _ _

theorem Serial.operations_cons [DecidableEq Id] {client : Client Local Input Op Reply Output}
    {object : Machine State Op Reply} (serial : Serial Id client object Whole) (first : Whole)
    (turn : Id × Input) (later : List (Id × Input)) :
    serial.operations first (turn :: later) =
      client.asks (serial.own first turn.1) turn.2 ++
        serial.operations (serial.machine.step first turn).1 later := rfl

theorem Serial.state_final [DecidableEq Id] {client : Client Local Input Op Reply Output}
    {object : Machine State Op Reply} (serial : Serial Id client object Whole) (first : Whole)
    (schedule : List (Id × Input)) :
    serial.state (serial.machine.final first schedule) =
      object.final (serial.state first) (serial.operations first schedule) := by
  induction schedule generalizing first with
  | nil => rfl
  | cons turn rest ih =>
      have hturn : serial.state (serial.machine.step first turn).1 =
          object.final (serial.state first) (client.asks (serial.own first turn.1) turn.2) := by
        rw [serial.state_step]
        cases hclient : client (serial.own first turn.1) turn.2 with
        | done own output =>
            rw [Client.take_of_done _ _ hclient, Client.asks_of_done hclient]
            rfl
        | ask op settle =>
            rw [Client.take_of_ask _ _ hclient, Client.asks_of_ask hclient]
            rfl
      rw [Machine.final_cons, ih, hturn, Serial.operations_cons, Machine.final_append]

/-- A turn that has asked its question. -/
structure Question (Local Input Op Reply Output : Type) where
  input : Input
  call : Nat
  op : Op
  settle : Reply → Local × Output

/-- The clients, their open questions, and the object with its channel and its loop. -/
structure Overlapping (Id Local Input Op Reply Output State : Type) where
  own : Id → Local
  asked : Id → Option (Question Local Input Op Reply Output)
  shared : Shared State Op Reply

inductive OverlapEvent (Id Input : Type) where
  | start (id : Id) (input : Input)
  | send (id : Id)
  | receive
  | process
  | perform (id : Id)
  | finish (id : Id)

namespace Overlapping

def new (own : Id → Local) (first : State) :
    Overlapping Id Local Input Op Reply Output State where
  own
  asked _ := none
  shared := .new first

/-- The object, its channel or its loop comes further. -/
def advance (service : Service State Op Reply) (event : SharedEvent Op)
    (overlapping : Overlapping Id Local Input Op Reply Output State) :
    Overlapping Id Local Input Op Reply Output State :=
  { overlapping with shared := (overlapping.shared.step service event).1 }

variable [DecidableEq Id]

/-- One step of the clients and the loop.  What is not due does not happen; the output of
a turn is seen when it ends. -/
def step (client : Client Local Input Op Reply Output) (service : Service State Op Reply)
    (overlapping : Overlapping Id Local Input Op Reply Output State) :
    OverlapEvent Id Input →
      Overlapping Id Local Input Op Reply Output State × Option ((Id × Input) × Output)
  | .start id input =>
      match overlapping.asked id with
      | some _ => (overlapping, none)
      | none =>
          match client (overlapping.own id) input with
          | .done own output =>
              ({ overlapping with own := Function.update overlapping.own id own },
                some ((id, input), output))
          | .ask op settle =>
              let call := overlapping.shared.calls.length
              ({ overlapping.advance service (.call (.operation op)) with
                  asked := Function.update overlapping.asked id
                    (some { input, call, op, settle }) }, none)
  | .send id =>
      match overlapping.asked id with
      | some question => (overlapping.advance service (.send question.call), none)
      | none => (overlapping, none)
  | .receive => (overlapping.advance service .receive, none)
  | .process => (overlapping.advance service .process, none)
  | .perform id =>
      match overlapping.asked id with
      | some question => (overlapping.advance service (.perform question.call), none)
      | none => (overlapping, none)
  | .finish id =>
      match overlapping.asked id with
      | none => (overlapping, none)
      | some question =>
          match overlapping.shared.calls[question.call]? with
          | some (.replied (some reply)) =>
              ({ overlapping.advance service (.take question.call) with
                  own := Function.update overlapping.own id (question.settle reply).1
                  asked := Function.update overlapping.asked id none },
                some ((id, question.input), (question.settle reply).2))
          | _ => (overlapping, none)

/-- The clients with the object they share. -/
def machine (client : Client Local Input Op Reply Output) (service : Service State Op Reply) :
    Machine (Overlapping Id Local Input Op Reply Output State) (OverlapEvent Id Input)
      (Option ((Id × Input) × Output)) where
  step := step client service

/-- The turns that have ended along a run. -/
def ended (client : Client Local Input Op Reply Output) (service : Service State Op Reply)
    (first : Overlapping Id Local Input Op Reply Output State)
    (events : List (OverlapEvent Id Input)) : List ((Id × Input) × Output) :=
  ((machine client service).transcript first events).filterMap Prod.snd

theorem ended_append (client : Client Local Input Op Reply Output)
    (service : Service State Op Reply)
    (first : Overlapping Id Local Input Op Reply Output State)
    (events more : List (OverlapEvent Id Input)) :
    ended client service first (events ++ more) =
      ended client service first events ++
        ended client service ((machine client service).final first events) more := by
  simp only [ended, Machine.transcript_append, List.filterMap_append]

/-! ## Turns that are settled -/

/-- What a question comes to, if its reply is there. -/
def settledBy (calls : List (CallStage Op Reply))
    (asked : Option (Question Local Input Op Reply Output)) : Option (Input × Local × Output) :=
  match asked with
  | none => none
  | some question =>
      match calls[question.call]? with
      | some (.replied (some reply)) => some (question.input, question.settle reply)
      | _ => none

theorem settledBy_congr {calls calls' : List (CallStage Op Reply)}
    {asked : Option (Question Local Input Op Reply Output)}
    (hsame : ∀ question, asked = some question →
      calls'[question.call]? = calls[question.call]?) :
    settledBy calls' asked = settledBy calls asked := by
  cases asked with
  | none => rfl
  | some question => simp only [settledBy, hsame question rfl]

/-- The turn of a client that only has to take its reply. -/
def settled (overlapping : Overlapping Id Local Input Op Reply Output State) (id : Id) :
    Option (Input × Local × Output) :=
  settledBy overlapping.shared.calls (overlapping.asked id)

/-- The state of a client, when a turn counts from the moment it is settled. -/
def standing (overlapping : Overlapping Id Local Input Op Reply Output State) (id : Id) : Local :=
  match overlapping.settled id with
  | some (_, own, _) => own
  | none => overlapping.own id

/-- What a client is still to output for a turn that is settled. -/
def unseen (overlapping : Overlapping Id Local Input Op Reply Output State) (id : Id) :
    List ((Id × Input) × Output) :=
  match overlapping.settled id with
  | some (input, _, output) => [((id, input), output)]
  | none => []

/-- Turns taken one after the other explain what was seen: they ask for the operations the
object has served, they leave it as it is, and the clients as they are when the settled
turns are counted, and each client has seen its outputs in order, up to that of a settled
turn. -/
structure ExplainedBy {client : Client Local Input Op Reply Output}
    {object : Machine State Op Reply}
    (serial : Serial Id client object Whole) (first : Whole)
    (schedule : List (Id × Input)) (seen : List ((Id × Input) × Output))
    (overlapping : Overlapping Id Local Input Op Reply Output State) : Prop where
  order : serial.operations first schedule = overlapping.shared.order.map Prod.snd
  state : serial.state (serial.machine.final first schedule) = overlapping.shared.state
  own : ∀ id, serial.own (serial.machine.final first schedule) id = overlapping.standing id
  seen : ∀ id, (serial.machine.transcript first schedule).filter (fun entry => entry.1.1 = id) =
    seen.filter (fun entry => entry.1.1 = id) ++ overlapping.unseen id

/-- The open questions are those the clients ask in their states, each with a call of its
own, and the channel holds nothing else. -/
structure Orderly (client : Client Local Input Op Reply Output)
    (overlapping : Overlapping Id Local Input Op Reply Output State) : Prop where
  asks : ∀ id question, overlapping.asked id = some question →
    client (overlapping.own id) question.input = .ask question.op question.settle
  stage : ∀ id question, overlapping.asked id = some question →
    overlapping.shared.calls[question.call]? = some (.sending (.operation question.op)) ∨
      overlapping.shared.calls[question.call]? = some .waiting ∨
      ∃ reply, overlapping.shared.calls[question.call]? = some (.replied (some reply))
  pending : ∀ entry ∈ overlapping.shared.pending, ∃ id question,
    overlapping.asked id = some question ∧ entry = (question.call, .operation question.op) ∧
      overlapping.shared.calls[question.call]? = some .waiting
  distinct : ∀ id id' question question', overlapping.asked id = some question →
    overlapping.asked id' = some question' → question.call = question'.call → id = id'
  once : (overlapping.shared.pending.map Prod.fst).Nodup
  runs : overlapping.shared.stopped = false

/-! ## Steps -/

section Steps

variable {client : Client Local Input Op Reply Output} {service : Service State Op Reply}
  {serial : Serial Id client service.object Whole} {first : Whole}
  {schedule : List (Id × Input)} {seen seen' : List ((Id × Input) × Output)}
  {overlapping overlapping' : Overlapping Id Local Input Op Reply Output State}
  {id : Id} {question : Question Local Input Op Reply Output}

omit [DecidableEq Id] in
theorem standing_of_settled_none (hsettled : overlapping.settled id = none) :
    overlapping.standing id = overlapping.own id ∧ overlapping.unseen id = [] := by
  simp only [standing, unseen, hsettled, and_self]

omit [DecidableEq Id] in
theorem standing_of_settled_some {input : Input} {own : Local} {output : Output}
    (hsettled : overlapping.settled id = some (input, own, output)) :
    overlapping.standing id = own ∧ overlapping.unseen id = [((id, input), output)] := by
  simp only [standing, unseen, hsettled, and_self]

omit [DecidableEq Id] in
theorem standing_congr (hown : overlapping'.own id = overlapping.own id)
    (hsettled : overlapping'.settled id = overlapping.settled id) :
    overlapping'.standing id = overlapping.standing id ∧
      overlapping'.unseen id = overlapping.unseen id := by
  simp only [standing, unseen, hsettled, hown, and_self]

theorem ExplainedBy.silent (hexplained : ExplainedBy serial first schedule seen overlapping)
    (horder : overlapping'.shared.order = overlapping.shared.order)
    (hstate : overlapping'.shared.state = overlapping.shared.state)
    (hown : ∀ id, overlapping'.standing id = overlapping.standing id)
    (hseen : ∀ id, seen'.filter (fun entry => entry.1.1 = id) ++ overlapping'.unseen id =
      seen.filter (fun entry => entry.1.1 = id) ++ overlapping.unseen id) :
    ExplainedBy serial first schedule seen' overlapping' where
  order := horder ▸ hexplained.order
  state := hexplained.state.trans hstate.symm
  own id := (hexplained.own id).trans (hown id).symm
  seen id := (hexplained.seen id).trans (hseen id).symm

/-- A step in which the turn of one client takes effect. -/
theorem ExplainedBy.turn (hexplained : ExplainedBy serial first schedule seen overlapping)
    (hsettled : overlapping.settled id = none) {input : Input} {taken : Taken Local State Output}
    (htaken : client.take service.object (overlapping.own id) overlapping.shared.state input =
      taken)
    (horder : overlapping'.shared.order.map Prod.snd =
      overlapping.shared.order.map Prod.snd ++ client.asks (overlapping.own id) input)
    (hstate : overlapping'.shared.state = taken.state)
    (hown : overlapping'.standing id = taken.own)
    (hseen : seen'.filter (fun entry => entry.1.1 = id) ++ overlapping'.unseen id =
      seen.filter (fun entry => entry.1.1 = id) ++ [((id, input), taken.output)])
    (hothers : ∀ other ≠ id, overlapping'.standing other = overlapping.standing other ∧
      seen'.filter (fun entry => entry.1.1 = other) ++ overlapping'.unseen other =
        seen.filter (fun entry => entry.1.1 = other) ++ overlapping.unseen other) :
    ExplainedBy serial first (schedule ++ [(id, input)]) seen' overlapping' := by
  obtain ⟨hstanding, hunseen⟩ := standing_of_settled_none hsettled
  have htake : client.take service.object
      (serial.own (serial.machine.final first schedule) id)
      (serial.state (serial.machine.final first schedule)) input = taken := by
    rw [hexplained.own id, hstanding, hexplained.state, htaken]
  constructor
  · have hlast := Machine.observed_concat serial.machine
      (fun whole turn => client.asks (serial.own whole turn.1) turn.2) first schedule (id, input)
    rw [Serial.operations, hlast, horder, ← hexplained.order, hexplained.own id, hstanding]
    rfl
  · rw [Machine.final_append]
    simp only [Machine.final_cons, Machine.final_nil, serial.state_step, htake, hstate]
  · intro other
    rw [Machine.final_append]
    simp only [Machine.final_cons, Machine.final_nil, serial.own_step, htake]
    by_cases hother : other = id
    · subst hother
      rw [Function.update_self, hown]
    · rw [Function.update_of_ne hother, hexplained.own other, (hothers other hother).1]
  · intro other
    rw [Machine.transcript_append, List.filter_append, hexplained.seen other]
    simp only [Machine.transcript, serial.output_step, htake]
    by_cases hother : other = id
    · subst hother
      rw [hunseen, List.append_nil, hseen]
      simp
    · rw [(hothers other hother).2]
      simp [Ne.symm hother]

/-! What a step may do to an open question -/

omit [DecidableEq Id] in
theorem Orderly.getElem?_set (horderly : Orderly client overlapping)
    (hasked : overlapping.asked id = some question) {other : Id} (hother : other ≠ id)
    {question' : Question Local Input Op Reply Output}
    (hasked' : overlapping.asked other = some question') (stage : CallStage Op Reply) :
    (overlapping.shared.calls.set question.call stage)[question'.call]? =
      overlapping.shared.calls[question'.call]? :=
  List.getElem?_set_ne fun hsame =>
    hother (horderly.distinct id other question question' hasked hasked' hsame).symm

omit [DecidableEq Id] in
theorem Orderly.ne_of_pending (horderly : Orderly client overlapping)
    {stage : CallStage Op Reply} (hstage : overlapping.shared.calls[question.call]? = some stage)
    (hwaits : stage ≠ .waiting) :
    ∀ entry ∈ overlapping.shared.pending, entry.1 ≠ question.call := by
  rintro entry hentry hsame
  obtain ⟨other, question', -, rfl, hwaiting⟩ := horderly.pending entry hentry
  simp only at hsame
  rw [hsame, hstage] at hwaiting
  exact hwaits (Option.some.inj hwaiting)

/-- What a step that touches one call leaves alone. -/
structure SameTurns (overlapping overlapping' : Overlapping Id Local Input Op Reply Output State) :
    Prop where
  own : overlapping'.own = overlapping.own
  asked : overlapping'.asked = overlapping.asked

omit [DecidableEq Id] in
theorem sameTurns_advance (service : Service State Op Reply) (event : SharedEvent Op)
    (overlapping : Overlapping Id Local Input Op Reply Output State) :
    SameTurns overlapping (overlapping.advance service event) :=
  ⟨rfl, rfl⟩

/-- One question comes further, the others stay. -/
theorem Orderly.further (horderly : Orderly client overlapping)
    (hsame : SameTurns overlapping overlapping') (hasked : overlapping.asked id = some question)
    {stage stage' : CallStage Op Reply}
    (hstage : overlapping.shared.calls[question.call]? = some stage)
    (hcalls : overlapping'.shared.calls = overlapping.shared.calls.set question.call stage')
    (hstage' : stage' = .waiting ∨ ∃ reply, stage' = .replied (some reply))
    (hpending : ∀ entry ∈ overlapping'.shared.pending,
      (entry ∈ overlapping.shared.pending ∧ entry.1 ≠ question.call) ∨
        entry = (question.call, .operation question.op) ∧ stage' = .waiting)
    (honce : (overlapping'.shared.pending.map Prod.fst).Nodup)
    (hruns : overlapping'.shared.stopped = false) : Orderly client overlapping' := by
  have hself : overlapping'.shared.calls[question.call]? = some stage' := by
    rw [hcalls, Shared.getElem?_set_stage hstage, if_pos rfl]
  obtain ⟨hown, hasked'⟩ := hsame
  constructor
  · rw [hown, hasked']
    exact horderly.asks
  · intro other question' hquestion
    rw [hasked'] at hquestion
    by_cases hother : other = id
    · subst hother
      obtain rfl := Option.some.inj (hasked.symm.trans hquestion)
      rw [hself]
      rcases hstage' with rfl | ⟨reply, rfl⟩
      · exact .inr (.inl rfl)
      · exact .inr (.inr ⟨reply, rfl⟩)
    · rw [hcalls, horderly.getElem?_set hasked hother hquestion]
      exact horderly.stage other question' hquestion
  · intro entry hentry
    rw [hasked']
    rcases hpending entry hentry with ⟨hbefore, hne⟩ | ⟨rfl, rfl⟩
    · obtain ⟨other, question', hquestion, rfl, hwaiting⟩ := horderly.pending entry hbefore
      refine ⟨other, question', hquestion, rfl, ?_⟩
      rw [hcalls, List.getElem?_set_ne (Ne.symm hne)]
      exact hwaiting
    · exact ⟨id, question, hasked, rfl, hself⟩
  · rw [hasked']
    exact horderly.distinct
  · exact honce
  · exact hruns

omit [DecidableEq Id] in
theorem Orderly.settled_other (horderly : Orderly client overlapping)
    (hsame : SameTurns overlapping overlapping') (hasked : overlapping.asked id = some question)
    {stage : CallStage Op Reply}
    (hcalls : overlapping'.shared.calls = overlapping.shared.calls.set question.call stage)
    {other : Id} (hother : other ≠ id) :
    overlapping'.settled other = overlapping.settled other := by
  rw [settled, settled, hsame.asked]
  refine settledBy_congr fun question' hasked' => ?_
  rw [hcalls, horderly.getElem?_set hasked hother hasked']

/-- The clients are in order, and turns taken one after the other explain what was seen. -/
structure Explained (serial : Serial Id client service.object Whole) (first : Whole)
    (schedule : List (Id × Input)) (seen : List ((Id × Input) × Output))
    (overlapping : Overlapping Id Local Input Op Reply Output State) : Prop where
  orderly : Orderly client overlapping
  explained : ExplainedBy serial first schedule seen overlapping

/-- A step after which what was seen is explained, perhaps by one more turn. -/
def StaysExplained (serial : Serial Id client service.object Whole) (first : Whole)
    (schedule : List (Id × Input)) (seen : List ((Id × Input) × Output))
    (after : Overlapping Id Local Input Op Reply Output State × Option ((Id × Input) × Output)) :
    Prop :=
  ∃ turn : Option (Id × Input),
    Explained serial first (schedule ++ turn.toList) (seen ++ after.2.toList) after.1

section Explained

variable (hexplained : Explained serial first schedule seen overlapping)

include hexplained

theorem Explained.idle : StaysExplained serial first schedule seen (overlapping, none) :=
  ⟨none, by simpa using hexplained⟩

theorem Explained.silent (hsame : SameTurns overlapping overlapping')
    (horderly : Orderly client overlapping')
    (horder : overlapping'.shared.order = overlapping.shared.order)
    (hstate : overlapping'.shared.state = overlapping.shared.state)
    (hsettled : ∀ id, overlapping'.settled id = overlapping.settled id) :
    StaysExplained serial first schedule seen (overlapping', none) := by
  refine ⟨none, horderly, ?_⟩
  simp only [Option.toList_none, List.append_nil]
  have hstands (id : Id) := standing_congr (congrFun hsame.own id) (hsettled id)
  exact hexplained.explained.silent horder hstate (fun id => (hstands id).1)
    fun id => by rw [(hstands id).2]

/-- The question of a client is served: its turn takes effect. -/
theorem Explained.served (hsame : SameTurns overlapping overlapping')
    (hasked : overlapping.asked id = some question) {stage : CallStage Op Reply}
    (hstage : overlapping.shared.calls[question.call]? = some stage)
    (hopen : stage = .waiting ∨ stage = .sending (.operation question.op))
    (horder : overlapping'.shared.order =
      overlapping.shared.order ++ [(question.call, question.op)])
    (hstate : overlapping'.shared.state =
      (service.object.step overlapping.shared.state question.op).1)
    (hcalls : overlapping'.shared.calls = overlapping.shared.calls.set question.call
      (.replied (some (service.object.step overlapping.shared.state question.op).2)))
    (hpending : ∀ entry ∈ overlapping'.shared.pending,
      entry ∈ overlapping.shared.pending ∧ entry.1 ≠ question.call)
    (honce : (overlapping'.shared.pending.map Prod.fst).Nodup)
    (hruns : overlapping'.shared.stopped = false) :
    StaysExplained serial first schedule seen (overlapping', none) := by
  obtain ⟨horderly, hexplained⟩ := hexplained
  have hnone : overlapping.settled id = none := by
    rcases hopen with rfl | rfl <;> simp only [settled, settledBy, hasked, hstage]
  have hsome : overlapping'.settled id = some (question.input,
      question.settle (service.object.step overlapping.shared.state question.op).2) := by
    simp only [settled, settledBy, hsame.asked, hasked, hcalls, Shared.getElem?_set_stage hstage,
      if_true]
  have htaken := Client.take_of_ask service.object overlapping.shared.state
    (horderly.asks id question hasked)
  obtain ⟨hstanding, hunseen⟩ := standing_of_settled_some hsome
  refine ⟨some (id, question.input), ?_, ?_⟩
  · exact horderly.further hsame hasked hstage hcalls (.inr ⟨_, rfl⟩)
      (fun entry hentry => .inl (hpending entry hentry)) honce hruns
  · refine hexplained.turn hnone htaken ?_ hstate hstanding ?_ fun other hother => ?_
    · rw [horder, List.map_append, Client.asks_of_ask (horderly.asks id question hasked)]
      rfl
    · rw [hunseen]
      simp
    · obtain ⟨hown, hrest⟩ := standing_congr (congrFun hsame.own other)
        (horderly.settled_other hsame hasked hcalls hother)
      refine ⟨hown, ?_⟩
      rw [hrest]
      simp

/-- A turn in which nothing is asked is over at once. -/
theorem Explained.done {input : Input} {own : Local} {output : Output}
    (hasked : overlapping.asked id = none)
    (hclient : client (overlapping.own id) input = .done own output)
    (hown : overlapping'.own = Function.update overlapping.own id own)
    (hquestions : overlapping'.asked = overlapping.asked)
    (hshared : overlapping'.shared = overlapping.shared) :
    StaysExplained serial first schedule seen (overlapping', some ((id, input), output)) := by
  obtain ⟨horderly, hexplained⟩ := hexplained
  have hnone : overlapping.settled id = none := by
    simp only [settled, settledBy, hasked]
  have htaken := Client.take_of_done service.object overlapping.shared.state hclient
  have hsettled (other : Id) : overlapping'.settled other = overlapping.settled other := by
    rw [settled, settled, hquestions, hshared]
  have hothers {other : Id} (hother : other ≠ id) :
      overlapping'.own other = overlapping.own other := by
    rw [hown, Function.update_of_ne hother]
  refine ⟨some (id, input), ?_, ?_⟩
  · constructor
    · intro other question hquestion
      rw [hquestions] at hquestion
      have hother : other ≠ id := by
        rintro rfl
        rw [hasked] at hquestion
        cases hquestion
      rw [hothers hother]
      exact horderly.asks other question hquestion
    · rw [hquestions, hshared]
      exact horderly.stage
    · rw [hquestions, hshared]
      exact horderly.pending
    · rw [hquestions]
      exact horderly.distinct
    · rw [hshared]
      exact horderly.once
    · rw [hshared]
      exact horderly.runs
  · obtain ⟨hstanding, hunseen⟩ := standing_of_settled_none ((hsettled id).trans hnone)
    refine hexplained.turn hnone htaken ?_ (by rw [hshared]) ?_ ?_ fun other hother => ?_
    · rw [hshared, Client.asks_of_done hclient, List.append_nil]
    · rw [hstanding, hown, Function.update_self]
    · rw [hunseen]
      simp
    · obtain ⟨hstands, hrest⟩ := standing_congr (hothers hother) (hsettled other)
      refine ⟨hstands, ?_⟩
      rw [hrest]
      simp [Ne.symm hother]

/-- A turn that asks makes a call of its own. -/
theorem Explained.ask {input : Input} {op : Op} {settle : Reply → Local × Output}
    (hasked : overlapping.asked id = none)
    (hclient : client (overlapping.own id) input = .ask op settle)
    (hown : overlapping'.own = overlapping.own)
    (hquestions : overlapping'.asked = Function.update overlapping.asked id
      (some { input, call := overlapping.shared.calls.length, op, settle }))
    (hshared : overlapping'.shared = { overlapping.shared with
      calls := overlapping.shared.calls ++ [.sending (.operation op)] }) :
    StaysExplained serial first schedule seen (overlapping', none) := by
  obtain ⟨horderly, hexplained⟩ := hexplained
  have hcalls : overlapping'.shared.calls =
      overlapping.shared.calls ++ [.sending (.operation op)] := by
    rw [hshared]
  have hpending : overlapping'.shared.pending = overlapping.shared.pending := by
    rw [hshared]
    rfl
  -- the calls that were made before keep their numbers and their stages
  have hkept {call : Nat} {stage : CallStage Op Reply}
      (hstage : overlapping.shared.calls[call]? = some stage) :
      call < overlapping.shared.calls.length ∧ overlapping'.shared.calls[call]? = some stage := by
    obtain ⟨hlt, -⟩ := List.getElem?_eq_some_iff.mp hstage
    exact ⟨hlt, by rw [hcalls, List.getElem?_append_left hlt, hstage]⟩
  have hmade {other : Id} {question : Question Local Input Op Reply Output}
      (hquestion : overlapping.asked other = some question) :
      question.call < overlapping.shared.calls.length ∧
        overlapping'.shared.calls[question.call]? = overlapping.shared.calls[question.call]? := by
    rcases horderly.stage other question hquestion with hstage | hstage | ⟨reply, hstage⟩ <;>
      exact ⟨(hkept hstage).1, (hkept hstage).2.trans hstage.symm⟩
  have hothers {other : Id} (hother : other ≠ id) :
      overlapping'.asked other = overlapping.asked other := by
    rw [hquestions, Function.update_of_ne hother]
  have hself {question : Question Local Input Op Reply Output}
      (hquestion : overlapping'.asked id = some question) :
      question = { input, call := overlapping.shared.calls.length, op, settle } := by
    rw [hquestions, Function.update_self] at hquestion
    exact (Option.some.inj hquestion).symm
  have hnew : overlapping'.shared.calls[overlapping.shared.calls.length]? =
      some (.sending (.operation op)) := by
    rw [hcalls]
    simp
  have hnone : overlapping.settled id = none := by
    simp only [settled, settledBy, hasked]
  have hsettled (other : Id) : overlapping'.settled other = overlapping.settled other := by
    by_cases hother : other = id
    · subst hother
      rw [hnone]
      simp only [settled, settledBy, hquestions, Function.update_self, hnew]
    · rw [settled, settled, hothers hother]
      exact settledBy_congr fun question hquestion => (hmade hquestion).2
  refine ⟨none, ?_, ?_⟩
  · constructor
    · intro other question hquestion
      rw [hown]
      by_cases hother : other = id
      · subst hother
        rw [hself hquestion]
        exact hclient
      · rw [hothers hother] at hquestion
        exact horderly.asks other question hquestion
    · intro other question hquestion
      by_cases hother : other = id
      · subst hother
        rw [hself hquestion]
        exact .inl hnew
      · rw [hothers hother] at hquestion
        rw [(hmade hquestion).2]
        exact horderly.stage other question hquestion
    · intro entry hentry
      rw [hpending] at hentry
      obtain ⟨other, question, hquestion, rfl, hwaits⟩ := horderly.pending entry hentry
      have hother : other ≠ id := by
        rintro rfl
        rw [hasked] at hquestion
        cases hquestion
      exact ⟨other, question, (hothers hother).trans hquestion, rfl, (hkept hwaits).2⟩
    · -- the new call has a number that no other has
      intro other other' question question' hquestion hquestion' hsame
      by_cases hother : other = id
      · by_cases hother' : other' = id
        · rw [hother, hother']
        · rw [hothers hother'] at hquestion'
          subst hother
          rw [hself hquestion] at hsame
          exact absurd hsame.symm (Nat.ne_of_lt (hmade hquestion').1)
      · rw [hothers hother] at hquestion
        by_cases hother' : other' = id
        · subst hother'
          rw [hself hquestion'] at hsame
          exact absurd hsame (Nat.ne_of_lt (hmade hquestion).1)
        · rw [hothers hother'] at hquestion'
          exact horderly.distinct other other' question question' hquestion hquestion' hsame
    · rw [hpending]
      exact horderly.once
    · rw [hshared]
      exact horderly.runs
  · simp only [Option.toList_none, List.append_nil]
    have hstands (other : Id) := standing_congr (congrFun hown other) (hsettled other)
    exact hexplained.silent (by rw [hshared]) (by rw [hshared]) (fun other => (hstands other).1)
      fun other => by rw [(hstands other).2]

/-- The request of a question gets into the channel. -/
theorem Explained.send (hasked : overlapping.asked id = some question) :
    StaysExplained serial first schedule seen
      (overlapping.advance service (.send question.call), none) := by
  have hidle := hexplained.idle
  have horderly := hexplained.orderly
  rcases horderly.stage id question hasked with hstage | hstage | ⟨reply, hstage⟩
  · cases hdirect : service.byClient (.operation question.op) with
    | true =>
        simpa only [advance, Shared.step, hstage, hdirect, if_true] using hidle
    | false =>
        by_cases hroom : overlapping.shared.channel.length < service.capacity
        · have hadvance : overlapping.advance service (.send question.call) =
              { overlapping with shared := { overlapping.shared with
                  calls := overlapping.shared.calls.set question.call .waiting
                  channel := overlapping.shared.channel ++
                    [(question.call, .operation question.op)] } } := by
            simp only [advance, Shared.step, hstage, hdirect, horderly.runs, hroom,
              Bool.false_eq_true, if_false, if_true]
          have hsame := sameTurns_advance service (.send question.call) overlapping
          rw [hadvance] at hsame ⊢
          have hpending : Shared.pending { overlapping.shared with
              calls := overlapping.shared.calls.set question.call .waiting
              channel := overlapping.shared.channel ++
                [(question.call, .operation question.op)] } =
              overlapping.shared.pending ++ [(question.call, .operation question.op)] := by
            simp only [Shared.pending, List.append_assoc]
          have hfresh := horderly.ne_of_pending hstage (by simp)
          refine hexplained.silent hsame ?_ rfl rfl fun other => ?_
          · refine horderly.further hsame hasked hstage rfl (.inl rfl) (fun entry hentry => ?_) ?_
              horderly.runs
            · rw [hpending, List.mem_append, List.mem_singleton] at hentry
              rcases hentry with hbefore | rfl
              · exact .inl ⟨hbefore, hfresh entry hbefore⟩
              · exact .inr ⟨rfl, rfl⟩
            · rw [hpending, List.map_append, List.nodup_append]
              refine ⟨horderly.once, List.nodup_singleton _, ?_⟩
              intro call hcall call' hcall' heq
              obtain ⟨entry, hentry, rfl⟩ := List.mem_map.mp hcall
              rw [List.map_singleton, List.mem_singleton] at hcall'
              exact hfresh entry hentry (heq.trans hcall')
          · by_cases hother : other = id
            · subst hother
              simp only [settled, settledBy, hasked, hstage, Shared.getElem?_set_stage hstage,
                if_true]
            · exact horderly.settled_other hsame hasked rfl hother
        · simpa only [advance, Shared.step, hstage, hdirect, horderly.runs, hroom,
            Bool.false_eq_true, if_false] using hidle
  · simpa only [advance, Shared.step, hstage] using hidle
  · simpa only [advance, Shared.step, hstage] using hidle

/-- The loop takes a request from the channel. -/
theorem Explained.receive :
    StaysExplained serial first schedule seen (overlapping.advance service .receive, none) := by
  have hidle := hexplained.idle
  have horderly := hexplained.orderly
  cases hcurrent : overlapping.shared.current with
  | some entry => simpa only [advance, Shared.step, hcurrent] using hidle
  | none =>
      cases hchannel : overlapping.shared.channel with
      | nil => simpa only [advance, Shared.step, hcurrent, hchannel] using hidle
      | cons entry rest =>
          have hsame := sameTurns_advance service .receive overlapping
          have hpending : (overlapping.advance service .receive).shared.pending =
              overlapping.shared.pending := by
            simp only [advance, Shared.step, Shared.pending, hcurrent, hchannel]
            rfl
          have hcalls : (overlapping.advance service .receive).shared.calls =
              overlapping.shared.calls := by
            simp only [advance, Shared.step, hcurrent, hchannel]
          refine hexplained.silent hsame ⟨horderly.asks, ?_, ?_, horderly.distinct, ?_, ?_⟩ ?_ ?_
            fun id => ?_
          · rw [hcalls]
            exact horderly.stage
          · rw [hpending, hcalls]
            exact horderly.pending
          · rw [hpending]
            exact horderly.once
          · simp only [advance, Shared.step, hcurrent, hchannel]
            exact horderly.runs
          · simp only [advance, Shared.step, hcurrent, hchannel]
          · simp only [advance, Shared.step, hcurrent, hchannel]
          · rw [settled, hcalls]
            rfl

/-- The loop serves the request it holds. -/
theorem Explained.process :
    StaysExplained serial first schedule seen (overlapping.advance service .process, none) := by
  have hidle := hexplained.idle
  have horderly := hexplained.orderly
  cases hcurrent : overlapping.shared.current with
  | none => simpa only [advance, Shared.step, hcurrent] using hidle
  | some entry =>
      have hpending : overlapping.shared.pending = entry :: overlapping.shared.channel := by
        simp only [Shared.pending, hcurrent]
        rfl
      obtain ⟨id, question, hasked, rfl, hwaits⟩ :=
        horderly.pending entry (by rw [hpending]; exact List.mem_cons_self)
      have honce := horderly.once
      rw [hpending, List.map_cons, List.nodup_cons] at honce
      have hadvance : overlapping.advance service .process =
          { overlapping with
            shared :=
              { overlapping.shared with
                state := (service.object.step overlapping.shared.state question.op).1
                current := none
                order := overlapping.shared.order ++ [(question.call, question.op)]
                calls := overlapping.shared.calls.set question.call (.replied
                  (some (service.object.step overlapping.shared.state question.op).2)) } } := by
        simp only [advance, Shared.step, hcurrent, Shared.serve, Shared.apply, Shared.reply, hwaits]
      have hsame := sameTurns_advance service .process overlapping
      rw [hadvance] at hsame ⊢
      refine hexplained.served hsame hasked hwaits (.inl rfl) rfl rfl rfl (fun entry hentry => ?_)
        honce.2 horderly.runs
      have hrest : entry ∈ overlapping.shared.channel := hentry
      refine ⟨by rw [hpending]; exact List.mem_cons_of_mem _ hrest, ?_⟩
      rintro hcall
      exact honce.1 (List.mem_map.mpr ⟨entry, hrest, hcall⟩)

theorem Explained.perform (hasked : overlapping.asked id = some question) :
    StaysExplained serial first schedule seen
      (overlapping.advance service (.perform question.call), none) := by
  have hidle := hexplained.idle
  have horderly := hexplained.orderly
  rcases horderly.stage id question hasked with hstage | hstage | ⟨reply, hstage⟩
  · cases hdirect : service.direct question.op with
    | false =>
        simpa only [advance, Shared.step, hstage, hdirect, Bool.false_eq_true, if_false] using hidle
    | true =>
        have hadvance : overlapping.advance service (.perform question.call) =
            { overlapping with
              shared :=
                { overlapping.shared with
                  state := (service.object.step overlapping.shared.state question.op).1
                  order := overlapping.shared.order ++ [(question.call, question.op)]
                  calls := overlapping.shared.calls.set question.call (.replied
                    (some (service.object.step overlapping.shared.state question.op).2)) } } := by
          simp only [advance, Shared.step, hstage, hdirect, if_true, Shared.apply]
        have hsame := sameTurns_advance service (.perform question.call) overlapping
        rw [hadvance] at hsame ⊢
        have hfresh := horderly.ne_of_pending hstage (by simp)
        exact hexplained.served hsame hasked hstage (.inr rfl) rfl rfl rfl
          (fun entry hentry => ⟨hentry, hfresh entry hentry⟩) horderly.once horderly.runs
  · simpa only [advance, Shared.step, hstage] using hidle
  · simpa only [advance, Shared.step, hstage] using hidle

/-- A client takes its reply: what its turn outputs is seen. -/
theorem Explained.finish {reply : Reply} (hasked : overlapping.asked id = some question)
    (hstage : overlapping.shared.calls[question.call]? = some (.replied (some reply)))
    (hown : overlapping'.own = Function.update overlapping.own id (question.settle reply).1)
    (hquestions : overlapping'.asked = Function.update overlapping.asked id none)
    (hshared : overlapping'.shared = { overlapping.shared with
      calls := overlapping.shared.calls.set question.call .returned }) :
    StaysExplained serial first schedule seen
      (overlapping', some ((id, question.input), (question.settle reply).2)) := by
  obtain ⟨horderly, hexplained⟩ := hexplained
  have hcalls : overlapping'.shared.calls =
      overlapping.shared.calls.set question.call .returned := by
    rw [hshared]
  have hpending : overlapping'.shared.pending = overlapping.shared.pending := by
    rw [hshared]
    rfl
  have hothers {other : Id} (hother : other ≠ id) :
      overlapping'.asked other = overlapping.asked other ∧
        overlapping'.own other = overlapping.own other := by
    rw [hquestions, hown, Function.update_of_ne hother, Function.update_of_ne hother]
    exact ⟨rfl, rfl⟩
  have hgone : overlapping'.asked id = none := by
    rw [hquestions, Function.update_self]
  have hleft {other : Id} {question' : Question Local Input Op Reply Output}
      (hquestion : overlapping'.asked other = some question') :
      other ≠ id ∧ overlapping.asked other = some question' ∧
        overlapping'.shared.calls[question'.call]? =
          overlapping.shared.calls[question'.call]? := by
    have hother : other ≠ id := by
      rintro rfl
      rw [hgone] at hquestion
      cases hquestion
    rw [(hothers hother).1] at hquestion
    exact ⟨hother, hquestion, by rw [hcalls, horderly.getElem?_set hasked hother hquestion]⟩
  have hsome : overlapping.settled id = some (question.input, question.settle reply) := by
    simp only [settled, settledBy, hasked, hstage]
  have hnone : overlapping'.settled id = none := by
    simp only [settled, settledBy, hgone]
  have hsettled {other : Id} (hother : other ≠ id) :
      overlapping'.settled other = overlapping.settled other := by
    rw [settled, settled, (hothers hother).1]
    refine settledBy_congr fun question' hquestion => ?_
    rw [hcalls, horderly.getElem?_set hasked hother hquestion]
  refine ⟨none, ?_, ?_⟩
  · constructor
    · intro other question' hquestion
      obtain ⟨hother, hquestion', -⟩ := hleft hquestion
      rw [(hothers hother).2]
      exact horderly.asks other question' hquestion'
    · intro other question' hquestion
      obtain ⟨-, hquestion', hsame⟩ := hleft hquestion
      rw [hsame]
      exact horderly.stage other question' hquestion'
    · intro entry hentry
      rw [hpending] at hentry
      have hne := horderly.ne_of_pending hstage (by simp) entry hentry
      obtain ⟨other, question', hquestion, rfl, hwaits⟩ := horderly.pending entry hentry
      have hother : other ≠ id := by
        rintro rfl
        obtain rfl := Option.some.inj (hasked.symm.trans hquestion)
        exact hne rfl
      have hquestion' := (hothers hother).1.trans hquestion
      exact ⟨other, question', hquestion', rfl, (hleft hquestion').2.2.trans hwaits⟩
    · intro other other' question' question'' hquestion hquestion' hsame
      exact horderly.distinct other other' question' question'' (hleft hquestion).2.1
        (hleft hquestion').2.1 hsame
    · rw [hpending]
      exact horderly.once
    · rw [hshared]
      exact horderly.runs
  · obtain ⟨hstood, hpromised⟩ := standing_of_settled_some hsome
    obtain ⟨hstands, hrest⟩ := standing_of_settled_none hnone
    simp only [Option.toList_none, List.append_nil]
    refine hexplained.silent (by rw [hshared]) (by rw [hshared]) (fun other => ?_)
      fun other => ?_
    · by_cases hother : other = id
      · subst hother
        rw [hstands, hstood, hown, Function.update_self]
      · exact (standing_congr (hothers hother).2 (hsettled hother)).1
    · by_cases hother : other = id
      · subst hother
        rw [hrest, hpromised]
        simp
      · rw [(standing_congr (hothers hother).2 (hsettled hother)).2]
        simp [Ne.symm hother]

/-- Every step is explained, perhaps by one more turn. -/
theorem Explained.step (event : OverlapEvent Id Input) :
    StaysExplained serial first schedule seen (overlapping.step client service event) := by
  have hidle := hexplained.idle
  cases event with
  | start id input =>
      simp only [Overlapping.step]
      cases hasked : overlapping.asked id with
      | some question => exact hidle
      | none =>
          cases hclient : client (overlapping.own id) input with
          | done own output => exact hexplained.done hasked hclient rfl rfl rfl
          | ask op settle => exact hexplained.ask hasked hclient rfl rfl rfl
  | send id =>
      simp only [Overlapping.step]
      cases hasked : overlapping.asked id with
      | none => exact hidle
      | some question => exact hexplained.send hasked
  | receive => exact hexplained.receive
  | process => exact hexplained.process
  | perform id =>
      simp only [Overlapping.step]
      cases hasked : overlapping.asked id with
      | none => exact hidle
      | some question => exact hexplained.perform hasked
  | finish id =>
      simp only [Overlapping.step]
      cases hasked : overlapping.asked id with
      | none => exact hidle
      | some question =>
          simp only
          split
          · rename_i reply hstage
            refine hexplained.finish hasked hstage rfl rfl ?_
            simp only [advance, Shared.step, hstage]
          · exact hidle

theorem Explained.run (events : List (OverlapEvent Id Input)) :
    ∃ later, Explained serial first (schedule ++ later)
      (seen ++ ended client service overlapping events)
      ((machine client service).final overlapping events) := by
  induction events generalizing overlapping schedule seen with
  | nil => exact ⟨[], by simpa [ended, Machine.transcript] using hexplained⟩
  | cons event rest ih =>
      obtain ⟨turn, hturn⟩ := hexplained.step event
      obtain ⟨later, hlater⟩ := ih hturn
      refine ⟨turn.toList ++ later, ?_⟩
      rw [← List.append_assoc]
      have hfirst : ended client service overlapping [event] =
          (overlapping.step client service event).2.toList := by
        simp only [ended, Machine.transcript, machine]
        cases (overlapping.step client service event).2 <;> rfl
      rw [← List.singleton_append, ended_append, hfirst, ← List.append_assoc]
      exact hlater

end Explained

omit [DecidableEq Id] in
theorem orderly_new (client : Client Local Input Op Reply Output) (own : Id → Local)
    (state : State) : Orderly client (new own state) := by
  constructor <;> simp [new, Shared.new, Shared.pending]

/--
Turns that overlap, taken one after the other: what the clients see in any run is what
they see in a serial one, which leaves the object and every client that waits for
nothing the same.  When the run goes on, the serial run goes on at its end: a turn that
has ended comes before every turn that starts later.
-/
theorem serializable (serial : Serial Id client service.object Whole) (first : Whole)
    (events more : List (OverlapEvent Id Input)) :
    ∃ schedule later,
      ExplainedBy serial first schedule
        (ended client service (new (serial.own first) (serial.state first)) events)
        ((machine client service).final (new (serial.own first) (serial.state first)) events) ∧
      ExplainedBy serial first (schedule ++ later)
        (ended client service (new (serial.own first) (serial.state first)) (events ++ more))
        ((machine client service).final (new (serial.own first) (serial.state first))
          (events ++ more)) := by
  have hstart : Explained serial first [] [] (new (serial.own first) (serial.state first)) :=
    ⟨orderly_new client _ _, rfl, rfl, fun _ => rfl, fun _ => rfl⟩
  obtain ⟨schedule, hschedule⟩ := hstart.run events
  rw [List.nil_append, List.nil_append] at hschedule
  obtain ⟨later, hlater⟩ := hschedule.run more
  refine ⟨schedule, later, hschedule.explained, ?_⟩
  rw [ended_append, Machine.final_append]
  exact hlater.explained

/-- A turn that starts when its client waits for nothing, and ends, is one of the turns by
which the serial run goes on. -/
theorem ExplainedBy.mem_later {later : List (Id × Input)} {input : Input} {output : Output}
    (hbefore : ExplainedBy serial first schedule seen overlapping)
    (hafter : ExplainedBy serial first (schedule ++ later) (seen ++ seen') overlapping')
    (hidle : overlapping.asked id = none) (hseen : ((id, input), output) ∈ seen') :
    ((id, input), output) ∈
      serial.machine.transcript (serial.machine.final first schedule) later := by
  have hunseen : overlapping.unseen id = [] := by
    simp only [unseen, settled, settledBy, hidle]
  have hall := hafter.seen id
  rw [Machine.transcript_append, List.filter_append, List.filter_append, hbefore.seen id, hunseen,
    List.append_nil, List.append_assoc, List.append_cancel_left_eq] at hall
  have hmem : ((id, input), output) ∈
      (serial.machine.transcript (serial.machine.final first schedule) later).filter
        (fun entry => entry.1.1 = id) := by
    rw [hall]
    exact List.mem_append_left _ (List.mem_filter.mpr ⟨hseen, by simp⟩)
  exact (List.mem_filter.mp hmem).1

end Steps

end Overlapping

end Scuttled.Foundation
