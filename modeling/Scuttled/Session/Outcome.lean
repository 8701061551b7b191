import Scuttled.Session.Plan

/-!
# Outcomes of turns

The effect of a turn as a function: the session after it, the registry after it
and the actions it took.  It is what the properties of sessions are proved
about, and the machine of a session computes it.
-/

namespace Scuttled

open Rust Foundation

variable {R : Type}

/-! ## Running handlers -/

theorem bind_of_ok {α β : Type} {first : Handling R α} {next : α → Handling R β}
    {world middle : World R} {value : α} (hfirst : first world = (.ok value, middle)) :
    (first >>= next) world = next value middle := by
  simp only [bind, ExceptT.bind, ExceptT.mk, StateT.bind, hfirst]
  rfl

theorem bind_of_error {α β : Type} {first : Handling R α} {next : α → Handling R β}
    {world middle : World R} {error : Error} (hfirst : first world = (.error error, middle)) :
    (first >>= next) world = (.error error, middle) := by
  simp only [bind, ExceptT.bind, ExceptT.mk, StateT.bind, hfirst]
  rfl

theorem stateM_bind {σ α β : Type} (first : StateM σ α) (next : α → StateM σ β) (state : σ) :
    (first >>= next) state = next (first state).1 (first state).2 := rfl

/-! ## Questions and deliveries -/

/-- The action a decision takes before it writes. -/
def Decision.asked (context : SessionContext R) : Decision → List Action
  | .settled _ => []
  | .authenticate credentials _ =>
      [.authenticated credentials (context.authenticator credentials)]
  | .create username name _ => [.registry (.create username name)]
  | .get username name _ => [.registry (.get username name)]
  | .delete username name _ => [.registry (.delete username name)]
  | .list username filter _ => [.registry (.list username filter)]

/-- The reply a decision comes to, and the registry after its question. -/
def Decision.answer (context : SessionContext R) (registry : R) : Decision → Result Reply × R
  | .settled reply => (.ok reply, registry)
  | .authenticate credentials settle =>
      (.ok (settle (context.authenticator credentials)), registry)
  | .create username name settle =>
      ((.ok (settle (context.mailboxes.createMailbox username name registry).1)),
        (context.mailboxes.createMailbox username name registry).2)
  | .get username name settle =>
      (settle (context.mailboxes.getMailbox username name registry).1,
        (context.mailboxes.getMailbox username name registry).2)
  | .delete username name settle =>
      ((.ok (settle (context.mailboxes.deleteMailbox username name registry).1)),
        (context.mailboxes.deleteMailbox username name registry).2)
  | .list username filter settle =>
      ((.ok (settle (context.mailboxes.listMailboxes username filter registry).1)),
        (context.mailboxes.listMailboxes username filter registry).2)

theorem consult_eq (context : SessionContext R) (decision : Decision) (world : World R) :
    decision.consult context world =
      ((decision.answer context world.registry).1,
        ⟨(decision.answer context world.registry).2, world.trace ++ decision.asked context⟩) := by
  cases decision with
  | settled reply => simp [Decision.consult, Decision.answer, Decision.asked]; rfl
  | authenticate credentials settle => rfl
  | create username name settle => rfl
  | get username name settle =>
      have hget : context.getMailbox username name world =
          (.ok (context.mailboxes.getMailbox username name world.registry).1,
            ⟨(context.mailboxes.getMailbox username name world.registry).2,
              world.trace ++ [.registry (.get username name)]⟩) := rfl
      rw [Decision.consult, bind_of_ok hget, Decision.answer, Decision.asked]
      cases settle (context.mailboxes.getMailbox username name world.registry).1 <;> rfl
  | delete username name settle => rfl
  | list username filter settle => rfl

theorem yields_answer {context : SessionContext R} {registry : R} {decision : Decision}
    {reply : Reply} (hanswer : (decision.answer context registry).1 = .ok reply) :
    decision.Yields reply := by
  cases decision with
  | settled settled => cases hanswer; exact .settled _
  | authenticate credentials settle => cases hanswer; exact .authenticate _
  | create username name settle => cases hanswer; exact .create _
  | get username name settle => exact .get _ hanswer
  | delete username name settle => cases hanswer; exact .delete _
  | list username filter settle => cases hanswer; exact .list _

/-- The writes of responses in order, up to the first that fails. -/
def Connection.deliver (connection : Connection) :
    Nat → List Response → List Action × Result Unit
  | _, [] => ([], .ok ())
  | position, response :: rest =>
      match connection.writeError position with
      | some error => ([.writeFailed response], .error error)
      | none =>
          (.wrote response :: (connection.deliver (position + 1) rest).1,
            (connection.deliver (position + 1) rest).2)

theorem writeAll_eq (connection : Connection) (responses : List Response) (world : World R) :
    connection.writeAll responses world =
      ((connection.deliver world.trace.length responses).2,
        { world with
          trace := world.trace ++ (connection.deliver world.trace.length responses).1 }) := by
  induction responses generalizing world with
  | nil =>
      simp only [Connection.writeAll, Connection.deliver, List.append_nil]
      rfl
  | cons response rest ih =>
      rw [Connection.writeAll, Connection.deliver]
      cases herror : connection.writeError world.trace.length with
      | some error =>
          rw [bind_of_error (by rw [Connection.writeResponse, herror])]
          rfl
      | none =>
          rw [bind_of_ok (by rw [Connection.writeResponse, herror]), ih]
          simp [World.record]

/-! ## The outcome of a plan -/

structure Outcome (R : Type) where
  session : Session
  registry : R
  trace : List Action

/-- A handler's reply is sent, and its state taken over if all of it went out;
otherwise the dispatcher answers BAD. -/
def Reply.outcome (reply : Result Reply) (connection : Connection) (session : Session)
    (registry : R) (tag : String) (asked : List Action) : Outcome R :=
  let handlerError (written : List Action) (error : Error) : Outcome R :=
    { session
      registry
      trace := written ++ (connection.deliver written.length
        [.bad (some tag) ("Handler error: " ++ error.display)]).1 }
  match reply with
  | .error error => handlerError asked error
  | .ok reply =>
      match connection.deliver asked.length reply.responses with
      | (written, .ok ()) =>
          { session := session.advance reply.next, registry, trace := asked ++ written }
      | (written, .error error) => handlerError (asked ++ written) error

theorem registry_reply (reply : Result Reply) (connection : Connection) (session : Session)
    (registry : R) (tag : String) (asked : List Action) :
    (Reply.outcome reply connection session registry tag asked).registry = registry := by
  cases reply with
  | error error => rfl
  | ok reply =>
      simp only [Reply.outcome]
      split <;> rfl

/-- STARTTLS: the session ends if its response cannot be written or the
handshake fails. -/
def starttlsOutcome (connection : Connection) (session : Session) (turn : Turn)
    (tlsAcceptor : Bool) (registry : R) (tag : String) : Outcome R :=
  let response := Session.starttlsResponse tag session.isTls tlsAcceptor
  let trace := (connection.deliver 0 [response]).1
  match (connection.deliver 0 [response]).2 with
  | .error _ => { session := { session with ended := some (.ok ()) }, registry, trace }
  | .ok () =>
      if session.isTls || !tlsAcceptor then { session, registry, trace }
      else
        match turn.handshake with
        | some error => { session := { session with ended := some (.error error) }, registry, trace }
        | none => { session := { session with isTls := true }, registry, trace }

theorem trace_starttlsOutcome (connection : Connection) (session : Session) (turn : Turn)
    (tlsAcceptor : Bool) (registry : R) (tag : String) :
    (starttlsOutcome connection session turn tlsAcceptor registry tag).trace =
      (connection.deliver 0 [Session.starttlsResponse tag session.isTls tlsAcceptor]).1 := by
  unfold starttlsOutcome
  simp only
  cases (connection.deliver 0 [Session.starttlsResponse tag session.isTls tlsAcceptor]).2 with
  | error error => rfl
  | ok written =>
      cases session.isTls || !tlsAcceptor with
      | true => rfl
      | false => cases turn.handshake <;> rfl

theorem sessionState_starttlsOutcome (connection : Connection) (session : Session) (turn : Turn)
    (tlsAcceptor : Bool) (registry : R) (tag : String) :
    (starttlsOutcome connection session turn tlsAcceptor registry tag).session.sessionState =
      session.sessionState := by
  unfold starttlsOutcome
  simp only
  cases (connection.deliver 0 [Session.starttlsResponse tag session.isTls tlsAcceptor]).2 with
  | error error => rfl
  | ok written =>
      cases session.isTls || !tlsAcceptor with
      | true => rfl
      | false => cases turn.handshake <;> rfl

def Plan.outcome (mailboxes : Mailboxes R) (tlsAcceptor : Bool) (session : Session) (turn : Turn)
    (registry : R) : Plan → Outcome R :=
  let connection : Connection := ⟨session.isTls, turn.writeError⟩
  fun
    | .idle => { session, registry, trace := [] }
    | .finish farewell result =>
        { session := { session with ended := some result }
          registry
          trace := (connection.deliver 0 farewell.toList).1 }
    | .refuse tagHistory response =>
        { session := { session with tagHistory }
          registry
          trace := (connection.deliver 0 [response]).1 }
    | .starttls tagHistory tag =>
        starttlsOutcome connection { session with tagHistory } turn tlsAcceptor registry tag
    | .dispatch tagHistory tag decision =>
        let context := turn.context mailboxes
        Reply.outcome (decision.answer context registry).1 connection { session with tagHistory }
          (decision.answer context registry).2 tag (decision.asked context)

theorem writeResponse_eq (connection : Connection) (response : Response) (world : World R) :
    connection.writeResponse response world =
      ((connection.deliver world.trace.length [response]).2,
        { world with
          trace := world.trace ++ (connection.deliver world.trace.length [response]).1 }) := by
  rw [Connection.writeResponse, Connection.deliver]
  cases connection.writeError world.trace.length <;> rfl

theorem writeIgnored_eq (connection : Connection) (response : Response) (world : World R) :
    Session.writeIgnored connection response world =
      ((), { world with
        trace := world.trace ++ (connection.deliver world.trace.length [response]).1 }) := by
  rw [Session.writeIgnored, stateM_bind]
  simp only [ExceptT.run, writeResponse_eq]
  rfl

theorem handleStarttls_eq (connection : Connection) (session : Session) (turn : Turn)
    (tlsAcceptor : Bool) (registry : R) (tag : String) :
    session.handleStarttls tlsAcceptor turn tag connection ⟨registry, []⟩ =
      ((starttlsOutcome connection session turn tlsAcceptor registry tag).session,
        ⟨(starttlsOutcome connection session turn tlsAcceptor registry tag).registry,
          (starttlsOutcome connection session turn tlsAcceptor registry tag).trace⟩) := by
  simp only [Session.handleStarttls, starttlsOutcome, stateM_bind, ExceptT.run, writeResponse_eq,
    List.length_nil, List.nil_append]
  cases (connection.deliver 0 [Session.starttlsResponse tag session.isTls tlsAcceptor]).2 with
  | error error => rfl
  | ok sent =>
      cases session.isTls with
      | true => rfl
      | false =>
          cases tlsAcceptor with
          | false => rfl
          | true => cases turn.handshake <;> rfl

theorem send_eq (reply : Reply) (connection : Connection) (world : World R) :
    reply.send connection world =
      ((connection.deliver world.trace.length reply.responses).2.map fun _ => reply.next,
        { world with
          trace :=
            world.trace ++ (connection.deliver world.trace.length reply.responses).1 }) := by
  have hwrite := writeAll_eq connection reply.responses world
  rw [Reply.send]
  cases hresult : (connection.deliver world.trace.length reply.responses).2 with
  | ok sent =>
      rw [hresult] at hwrite
      rw [bind_of_ok hwrite]
      rfl
  | error error =>
      rw [hresult] at hwrite
      rw [bind_of_error hwrite]
      rfl

/-- The outcome of a plan is what executing it does. -/
theorem execute_eq (mailboxes : Mailboxes R) (tlsAcceptor : Bool) (session : Session)
    (turn : Turn) (registry : R) (plan : Plan) :
    plan.execute mailboxes tlsAcceptor session turn ⟨registry, []⟩ =
      ((plan.outcome mailboxes tlsAcceptor session turn registry).session,
        ⟨(plan.outcome mailboxes tlsAcceptor session turn registry).registry,
          (plan.outcome mailboxes tlsAcceptor session turn registry).trace⟩) := by
  cases plan with
  | idle => rfl
  | finish farewell result =>
      cases farewell with
      | none => rfl
      | some response =>
          simp only [Plan.execute, Plan.outcome, stateM_bind, writeIgnored_eq]
          rfl
  | refuse tagHistory response =>
      simp only [Plan.execute, Plan.outcome, stateM_bind, writeIgnored_eq]
      rfl
  | starttls tagHistory tag => exact handleStarttls_eq _ _ turn tlsAcceptor registry tag
  | dispatch tagHistory tag decision =>
      simp only [Plan.execute, Plan.outcome, stateM_bind, ExceptT.run, Decision.perform,
        Reply.outcome]
      have hconsult := consult_eq (turn.context mailboxes) decision ⟨registry, []⟩
      simp only [List.nil_append] at hconsult
      generalize decision.answer (turn.context mailboxes) registry = answer at hconsult ⊢
      generalize decision.asked (turn.context mailboxes) = asked at hconsult ⊢
      obtain ⟨reply, registry'⟩ := answer
      cases reply with
      | error error =>
          rw [bind_of_error hconsult]
          simp only [stateM_bind, writeIgnored_eq]
          rfl
      | ok reply =>
          rw [bind_of_ok hconsult, send_eq]
          simp only
          rcases Connection.deliver ⟨session.isTls, turn.writeError⟩ asked.length reply.responses
            with ⟨written, error | sent⟩
          · simp only [Except.map, stateM_bind, writeIgnored_eq]
            rfl
          · rfl

def Session.outcome [UnicodeCase] (mailboxes : Mailboxes R) (tlsAcceptor : Bool)
    (session : Session) (turn : Turn) (registry : R) : Outcome R :=
  (session.plan turn).outcome mailboxes tlsAcceptor session turn registry

def Session.outcomes [UnicodeCase] (mailboxes : Mailboxes R) (tlsAcceptor : Bool) :
    Machine (Session × R) Turn (List Action) where
  step state turn :=
    let outcome := state.1.outcome mailboxes tlsAcceptor turn state.2
    ((outcome.session, outcome.registry), outcome.trace)

theorem machine_eq [UnicodeCase] (mailboxes : Mailboxes R) (tlsAcceptor : Bool) :
    Session.machine (imapServer mailboxes tlsAcceptor) =
      Session.outcomes mailboxes tlsAcceptor := by
  unfold Session.machine Session.outcomes
  congr 1
  funext state turn
  simp only [turn_eq, execute_eq]
  rfl

/-! ## A handler on its own -/

/-- Performing a decision leaves the registry as its question left it, whatever
comes of the writes. -/
theorem registry_perform (connection : Connection) (context : SessionContext R)
    (decision : Decision) (world : World R) :
    (decision.perform connection context world).2.registry =
      (decision.answer context world.registry).2 := by
  have hconsult := consult_eq context decision world
  rw [Decision.perform]
  cases hanswer : (decision.answer context world.registry).1 with
  | error error =>
      rw [hanswer] at hconsult
      rw [bind_of_error hconsult]
  | ok reply =>
      rw [hanswer] at hconsult
      rw [bind_of_ok hconsult, send_eq]

/-- A call of a handler: all it gets besides the registry. -/
structure HandlerCall where
  tag : String
  args : String
  connection : Connection
  authenticator : Credentials → Result Bool
  currentState : SessionState

/-- The registry after a handler was called. -/
def HandlerCall.run (call : HandlerCall) (handler : CommandHandler R) (mailboxes : Mailboxes R)
    (registry : R) : R :=
  let context : SessionContext R :=
    { mailboxes
      authenticator := call.authenticator
      state := .notAuthenticated
      selectedMailbox := none }
  (handler.handle call.tag call.args call.connection context call.currentState
    ⟨registry, []⟩).2.registry

/-! ## What was sent -/

def sent (trace : List Action) : List Response :=
  trace.filterMap fun
    | .wrote response => some response
    | _ => none

@[simp] theorem sent_append (first second : List Action) :
    sent (first ++ second) = sent first ++ sent second :=
  List.filterMap_append

@[simp] theorem sent_asked (context : SessionContext R) (decision : Decision) :
    sent (decision.asked context) = [] := by
  cases decision <;> rfl

@[simp] theorem sent_map_wrote (responses : List Response) :
    sent (responses.map .wrote) = responses := by
  simp [sent, List.filterMap_map]

def Turn.WritesSucceed (turn : Turn) : Prop := ∀ position, turn.writeError position = none

theorem deliver_of_succeed (connection : Connection)
    (hwrites : ∀ position, connection.writeError position = none) (position : Nat)
    (responses : List Response) :
    connection.deliver position responses = (responses.map .wrote, .ok ()) := by
  induction responses generalizing position with
  | nil => rfl
  | cons response rest ih =>
      rw [Connection.deliver, hwrites position]
      simp [ih]

end Scuttled
