import Scuttled.Handlers.BuiltIn

/-!
# Handlers as decisions

What a built-in handler does is settled by at most one question to its outside:
it asks the authenticator or the registry once, and the answer fixes the
responses it writes and the state it returns.  A decision says so as data, and
each handler is shown to perform its decision.
-/

namespace Scuttled

open Rust

/-- The responses a handler writes, in order, and the state it returns. -/
structure Reply where
  responses : List Response
  next : Option SessionState

/-- What a handler asks, and how each answer settles its reply. -/
inductive Decision where
  | settled (reply : Reply)
  | authenticate (credentials : Credentials) (settle : Result Bool → Reply)
  | create (username name : String) (settle : Result MailboxInfo → Reply)
  | get (username name : String) (settle : Result (Option MailboxInfo) → Result Reply)
  | delete (username name : String) (settle : Result Unit → Reply)
  | list (username : String) (filter : MailboxFilter) (settle : Result (List MailboxInfo) → Reply)

variable {R : Type}

def Connection.writeAll (connection : Connection) : List Response → Handling R Unit
  | [] => pure ()
  | response :: rest => do
      connection.writeResponse response
      connection.writeAll rest

/-- Writes a reply and returns its state. -/
def Reply.send (reply : Reply) (connection : Connection) : Handling R (Option SessionState) := do
  connection.writeAll reply.responses
  return reply.next

namespace Decision

/-- Asks the question of a decision. -/
def consult (context : SessionContext R) : Decision → Handling R Reply
  | .settled reply => return reply
  | .authenticate credentials settle => do return settle (← context.authenticate credentials)
  | .create username name settle => do return settle (← context.createMailbox username name)
  | .get username name settle => do ofExcept (settle (← context.getMailbox username name))
  | .delete username name settle => do return settle (← context.deleteMailbox username name)
  | .list username filter settle => do return settle (← context.listMailboxes username filter)

def perform (connection : Connection) (context : SessionContext R) (decision : Decision) :
    Handling R (Option SessionState) := do
  (← decision.consult context).send connection

/-- The replies some answer leads to. -/
inductive Yields : Decision → Reply → Prop where
  | settled (reply : Reply) : Yields (.settled reply) reply
  | authenticate {credentials settle} (answer : Result Bool) :
      Yields (.authenticate credentials settle) (settle answer)
  | create {username name settle} (answer : Result MailboxInfo) :
      Yields (.create username name settle) (settle answer)
  | get {username name settle reply} (answer : Result (Option MailboxInfo)) :
      settle answer = .ok reply → Yields (.get username name settle) reply
  | delete {username name settle} (answer : Result Unit) :
      Yields (.delete username name settle) (settle answer)
  | list {username filter settle} (answer : Result (List MailboxInfo)) :
      Yields (.list username filter settle) (settle answer)

end Decision

/-! ## The decisions of the built-in handlers -/

/-- One response and no new state. -/
def Reply.just (response : Response) : Reply where
  responses := [response]
  next := none

def capabilityDecision (tag : String) : Decision :=
  .settled (.just (.ok (some tag) "CAPABILITY IMAP4rev1 STARTTLS"))

def noopDecision (tag : String) : Decision :=
  .settled (.just (.ok (some tag) "NOOP completed"))

def logoutDecision (tag : String) : Decision :=
  .settled
    { responses := [.bye "Logging out", .ok (some tag) "LOGOUT completed"]
      next := some .logout }

def loginDecision (tag args : String) : Decision :=
  match loginParseArgs args with
  | none => .settled (.just (.bad (some tag) "Invalid LOGIN syntax"))
  | some (username, password) =>
      .authenticate { username, password } fun
        | .ok true =>
            { responses := [.ok (some tag) "LOGIN completed"]
              next := some (.authenticated username) }
        | .ok false => .just (.no (some tag) "LOGIN failed: invalid credentials")
        | .error error => .just (.no (some tag) ("LOGIN failed: " ++ error.display))

/-- The part SELECT, CREATE and DELETE share: a name is needed, then a user. -/
def namedDecision (tag command args : String) (currentState : SessionState)
    (decide : String → String → Decision) : Decision :=
  if trim args == "" then
    .settled (.just (.bad (some tag) (command ++ " requires a mailbox name")))
  else
    match currentState.username with
    | none => .settled (.just (.no (some tag) "Not authenticated"))
    | some username => decide username (trim args)

def selectDecision (tag args : String) (currentState : SessionState) : Decision :=
  namedDecision tag "SELECT" args currentState fun username mailboxName =>
    .get username mailboxName fun
      | .error error => .error error
      | .ok none => .ok (.just (.no (some tag) ("Mailbox does not exist: " ++ mailboxName)))
      | .ok (some _) =>
          .ok
            { responses := [.ok (some tag) ("SELECT completed for " ++ mailboxName)]
              next := some (.selected username mailboxName) }

def createDecision (tag args : String) (currentState : SessionState) : Decision :=
  namedDecision tag "CREATE" args currentState fun username mailboxName =>
    .create username mailboxName fun
      | .ok _ => .just (.ok (some tag) ("CREATE completed for " ++ mailboxName))
      | .error error => .just (.no (some tag) ("CREATE failed: " ++ error.display))

def deleteDecision (tag args : String) (currentState : SessionState) : Decision :=
  if eqIgnoreAsciiCase (trim args) "INBOX" then
    .settled (.just (.no (some tag) "Cannot delete INBOX"))
  else
    namedDecision tag "DELETE" args currentState fun username mailboxName =>
      .delete username mailboxName fun
        | .ok _ => .just (.ok (some tag) ("DELETE completed for " ++ mailboxName))
        | .error error => .just (.no (some tag) ("DELETE failed: " ++ error.display))

/-- The pattern LIST evaluates: the reference stands before it. -/
def effectivePattern (reference pattern : String) : String :=
  if unquote reference == "" then unquote pattern else unquote reference ++ unquote pattern

def listDecision (tag args : String) (currentState : SessionState) : Decision :=
  match listParseArgs args with
  | none => .settled (.just (.bad (some tag) "Invalid LIST syntax"))
  | some (reference, pattern) =>
      match currentState.username with
      | none => .settled (.just (.no (some tag) "Not authenticated"))
      | some username =>
          .list username (patternToFilter (effectivePattern reference pattern)) fun
            | .ok mailboxes =>
                { responses := mailboxes.map listLine ++ [.ok (some tag) "LIST completed"]
                  next := none }
            | .error error => .just (.no (some tag) ("LIST failed: " ++ error.display))

/-! ## Each handler performs its decision -/

section Perform

variable {tag args : String} {connection : Connection} {context : SessionContext R}
  {currentState : SessionState}

theorem send_just (response : Response) :
    (Reply.just response).send connection =
      (do
        connection.writeResponse response
        return none : Handling R (Option SessionState)) := by
  simp [Reply.send, Reply.just, Connection.writeAll]

theorem capabilityHandler_handle :
    (capabilityHandler false).handle tag args connection context currentState =
      (capabilityDecision tag).perform connection context := by
  simp only [capabilityHandler, capabilityDecision, Decision.perform, Decision.consult,
    pure_bind, send_just]
  rfl

theorem noopHandler_handle :
    noopHandler.handle tag args connection context currentState =
      (noopDecision tag).perform connection context := by
  simp only [noopHandler, noopDecision, Decision.perform, Decision.consult, pure_bind, send_just]

theorem logoutHandler_handle :
    logoutHandler.handle tag args connection context currentState =
      (logoutDecision tag).perform connection context := by
  simp [logoutHandler, logoutDecision, Decision.perform, Decision.consult, Reply.send,
    Connection.writeAll]

theorem loginHandler_handle :
    loginHandler.handle tag args connection context currentState =
      (loginDecision tag args).perform connection context := by
  unfold loginHandler loginDecision Decision.perform
  simp only
  cases loginParseArgs args with
  | none => simp [Decision.consult, send_just]
  | some words =>
      obtain ⟨username, password⟩ := words
      simp only [Decision.consult, bind_assoc, pure_bind]
      refine bind_congr fun answer => ?_
      rcases answer with error | _ | _
      · simp [send_just]
      · simp [send_just]
      · simp [Reply.send, Connection.writeAll]

theorem selectHandler_handle :
    selectHandler.handle tag args connection context currentState =
      (selectDecision tag args currentState).perform connection context := by
  unfold selectHandler selectDecision namedDecision Decision.perform
  simp only
  split
  · simp [Decision.consult, send_just]
  cases currentState.username with
  | none => simp [Decision.consult, send_just]
  | some username =>
      simp only [Decision.consult, bind_assoc]
      refine bind_congr fun answer => ?_
      rcases answer with error | _ | info
      · simp [ofExcept]
      · simp [ofExcept, send_just]
      · simp [ofExcept, Reply.send, Connection.writeAll]

theorem createHandler_handle :
    createHandler.handle tag args connection context currentState =
      (createDecision tag args currentState).perform connection context := by
  unfold createHandler createDecision namedDecision Decision.perform
  simp only
  split
  · simp [Decision.consult, send_just]
  cases currentState.username with
  | none => simp [Decision.consult, send_just]
  | some username =>
      simp only [Decision.consult, bind_assoc, pure_bind]
      refine bind_congr fun answer => ?_
      cases answer <;> simp [send_just]

theorem deleteHandler_handle :
    deleteHandler.handle tag args connection context currentState =
      (deleteDecision tag args currentState).perform connection context := by
  unfold deleteHandler deleteDecision namedDecision Decision.perform
  simp only
  split
  · rename_i hempty
    rw [beq_iff_eq.mp hempty, if_neg (by decide)]
    simp [Decision.consult, send_just]
  split
  · simp [Decision.consult, send_just]
  cases currentState.username with
  | none => simp [Decision.consult, send_just]
  | some username =>
      simp only [Decision.consult, bind_assoc, pure_bind]
      refine bind_congr fun answer => ?_
      cases answer <;> simp [send_just]

theorem writeAll_append (first second : List Response) :
    connection.writeAll (R := R) (first ++ second) =
      (do
        connection.writeAll first
        connection.writeAll second) := by
  induction first with
  | nil => simp [Connection.writeAll]
  | cons response rest ih => simp [Connection.writeAll, ih]

theorem foldlM_listLine (mailboxes : List MailboxInfo) (start : PUnit) :
    mailboxes.foldlM (fun _ mailbox => connection.writeResponse (R := R) (listLine mailbox)) start =
      connection.writeAll (mailboxes.map listLine) := by
  induction mailboxes generalizing start with
  | nil => rfl
  | cons mailbox rest ih => simp [Connection.writeAll, ih]

theorem listHandler_handle :
    listHandler.handle tag args connection context currentState =
      (listDecision tag args currentState).perform connection context := by
  unfold listHandler listDecision Decision.perform
  simp only
  cases listParseArgs args with
  | none => simp [Decision.consult, send_just]
  | some words =>
      obtain ⟨reference, pattern⟩ := words
      cases currentState.username with
      | none => simp [Decision.consult, send_just]
      | some username =>
          simp only [Decision.consult, bind_assoc, pure_bind]
          refine bind_congr fun answer => ?_
          rcases answer with error | mailboxes
          · simp [send_just]
          · simp [foldlM_listLine, Reply.send, writeAll_append, Connection.writeAll]

end Perform

end Scuttled
