import Mathlib.Data.Finset.Card
import Scuttled.Handlers.BuiltIn

/-!
# The session loop

One turn of the loop reads the clock, reads a line and answers it.  What the
turn does not decide itself is its input: the instants it reads, the line, the
errors of its writes, the answers of the authenticator and the outcome of a TLS
handshake.
-/

namespace Scuttled

open Rust Foundation

/-! ## Tag history -/

structure TagHistory where
  tags : Finset String
  maxSize : Nat

def defaultMaxTagHistory : Nat := 10000

namespace TagHistory

def withDefaultMax : TagHistory where
  tags := ∅
  maxSize := defaultMaxTagHistory

/-- `register`: a tag already used, or one too many, is refused. -/
def register (tag : String) (history : TagHistory) : Result Unit × TagHistory :=
  if tag ∈ history.tags then
    (.error (.protocolError ("Duplicate tag: " ++ tag)), history)
  else if history.tags.card ≥ history.maxSize then
    (.error (.protocolError "Maximum tag history exceeded"), history)
  else (.ok (), { history with tags := insert tag history.tags })

end TagHistory

/-! ## The loop -/

/-- The variables of the loop, and how it ended if it has. -/
structure Session where
  sessionStarted : Nat
  maxSessionDuration : Nat
  maxIdleDuration : Nat
  tagHistory : TagHistory
  sessionState : SessionState
  isTls : Bool
  ended : Option (Result Unit)

/-- What the environment supplies to one turn of the loop. -/
structure Turn where
  /-- The instant at the head of the loop, and those of the two timeout checks. -/
  now : Nat
  durationCheck : Nat
  idleCheck : Nat
  /-- What `read_line` puts into the buffer, nothing at the end of the stream. -/
  read : Result String
  writeError : Nat → Option Error
  authenticator : Credentials → Result Bool
  /-- The error of the TLS handshake. -/
  handshake : Option Error

/-- A turn in which nothing fails: the line is there at once, every write
succeeds, and so would a handshake. -/
def Turn.smooth (authenticator : Credentials → Result Bool) (line : String) : Turn where
  now := 0
  durationCheck := 0
  idleCheck := 0
  read := .ok line
  writeError _ := none
  authenticator
  handshake := none

/-- The context the handlers get in a turn; its two locks keep the values they
were created with. -/
def Turn.context {R : Type} (turn : Turn) (mailboxes : Mailboxes R) : SessionContext R where
  mailboxes
  authenticator := turn.authenticator
  state := .notAuthenticated
  selectedMailbox := none

/-- The parts of the server a session uses. -/
structure Server (R : Type) where
  mailboxes : Mailboxes R
  commandHandlers : CommandHandlers R
  tlsAcceptor : Bool

/-- The server with the handlers `ImapServer::new` registers. -/
def imapServer [UnicodeCase] {R : Type} (mailboxes : Mailboxes R) (tlsAcceptor : Bool) :
    Server R where
  mailboxes
  commandHandlers := builtInHandlers
  tlsAcceptor

namespace Session

variable {R : Type}

/-- `Session::new`, and the variables `handle` initialises. -/
def new (sessionStarted maxSessionDuration maxIdleDuration : Nat) (isTls : Bool) : Session where
  sessionStarted
  maxSessionDuration
  maxIdleDuration
  tagHistory := .withDefaultMax
  sessionState := .notAuthenticated
  isTls
  ended := none

/-- The greeting: a session that cannot send it ends with the error. -/
def greeted (session : Session) (writeError : Option Error) : Session :=
  match writeError with
  | none => session
  | some error => { session with ended := some (.error error) }

def stripNewline (line : String) : String :=
  if endsWith line "\n" then
    let line := String.ofList line.toList.dropLast
    if endsWith line "\r" then String.ofList line.toList.dropLast else line
  else line

/-- A write whose error is ignored. -/
def writeIgnored (connection : Connection) (response : Response) : StateM (World R) Unit := do
  let _ ← (connection.writeResponse (R := R) response).run

/-- `handle_command_static`: the command is flattened to a name and a text of
arguments and handed to the registry of handlers. -/
def handleCommandStatic [UnicodeCase] (tag : String) (command : Command)
    (connection : Connection) (commandHandlers : CommandHandlers R)
    (context : SessionContext R) (currentState : SessionState) :
    StateM (World R) (Option SessionState) :=
  let delegate (name args : String) :=
    commandHandlers.handle name tag args connection context currentState
  match command with
  | .capability => delegate "CAPABILITY" ""
  | .noop => delegate "NOOP" ""
  | .logout => delegate "LOGOUT" ""
  | .starttls => do
      writeIgnored connection (.bad (some tag) "STARTTLS handling error")
      return none
  | .login username password => delegate "LOGIN" (username ++ " " ++ password)
  | .select mailbox => delegate "SELECT" mailbox
  | .create mailbox => delegate "CREATE" mailbox
  | .delete mailbox => delegate "DELETE" mailbox
  | .list reference pattern => delegate "LIST" (reference ++ " " ++ pattern)
  | .custom name args => delegate name args
  | .examine _ | .close | .expunge => do
      writeIgnored connection (.bad (some tag) "Command not yet implemented")
      return none

def starttlsResponse (tag : String) (isTls tlsAcceptor : Bool) : Response :=
  if isTls then .bad (some tag) "Already using TLS"
  else if !tlsAcceptor then .bad (some tag) "STARTTLS not available"
  else .ok (some tag) "Ready for TLS handshake"

/-- STARTTLS: after an OK the connection is upgraded. -/
def handleStarttls (session : Session) (tlsAcceptor : Bool) (turn : Turn) (tag : String)
    (connection : Connection) : StateM (World R) Session := do
  let response := starttlsResponse tag session.isTls tlsAcceptor
  match ← (connection.writeResponse (R := R) response).run with
  | .error _ => return { session with ended := some (.ok ()) }
  | .ok () =>
      match response with
      | .ok _ _ =>
          match turn.handshake with
          | some error => return { session with ended := some (.error error) }
          | none => return { session with isTls := true }
      | _ => return session

/-- The state update of a handler: LOGOUT ends the session, any other state is
taken over. -/
def advance (session : Session) : Option SessionState → Session
  | some .logout => { session with ended := some (.ok ()) }
  | some sessionState => { session with sessionState }
  | none => session

/-- The part of the turn that has read a line. -/
def handleLine [UnicodeCase] (server : Server R) (session : Session) (turn : Turn)
    (connection : Connection) (line : String) : StateM (World R) Session := do
  match splitn2 ' ' line with
  | [tag, commandLine] =>
      match session.tagHistory.register tag with
      | (.error error, _) =>
          writeIgnored connection (.bad (some tag) ("Tag error: " ++ error.display))
          return session
      | (.ok (), tagHistory) =>
          let session := { session with tagHistory }
          match parseCommand tag commandLine with
          | .error error =>
              writeIgnored connection (.bad (some tag) ("Parse error: " ++ error.display))
              return session
          | .ok command =>
              if command = .starttls then
                handleStarttls session server.tlsAcceptor turn tag connection
              else
                let stateUpdate ← handleCommandStatic tag command connection
                  server.commandHandlers (turn.context server.mailboxes) session.sessionState
                return session.advance stateUpdate
  | _ =>
      writeIgnored connection (.bad none "Invalid command format")
      return session

/-- One turn of the loop of `handle`.  No other task holds a sender of the
untagged or the shutdown channel, so the line is the only thing to wait for. -/
def turn [UnicodeCase] (server : Server R) (session : Session) (turn : Turn) :
    StateM (World R) Session := do
  if session.ended.isSome then
    return session
  let connection : Connection := ⟨session.isTls, turn.writeError⟩
  if turn.durationCheck - session.sessionStarted > session.maxSessionDuration then
    writeIgnored connection (.bye "Session duration exceeded")
    return { session with ended := some (.error (.protocolError "Session duration exceeded")) }
  if turn.idleCheck - turn.now > session.maxIdleDuration then
    writeIgnored connection (.bye "Session idle timeout")
    return { session with ended := some (.error (.protocolError "Session idle timeout")) }
  match turn.read with
  | .error _ => return { session with ended := some (.ok ()) }
  | .ok buffer =>
      if buffer == "" then
        return { session with ended := some (.ok ()) }
      handleLine server session turn connection (stripNewline buffer)

/-- A session as a machine over its turns; the output of a turn is what it did. -/
def machine [UnicodeCase] (server : Server R) : Machine (Session × R) Turn (List Action) where
  step state input :=
    let (session, world) := state.1.turn server input ⟨state.2, []⟩
    ((session, world.registry), world.trace)

end Session

end Scuttled
