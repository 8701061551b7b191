import Scuttled.Mailboxes.Memory
import Scuttled.Protocol

/-!
# What a handler sees and does

A handler runs against the world of its session: the registry, which it shares
with other sessions, and the record of what it has done so far.  The connection
of one turn says which of its writes fail.
-/

namespace Scuttled

inductive SessionState where
  | notAuthenticated
  | authenticated (username : String)
  | selected (username mailbox : String)
  | logout
  deriving DecidableEq, Repr

/-- The user a session state names. -/
def SessionState.username : SessionState → Option String
  | .authenticated username => some username
  | .selected username _ => some username
  | .notAuthenticated => none
  | .logout => none

/-- The registry operations the handlers perform. -/
inductive RegistryOperation where
  | create (username name : String)
  | get (username name : String)
  | delete (username name : String)
  | list (username : String) (filter : MailboxFilter)
  deriving DecidableEq, Repr

/-- The user an operation is performed for. -/
def RegistryOperation.username : RegistryOperation → String
  | .create username _ => username
  | .get username _ => username
  | .delete username _ => username
  | .list username _ => username

/-- What a session does to its outside. -/
inductive Action where
  | wrote (response : Response)
  | writeFailed (response : Response)
  | authenticated (credentials : Credentials) (answer : Result Bool)
  | registry (operation : RegistryOperation)
  deriving DecidableEq

/-- The registry and the actions of the current turn, oldest first. -/
structure World (R : Type) where
  registry : R
  trace : List Action

def World.record {R : Type} (world : World R) (action : Action) : World R :=
  { world with trace := world.trace ++ [action] }

/-- Code that acts on the world and may fail with `?`. -/
abbrev Handling (R α : Type) := ExceptT Error (StateM (World R)) α

/-- A connection during one turn: whether it is encrypted, and which error each
write ends with, by the number of actions before it. -/
structure Connection where
  isTls : Bool
  writeError : Nat → Option Error

def Connection.writeResponse {R : Type} (connection : Connection) (response : Response) :
    Handling R Unit := fun world =>
  match connection.writeError world.trace.length with
  | none => (.ok (), world.record (.wrote response))
  | some error => (.error error, world.record (.writeFailed response))

/-- `SessionContext`, as far as the handlers use it; the two locks are created
with the session and no built-in handler writes to them. -/
structure SessionContext (R : Type) where
  mailboxes : Mailboxes R
  authenticator : Credentials → Result Bool
  state : SessionState
  selectedMailbox : Option String

namespace SessionContext

variable {R : Type} (context : SessionContext R)

def getState : SessionState := context.state

def getSelectedMailbox : Option String := context.selectedMailbox

def getUsername : Option String :=
  match context.getState with
  | .authenticated username => some username
  | .selected username _ => some username
  | _ => none

def isAuthenticated : Bool :=
  match context.getState with
  | .notAuthenticated => false
  | _ => true

/-- `authenticator.authenticate`. -/
def authenticate (credentials : Credentials) : Handling R (Result Bool) := fun world =>
  let answer := context.authenticator credentials
  (.ok answer, world.record (.authenticated credentials answer))

/-- Performs a registry operation and records it. -/
def perform {α : Type} (operation : RegistryOperation) (call : StateM R (Result α)) :
    Handling R (Result α) := fun world =>
  let (answer, registry) := call world.registry
  (.ok answer, { world with registry }.record (.registry operation))

def createMailbox (username name : String) : Handling R (Result MailboxInfo) :=
  perform (.create username name) (context.mailboxes.createMailbox username name)

def getMailbox (username name : String) : Handling R (Result (Option MailboxInfo)) :=
  perform (.get username name) (context.mailboxes.getMailbox username name)

def deleteMailbox (username name : String) : Handling R (Result Unit) :=
  perform (.delete username name) (context.mailboxes.deleteMailbox username name)

def listMailboxes (username : String) (filter : MailboxFilter) :
    Handling R (Result (List MailboxInfo)) :=
  perform (.list username filter) (context.mailboxes.listMailboxes username filter)

end SessionContext

structure CommandHandler (R : Type) where
  commandName : String
  handle (tag args : String) (connection : Connection) (context : SessionContext R)
    (currentState : SessionState) : Handling R (Option SessionState)
  requiresAuth : Bool := true
  requiresSelectedMailbox : Bool := false

end Scuttled
