import Scuttled.Session.Course

/-!
# What a handler is told

A handler learns the state of its session twice: as an argument, and from the
context.  The argument is the variable of the loop; the context is made before
the loop and nothing in the loop writes to it.
-/

namespace Scuttled

open Rust Foundation

variable {R : Type}

/-! ## Invocations -/

/-- A call of a handler by the loop. -/
structure Invocation (R : Type) where
  handler : CommandHandler R
  tag : String
  args : String
  connection : Connection
  context : SessionContext R
  currentState : SessionState

/-- The code of the handler that is called. -/
def Invocation.handle (invocation : Invocation R) : Handling R (Option SessionState) :=
  invocation.handler.handle invocation.tag invocation.args invocation.connection
    invocation.context invocation.currentState

/-- The call of a handler in a turn, if there is one. -/
def Session.invocation [UnicodeCase] (server : Server R) (session : Session) (turn : Turn) :
    Option (Invocation R) :=
  match session.course turn with
  | .delegate _ tag name args =>
      (server.commandHandlers.admitted name session.sessionState).map fun handler =>
        { handler
          tag
          args
          connection := ⟨session.isTls, turn.writeError⟩
          context := turn.context server.mailboxes
          currentState := session.sessionState }
  | _ => none

section Turn

variable [UnicodeCase] {server : Server R} {session : Session} {turn : Turn}

theorem invocation_eq_some {invocation : Invocation R}
    (hinvocation : session.invocation server turn = some invocation) :
    invocation.currentState = session.sessionState ∧
      invocation.context = turn.context server.mailboxes := by
  unfold Session.invocation at hinvocation
  split at hinvocation
  · obtain ⟨handler, -, rfl⟩ := Option.map_eq_some_iff.mp hinvocation
    exact ⟨rfl, rfl⟩
  · cases hinvocation

theorem turn_of_invocation {invocation : Invocation R}
    (hinvocation : session.invocation server turn = some invocation) :
    ∃ tagHistory, session.turn server turn = (do
      match ← invocation.handle.run with
      | .ok stateUpdate => return { session with tagHistory }.advance stateUpdate
      | .error error =>
          Session.writeIgnored invocation.connection
            (.bad (some invocation.tag) ("Handler error: " ++ error.display))
          return { session with tagHistory }) := by
  unfold Session.invocation at hinvocation
  split at hinvocation
  · rename_i tagHistory tag name args hcourse
    obtain ⟨handler, hadmitted, rfl⟩ := Option.map_eq_some_iff.mp hinvocation
    refine ⟨tagHistory, ?_⟩
    rw [turn_course, hcourse]
    simp only [Course.execute, CommandHandlers.handle_of_admitted hadmitted, Invocation.handle,
      bind_assoc]
    congr 1
    funext answer
    cases answer with
    | error error => simp [Session.advance]
    | ok stateUpdate => simp
  · cases hinvocation

end Turn

/-! ## What the context says -/

/-- The context says of the session what its state is. -/
structure SessionContext.Tells (context : SessionContext R) (currentState : SessionState) :
    Prop where
  state : context.getState = currentState
  username : context.getUsername = currentState.username
  authenticated : context.isAuthenticated = true ↔ currentState ≠ .notAuthenticated
  selected : ∀ mailbox, context.getSelectedMailbox = some mailbox ↔
    ∃ username, currentState = .selected username mailbox

theorem tells_context_iff (turn : Turn) (mailboxes : Mailboxes R) (currentState : SessionState) :
    (turn.context mailboxes).Tells currentState ↔ currentState = .notAuthenticated := by
  constructor
  · intro htells
    exact htells.state.symm
  · rintro rfl
    exact ⟨rfl, rfl, by simp [SessionContext.isAuthenticated, SessionContext.getState,
      Turn.context], fun mailbox => by simp [SessionContext.getSelectedMailbox, Turn.context]⟩

section Runs

variable {Id : Type} [DecidableEq Id]

/--
The context of a session.  In a run of the sessions of a server, with the
built-in handlers and any others, the context tells every handler that is
called the state of its session, exactly if no handler is called in a session
that is authenticated.
-/
theorem context_tells_iff [UnicodeCase] (mailboxes : Mailboxes R) (tlsAcceptor : Bool)
    (added : List (CommandHandler R)) (started maxSession maxIdle : Id → Nat) (isTls : Id → Bool)
    (greeting : Id → Option Error) (registry : R) (inputs : List (Id × Turn)) :
    let server := imapServerWith mailboxes tlsAcceptor added
    let Calls (done : List (Id × Turn)) (input : Id × Turn) (invocation : Invocation R) : Prop :=
      ((((System.machine server).final (.new started maxSession maxIdle isTls greeting registry)
        done).sessions input.1).invocation server input.2) = some invocation
    (∀ done input rest, inputs = done ++ input :: rest → ∀ invocation,
        Calls done input invocation → invocation.context.Tells invocation.currentState) ↔
      ∀ done input rest, inputs = done ++ input :: rest → ∀ invocation,
        Calls done input invocation → invocation.currentState = .notAuthenticated := by
  intro server Calls
  have htells (done : List (Id × Turn)) (input : Id × Turn) (invocation : Invocation R)
      (hcalls : Calls done input invocation) :
      invocation.context.Tells invocation.currentState ↔
        invocation.currentState = .notAuthenticated := by
    obtain ⟨-, hcontext⟩ := invocation_eq_some hcalls
    rw [hcontext]
    exact tells_context_iff input.2 server.mailboxes invocation.currentState
  constructor
  · intro hall done input rest hinputs invocation hcalls
    exact (htells done input invocation hcalls).mp (hall done input rest hinputs invocation hcalls)
  · intro hall done input rest hinputs invocation hcalls
    exact (htells done input invocation hcalls).mpr (hall done input rest hinputs invocation hcalls)

/-- After LOGIN the handler of NOOP is told that nobody is authenticated. -/
theorem context_after_login :
    let _ := UnicodeCase.ascii
    let server := imapServerWith (inMemoryMailboxes .searching .listed) false []
    let system : System Unit InMemoryMailboxes := .new (fun _ => 0) (fun _ => 3600)
      (fun _ => 1800) (fun _ => false) (fun _ => none) .new
    let line (text : String) : Turn := .smooth (fun _ => .ok true) text
    let reached := (System.machine server).final system [((), line "a1 LOGIN ann x\r\n")]
    ∃ invocation,
      (reached.sessions ()).invocation server (line "a2 NOOP\r\n") = some invocation ∧
      ¬ invocation.context.Tells invocation.currentState := by
  intro _ server system line reached
  have hstate : (reached.sessions ()).sessionState = .authenticated "ann" := by decide +kernel
  have hsome : ((reached.sessions ()).invocation server (line "a2 NOOP\r\n")).isSome = true := by
    decide +kernel
  obtain ⟨invocation, hinvocation⟩ := Option.isSome_iff_exists.mp hsome
  obtain ⟨hcurrent, hcontext⟩ := invocation_eq_some hinvocation
  refine ⟨invocation, hinvocation, fun htells => ?_⟩
  rw [hcontext, tells_context_iff, hcurrent, hstate] at htells
  cases htells

end Runs

end Scuttled
