import Scuttled.Session.Authentication
import Scuttled.Session.System

/-!
# The course of a turn

Up to the call of a handler a turn depends on the variables of the loop and the
line alone, whatever handlers are registered.  The course of a turn is how far
it gets on its own; it ends with a response of the session itself or with a name
and arguments that are handed to the registry of handlers.
-/

namespace Scuttled

open Rust Foundation

variable {R : Type}

/-! ## Courses -/

/-- How far a turn gets without a handler. -/
inductive Course where
  /-- The session has ended. -/
  | idle
  /-- The session ends, after a farewell if there is one. -/
  | finish (farewell : Option Response) (result : Result Unit)
  /-- The session itself answers the line. -/
  | refuse (tagHistory : TagHistory) (response : Response)
  | starttls (tagHistory : TagHistory) (tag : String)
  /-- The line is handed to the registry of handlers. -/
  | delegate (tagHistory : TagHistory) (tag name args : String)

/-- The course of a line whose command was parsed. -/
def commandCourse (tagHistory : TagHistory) (tag : String) : Command → Course
  | .capability => .delegate tagHistory tag "CAPABILITY" ""
  | .noop => .delegate tagHistory tag "NOOP" ""
  | .logout => .delegate tagHistory tag "LOGOUT" ""
  | .starttls => .starttls tagHistory tag
  | .login username password => .delegate tagHistory tag "LOGIN" (username ++ " " ++ password)
  | .select mailbox => .delegate tagHistory tag "SELECT" mailbox
  | .create mailbox => .delegate tagHistory tag "CREATE" mailbox
  | .delete mailbox => .delegate tagHistory tag "DELETE" mailbox
  | .list reference pattern => .delegate tagHistory tag "LIST" (reference ++ " " ++ pattern)
  | .custom name args => .delegate tagHistory tag name args
  | .examine _ | .close | .expunge =>
      .refuse tagHistory (.bad (some tag) "Command not yet implemented")

namespace Session

def lineCourse [UnicodeCase] (session : Session) (line : String) : Course :=
  match splitn2 ' ' line with
  | [tag, commandLine] =>
      match session.tagHistory.register tag with
      | (.error error, _) =>
          .refuse session.tagHistory (.bad (some tag) ("Tag error: " ++ error.display))
      | (.ok (), tagHistory) =>
          match parseCommand tag commandLine with
          | .error error =>
              .refuse tagHistory (.bad (some tag) ("Parse error: " ++ error.display))
          | .ok command => commandCourse tagHistory tag command
  | _ => .refuse session.tagHistory (.bad none "Invalid command format")

def course [UnicodeCase] (session : Session) (turn : Turn) : Course :=
  match session.lineOf turn with
  | some line => session.lineCourse line
  | none =>
      if session.ended.isSome then .idle
      else if turn.durationCheck - session.sessionStarted > session.maxSessionDuration then
        .finish (some (.bye "Session duration exceeded"))
          (.error (.protocolError "Session duration exceeded"))
      else if turn.idleCheck - turn.now > session.maxIdleDuration then
        .finish (some (.bye "Session idle timeout"))
          (.error (.protocolError "Session idle timeout"))
      else .finish none (.ok ())

end Session

def Course.execute [UnicodeCase] (server : Server R) (session : Session) (turn : Turn) :
    Course → StateM (World R) Session :=
  let connection : Connection := ⟨session.isTls, turn.writeError⟩
  fun
    | .idle => return session
    | .finish farewell result => do
        match farewell with
        | some response => Session.writeIgnored connection response
        | none => pure ()
        return { session with ended := some result }
    | .refuse tagHistory response => do
        Session.writeIgnored connection response
        return { session with tagHistory }
    | .starttls tagHistory tag =>
        Session.handleStarttls { session with tagHistory } server.tlsAcceptor turn tag connection
    | .delegate tagHistory tag name args => do
        let stateUpdate ← server.commandHandlers.handle name tag args connection
          (turn.context server.mailboxes) session.sessionState
        return { session with tagHistory }.advance stateUpdate

/-! ## The handler that is called -/

/-- The state is one with a selected mailbox. -/
def SessionState.isSelected : SessionState → Bool
  | .selected _ _ => true
  | _ => false

namespace CommandHandlers

/-- The handler registered under a name, if the two gates let the state of the
session through. -/
def admitted [UnicodeCase] (handlers : CommandHandlers R) (commandName : String)
    (currentState : SessionState) : Option (CommandHandler R) :=
  match handlers.get commandName with
  | none => none
  | some handler =>
      if handler.requiresAuth && currentState == .notAuthenticated then none
      else if handler.requiresSelectedMailbox && !currentState.isSelected then none
      else some handler

section Handle

variable [UnicodeCase] {handlers : CommandHandlers R} {commandName : String}
  {currentState : SessionState}

theorem handle_of_admitted {handler : CommandHandler R}
    (hadmitted : handlers.admitted commandName currentState = some handler) (tag args : String)
    (connection : Connection) (context : SessionContext R) :
    handlers.handle commandName tag args connection context currentState = (do
      match ← (handler.handle tag args connection context currentState).run with
      | .ok stateUpdate => return stateUpdate
      | .error error =>
          Session.writeIgnored connection (.bad (some tag) ("Handler error: " ++ error.display))
          return none) := by
  unfold admitted at hadmitted
  split at hadmitted
  · cases hadmitted
  · rename_i registered hget
    split at hadmitted
    · cases hadmitted
    · rename_i hauth
      split at hadmitted
      · cases hadmitted
      · rename_i hselected
        obtain rfl := Option.some.inj hadmitted
        unfold handle
        simp only [hget, if_neg hauth]
        cases currentState <;> exact if_neg hselected

theorem handle_of_not_admitted (hadmitted : handlers.admitted commandName currentState = none)
    (tag args : String) (connection : Connection) (context : SessionContext R) :
    ∃ response, handlers.handle commandName tag args connection context currentState = (do
      Session.writeIgnored connection response
      return none) := by
  unfold admitted at hadmitted
  split at hadmitted
  · rename_i hget
    unfold handle
    simp only [hget]
    exact ⟨_, rfl⟩
  · rename_i registered hget
    unfold handle
    simp only [hget]
    split at hadmitted
    · rename_i hauth
      simp only [if_pos hauth]
      exact ⟨_, rfl⟩
    · rename_i hauth
      simp only [if_neg hauth]
      split at hadmitted
      · rename_i hselected
        cases currentState <;> exact ⟨_, if_pos hselected⟩
      · cases hadmitted

end Handle

end CommandHandlers

/-- The server after `register_handler` was called for further handlers. -/
def imapServerWith [UnicodeCase] (mailboxes : Mailboxes R) (tlsAcceptor : Bool)
    (added : List (CommandHandler R)) : Server R :=
  { imapServer mailboxes tlsAcceptor with
    commandHandlers := (builtInHandlers : CommandHandlers R).registerAll added }

theorem get_imapServerWith [UnicodeCase] {handler : CommandHandler R} {name : String}
    (hbuiltIn : CommandHandlers.get builtInHandlers name = some handler) (mailboxes : Mailboxes R)
    (tlsAcceptor : Bool) (added : List (CommandHandler R)) :
    (imapServerWith mailboxes tlsAcceptor added).commandHandlers.get name = some handler := by
  unfold CommandHandlers.get at hbuiltIn ⊢
  rw [imapServerWith, CommandHandlers.lookup_registerAll, hbuiltIn]
  rfl

/-! ## A turn runs its course -/

theorem handleStarttls_cases (session : Session) (turn : Turn) (tlsAcceptor : Bool)
    (tag : String) (connection : Connection) (world : World R) :
    ∃ isTls ended, (session.handleStarttls tlsAcceptor turn tag connection world).1 =
      { session with isTls, ended } := by
  simp only [Session.handleStarttls, stateM_bind]
  generalize ((Connection.writeResponse _ _ : Handling R Unit).run world) = written
  obtain ⟨error | sent, world'⟩ := written
  · exact ⟨_, _, rfl⟩
  · cases turn.handshake with
    | some error => split <;> exact ⟨_, _, rfl⟩
    | none => split <;> exact ⟨_, _, rfl⟩

section Turn

variable [UnicodeCase] {server : Server R} {session : Session} {turn : Turn}

theorem handleLine_course (line : String) :
    session.handleLine server turn ⟨session.isTls, turn.writeError⟩ line =
      (session.lineCourse line).execute server session turn := by
  unfold Session.handleLine Session.lineCourse
  rcases splitn2 ' ' line with _ | ⟨tag, _ | ⟨commandLine, _ | ⟨extra, others⟩⟩⟩
  · simp [Course.execute]
  · simp [Course.execute]
  · rcases hregister : session.tagHistory.register tag with ⟨error | accepted, tagHistory⟩
    · simp [Course.execute, hregister]
    cases hparse : parseCommand tag commandLine with
    | error error => simp [Course.execute, hregister, hparse]
    | ok command =>
        simp only [hregister, hparse]
        cases command <;>
          simp [commandCourse, Course.execute, Session.handleCommandStatic, Session.advance]
  · simp [Course.execute]

theorem turn_course (session : Session) (turn : Turn) :
    session.turn server turn = (session.course turn).execute server session turn := by
  unfold Session.turn Session.course Session.lineOf
  cases session.ended.isSome with
  | true => simp [Course.execute]
  | false =>
      by_cases hduration :
          turn.durationCheck - session.sessionStarted > session.maxSessionDuration
      · simp [Course.execute, hduration]
      by_cases hidle : turn.idleCheck - turn.now > session.maxIdleDuration
      · simp [Course.execute, hduration, hidle]
      cases turn.read with
      | error error => simp [Course.execute, hduration, hidle]
      | ok buffer =>
          by_cases hempty : buffer == ""
          · simp [Course.execute, hduration, hidle, hempty]
          · simp only [hduration, hidle, hempty, if_false, Bool.false_eq_true]
            exact handleLine_course _

theorem limits_turn (server : Server R) (session : Session) (turn : Turn) (world : World R) :
    (session.turn server turn world).1.sessionStarted = session.sessionStarted ∧
      (session.turn server turn world).1.maxSessionDuration = session.maxSessionDuration ∧
      (session.turn server turn world).1.maxIdleDuration = session.maxIdleDuration := by
  rw [turn_course]
  cases session.course turn with
  | idle => exact ⟨rfl, rfl, rfl⟩
  | finish farewell result => cases farewell <;> exact ⟨rfl, rfl, rfl⟩
  | refuse tagHistory response => exact ⟨rfl, rfl, rfl⟩
  | starttls tagHistory tag =>
      obtain ⟨isTls, ended, hsession⟩ := handleStarttls_cases { session with tagHistory } turn
        server.tlsAcceptor tag ⟨session.isTls, turn.writeError⟩ world
      rw [Course.execute, hsession]
      exact ⟨rfl, rfl, rfl⟩
  | delegate tagHistory tag name args =>
      simp only [Course.execute, stateM_bind]
      generalize (server.commandHandlers.handle name tag args _ _ _ world).1 = next
      rcases next with _ | _ | _ | _ | _ <;> exact ⟨rfl, rfl, rfl⟩

theorem lineOf_of_not_ended {world : World R}
    (hended : (session.turn server turn world).1.ended = none) :
    session.ended = none ∧ ∃ line, session.lineOf turn = some line := by
  cases hline : session.lineOf turn with
  | some line =>
      refine ⟨?_, line, rfl⟩
      cases hsession : session.ended with
      | none => rfl
      | some result =>
          rw [Session.lineOf, hsession] at hline
          cases hline
  | none =>
      rw [turn_course, Session.course, hline] at hended
      dsimp only at hended
      split at hended
      · rename_i hsession
        rw [Course.execute] at hended
        exact absurd hsession (by simp [show session.ended = none from hended])
      · split at hended
        · cases hended
        · split at hended <;> cases hended

theorem course_of_expired (hended : session.ended = none)
    (hexpired : turn.durationCheck - session.sessionStarted > session.maxSessionDuration ∨
      turn.idleCheck - turn.now > session.maxIdleDuration) :
    ∃ message, session.course turn =
      .finish (some (.bye message)) (.error (.protocolError message)) := by
  have hsome : ¬ session.ended.isSome = true := by simp [hended]
  rw [Session.course, Session.lineOf, if_neg hsome]
  by_cases hduration : turn.durationCheck - session.sessionStarted > session.maxSessionDuration
  · rw [if_pos hduration]
    simp only [if_neg hsome, if_pos hduration]
    exact ⟨_, rfl⟩
  · have hidle := hexpired.resolve_left hduration
    rw [if_neg hduration, if_pos hidle]
    simp only [if_neg hsome, if_neg hduration, if_pos hidle]
    exact ⟨_, rfl⟩

theorem limits_final {Id : Type} [DecidableEq Id] (server : Server R)
    (started maxSession maxIdle : Id → Nat) (isTls : Id → Bool) (greeting : Id → Option Error)
    (registry : R) (inputs : List (Id × Turn)) (id : Id) :
    let session := ((System.machine server).final
      (.new started maxSession maxIdle isTls greeting registry) inputs).sessions id
    session.sessionStarted = started id ∧ session.maxSessionDuration = maxSession id ∧
      session.maxIdleDuration = maxIdle id := by
  let Inv (system : System Id R) : Prop :=
    (system.sessions id).sessionStarted = started id ∧
      (system.sessions id).maxSessionDuration = maxSession id ∧
      (system.sessions id).maxIdleDuration = maxIdle id
  have hstep (system : System Id R) (input : Id × Turn) (_ : input ∈ inputs) (hinv : Inv system) :
      Inv ((System.machine server).step system input).1 := by
    simp only [Inv, System.sessions_step]
    by_cases hid : id = input.1
    · subst hid
      rw [Function.update_self]
      obtain ⟨hstarted, hsession, hidle⟩ :=
        limits_turn server (system.sessions input.1) input.2 ⟨system.registry, []⟩
      exact ⟨hstarted.trans hinv.1, hsession.trans hinv.2.1, hidle.trans hinv.2.2⟩
    · rw [Function.update_of_ne hid]
      exact hinv
  have hnew : Inv (.new started maxSession maxIdle isTls greeting registry) := by
    simp only [Inv, System.new, Session.greeted]
    cases greeting id <;> exact ⟨rfl, rfl, rfl⟩
  exact Machine.final_invariant hstep hnew

end Turn

end Scuttled
