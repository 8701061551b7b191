import Mathlib.Data.List.Find
import Scuttled.Handlers.Decision
import Scuttled.Session.Loop

/-!
# Turns as plans

With the built-in handlers, what a turn does is fixed by the variables of the
loop and the line alone, up to the one question a handler asks.  The plan of a
turn says so as data; executing it is shown to be the turn itself.
-/

namespace Scuttled

open Rust Foundation

variable {R : Type}

/-! ## Looking up built-in handlers -/

theorem toUppercase_word [UnicodeCase] {word : String}
    (hword : ∀ c ∈ word.toList, c.isUpper = true) : toUppercase word = word :=
  toUppercase_of_eqIgnoreAsciiCase hword (by simp [eqIgnoreAsciiCase])

theorem commandName_builtIn :
    (builtIn : List (CommandHandler R)).map CommandHandler.commandName =
      ["CAPABILITY", "NOOP", "LOGOUT", "LOGIN", "SELECT", "CREATE", "DELETE", "LIST"] := rfl

theorem mem_commandName_builtIn {handler : CommandHandler R} (hhandler : handler ∈ builtIn) :
    handler.commandName ∈
      ["CAPABILITY", "NOOP", "LOGOUT", "LOGIN", "SELECT", "CREATE", "DELETE", "LIST"] :=
  commandName_builtIn (R := R) ▸ List.mem_map_of_mem hhandler

theorem isUpper_commandName_builtIn {handler : CommandHandler R} (hhandler : handler ∈ builtIn) :
    ∀ c ∈ handler.commandName.toList, c.isUpper = true := by
  have hwords : ∀ word ∈
      ["CAPABILITY", "NOOP", "LOGOUT", "LOGIN", "SELECT", "CREATE", "DELETE", "LIST"],
      ∀ c ∈ word.toList, c.isUpper = true := by decide
  exact hwords _ (mem_commandName_builtIn hhandler)

theorem get_builtInHandlers [UnicodeCase] (name : String) :
    CommandHandlers.get (builtInHandlers : CommandHandlers R) name =
      builtIn.find? fun handler => handler.commandName == toUppercase name := by
  rw [CommandHandlers.get, builtInHandlers, CommandHandlers.lookup_registerAll]
  simp only [AList.lookup_empty, Option.none_or]
  refine List.find?_congr fun handler hhandler => ?_
  rw [toUppercase_word (isUpper_commandName_builtIn hhandler)]

/-- A command name the parser leaves to extensions is upper-case and no name of
a built-in handler. -/
theorem parseCommand_custom [UnicodeCase] {tag line name args : String}
    (hparse : parseCommand tag line = .ok (.custom name args)) :
    toUppercase name = name ∧
      ∀ handler ∈ (builtIn : List (CommandHandler R)), handler.commandName ≠ name := by
  unfold parseCommand at hparse
  cases hsplit : splitWhitespace line with
  | nil => simp [hsplit] at hparse
  | cons word words =>
      simp only [hsplit] at hparse
      split at hparse
      case h_13 hcapability hnoop hlogout hstarttls hlogin hselect hexamine hcreate hdelete
          hlist hclose hexpunge =>
        obtain ⟨rfl, -⟩ : toUppercase word = name ∧ _ := by simpa using hparse
        refine ⟨toUppercase_toUppercase word, fun handler hhandler => ?_⟩
        have hmem := mem_commandName_builtIn hhandler
        simp only [List.mem_cons, List.not_mem_nil, or_false] at hmem
        intro hname
        rw [hname] at hmem
        rcases hmem with h | h | h | h | h | h | h | h
        · exact hcapability h
        · exact hnoop h
        · exact hlogout h
        · exact hlogin h
        · exact hselect h
        · exact hcreate h
        · exact hdelete h
        · exact hlist h
      -- every other word builds another command, or fails for want of arguments
      all_goals first
        | (simp at hparse; done)
        | (split at hparse <;> simp at hparse)

/-! ## Plans -/

inductive Plan where
  /-- The session has ended. -/
  | idle
  /-- The session ends, after a farewell if there is one. -/
  | finish (farewell : Option Response) (result : Result Unit)
  /-- The session itself answers the line. -/
  | refuse (tagHistory : TagHistory) (response : Response)
  | starttls (tagHistory : TagHistory) (tag : String)
  /-- A built-in handler is run. -/
  | dispatch (tagHistory : TagHistory) (tag : String) (decision : Decision)

/-- The plan for a command: a handler that requires authentication is not run
without it, and what no handler is registered for is unknown. -/
def commandPlan (tagHistory : TagHistory) (tag : String) (currentState : SessionState) :
    Command → Plan :=
  let gated (decision : Decision) : Plan :=
    if currentState == .notAuthenticated then
      .refuse tagHistory (.no (some tag) "Command requires authentication")
    else .dispatch tagHistory tag decision
  let unimplemented : Plan :=
    .refuse tagHistory (.bad (some tag) "Command not yet implemented")
  fun
    | .capability => .dispatch tagHistory tag (capabilityDecision tag)
    | .noop => gated (noopDecision tag)
    | .logout => .dispatch tagHistory tag (logoutDecision tag)
    | .starttls => .starttls tagHistory tag
    | .login username password =>
        .dispatch tagHistory tag (loginDecision tag (username ++ " " ++ password))
    | .select mailbox => gated (selectDecision tag mailbox currentState)
    | .create mailbox => gated (createDecision tag mailbox currentState)
    | .delete mailbox => gated (deleteDecision tag mailbox currentState)
    | .list reference pattern =>
        gated (listDecision tag (reference ++ " " ++ pattern) currentState)
    | .custom name _ => .refuse tagHistory (.bad (some tag) ("Unknown command: " ++ name))
    | .examine _ => unimplemented
    | .close => unimplemented
    | .expunge => unimplemented

/-- The decision of the handler a command is for. -/
def commandDecision (tag : String) (currentState : SessionState) : Command → Option Decision
  | .capability => some (capabilityDecision tag)
  | .noop => some (noopDecision tag)
  | .logout => some (logoutDecision tag)
  | .login username password => some (loginDecision tag (username ++ " " ++ password))
  | .select mailbox => some (selectDecision tag mailbox currentState)
  | .create mailbox => some (createDecision tag mailbox currentState)
  | .delete mailbox => some (deleteDecision tag mailbox currentState)
  | .list reference pattern => some (listDecision tag (reference ++ " " ++ pattern) currentState)
  | .starttls | .examine _ | .close | .expunge | .custom _ _ => none

/-- The commands that have a handler, and the decision of each. -/
inductive Command.HandledBy (tag : String) (currentState : SessionState) :
    Command → Decision → Prop where
  | capability : Command.HandledBy tag currentState .capability (capabilityDecision tag)
  | noop : Command.HandledBy tag currentState .noop (noopDecision tag)
  | logout : Command.HandledBy tag currentState .logout (logoutDecision tag)
  | login (username password : String) :
      Command.HandledBy tag currentState (.login username password)
        (loginDecision tag (username ++ " " ++ password))
  | select (mailbox : String) :
      Command.HandledBy tag currentState (.select mailbox)
        (selectDecision tag mailbox currentState)
  | create (mailbox : String) :
      Command.HandledBy tag currentState (.create mailbox)
        (createDecision tag mailbox currentState)
  | delete (mailbox : String) :
      Command.HandledBy tag currentState (.delete mailbox)
        (deleteDecision tag mailbox currentState)
  | list (reference pattern : String) :
      Command.HandledBy tag currentState (.list reference pattern)
        (listDecision tag (reference ++ " " ++ pattern) currentState)

theorem handledBy_of_commandDecision {tag : String} {currentState : SessionState}
    {command : Command} {decision : Decision}
    (hdecision : commandDecision tag currentState command = some decision) :
    command.HandledBy tag currentState decision := by
  cases command with
  | capability => exact Option.some.inj hdecision ▸ .capability
  | noop => exact Option.some.inj hdecision ▸ .noop
  | logout => exact Option.some.inj hdecision ▸ .logout
  | login username password => exact Option.some.inj hdecision ▸ .login username password
  | select mailbox => exact Option.some.inj hdecision ▸ .select mailbox
  | create mailbox => exact Option.some.inj hdecision ▸ .create mailbox
  | delete mailbox => exact Option.some.inj hdecision ▸ .delete mailbox
  | list reference pattern => exact Option.some.inj hdecision ▸ .list reference pattern
  | starttls => cases hdecision
  | examine mailbox => cases hdecision
  | close => cases hdecision
  | expunge => cases hdecision
  | custom name args => cases hdecision

theorem commandDecision_of_dispatch {tagHistory tagHistory' : TagHistory} {tag tag' : String}
    {currentState : SessionState} {command : Command} {decision : Decision}
    (hplan : commandPlan tagHistory tag currentState command =
      .dispatch tagHistory' tag' decision) :
    tagHistory' = tagHistory ∧ tag' = tag ∧
      commandDecision tag currentState command = some decision := by
  have hgated {handled : Decision}
      (hdispatch : (if currentState == .notAuthenticated then
          Plan.refuse tagHistory (.no (some tag) "Command requires authentication")
        else .dispatch tagHistory tag handled) = .dispatch tagHistory' tag' decision) :
      tagHistory' = tagHistory ∧ tag' = tag ∧ some handled = some decision := by
    split at hdispatch
    · cases hdispatch
    · cases hdispatch
      exact ⟨rfl, rfl, rfl⟩
  cases command with
  | capability => cases hplan; exact ⟨rfl, rfl, rfl⟩
  | noop => exact hgated hplan
  | logout => cases hplan; exact ⟨rfl, rfl, rfl⟩
  | starttls => cases hplan
  | login username password => cases hplan; exact ⟨rfl, rfl, rfl⟩
  | select mailbox => exact hgated hplan
  | examine mailbox => cases hplan
  | create mailbox => exact hgated hplan
  | delete mailbox => exact hgated hplan
  | list reference pattern => exact hgated hplan
  | close => cases hplan
  | expunge => cases hplan
  | custom name args => cases hplan

namespace Session

def linePlan [UnicodeCase] (session : Session) (line : String) : Plan :=
  match splitn2 ' ' line with
  | [tag, commandLine] =>
      match session.tagHistory.register tag with
      | (.error error, _) =>
          .refuse session.tagHistory (.bad (some tag) ("Tag error: " ++ error.display))
      | (.ok (), tagHistory) =>
          match parseCommand tag commandLine with
          | .error error =>
              .refuse tagHistory (.bad (some tag) ("Parse error: " ++ error.display))
          | .ok command => commandPlan tagHistory tag session.sessionState command
  | _ => .refuse session.tagHistory (.bad none "Invalid command format")

/-- The line a turn processes, unless the session has ended or ends first. -/
def lineOf (session : Session) (turn : Turn) : Option String :=
  if session.ended.isSome then none
  else if turn.durationCheck - session.sessionStarted > session.maxSessionDuration then none
  else if turn.idleCheck - turn.now > session.maxIdleDuration then none
  else
    match turn.read with
    | .error _ => none
    | .ok buffer => if buffer == "" then none else some (stripNewline buffer)

def plan [UnicodeCase] (session : Session) (turn : Turn) : Plan :=
  match session.lineOf turn with
  | some line => session.linePlan line
  | none =>
      if session.ended.isSome then .idle
      else if turn.durationCheck - session.sessionStarted > session.maxSessionDuration then
        .finish (some (.bye "Session duration exceeded"))
          (.error (.protocolError "Session duration exceeded"))
      else if turn.idleCheck - turn.now > session.maxIdleDuration then
        .finish (some (.bye "Session idle timeout"))
          (.error (.protocolError "Session idle timeout"))
      else .finish none (.ok ())

theorem plan_dispatch_cases [UnicodeCase] {session : Session} {turn : Turn}
    {tagHistory : TagHistory} {tag : String} {decision : Decision}
    (hplan : session.plan turn = .dispatch tagHistory tag decision) :
    ∃ line commandLine command, session.lineOf turn = some line ∧
      splitn2 ' ' line = [tag, commandLine] ∧ parseCommand tag commandLine = .ok command ∧
      commandDecision tag session.sessionState command = some decision := by
  unfold plan at hplan
  split at hplan
  · rename_i line hline
    unfold linePlan at hplan
    split at hplan
    · rename_i tag' commandLine hsplit
      split at hplan
      · cases hplan
      · split at hplan
        · cases hplan
        · rename_i command hparse
          obtain ⟨-, rfl, hdecision⟩ := commandDecision_of_dispatch hplan
          exact ⟨line, commandLine, command, hline, hsplit, hparse, hdecision⟩
    · cases hplan
  · split at hplan
    · cases hplan
    · split at hplan
      · cases hplan
      · split at hplan <;> cases hplan

theorem linePlan_ne_finish [UnicodeCase] (session : Session) (line : String)
    (farewell : Option Response) (result : Result Unit) :
    session.linePlan line ≠ .finish farewell result := by
  have hgated (currentState : SessionState) (tagHistory : TagHistory) (tag : String)
      (decision : Decision) :
      (if currentState == .notAuthenticated then
          Plan.refuse tagHistory (.no (some tag) "Command requires authentication")
        else .dispatch tagHistory tag decision) ≠ .finish farewell result := by
    split <;> simp
  unfold linePlan
  split
  · split
    · simp
    · split
      · simp
      · rename_i command _
        cases command with
        | noop => exact hgated _ _ _ _
        | select mailbox => exact hgated _ _ _ _
        | create mailbox => exact hgated _ _ _ _
        | delete mailbox => exact hgated _ _ _ _
        | list reference pattern => exact hgated _ _ _ _
        | _ => simp [commandPlan]
  · simp

theorem plan_finish_cases [UnicodeCase] {session : Session} {turn : Turn}
    {farewell : Option Response} {result : Result Unit}
    (hplan : session.plan turn = .finish farewell result) :
    farewell = none ∨ ∃ message, farewell = some (.bye message) := by
  unfold plan at hplan
  split at hplan
  · exact absurd hplan (linePlan_ne_finish _ _ _ _)
  · split at hplan
    · cases hplan
    · split at hplan
      · cases hplan
        exact .inr ⟨_, rfl⟩
      · split at hplan
        · cases hplan
          exact .inr ⟨_, rfl⟩
        · cases hplan
          exact .inl rfl

end Session

def Plan.execute (mailboxes : Mailboxes R) (tlsAcceptor : Bool) (session : Session) (turn : Turn) :
    Plan → StateM (World R) Session :=
  let connection : Connection := ⟨session.isTls, turn.writeError⟩
  fun
    | .idle => return session
    | .finish farewell result => do
        match farewell with
        | some response => Session.writeIgnored connection response
        | none => pure ()
        return { session with ended := some result }
    | .refuse tagHistory response => do
        Session.writeIgnored connection response
        return { session with tagHistory }
    | .starttls tagHistory tag =>
        Session.handleStarttls { session with tagHistory } tlsAcceptor turn tag connection
    | .dispatch tagHistory tag decision => do
        match ← (decision.perform connection (turn.context mailboxes)).run with
        | .ok stateUpdate => return { session with tagHistory }.advance stateUpdate
        | .error error =>
            Session.writeIgnored connection
              (.bad (some tag) ("Handler error: " ++ error.display))
            return { session with tagHistory }

/-! ## A turn executes its plan -/

section Execute

variable [UnicodeCase] {tag args : String} {connection : Connection}
  {context : SessionContext R} {currentState : SessionState}

/-- Running a built-in handler through the registry: its gate, then its
decision. -/
theorem handle_builtInHandlers {name : String} {handler : CommandHandler R}
    {decision : Decision} (hfind : builtIn.find? (fun other => other.commandName == name) = some handler)
    (hupper : toUppercase name = name)
    (hselected : handler.requiresSelectedMailbox = false)
    (hhandle : handler.handle tag args connection context currentState =
      decision.perform connection context) :
    CommandHandlers.handle builtInHandlers name tag args connection context currentState =
      if handler.requiresAuth && currentState == .notAuthenticated then do
        Session.writeIgnored connection (.no (some tag) "Command requires authentication")
        return none
      else do
        match ← (decision.perform connection context).run with
        | .ok stateUpdate => return stateUpdate
        | .error error =>
            Session.writeIgnored connection
              (.bad (some tag) ("Handler error: " ++ error.display))
            return none := by
  unfold CommandHandlers.handle
  rw [get_builtInHandlers, hupper, hfind]
  simp only [hselected, hhandle, Session.writeIgnored, Bool.false_and, Bool.false_eq_true,
    if_false]
  cases handler.requiresAuth && currentState == .notAuthenticated with
  | true => simp
  | false =>
      simp only [Bool.false_eq_true, if_false]
      rfl

variable {session : Session} {turn : Turn} {tagHistory : TagHistory} {mailboxes : Mailboxes R}
  {tlsAcceptor : Bool}

theorem handled_eq {name : String} {handler : CommandHandler R} {decision : Decision}
    (hfind : builtIn.find? (fun other => other.commandName == name) = some handler)
    (hupper : toUppercase name = name)
    (hselected : handler.requiresSelectedMailbox = false)
    (hhandle : handler.handle tag args ⟨session.isTls, turn.writeError⟩ (turn.context mailboxes)
        session.sessionState =
      decision.perform ⟨session.isTls, turn.writeError⟩ (turn.context mailboxes)) :
    (do
      let stateUpdate ← CommandHandlers.handle builtInHandlers name tag args
        ⟨session.isTls, turn.writeError⟩ (turn.context mailboxes) session.sessionState
      return { session with tagHistory }.advance stateUpdate : StateM (World R) Session) =
      (if handler.requiresAuth && session.sessionState == .notAuthenticated then
        Plan.refuse tagHistory (.no (some tag) "Command requires authentication")
      else .dispatch tagHistory tag decision).execute mailboxes tlsAcceptor session turn := by
  rw [handle_builtInHandlers hfind hupper hselected hhandle]
  cases handler.requiresAuth && session.sessionState == .notAuthenticated with
  | true => simp [Plan.execute, Session.advance]
  | false =>
      simp only [Bool.false_eq_true, if_false, bind_assoc, Plan.execute]
      refine bind_congr fun result => ?_
      cases result with
      | ok stateUpdate => rfl
      | error error => simp [Session.advance]

/-- A command is answered by its plan. -/
theorem handleCommandStatic_eq {command : Command} {line : String}
    (hparse : parseCommand tag line = .ok command) (hstarttls : command ≠ .starttls) :
    (do
      let stateUpdate ← Session.handleCommandStatic tag command ⟨session.isTls, turn.writeError⟩
        builtInHandlers (turn.context mailboxes) session.sessionState
      return { session with tagHistory }.advance stateUpdate : StateM (World R) Session) =
      (commandPlan tagHistory tag session.sessionState command).execute mailboxes tlsAcceptor
        session turn := by
  have hword {word : String} (hupper : ∀ c ∈ word.toList, c.isUpper = true) :
      toUppercase word = word := toUppercase_word hupper
  unfold Session.handleCommandStatic
  cases command with
  | capability => exact handled_eq rfl (hword (by decide)) rfl capabilityHandler_handle
  | noop => exact handled_eq rfl (hword (by decide)) rfl noopHandler_handle
  | logout => exact handled_eq rfl (hword (by decide)) rfl logoutHandler_handle
  | starttls => exact absurd rfl hstarttls
  | login username password => exact handled_eq rfl (hword (by decide)) rfl loginHandler_handle
  | select mailbox => exact handled_eq rfl (hword (by decide)) rfl selectHandler_handle
  | create mailbox => exact handled_eq rfl (hword (by decide)) rfl createHandler_handle
  | delete mailbox => exact handled_eq rfl (hword (by decide)) rfl deleteHandler_handle
  | list reference pattern => exact handled_eq rfl (hword (by decide)) rfl listHandler_handle
  | custom name args =>
      obtain ⟨hupper, hnone⟩ := parseCommand_custom (R := R) hparse
      have hfind : builtIn.find? (fun handler : CommandHandler R => handler.commandName == name) =
          none := by
        simpa using hnone
      simp only [CommandHandlers.handle, get_builtInHandlers, hupper, hfind]
      simp [commandPlan, Plan.execute, Session.writeIgnored, Session.advance]
  | examine mailbox => simp [commandPlan, Plan.execute, Session.advance]
  | close => simp [commandPlan, Plan.execute, Session.advance]
  | expunge => simp [commandPlan, Plan.execute, Session.advance]

theorem handleLine_eq (line : String) :
    session.handleLine (imapServer mailboxes tlsAcceptor) turn ⟨session.isTls, turn.writeError⟩
        line =
      (session.linePlan line).execute mailboxes tlsAcceptor session turn := by
  unfold Session.handleLine Session.linePlan
  rcases splitn2 ' ' line with _ | ⟨tag, _ | ⟨commandLine, _ | ⟨extra, others⟩⟩⟩
  · simp [Plan.execute]
  · simp [Plan.execute]
  · rcases hregister : session.tagHistory.register tag with ⟨error | accepted, tagHistory⟩
    · simp [Plan.execute, hregister]
    cases hparse : parseCommand tag commandLine with
    | error error => simp [Plan.execute, hregister, hparse]
    | ok command =>
        simp only [hregister, hparse, imapServer]
        split
        · rename_i hstarttls
          subst hstarttls
          rfl
        · rename_i hstarttls
          exact handleCommandStatic_eq hparse hstarttls
  · simp [Plan.execute]

theorem turn_eq (session : Session) (turn : Turn) :
    session.turn (imapServer mailboxes tlsAcceptor) turn =
      (session.plan turn).execute mailboxes tlsAcceptor session turn := by
  unfold Session.turn Session.plan Session.lineOf
  cases session.ended.isSome with
  | true => simp [Plan.execute]
  | false =>
      by_cases hduration :
          turn.durationCheck - session.sessionStarted > session.maxSessionDuration
      · simp [Plan.execute, hduration]
      by_cases hidle : turn.idleCheck - turn.now > session.maxIdleDuration
      · simp [Plan.execute, hduration, hidle]
      cases turn.read with
      | error error => simp [Plan.execute, hduration, hidle]
      | ok buffer =>
          by_cases hempty : buffer == ""
          · simp [Plan.execute, hduration, hidle, hempty]
          · simp only [hduration, hidle, hempty, if_false, Bool.false_eq_true]
            exact handleLine_eq _

end Execute

end Scuttled
