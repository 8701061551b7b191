import Scuttled.Protocol.Argument
import Scuttled.Session.Outcome

/-!
# Authentication safety of a session

The user a session acts for is the user of the most recent LOGIN that the
authenticator accepted and whose OK went out.  An accepted LOGIN whose OK
cannot be written changes nothing: the handler fails before it returns the new
state.
-/

namespace Scuttled

open Rust Foundation

variable {R : Type}

/-! ## Actions of a turn -/

/-- The action is an attempt to write. -/
inductive Action.IsWrite : Action → Prop where
  | wrote (response : Response) : Action.IsWrite (.wrote response)
  | writeFailed (response : Response) : Action.IsWrite (.writeFailed response)

theorem isWrite_of_mem_deliver {connection : Connection} {position : Nat}
    {responses : List Response} {action : Action}
    (haction : action ∈ (connection.deliver position responses).1) : action.IsWrite := by
  induction responses generalizing position with
  | nil => simp [Connection.deliver] at haction
  | cons response rest ih =>
      rw [Connection.deliver] at haction
      cases herror : connection.writeError position with
      | some error =>
          rw [herror, List.mem_singleton] at haction
          exact haction ▸ .writeFailed response
      | none =>
          rw [herror] at haction
          rcases List.mem_cons.mp haction with rfl | hrest
          · exact .wrote response
          · exact ih hrest

theorem trace_reply (reply : Result Reply) (connection : Connection) (session : Session)
    (registry : R) (tag : String) (asked : List Action) :
    ∃ written, (Reply.outcome reply connection session registry tag asked).trace =
        asked ++ written ∧ ∀ action ∈ written, action.IsWrite := by
  cases reply with
  | error error => exact ⟨_, rfl, fun action haction => isWrite_of_mem_deliver haction⟩
  | ok reply =>
      rcases hdeliver : connection.deliver asked.length reply.responses with
        ⟨written, error | delivered⟩
      · have hwritten (action : Action) (haction : action ∈ written) : action.IsWrite :=
          isWrite_of_mem_deliver (by rw [hdeliver]; exact haction)
        simp only [Reply.outcome, hdeliver, List.append_assoc]
        refine ⟨_, rfl, fun action haction => ?_⟩
        rcases List.mem_append.mp haction with haction | haction
        · exact hwritten action haction
        · exact isWrite_of_mem_deliver haction
      · simp only [Reply.outcome, hdeliver]
        exact ⟨written, rfl, fun action haction => isWrite_of_mem_deliver (by rw [hdeliver]; exact haction)⟩

/-- What a turn does is writing, apart from the question of the handler it
dispatches to. -/
theorem mem_trace_cases {mailboxes : Mailboxes R} {tlsAcceptor : Bool} {session : Session}
    {turn : Turn} {registry : R} {plan : Plan} {action : Action}
    (haction : action ∈ (plan.outcome mailboxes tlsAcceptor session turn registry).trace) :
    action.IsWrite ∨ ∃ tagHistory tag decision, plan = .dispatch tagHistory tag decision ∧
      action ∈ decision.asked (turn.context mailboxes) := by
  cases plan with
  | idle => simp [Plan.outcome] at haction
  | finish farewell result => exact .inl (isWrite_of_mem_deliver haction)
  | refuse tagHistory response => exact .inl (isWrite_of_mem_deliver haction)
  | starttls tagHistory tag =>
      rw [Plan.outcome, trace_starttlsOutcome] at haction
      exact .inl (isWrite_of_mem_deliver haction)
  | dispatch tagHistory tag decision =>
      obtain ⟨written, htrace, hwritten⟩ := trace_reply
        (decision.answer (turn.context mailboxes) registry).1 ⟨session.isTls, turn.writeError⟩
        { session with tagHistory } (decision.answer (turn.context mailboxes) registry).2 tag
        (decision.asked (turn.context mailboxes))
      simp only [Plan.outcome, htrace] at haction
      rcases List.mem_append.mp haction with hasked | hwrote
      · exact .inr ⟨tagHistory, tag, decision, rfl, hasked⟩
      · exact .inl (hwritten action hwrote)

/-! ## Who a line acts for -/

/-- The operation of a decision is for the user of the state it is taken in. -/
def Decision.ActsFor (decision : Decision) (currentState : SessionState) : Prop :=
  ∀ (context : SessionContext R) operation, .registry operation ∈ decision.asked context →
    currentState.username = some operation.username

section ActsFor

variable {tag args : String} {currentState : SessionState}

theorem settled_actsFor (reply : Reply) :
    (Decision.settled reply).ActsFor (R := R) currentState := by
  intro context operation hasked
  cases hasked

theorem namedDecision_actsFor {command : String} {decide : String → String → Decision}
    (hdecide : ∀ username name (context : SessionContext R) operation,
      .registry operation ∈ (decide username name).asked context → operation.username = username) :
    (namedDecision tag command args currentState decide).ActsFor (R := R) currentState := by
  unfold namedDecision
  split
  · exact settled_actsFor _
  · cases husername : currentState.username with
    | none => exact settled_actsFor _
    | some username =>
        intro context operation hasked
        rw [husername, hdecide username _ context operation hasked]

theorem selectDecision_actsFor : (selectDecision tag args currentState).ActsFor (R := R) currentState :=
  namedDecision_actsFor fun username name context operation hasked => by
    obtain rfl : operation = .get username name := by simpa [Decision.asked] using hasked
    rfl

theorem createDecision_actsFor : (createDecision tag args currentState).ActsFor (R := R) currentState :=
  namedDecision_actsFor fun username name context operation hasked => by
    obtain rfl : operation = .create username name := by simpa [Decision.asked] using hasked
    rfl

theorem deleteDecision_actsFor :
    (deleteDecision tag args currentState).ActsFor (R := R) currentState := by
  unfold deleteDecision
  split
  · exact settled_actsFor _
  · refine namedDecision_actsFor fun username name context operation hasked => ?_
    obtain rfl : operation = .delete username name := by simpa [Decision.asked] using hasked
    rfl

theorem listDecision_actsFor :
    (listDecision tag args currentState).ActsFor (R := R) currentState := by
  unfold listDecision
  split
  · exact settled_actsFor _
  · cases husername : currentState.username with
    | none => exact settled_actsFor _
    | some username =>
        intro context operation hasked
        rename_i reference pattern _
        obtain rfl : operation =
            .list username (patternToFilter (effectivePattern reference pattern)) := by
          simpa [Decision.asked] using hasked
        exact husername

theorem loginDecision_actsFor : (loginDecision tag args).ActsFor (R := R) currentState := by
  unfold loginDecision
  split
  · exact settled_actsFor _
  · intro context operation hasked
    simp [Decision.asked] at hasked

end ActsFor

theorem commandDecision_actsFor {tag : String} {currentState : SessionState} {command : Command}
    {decision : Decision} (hdecision : commandDecision tag currentState command = some decision) :
    decision.ActsFor (R := R) currentState := by
  cases handledBy_of_commandDecision hdecision with
  | capability => exact settled_actsFor _
  | noop => exact settled_actsFor _
  | logout => exact settled_actsFor _
  | login username password => exact loginDecision_actsFor
  | select mailbox => exact selectDecision_actsFor
  | create mailbox => exact createDecision_actsFor
  | delete mailbox => exact deleteDecision_actsFor
  | list reference pattern => exact listDecision_actsFor

theorem username_of_registry_mem [UnicodeCase] {mailboxes : Mailboxes R} {tlsAcceptor : Bool}
    {session : Session} {turn : Turn} {registry : R} {operation : RegistryOperation}
    (hoperation : .registry operation ∈
      (session.outcome mailboxes tlsAcceptor turn registry).trace) :
    session.sessionState.username = some operation.username := by
  rcases mem_trace_cases hoperation with hwrite | ⟨tagHistory, tag, decision, hplan, hasked⟩
  · cases hwrite
  · obtain ⟨line, commandLine, command, -, -, -, hdecision⟩ := Session.plan_dispatch_cases hplan
    exact commandDecision_actsFor hdecision _ operation hasked

/-! ## Logging in -/

theorem loginParseArgs_arguments {username password : String} (husername : IsArgument username)
    (hpassword : IsArgument password) :
    loginParseArgs (username ++ " " ++ password) =
      if username = "" ∨ password = "" then none else some (username, password) := by
  rw [loginParseArgs, splitWhitespace_arguments husername hpassword]
  by_cases huser : username = "" <;> by_cases hword : password = "" <;> simp [huser, hword]

/-- The turn read a LOGIN of the user, the authenticator accepted it, and its
OK went out. -/
def LoggedIn [UnicodeCase] (entry : Turn × List Action) (username : String) : Prop :=
  ∃ buffer tag commandLine password, entry.1.read = .ok buffer ∧
    splitn2 ' ' (Session.stripNewline buffer) = [tag, commandLine] ∧
    parseCommand tag commandLine = .ok (.login username password) ∧
    entry.1.authenticator { username, password } = .ok true ∧
    entry.2 = [.authenticated { username, password } (.ok true),
      .wrote (.ok (some tag) "LOGIN completed")]

theorem read_of_lineOf {session : Session} {turn : Turn} {line : String}
    (hline : session.lineOf turn = some line) :
    ∃ buffer, turn.read = .ok buffer ∧ Session.stripNewline buffer = line := by
  unfold Session.lineOf at hline
  split at hline
  · cases hline
  · split at hline
    · cases hline
    · split at hline
      · cases hline
      · split at hline
        · cases hline
        · rename_i buffer hread
          split at hline
          · cases hline
          · exact ⟨buffer, hread, Option.some.inj hline⟩

theorem LoggedIn.mem_authenticated [UnicodeCase] {entry : Turn × List Action} {username : String}
    (hlogin : LoggedIn entry username) :
    ∃ credentials, .authenticated credentials (.ok true) ∈ entry.2 := by
  obtain ⟨buffer, tag, commandLine, password, -, -, -, -, htrace⟩ := hlogin
  exact ⟨_, htrace ▸ List.mem_cons_self⟩

/-- The decision does not ask the authenticator, and a state it returns keeps
the user. -/
structure Decision.KeepsUser (currentState : SessionState) (decision : Decision) : Prop where
  ne_authenticate : ∀ credentials settle, decision ≠ .authenticate credentials settle
  username : ∀ reply, decision.Yields reply → ∀ session : Session,
    session.sessionState = currentState →
      (session.advance reply.next).sessionState.username = currentState.username

section KeepsUser

variable {tag args : String} {currentState : SessionState}

theorem settled_keepsUser (response : Response) :
    (Decision.settled (.just response)).KeepsUser currentState := by
  constructor
  · exact fun _ _ => Decision.noConfusion
  · intro reply hyields session hsession
    cases hyields
    rw [← hsession]
    rfl

theorem logoutDecision_keepsUser : (logoutDecision tag).KeepsUser currentState := by
  constructor
  · exact fun _ _ => Decision.noConfusion
  · intro reply hyields session hsession
    cases hyields
    rw [← hsession]
    rfl

theorem namedDecision_keepsUser {command : String} {decide : String → String → Decision}
    (hdecide : ∀ username name, currentState.username = some username →
      (decide username name).KeepsUser currentState) :
    (namedDecision tag command args currentState decide).KeepsUser currentState := by
  unfold namedDecision
  split
  · exact settled_keepsUser _
  · cases husername : currentState.username with
    | none => exact settled_keepsUser _
    | some username => exact hdecide username _ husername

theorem selectDecision_keepsUser :
    (selectDecision tag args currentState).KeepsUser currentState := by
  apply namedDecision_keepsUser
  intro username name husername
  constructor
  · exact fun _ _ => Decision.noConfusion
  · intro reply hyields session hsession
    cases hyields with
    | get answer hsettle =>
        rcases answer with error | _ | info
        · cases hsettle
        · cases hsettle
          rw [← hsession]
          rfl
        · cases hsettle
          rw [husername]
          rfl

theorem createDecision_keepsUser :
    (createDecision tag args currentState).KeepsUser currentState := by
  apply namedDecision_keepsUser
  intro username name husername
  constructor
  · exact fun _ _ => Decision.noConfusion
  · intro reply hyields session hsession
    cases hyields with
    | create answer => rw [← hsession]; cases answer <;> rfl

theorem deleteDecision_keepsUser :
    (deleteDecision tag args currentState).KeepsUser currentState := by
  unfold deleteDecision
  split
  · exact settled_keepsUser _
  · apply namedDecision_keepsUser
    intro username name husername
    constructor
    · exact fun _ _ => Decision.noConfusion
    · intro reply hyields session hsession
      cases hyields with
      | delete answer => rw [← hsession]; cases answer <;> rfl

theorem listDecision_keepsUser :
    (listDecision tag args currentState).KeepsUser currentState := by
  unfold listDecision
  split
  · exact settled_keepsUser _
  · split
    · exact settled_keepsUser _
    · constructor
      · exact fun _ _ => Decision.noConfusion
      · intro reply hyields session hsession
        cases hyields with
        | list answer => rw [← hsession]; cases answer <;> rfl

theorem commandDecision_keepsUser {command : Command} {decision : Decision}
    (hdecision : commandDecision tag currentState command = some decision)
    (hlogin : ∀ username password, command ≠ .login username password) :
    decision.KeepsUser currentState := by
  cases handledBy_of_commandDecision hdecision with
  | capability => exact settled_keepsUser _
  | noop => exact settled_keepsUser _
  | logout => exact logoutDecision_keepsUser
  | login username password => exact absurd rfl (hlogin username password)
  | select mailbox => exact selectDecision_keepsUser
  | create mailbox => exact createDecision_keepsUser
  | delete mailbox => exact deleteDecision_keepsUser
  | list reference pattern => exact listDecision_keepsUser

theorem Decision.KeepsUser.notMem_asked {decision : Decision}
    (hdecision : decision.KeepsUser currentState) (context : SessionContext R)
    (credentials : Credentials) (answer : Result Bool) :
    .authenticated credentials answer ∉ decision.asked context := by
  cases decision with
  | authenticate credentials settle => exact absurd rfl (hdecision.ne_authenticate _ _)
  | _ => simp [Decision.asked]

end KeepsUser

theorem session_reply (reply : Result Reply) (connection : Connection) (session : Session)
    (registry : R) (tag : String) (asked : List Action) :
    (Reply.outcome reply connection session registry tag asked).session = session ∨
      ∃ replied, reply = .ok replied ∧
        (Reply.outcome reply connection session registry tag asked).session =
          session.advance replied.next := by
  cases reply with
  | error error => exact .inl rfl
  | ok replied =>
      rcases hdeliver : connection.deliver asked.length replied.responses with
        ⟨written, error | delivered⟩
      · left
        simp only [Reply.outcome, hdeliver]
      · simp only [Reply.outcome, hdeliver]
        exact .inr ⟨replied, rfl, rfl⟩

section Turn

variable [UnicodeCase] {mailboxes : Mailboxes R} {tlsAcceptor : Bool} {session : Session}
  {turn : Turn} {registry : R}

theorem user_of_not_login
    (hlogin : ∀ tagHistory tag decision, session.plan turn = .dispatch tagHistory tag decision →
      decision.KeepsUser session.sessionState) :
    (∀ username, ¬ LoggedIn (turn, (session.outcome mailboxes tlsAcceptor turn registry).trace)
      username) ∧
      (session.outcome mailboxes tlsAcceptor turn registry).session.sessionState.username =
        session.sessionState.username := by
  constructor
  · intro username hlogged
    obtain ⟨credentials, hmem⟩ := hlogged.mem_authenticated
    rcases mem_trace_cases hmem with hwrite | ⟨tagHistory, tag, decision, hplan, hasked⟩
    · cases hwrite
    · exact (hlogin _ _ _ hplan).notMem_asked _ _ _ hasked
  · unfold Session.outcome
    cases hplan : session.plan turn with
    | idle => rfl
    | finish farewell result => rfl
    | refuse tagHistory response => rfl
    | starttls tagHistory tag => rw [Plan.outcome, sessionState_starttlsOutcome]
    | dispatch tagHistory tag decision =>
        simp only [Plan.outcome]
        rcases session_reply (decision.answer (turn.context mailboxes) registry).1
          ⟨session.isTls, turn.writeError⟩ { session with tagHistory }
          (decision.answer (turn.context mailboxes) registry).2 tag
          (decision.asked (turn.context mailboxes)) with hsame | ⟨replied, hreply, hnext⟩
        · rw [hsame]
        · rw [hnext]
          exact (hlogin _ _ _ hplan).username _ (yields_answer hreply) _ rfl

/-- A turn that dispatches to LOGIN logs in the user it names if the
authenticator accepts and the OK goes out, and nobody otherwise. -/
theorem user_of_login {tagHistory : TagHistory} {tag line commandLine username password : String}
    (hplan : session.plan turn =
      .dispatch tagHistory tag (loginDecision tag (username ++ " " ++ password)))
    (hline : session.lineOf turn = some line) (hsplit : splitn2 ' ' line = [tag, commandLine])
    (hparse : parseCommand tag commandLine = .ok (.login username password)) :
    (∃ user,
      LoggedIn (turn, (session.outcome mailboxes tlsAcceptor turn registry).trace) user ∧
        (session.outcome mailboxes tlsAcceptor turn registry).session.sessionState.username =
          some user) ∨
    ((∀ user, ¬ LoggedIn (turn, (session.outcome mailboxes tlsAcceptor turn registry).trace)
      user) ∧
      (session.outcome mailboxes tlsAcceptor turn registry).session.sessionState.username =
        session.sessionState.username) := by
  cases hargs : loginParseArgs (username ++ " " ++ password) with
  | none =>
      -- not two words: the syntax is refused without asking
      right
      refine user_of_not_login fun tagHistory' tag' decision hdispatch => ?_
      obtain ⟨-, -, rfl⟩ : _ ∧ _ ∧ loginDecision tag (username ++ " " ++ password) = decision := by
        simpa using hplan.symm.trans hdispatch
      rw [loginDecision, hargs]
      exact settled_keepsUser _
  | some words =>
      obtain ⟨user, word⟩ := words
      obtain ⟨rfl, rfl⟩ : username = user ∧ password = word := by
        have harguments := isArgument_of_parseCommand hparse
        rw [loginParseArgs_arguments (harguments _ (by simp [Command.arguments]))
          (harguments _ (by simp [Command.arguments]))] at hargs
        split at hargs
        · cases hargs
        · simpa using hargs
      obtain ⟨buffer, hread, hbuffer⟩ := read_of_lineOf hline
      have hrefused {trace : List Action} {answer : Result Bool} (hanswer : answer ≠ .ok true)
          (other : String) :
          ¬ LoggedIn (turn, .authenticated ⟨username, password⟩ answer :: trace) other := by
        rintro ⟨_, _, _, _, -, -, -, -, htrace⟩
        simp only [List.cons.injEq, Action.authenticated.injEq] at htrace
        exact hanswer htrace.1.2
      rw [Session.outcome, hplan, loginDecision, hargs]
      simp only [Plan.outcome, Decision.answer, Decision.asked, Turn.context, Reply.outcome]
      rcases hanswer : turn.authenticator ⟨username, password⟩ with error | _ | _
      · right
        cases hwrite : turn.writeError 1 with
        | some failure =>
            simp only [Connection.deliver, Reply.just, List.length_singleton, hwrite]
            exact ⟨hrefused (by simp), trivial⟩
        | none =>
            simp only [Connection.deliver, Reply.just, List.length_singleton, hwrite]
            exact ⟨hrefused (by simp), rfl⟩
      · right
        cases hwrite : turn.writeError 1 with
        | some failure =>
            simp only [Connection.deliver, Reply.just, List.length_singleton, hwrite]
            exact ⟨hrefused (by simp), trivial⟩
        | none =>
            simp only [Connection.deliver, Reply.just, List.length_singleton, hwrite]
            exact ⟨hrefused (by simp), rfl⟩
      · cases hwrite : turn.writeError 1 with
        | some error =>
            right
            simp only [Connection.deliver, List.length_singleton, hwrite]
            refine ⟨?_, trivial⟩
            rintro other ⟨_, _, _, _, -, -, -, -, htrace⟩
            simp at htrace
        | none =>
            left
            refine ⟨username, ?_, ?_⟩
            · refine ⟨buffer, tag, commandLine, password, hread, hbuffer ▸ hsplit, hparse, hanswer, ?_⟩
              simp [Connection.deliver, hwrite]
            · simp [Connection.deliver, hwrite, Session.advance]
              rfl

/-- After a turn the session acts for the user who logged in during it, or for
the user it acted for before. -/
theorem user_after_turn (mailboxes : Mailboxes R) (tlsAcceptor : Bool) (session : Session)
    (turn : Turn) (registry : R) :
    (∃ username,
      LoggedIn (turn, (session.outcome mailboxes tlsAcceptor turn registry).trace) username ∧
        (session.outcome mailboxes tlsAcceptor turn registry).session.sessionState.username =
          some username) ∨
    ((∀ username, ¬ LoggedIn (turn, (session.outcome mailboxes tlsAcceptor turn registry).trace)
      username) ∧
      (session.outcome mailboxes tlsAcceptor turn registry).session.sessionState.username =
        session.sessionState.username) := by
  by_cases hlogin : ∀ tagHistory tag decision,
      session.plan turn = .dispatch tagHistory tag decision →
        decision.KeepsUser session.sessionState
  · exact .inr (user_of_not_login hlogin)
  · push Not at hlogin
    obtain ⟨tagHistory, tag, decision, hplan, hkeeps⟩ := hlogin
    obtain ⟨line, commandLine, command, hline, hsplit, hparse, hdecision⟩ :=
      Session.plan_dispatch_cases hplan
    by_cases hcommand : ∃ username password, command = .login username password
    · obtain ⟨username, password, rfl⟩ := hcommand
      rw [← Option.some.inj hdecision] at hplan
      exact user_of_login hplan hline hsplit hparse
    · push Not at hcommand
      exact absurd (commandDecision_keepsUser hdecision hcommand) hkeeps

end Turn

/-! ## Runs -/

/-- The user of the last login of a history. -/
def MostRecentLogin [UnicodeCase] (history : List (Turn × List Action)) (username : String) :
    Prop :=
  ∃ before entry after, history = before ++ entry :: after ∧ LoggedIn entry username ∧
    ∀ later ∈ after, ∀ other, ¬ LoggedIn later other

theorem mostRecentLogin_concat_of_loggedIn [UnicodeCase] {history : List (Turn × List Action)}
    {entry : Turn × List Action} {username : String} (hlogin : LoggedIn entry username) :
    MostRecentLogin (history ++ [entry]) username :=
  ⟨history, entry, [], rfl, hlogin, by simp⟩

theorem MostRecentLogin.concat [UnicodeCase] {history : List (Turn × List Action)}
    {entry : Turn × List Action} {username : String} (hrecent : MostRecentLogin history username)
    (hentry : ∀ other, ¬ LoggedIn entry other) :
    MostRecentLogin (history ++ [entry]) username := by
  obtain ⟨before, login, after, rfl, hlogin, hafter⟩ := hrecent
  refine ⟨before, login, after ++ [entry], by simp, hlogin, fun later hlater => ?_⟩
  rcases List.mem_append.mp hlater with hlater | hlater
  · exact hafter later hlater
  · rw [List.mem_singleton.mp hlater]
    exact hentry

theorem mostRecentLogin_of_username [UnicodeCase] (mailboxes : Mailboxes R) (tlsAcceptor : Bool)
    {session : Session} (hsession : session.sessionState.username = none) (registry : R)
    (turns : List Turn) {username : String}
    (husername : ((Session.outcomes mailboxes tlsAcceptor).final (session, registry)
      turns).1.sessionState.username = some username) :
    MostRecentLogin ((Session.outcomes mailboxes tlsAcceptor).transcript (session, registry) turns)
      username := by
  induction turns using List.reverseRecOn generalizing username with
  | nil => simp [hsession] at husername
  | append_singleton turns turn ih =>
      rw [Machine.transcript_append]
      rw [Machine.final_append] at husername
      generalize (Session.outcomes mailboxes tlsAcceptor).final (session, registry) turns = state
        at ih husername ⊢
      rcases user_after_turn mailboxes tlsAcceptor state.1 turn state.2 with
        ⟨user, hlogin, huser⟩ | ⟨hnone, huser⟩
      · obtain rfl : user = username := Option.some.inj (huser.symm.trans husername)
        exact mostRecentLogin_concat_of_loggedIn hlogin
      · exact (ih (huser.symm.trans husername)).concat hnone

/--
Authentication safety.  At every point of a run of a session with the built-in
handlers, the user of the session state is the user of the most recent LOGIN
that was accepted and whose OK was written, and every registry operation of the
next line is performed for that user; without a user there is none.
-/
theorem session_acts_for_most_recent_login [UnicodeCase] (mailboxes : Mailboxes R)
    (tlsAcceptor : Bool) (started maxSession maxIdle : Nat) (isTls : Bool)
    (greeting : Option Error) (registry : R) (turns : List Turn) (turn : Turn) :
    let machine := Session.machine (imapServer mailboxes tlsAcceptor)
    let start := ((Session.new started maxSession maxIdle isTls).greeted greeting, registry)
    let state := machine.final start turns
    (∀ username, state.1.sessionState.username = some username →
      MostRecentLogin (machine.transcript start turns) username) ∧
    ∀ operation, .registry operation ∈ (machine.step state turn).2 →
      state.1.sessionState.username = some operation.username := by
  rw [machine_eq]
  refine ⟨fun username husername => ?_, fun operation hoperation => ?_⟩
  · refine mostRecentLogin_of_username mailboxes tlsAcceptor ?_ registry turns husername
    cases greeting <;> rfl
  · exact username_of_registry_mem hoperation

/-- After a LOGIN of ann, a LOGIN of bob is accepted but its OK cannot be
written: the session still acts for ann. -/
theorem login_unwritten_keeps_user :
    let _ := UnicodeCase.ascii
    let machine := Session.machine (imapServer (inMemoryMailboxes .searching .listed) false)
    let start := ((Session.new 0 3600 1800 false).greeted none, InMemoryMailboxes.new)
    let turns : List Turn :=
      [.smooth (fun _ => .ok true) "a1 LOGIN ann x\r\n",
        { Turn.smooth (fun _ => .ok true) "a2 LOGIN bob y\r\n" with
          writeError := fun position => if position = 1 then some (.io "Broken pipe") else none },
        .smooth (fun _ => .ok true) "a3 CREATE box\r\n"]
    (machine.transcript start turns).map (fun entry => entry.2.head?) =
        [some (.authenticated ⟨"ann", "x"⟩ (.ok true)),
          some (.authenticated ⟨"bob", "y"⟩ (.ok true)),
          some (.registry (.create "ann" "box"))] ∧
      (machine.final start turns).1.sessionState = .authenticated "ann" := by
  intro _
  rw [machine_eq]
  decide +kernel

end Scuttled
