import Scuttled.Rust.BufReader
import Scuttled.Session.ListedNames
import Scuttled.Users.Store

/-!
# Logging in against the user store

The sessions of a server ask the user store, whose accounts change while they run.  A
session that acts for a user was shown, when it logged in, a password that bcrypt could
not tell from the one in force at that moment.
-/

namespace Scuttled

open Rust Foundation

variable {Id R : Type}

/-- The sessions of a server, and the store they authenticate against. -/
structure Deployment (Id R : Type) where
  system : System Id R
  users : UserTable

/-- A turn of a session, or an operation on the accounts. -/
inductive DeploymentInput (Id : Type) where
  | turn (id : Id) (turn : Turn) (attempt : Attempt)
  | account (call : UserCall) (attempt : Attempt)

inductive DeploymentOutput where
  | acted (trace : List Action)
  | answered (reply : UserReply)

/-- The turn, with the store for its authenticator. -/
def Turn.against (bcrypt : Bcrypt) (rfc3339 : Rfc3339) (attempt : Attempt) (users : UserTable)
    (turn : Turn) : Turn :=
  { turn with authenticator := basicAuthenticator bcrypt rfc3339 attempt users }

namespace Deployment

abbrev History (Id : Type) := List (DeploymentInput Id × DeploymentOutput)

/-- The accounts that the operations of a history have left. -/
def accountsOf (history : History Id) : Accounts :=
  Accounts.ofHistory (history.filterMap fun
    | (.account call attempt, .answered reply) => some ((call, attempt), reply)
    | _ => none)

/-- A session was shown the password of a user: bcrypt cannot tell it from the one in
force at that moment. -/
def Shown [UnicodeCase] (bcrypt : Bcrypt) (history : History Id) (id : Id) (username : String) :
    Prop :=
  ∃ before turn attempt trace after buffer tag commandLine password current,
    history = before ++ (.turn id turn attempt, .acted trace) :: after ∧
      turn.read = .ok buffer ∧
      splitn2 ' ' (Session.stripNewline buffer) = [tag, commandLine] ∧
      parseCommand tag commandLine = .ok (.login username password) ∧
      accountsOf before username = some current ∧ bcrypt.sees password = bcrypt.sees current

section Machine

variable [DecidableEq Id] [UnicodeCase] (bcrypt : Bcrypt) (rfc3339 : Rfc3339)
  (order : HashOrder String UserRow)

/-- One turn, or one operation on the accounts. -/
def machine (server : Server R) :
    Machine (Deployment Id R) (DeploymentInput Id) DeploymentOutput where
  step deployment input :=
    match input with
    | .turn id turn attempt =>
        let (system, trace) := (System.machine server).step deployment.system
          (id, turn.against bcrypt rfc3339 attempt deployment.users)
        ({ deployment with system }, .acted trace)
    | .account call attempt =>
        let (users, reply) := (SqliteUserStore.machine bcrypt rfc3339 order).step deployment.users
          (call, attempt)
        ({ deployment with users }, .answered reply)

/-- A deployment before any session has read a line and without accounts. -/
def new (started maxSession maxIdle : Id → Nat) (isTls : Id → Bool)
    (greeting : Id → Option Error) (registry : R) : Deployment Id R where
  system := .new started maxSession maxIdle isTls greeting registry
  users := ∅

end Machine

section Steps

variable [UnicodeCase] {bcrypt : Bcrypt} {rfc3339 : Rfc3339} {order : HashOrder String UserRow}
  {history : History Id} {id : Id} {username : String}

omit [UnicodeCase] in
theorem accountsOf_concat_turn (history : History Id) (id : Id) (turn : Turn) (attempt : Attempt)
    (output : DeploymentOutput) :
    accountsOf (history ++ [(.turn id turn attempt, output)]) = accountsOf history := by
  simp [accountsOf]

omit [UnicodeCase] in
theorem accountsOf_concat_account (history : History Id) (call : UserCall) (attempt : Attempt)
    (reply : UserReply) :
    accountsOf (history ++ [(.account call attempt, .answered reply)]) =
      (accountsOf history).after call reply := by
  simp [accountsOf, List.filterMap_append, Accounts.ofHistory_concat]

theorem Shown.concat (hshown : Shown bcrypt history id username)
    (entry : DeploymentInput Id × DeploymentOutput) :
    Shown bcrypt (history ++ [entry]) id username := by
  obtain ⟨before, turn, attempt, trace, after, buffer, tag, commandLine, password, current, rfl,
    hlogin⟩ := hshown
  exact ⟨before, turn, attempt, trace, after ++ [entry], buffer, tag, commandLine, password,
    current, by rw [List.append_assoc, List.cons_append], hlogin⟩

omit [UnicodeCase] in
theorem current_of_authenticated {users : UserTable} {accounts : Accounts}
    (hholds : users.Holds bcrypt rfc3339 accounts) {attempt : Attempt} {password : String}
    (haccepted : basicAuthenticator bcrypt rfc3339 attempt users ⟨username, password⟩ = .ok true) :
    ∃ current, accounts username = some current ∧ bcrypt.sees password = bcrypt.sees current := by
  have hfault : attempt.fault = none := by
    cases hfault : attempt.fault with
    | none => rfl
    | some error =>
        simp only [basicAuthenticator, SqliteUserStore.verifyPassword, SqliteUserStore.getUser,
          hfault] at haccepted
        cases haccepted
  simp only [basicAuthenticator, SqliteUserStore.verifyPassword] at haccepted
  rcases hholds.getUser_eq username hfault with
    ⟨-, hnone⟩ | ⟨current, user, haccount, huser, -, hverify⟩
  · rw [hnone] at haccepted
    cases haccepted
  · rw [huser] at haccepted
    simp only [hverify, Except.ok.injEq, decide_eq_true_eq] at haccepted
    exact ⟨current, haccount, haccepted⟩

end Steps

section Runs

variable [DecidableEq Id] [UnicodeCase] {bcrypt : Bcrypt} {rfc3339 : Rfc3339}
  {order : HashOrder String UserRow} {mailboxes : Mailboxes R} {tlsAcceptor : Bool}

theorem step_turn (deployment : Deployment Id R) (id : Id) (turn : Turn) (attempt : Attempt) :
    let outcome := (deployment.system.sessions id).outcome mailboxes tlsAcceptor
      (turn.against bcrypt rfc3339 attempt deployment.users) deployment.system.registry
    (machine bcrypt rfc3339 order (imapServer mailboxes tlsAcceptor)).step deployment
        (.turn id turn attempt) =
      ({ deployment with
          system :=
            { sessions := Function.update deployment.system.sessions id outcome.session
              registry := outcome.registry } }, .acted outcome.trace) := by
  simp only [machine, System.machine_eq, System.outcomes, System.outcome]

/-- The table is in step with the accounts, and every session that acts for a user was
shown a password of the user. -/
structure Sound (bcrypt : Bcrypt) (rfc3339 : Rfc3339) (history : History Id)
    (deployment : Deployment Id R) : Prop where
  holds : deployment.users.Holds bcrypt rfc3339 (accountsOf history)
  shown : ∀ id username, (deployment.system.sessions id).sessionState.username = some username →
    Shown bcrypt history id username

theorem Sound.step {history : History Id} {deployment : Deployment Id R}
    (hsound : Sound bcrypt rfc3339 history deployment) (input : DeploymentInput Id) :
    Sound bcrypt rfc3339
      (history ++ [(input, ((machine bcrypt rfc3339 order (imapServer mailboxes tlsAcceptor)).step
        deployment input).2)])
      ((machine bcrypt rfc3339 order (imapServer mailboxes tlsAcceptor)).step deployment
        input).1 := by
  cases input with
  | account call attempt =>
      refine ⟨?_, fun id username husername => (hsound.shown id username husername).concat _⟩
      simp only [machine]
      rw [accountsOf_concat_account]
      by_cases hgoes : attempt.GoesThrough bcrypt call
      · exact (hsound.holds.served hgoes).1
      · exact (hsound.holds.failed hgoes).1
  | turn id turn attempt =>
      rw [step_turn]
      refine ⟨?_, fun other username husername => ?_⟩
      · rw [accountsOf_concat_turn]
        exact hsound.holds
      · by_cases hother : other = id
        · subst hother
          simp only [Function.update_self] at husername
          rcases user_after_turn mailboxes tlsAcceptor (deployment.system.sessions other)
              (turn.against bcrypt rfc3339 attempt deployment.users) deployment.system.registry with
            ⟨user, hlogin, huser⟩ | ⟨-, huser⟩
          · obtain rfl : user = username := Option.some.inj (huser.symm.trans husername)
            obtain ⟨buffer, tag, commandLine, password, hread, hsplit, hparse, haccepted, -⟩ :=
              hlogin
            obtain ⟨current, haccount, hsees⟩ := current_of_authenticated hsound.holds haccepted
            exact ⟨history, turn, attempt, _, [], buffer, tag, commandLine, password, current, rfl,
              hread, hsplit, hparse, haccount, hsees⟩
          · exact (hsound.shown other username (huser.symm.trans husername)).concat _
        · simp only [Function.update_of_ne hother] at husername
          exact (hsound.shown other username husername).concat _

theorem sound_final (started maxSession maxIdle : Id → Nat) (isTls : Id → Bool)
    (greeting : Id → Option Error) (registry : R) (inputs : List (DeploymentInput Id)) :
    let machine := machine bcrypt rfc3339 order (imapServer mailboxes tlsAcceptor)
    let start := new started maxSession maxIdle isTls greeting registry
    Sound bcrypt rfc3339 (machine.transcript start inputs) (machine.final start inputs) := by
  intro machine start
  refine @Machine.history_invariant _ _ _ machine (Sound bcrypt rfc3339)
    (fun _ _ input hsound => hsound.step input) start ⟨holds_empty, fun id username hsome => ?_⟩
    inputs
  have hstate : (start.system.sessions id).sessionState = .notAuthenticated :=
    System.sessionState_new started maxSession maxIdle isTls greeting registry id
  rw [hstate] at hsome
  cases hsome

/--
Nobody touches the mailboxes of a user without the password.  In every run of sessions
and of operations on the accounts, in any order: whenever a turn of a session performs an
operation on the registry, the session was shown, in an earlier turn and in a LOGIN of
the user it is performed for, a password that bcrypt could not tell from the one in
force for that user at that moment: the one that was set last, by an operation answered
with success, in an account that was not deleted since.
-/
theorem password_was_shown (bcrypt : Bcrypt) (rfc3339 : Rfc3339)
    (order : HashOrder String UserRow) (mailboxes : Mailboxes R) (tlsAcceptor : Bool)
    (started maxSession maxIdle : Id → Nat) (isTls : Id → Bool) (greeting : Id → Option Error)
    (registry : R) (inputs : List (DeploymentInput Id)) (id : Id) (turn : Turn)
    (attempt : Attempt) :
    let machine := machine bcrypt rfc3339 order (imapServer mailboxes tlsAcceptor)
    let start := new started maxSession maxIdle isTls greeting registry
    ∀ trace, (machine.step (machine.final start inputs) (.turn id turn attempt)).2 = .acted trace →
      ∀ operation, .registry operation ∈ trace →
        Shown bcrypt (machine.transcript start inputs) id operation.username := by
  intro machine start trace htrace operation hoperation
  refine (sound_final started maxSession maxIdle isTls greeting registry inputs).shown id _ ?_
  rw [step_turn] at htrace
  cases htrace
  exact username_of_registry_mem hoperation

/-- The password is one that bcrypt cannot tell from the one in force. -/
def Current (bcrypt : Bcrypt) (accounts : Accounts) (username password : String) : Prop :=
  ∃ current, accounts username = some current ∧ bcrypt.sees password = bcrypt.sees current

omit [DecidableEq Id] [UnicodeCase] in
theorem authenticated_of_current {users : UserTable} {accounts : Accounts}
    (hholds : users.Holds bcrypt rfc3339 accounts) {attempt : Attempt}
    (hfault : attempt.fault = none) (username password : String) :
    (Current bcrypt accounts username password →
        basicAuthenticator bcrypt rfc3339 attempt users ⟨username, password⟩ = .ok true) ∧
      (¬ Current bcrypt accounts username password →
        basicAuthenticator bcrypt rfc3339 attempt users ⟨username, password⟩ = .ok false) := by
  simp only [basicAuthenticator, SqliteUserStore.verifyPassword]
  rcases hholds.getUser_eq username hfault with
    ⟨haccount, hnone⟩ | ⟨current, user, haccount, huser, -, hverify⟩
  · rw [hnone]
    refine ⟨?_, fun _ => rfl⟩
    rintro ⟨current, hsome, -⟩
    rw [haccount] at hsome
    cases hsome
  · rw [huser]
    simp only [hverify, Except.ok.injEq, decide_eq_true_eq, decide_eq_false_iff_not]
    constructor
    · rintro ⟨other, hother, hsees⟩
      obtain rfl := Option.some.inj (haccount.symm.trans hother)
      exact hsees
    · exact fun hnot hsees => hnot ⟨current, haccount, hsees⟩

omit [DecidableEq Id] in
theorem login_outcome {session : Session} {turn : Turn} {registry : R}
    {tag commandLine username password : String}
    (hline : session.lineOf turn = some (tag ++ " " ++ commandLine)) (htag : ' ' ∉ tag.toList)
    (haccepts : (session.tagHistory.register tag).1 = .ok ())
    (hparse : parseCommand tag commandLine = .ok (.login username password))
    (husername : username ≠ "") (hpassword : password ≠ "") (hwrites : turn.writeError 1 = none)
    {accepted : Bool} (hanswer : turn.authenticator ⟨username, password⟩ = .ok accepted) :
    let outcome := session.outcome mailboxes tlsAcceptor turn registry
    sent outcome.trace =
        [if accepted then .ok (some tag) "LOGIN completed"
          else .no (some tag) "LOGIN failed: invalid credentials"] ∧
      outcome.session.sessionState =
        if accepted then .authenticated username else session.sessionState := by
  intro outcome
  obtain ⟨tagHistory, hplan⟩ := plan_of_line hline htag haccepts hparse
  have harguments := isArgument_of_parseCommand hparse
  simp only [commandPlan] at hplan
  rw [loginDecision, loginParseArgs_arguments (harguments _ (by simp [Command.arguments]))
    (harguments _ (by simp [Command.arguments])), if_neg (by simp [husername, hpassword])] at hplan
  simp only [outcome]
  rw [Session.outcome, hplan]
  simp only [Plan.outcome, Decision.answer, Decision.asked, Turn.context, Reply.outcome, hanswer]
  cases accepted with
  | true =>
      simp only [Connection.deliver, List.length_singleton, hwrites]
      exact ⟨rfl, rfl⟩
  | false =>
      simp only [Connection.deliver, Reply.just, List.length_singleton, hwrites]
      exact ⟨rfl, rfl⟩

/--
The password in force logs in.  In every run of sessions and of operations on the
accounts, in any order: let a session be sent LOGIN with a name and a password under a
tag its history accepts, while neither the database nor the write fails.  If bcrypt
cannot tell the password from the one in force for that name, LOGIN is completed and the
session is that of the user.  Otherwise it is refused, in the same words whether there is
an account of that name or not, and the session stays as it was.
-/
theorem login_by_current_password (bcrypt : Bcrypt) (rfc3339 : Rfc3339)
    (order : HashOrder String UserRow) (mailboxes : Mailboxes R) (tlsAcceptor : Bool)
    (started maxSession maxIdle : Id → Nat) (isTls : Id → Bool) (greeting : Id → Option Error)
    (registry : R) (inputs : List (DeploymentInput Id))
    (deployment : Deployment Id R) (accounts : Accounts)
    (hdeployment : deployment =
      (machine bcrypt rfc3339 order (imapServer mailboxes tlsAcceptor)).final
        (new started maxSession maxIdle isTls greeting registry) inputs)
    (haccounts : accounts = accountsOf
      ((machine bcrypt rfc3339 order (imapServer mailboxes tlsAcceptor)).transcript
        (new started maxSession maxIdle isTls greeting registry) inputs))
    (id : Id) (turn : Turn) (attempt : Attempt) (tag commandLine username password : String)
    (hline : (deployment.system.sessions id).lineOf turn = some (tag ++ " " ++ commandLine))
    (htag : ' ' ∉ tag.toList)
    (haccepts : ((deployment.system.sessions id).tagHistory.register tag).1 = .ok ())
    (hparse : parseCommand tag commandLine = .ok (.login username password))
    (husername : username ≠ "") (hpassword : password ≠ "") (hwrites : turn.writeError 1 = none)
    (hfault : attempt.fault = none) :
    let next := (machine bcrypt rfc3339 order (imapServer mailboxes tlsAcceptor)).step deployment
      (.turn id turn attempt)
    ∃ trace, next.2 = .acted trace ∧
      (Current bcrypt accounts username password →
        sent trace = [.ok (some tag) "LOGIN completed"] ∧
          (next.1.system.sessions id).sessionState = .authenticated username) ∧
      (¬ Current bcrypt accounts username password →
        sent trace = [.no (some tag) "LOGIN failed: invalid credentials"] ∧
          (next.1.system.sessions id).sessionState =
            (deployment.system.sessions id).sessionState) := by
  intro next
  have hholds : deployment.users.Holds bcrypt rfc3339 accounts := by
    rw [hdeployment, haccounts]
    exact (sound_final started maxSession maxIdle isTls greeting registry inputs).holds
  obtain ⟨hcurrent, hwrong⟩ := authenticated_of_current hholds hfault username password
  have hnext : next = _ := step_turn deployment id turn attempt
  rw [hnext]
  refine ⟨_, rfl, fun hshown => ?_, fun hnot => ?_⟩
  · simp only [Function.update_self]
    exact @login_outcome R _ mailboxes tlsAcceptor (deployment.system.sessions id)
      (turn.against bcrypt rfc3339 attempt deployment.users) deployment.system.registry _ _ _ _
      hline htag haccepts hparse husername hpassword hwrites true (hcurrent hshown)
  · simp only [Function.update_self]
    exact @login_outcome R _ mailboxes tlsAcceptor (deployment.system.sessions id)
      (turn.against bcrypt rfc3339 attempt deployment.users) deployment.system.registry _ _ _ _
      hline htag haccepts hparse husername hpassword hwrites false (hwrong hnot)

end Runs

/-! ## A password that is changed -/

/-- A bcrypt that shows what it was given; like the real one it looks at 72 bytes, the
end of the password among them. -/
def plainBcrypt : Bcrypt where
  hash _ password := .ok password
  verify password hashed :=
    .ok (decide ((asBytes password ++ [0]).take 72 = (asBytes hashed ++ [0]).take 72))
  sees password := (asBytes password ++ [0]).take 72
  verify_hash hhash other := by
    cases hhash
    rfl

/-- The text of the first instant. -/
def epoch : String := "0000-01-01T00:00:00+00:00"

/-- A calendar that tallies what has passed since. -/
def plainDates : Rfc3339 where
  format instant := epoch ++ String.ofList (List.replicate instant.val '|')
  parse text :=
    if hrange : text.length - epoch.length < 3652425 * 86400 * 10 ^ 9 then
      .ok ⟨text.length - epoch.length, hrange⟩
    else .error "input is out of range"
  parse_format instant := by simp

def noTrouble : Attempt where
  fault := none
  salt := 0
  now := 0
  scan := 0

/-- An account is made, and its password changed. -/
def changedPassword : List (DeploymentInput Unit) :=
  [.account (.createUser "ann" "first") noTrouble,
    .account (.updatePassword "ann" "second") noTrouble]

def lineTurn (line : String) : Turn := .smooth (fun _ => .ok false) line

/-- A deployment with one session, on the in-memory registry. -/
abbrev oneSession [UnicodeCase] :
    Machine (Deployment Unit InMemoryMailboxes) (DeploymentInput Unit) DeploymentOutput :=
  machine plainBcrypt plainDates .listed
    (imapServer (inMemoryMailboxes .searching .listed) false)

abbrev nobodyYet : Deployment Unit InMemoryMailboxes :=
  .new (fun _ => 0) (fun _ => 100) (fun _ => 100) (fun _ => false) (fun _ => none) .new

/-- The law for a session that logs in with the new password and creates a mailbox. -/
theorem password_was_shown_changedPassword :
    let _ := UnicodeCase.ascii
    let inputs := changedPassword ++ [.turn () (lineTurn "a1 LOGIN ann second\r\n") noTrouble]
    Shown plainBcrypt (oneSession.transcript nobodyYet inputs) () "ann" := by
  intro _ inputs
  exact password_was_shown plainBcrypt plainDates .listed (inMemoryMailboxes .searching .listed)
    false _ _ _ _ _ _ inputs () (lineTurn "a2 CREATE box\r\n") noTrouble _ rfl
    (.create "ann" "box") (by decide +kernel)

/-- The law for a client who knows the new password. -/
theorem login_by_current_password_changedPassword :
    let _ := UnicodeCase.ascii
    let next := oneSession.step (oneSession.final nobodyYet changedPassword)
      (.turn () (lineTurn "a1 LOGIN ann second\r\n") noTrouble)
    ∃ trace, next.2 = .acted trace ∧ sent trace = [.ok (some "a1") "LOGIN completed"] ∧
      (next.1.system.sessions ()).sessionState = .authenticated "ann" := by
  intro _
  have hline : ((oneSession.final nobodyYet changedPassword).system.sessions ()).lineOf
      (lineTurn "a1 LOGIN ann second\r\n") = some ("a1" ++ " " ++ "LOGIN ann second") := by
    decide +kernel
  have haccepts : (((oneSession.final nobodyYet changedPassword).system.sessions
      ()).tagHistory.register "a1").1 = .ok () := by
    decide +kernel
  have hparse : parseCommand "a1" "LOGIN ann second" = .ok (.login "ann" "second") := by
    decide +kernel
  have hcurrent : Current plainBcrypt (accountsOf (oneSession.transcript nobodyYet
      changedPassword)) "ann" "second" :=
    ⟨"second", by decide +kernel, rfl⟩
  have hwrites : (lineTurn "a1 LOGIN ann second\r\n").writeError 1 = none := rfl
  -- From here on neither the deployment nor the turn is to be evaluated.
  generalize hdeployment : oneSession.final nobodyYet changedPassword = deployment
    at hline haccepts ⊢
  generalize lineTurn "a1 LOGIN ann second\r\n" = turn at hline hwrites ⊢
  obtain ⟨trace, htrace, hlogin, -⟩ := login_by_current_password plainBcrypt plainDates .listed
    (inMemoryMailboxes .searching .listed) false (fun _ => 0) (fun _ => 100) (fun _ => 100)
    (fun _ => false) (fun _ => none) .new changedPassword deployment _ hdeployment.symm rfl ()
    turn noTrouble "a1" "LOGIN ann second" "ann" "second" hline (by decide) haccepts hparse
    (by decide) (by decide) hwrites rfl
  exact ⟨trace, htrace, hlogin hcurrent⟩

end Deployment

end Scuttled
