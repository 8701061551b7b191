import Scuttled.Session.Course

/-!
# Commands that are parsed twice

The dispatcher flattens a parsed command to a text, and the handler parses that
text again.  What the handler asks of the authenticator or of the registry is
what the parser understood; it misses an argument that is empty, and answers
BAD without asking.
-/

namespace Scuttled

open Rust Foundation

variable {R : Type}

/-! ## Demands -/

inductive Demand where
  | refuse (response : Response)
  | authenticate (credentials : Credentials)
  | operate (operation : RegistryOperation)
  deriving DecidableEq

/-- The demand of a command that needs a mailbox name. -/
def Demand.named (tag command mailbox : String) (demand : Demand) : Demand :=
  if mailbox = "" then .refuse (.bad (some tag) (command ++ " requires a mailbox name"))
  else demand

/-- What a parsed command asks for in a state that lets its handler run: LOGIN
in every state, the others for the user of the state. -/
def Command.demand (tag : String) (currentState : SessionState) : Command → Option Demand
  | .login username password =>
      some <|
        if username = "" ∨ password = "" then .refuse (.bad (some tag) "Invalid LOGIN syntax")
        else .authenticate { username, password }
  | .select mailbox =>
      currentState.username.map fun username =>
        .named tag "SELECT" mailbox (.operate (.get username mailbox))
  | .create mailbox =>
      currentState.username.map fun username =>
        .named tag "CREATE" mailbox (.operate (.create username mailbox))
  | .delete mailbox =>
      currentState.username.map fun username =>
        .named tag "DELETE" mailbox
          (if eqIgnoreAsciiCase mailbox "INBOX" then
            .refuse (.no (some tag) "Cannot delete INBOX")
          else .operate (.delete username mailbox))
  | .list reference pattern =>
      currentState.username.map fun username =>
        if reference = "" ∧ pattern = "" then .refuse (.bad (some tag) "Invalid LIST syntax")
        else .operate (.list username (patternToFilter (reference ++ pattern)))
  | .capability | .noop | .logout | .starttls | .examine _ | .close | .expunge | .custom _ _ =>
      none

def RegistryOperation.performed (mailboxes : Mailboxes R) (registry : R) : RegistryOperation → R
  | .create username name => (mailboxes.createMailbox username name registry).2
  | .get username name => (mailboxes.getMailbox username name registry).2
  | .delete username name => (mailboxes.deleteMailbox username name registry).2
  | .list username filter => (mailboxes.listMailboxes username filter registry).2

namespace Demand

/-- What is done for a demand, apart from writing. -/
def actions (context : SessionContext R) : Demand → List Action
  | .refuse _ => []
  | .authenticate credentials => [.authenticated credentials (context.authenticator credentials)]
  | .operate operation => [.registry operation]

/-- The registry once a demand was met. -/
def registryAfter (mailboxes : Mailboxes R) (registry : R) : Demand → R
  | .refuse _ => registry
  | .authenticate _ => registry
  | .operate operation => operation.performed mailboxes registry

/-- The states a demand may lead to: LOGIN to one of its user, SELECT to the one
in which its mailbox is selected. -/
inductive LeadsTo : Demand → SessionState → Prop where
  | authenticated (credentials : Credentials) :
      LeadsTo (.authenticate credentials) (.authenticated credentials.username)
  | selected (username mailbox : String) :
      LeadsTo (.operate (.get username mailbox)) (.selected username mailbox)

/-- The demand is met, and nothing else is done: by the state that is returned, and
the world that is left. -/
structure Met (demand : Demand) (connection : Connection) (context : SessionContext R)
    (world : World R) (result : Option SessionState × World R) : Prop where
  trace : ∃ written, result.2.trace = world.trace ++ demand.actions context ++ written ∧
    ∀ action ∈ written, action.IsWrite
  registry : result.2.registry = demand.registryAfter context.mailboxes world.registry
  leadsTo : ∀ state, result.1 = some state → demand.LeadsTo state
  refused : ∀ response, demand = .refuse response →
    connection.writeError world.trace.length = none →
      result.2.trace = world.trace ++ [.wrote response]

end Demand

/-! ## Decisions that meet a demand -/

/-- The decision asks what is demanded, and comes to a state that the demand leads to. -/
structure Decision.Meets (R : Type) (decision : Decision) (demand : Demand) : Prop where
  asked : ∀ context : SessionContext R, decision.asked context = demand.actions context
  answer : ∀ (context : SessionContext R) registry,
    (decision.answer context registry).2 = demand.registryAfter context.mailboxes registry
  next : ∀ reply, decision.Yields reply → ∀ state, reply.next = some state → demand.LeadsTo state
  refused : ∀ response, demand = .refuse response → decision = .settled (.just response)

section Meets

variable {tag : String} {currentState : SessionState} {command : Command} {decision : Decision}
  {demand : Demand}

theorem settled_meets (response : Response) :
    (Decision.settled (.just response)).Meets R (.refuse response) where
  asked _ := rfl
  answer _ _ := rfl
  next reply hyields state hstate := by
    cases hyields
    cases hstate
  refused other hother := by
    cases hother
    rfl

theorem namedDecision_meets {name mailbox username : String}
    {decide : String → String → Decision} (hmailbox : IsArgument mailbox)
    (husername : currentState.username = some username)
    (hdecide : (decide username mailbox).Meets R demand) :
    (namedDecision tag name mailbox currentState decide).Meets R
      (.named tag name mailbox demand) := by
  rw [namedDecision, hmailbox.trim_eq, husername, Demand.named]
  by_cases hempty : mailbox = ""
  · rw [if_pos (beq_iff_eq.mpr hempty), if_pos hempty]
    exact settled_meets _
  · rw [if_neg fun hname => hempty (beq_iff_eq.mp hname), if_neg hempty]
    exact hdecide

theorem meets_operation {operation : RegistryOperation}
    (hasked : ∀ context : SessionContext R, decision.asked context = [.registry operation])
    (hanswer : ∀ (context : SessionContext R) registry,
      (decision.answer context registry).2 = operation.performed context.mailboxes registry)
    (hnext : ∀ reply, decision.Yields reply → ∀ state, reply.next = some state →
      Demand.LeadsTo (.operate operation) state) : decision.Meets R (.operate operation) where
  asked := hasked
  answer := hanswer
  next := hnext
  refused response hrefuse := by cases hrefuse

theorem loginDecision_meets {username password : String} (husername : IsArgument username)
    (hpassword : IsArgument password) :
    (loginDecision tag (username ++ " " ++ password)).Meets R
      (if username = "" ∨ password = "" then .refuse (.bad (some tag) "Invalid LOGIN syntax")
      else .authenticate { username, password }) := by
  rw [loginDecision, loginParseArgs_arguments husername hpassword]
  by_cases hempty : username = "" ∨ password = ""
  · rw [if_pos hempty, if_pos hempty]
    exact settled_meets _
  · rw [if_neg hempty, if_neg hempty]
    refine ⟨fun _ => rfl, fun _ _ => rfl, ?_, fun _ hrefuse => by cases hrefuse⟩
    intro reply hyields state hstate
    cases hyields with
    | authenticate answer =>
        rcases answer with error | _ | _
        · cases hstate
        · cases hstate
        · cases hstate
          exact .authenticated { username, password }

theorem selectDecision_meets {mailbox username : String} (hmailbox : IsArgument mailbox)
    (husername : currentState.username = some username) :
    (selectDecision tag mailbox currentState).Meets R
      (.named tag "SELECT" mailbox (.operate (.get username mailbox))) := by
  apply namedDecision_meets hmailbox husername
  apply meets_operation (fun _ => rfl) (fun _ _ => rfl)
  intro reply hyields state hstate
  cases hyields with
  | get answer hsettle =>
      rcases answer with error | _ | info
      · cases hsettle
      · cases hsettle
        cases hstate
      · cases hsettle
        cases hstate
        exact .selected username mailbox

theorem createDecision_meets {mailbox username : String} (hmailbox : IsArgument mailbox)
    (husername : currentState.username = some username) :
    (createDecision tag mailbox currentState).Meets R
      (.named tag "CREATE" mailbox (.operate (.create username mailbox))) := by
  apply namedDecision_meets hmailbox husername
  apply meets_operation (fun _ => rfl) (fun _ _ => rfl)
  intro reply hyields state hstate
  cases hyields with
  | create answer => cases answer <;> cases hstate

theorem deleteDecision_meets {mailbox username : String} (hmailbox : IsArgument mailbox)
    (husername : currentState.username = some username) :
    (deleteDecision tag mailbox currentState).Meets R
      (.named tag "DELETE" mailbox
        (if eqIgnoreAsciiCase mailbox "INBOX" then .refuse (.no (some tag) "Cannot delete INBOX")
        else .operate (.delete username mailbox))) := by
  rw [deleteDecision, hmailbox.trim_eq]
  by_cases hinbox : eqIgnoreAsciiCase mailbox "INBOX" = true
  · have hname : mailbox ≠ "" := by
      rintro rfl
      exact absurd hinbox (by decide)
    rw [if_pos hinbox, if_pos hinbox, Demand.named, if_neg hname]
    exact settled_meets _
  · rw [if_neg hinbox, if_neg hinbox]
    apply namedDecision_meets hmailbox husername
    apply meets_operation (fun _ => rfl) (fun _ _ => rfl)
    intro reply hyields state hstate
    cases hyields with
    | delete answer => cases answer <;> cases hstate

/-- LIST evaluates the reference and the pattern that were parsed one after the
other; with one of them empty, the other is taken for a pattern on its own. -/
theorem listParseArgs_arguments {reference pattern : String} (hreference : IsArgument reference)
    (hpattern : IsArgument pattern) (hnonempty : ¬ (reference = "" ∧ pattern = "")) :
    ∃ first second, listParseArgs (reference ++ " " ++ pattern) = some (first, second) ∧
      effectivePattern first second = reference ++ pattern := by
  rw [listParseArgs, splitWhitespace_arguments hreference hpattern]
  have hquotes : unquote "" = "" := rfl
  by_cases href : reference = ""
  · have hpat : pattern ≠ "" := fun hpat => hnonempty ⟨href, hpat⟩
    refine ⟨"", pattern, by simp [href, hpat], ?_⟩
    rw [effectivePattern, hquotes, hpattern.unquote_eq, href]
    simp
  · by_cases hpat : pattern = ""
    · refine ⟨"", reference, by simp [href, hpat], ?_⟩
      rw [effectivePattern, hquotes, hreference.unquote_eq, hpat]
      simp
    · refine ⟨reference, pattern, by simp [href, hpat], ?_⟩
      rw [effectivePattern, hreference.unquote_eq, hpattern.unquote_eq]
      simp [href]

theorem listDecision_meets {reference pattern username : String}
    (hreference : IsArgument reference) (hpattern : IsArgument pattern)
    (husername : currentState.username = some username) :
    (listDecision tag (reference ++ " " ++ pattern) currentState).Meets R
      (if reference = "" ∧ pattern = "" then .refuse (.bad (some tag) "Invalid LIST syntax")
      else .operate (.list username (patternToFilter (reference ++ pattern)))) := by
  by_cases hempty : reference = "" ∧ pattern = ""
  · rw [if_pos hempty, listDecision, listParseArgs, splitWhitespace_arguments hreference hpattern,
      hempty.1, hempty.2]
    exact settled_meets _
  · obtain ⟨first, second, hparsed, heffective⟩ :=
      listParseArgs_arguments hreference hpattern hempty
    rw [if_neg hempty, listDecision, hparsed]
    simp only
    rw [husername, heffective]
    apply meets_operation (fun _ => rfl) (fun _ _ => rfl)
    intro reply hyields state hstate
    cases hyields with
    | list answer => cases answer <;> cases hstate

theorem commandDecision_meets (harguments : ∀ argument ∈ command.arguments, IsArgument argument)
    (hdecision : commandDecision tag currentState command = some decision)
    (hdemand : command.demand tag currentState = some demand) : decision.Meets R demand := by
  cases handledBy_of_commandDecision hdecision with
  | login username password =>
      obtain rfl := Option.some.inj hdemand
      exact loginDecision_meets (harguments username (by simp [Command.arguments]))
        (harguments password (by simp [Command.arguments]))
  | select mailbox =>
      obtain ⟨username, husername, rfl⟩ := Option.map_eq_some_iff.mp hdemand
      exact selectDecision_meets (harguments mailbox (by simp [Command.arguments])) husername
  | create mailbox =>
      obtain ⟨username, husername, rfl⟩ := Option.map_eq_some_iff.mp hdemand
      exact createDecision_meets (harguments mailbox (by simp [Command.arguments])) husername
  | delete mailbox =>
      obtain ⟨username, husername, rfl⟩ := Option.map_eq_some_iff.mp hdemand
      exact deleteDecision_meets (harguments mailbox (by simp [Command.arguments])) husername
  | list reference pattern =>
      obtain ⟨username, husername, rfl⟩ := Option.map_eq_some_iff.mp hdemand
      exact listDecision_meets (harguments reference (by simp [Command.arguments]))
        (harguments pattern (by simp [Command.arguments])) husername
  | capability => cases hdemand
  | noop => cases hdemand
  | logout => cases hdemand

end Meets

/-! ## The handler is reached -/

/-- The name under which the handler of a command that is parsed twice is
registered. -/
def Command.handlerName : Command → Option String
  | .login _ _ => some "LOGIN"
  | .select _ => some "SELECT"
  | .create _ => some "CREATE"
  | .delete _ => some "DELETE"
  | .list _ _ => some "LIST"
  | .capability | .noop | .logout | .starttls | .examine _ | .close | .expunge | .custom _ _ =>
      none

/-- A handler that performs a decision meets the demand, an error of it answered
by the registry of handlers. -/
theorem met_of_meets {decision : Decision} {demand : Demand} (hmeets : decision.Meets R demand)
    (tag : String) (connection : Connection) (context : SessionContext R) (world : World R)
    {handled : StateM (World R) (Option SessionState)}
    (hhandled : handled = (do
      match ← (decision.perform connection context).run with
      | .ok stateUpdate => return stateUpdate
      | .error error =>
          Session.writeIgnored connection (.bad (some tag) ("Handler error: " ++ error.display))
          return none)) :
    demand.Met connection context world (handled world) := by
  have hconsult := consult_eq context decision world
  rw [hmeets.answer, hmeets.asked] at hconsult
  subst hhandled
  simp only [stateM_bind, ExceptT.run, Decision.perform]
  cases hanswer : (decision.answer context world.registry).1 with
  | error error =>
      -- the question itself failed: only the registry of handlers writes
      rw [hanswer] at hconsult
      rw [bind_of_error hconsult]
      simp only [stateM_bind, writeIgnored_eq]
      refine ⟨⟨_, rfl, fun action haction => isWrite_of_mem_deliver haction⟩, rfl, ?_, ?_⟩
      · intro state hstate
        cases hstate
      · intro response hrefuse _
        rw [hmeets.refused response hrefuse] at hanswer
        cases hanswer
  | ok reply =>
      rw [hanswer] at hconsult
      rw [bind_of_ok hconsult, send_eq]
      have hwritten {action : Action} (haction : action ∈ (connection.deliver
          (world.trace ++ demand.actions context).length reply.responses).1) : action.IsWrite :=
        isWrite_of_mem_deliver haction
      have hrefused (response : Response) (hrefuse : demand = .refuse response)
          (hwrite : connection.writeError world.trace.length = none) :
          connection.deliver (world.trace ++ demand.actions context).length reply.responses =
            ([.wrote response], .ok ()) := by
        rw [hmeets.refused response hrefuse] at hanswer
        cases hanswer
        simp [hrefuse, Demand.actions, Reply.just, Connection.deliver, hwrite]
      simp only at hwritten hrefused ⊢
      rcases hdeliver : connection.deliver (world.trace ++ demand.actions context).length
        reply.responses with ⟨written, error | delivered⟩
      · rw [hdeliver] at hwritten hrefused
        simp only [Except.map, stateM_bind, writeIgnored_eq]
        refine ⟨⟨written ++ _, List.append_assoc _ _ _, fun action haction => ?_⟩, rfl, ?_, ?_⟩
        · rcases List.mem_append.mp haction with haction | haction
          · exact hwritten haction
          · exact isWrite_of_mem_deliver haction
        · intro state hstate
          cases hstate
        · intro response hrefuse hwrite
          cases hrefused response hrefuse hwrite
      · rw [hdeliver] at hwritten hrefused
        refine ⟨⟨written, rfl, fun action haction => hwritten haction⟩, rfl, ?_, ?_⟩
        · intro state hstate
          exact hmeets.next reply (yields_answer hanswer) state hstate
        · intro response hrefuse hwrite
          obtain ⟨rfl, -⟩ := Prod.mk.inj (hrefused response hrefuse hwrite)
          simp [Except.map, hrefuse, Demand.actions]
          rfl

theorem exists_username {currentState : SessionState} (hlogout : currentState ≠ .logout)
    (hauth : (true && currentState == .notAuthenticated) = false) :
    ∃ username, currentState.username = some username := by
  cases currentState with
  | notAuthenticated => cases hauth
  | authenticated username => exact ⟨username, rfl⟩
  | selected username mailbox => exact ⟨username, rfl⟩
  | logout => exact absurd rfl hlogout

section Reached

variable [UnicodeCase] {handlers : CommandHandlers R} {name tag : String} {command : Command}
  {currentState : SessionState} {handler : CommandHandler R}

theorem get_of_admitted (hadmitted : handlers.admitted name currentState = some handler) :
    handlers.get name = some handler ∧
      (handler.requiresAuth && currentState == .notAuthenticated) = false := by
  unfold CommandHandlers.admitted at hadmitted
  split at hadmitted
  · cases hadmitted
  · rename_i registered hget
    split at hadmitted
    · cases hadmitted
    · rename_i hauth
      split at hadmitted
      · cases hadmitted
      · obtain rfl := Option.some.inj hadmitted
        exact ⟨hget, Bool.eq_false_iff.mpr hauth⟩

theorem handle_of_performs {decision : Decision} {args : String} {connection : Connection}
    {context : SessionContext R}
    (hadmitted : handlers.admitted name currentState = some handler)
    (hhandle : handler.handle tag args connection context currentState =
      decision.perform connection context) :
    handlers.handle name tag args connection context currentState = (do
      match ← (decision.perform connection context).run with
      | .ok stateUpdate => return stateUpdate
      | .error error =>
          Session.writeIgnored connection (.bad (some tag) ("Handler error: " ++ error.display))
          return none) := by
  rewrite [CommandHandlers.handle_of_admitted hadmitted, hhandle]
  rfl

/-- Where the handlers are the built-in ones, the handler of a command performs
its decision, and the command has a demand. -/
theorem handleCommandStatic_of_admitted
    (hbuiltIn : ∀ name handler, CommandHandlers.get (builtInHandlers : CommandHandlers R) name =
      some handler → handlers.get name = some handler)
    (hname : command.handlerName = some name)
    (hadmitted : handlers.admitted name currentState = some handler)
    (hlogout : currentState ≠ .logout) (tag : String) :
    ∃ decision demand, commandDecision tag currentState command = some decision ∧
      command.demand tag currentState = some demand ∧
      ∀ (connection : Connection) (context : SessionContext R),
        Session.handleCommandStatic tag command connection handlers context currentState = (do
          match ← (decision.perform connection context).run with
          | .ok stateUpdate => return stateUpdate
          | .error error =>
              Session.writeIgnored connection
                (.bad (some tag) ("Handler error: " ++ error.display))
              return none) := by
  obtain ⟨hget, hauth⟩ := get_of_admitted hadmitted
  have hhandler {registered : CommandHandler R} (hupper : toUppercase name = name)
      (hfind : builtIn.find? (fun other => other.commandName == name) = some registered) :
      handler = registered := by
    have hregistered := hbuiltIn name registered (by rw [get_builtInHandlers, hupper, hfind])
    exact Option.some.inj (hget.symm.trans hregistered)
  have huser (hrequires : handler.requiresAuth = true) :
      ∃ username, currentState.username = some username := by
    rw [hrequires] at hauth
    exact exists_username hlogout hauth
  cases command with
  | login username password =>
      obtain rfl := Option.some.inj hname
      obtain rfl := hhandler (toUppercase_word (by decide)) rfl
      exact ⟨_, _, rfl, rfl, fun _ _ => handle_of_performs hadmitted loginHandler_handle⟩
  | select mailbox =>
      obtain rfl := Option.some.inj hname
      obtain rfl := hhandler (toUppercase_word (by decide)) rfl
      obtain ⟨username, husername⟩ := huser rfl
      exact ⟨_, _, rfl, Option.map_eq_some_iff.mpr ⟨username, husername, rfl⟩,
        fun _ _ => handle_of_performs hadmitted selectHandler_handle⟩
  | create mailbox =>
      obtain rfl := Option.some.inj hname
      obtain rfl := hhandler (toUppercase_word (by decide)) rfl
      obtain ⟨username, husername⟩ := huser rfl
      exact ⟨_, _, rfl, Option.map_eq_some_iff.mpr ⟨username, husername, rfl⟩,
        fun _ _ => handle_of_performs hadmitted createHandler_handle⟩
  | delete mailbox =>
      obtain rfl := Option.some.inj hname
      obtain rfl := hhandler (toUppercase_word (by decide)) rfl
      obtain ⟨username, husername⟩ := huser rfl
      exact ⟨_, _, rfl, Option.map_eq_some_iff.mpr ⟨username, husername, rfl⟩,
        fun _ _ => handle_of_performs hadmitted deleteHandler_handle⟩
  | list reference pattern =>
      obtain rfl := Option.some.inj hname
      obtain rfl := hhandler (toUppercase_word (by decide)) rfl
      obtain ⟨username, husername⟩ := huser rfl
      exact ⟨_, _, rfl, Option.map_eq_some_iff.mpr ⟨username, husername, rfl⟩,
        fun _ _ => handle_of_performs hadmitted listHandler_handle⟩
  | capability => cases hname
  | noop => cases hname
  | logout => cases hname
  | starttls => cases hname
  | examine mailbox => cases hname
  | close => cases hname
  | expunge => cases hname
  | custom name args => cases hname

end Reached

/-- LOGOUT ends a session without a state of its own, so no session is ever in the
state it stands for. -/
theorem sessionState_ne_logout [UnicodeCase] {Id : Type} [DecidableEq Id] (server : Server R)
    (started maxSession maxIdle : Id → Nat) (isTls : Id → Bool) (greeting : Id → Option Error)
    (registry : R) (inputs : List (Id × Turn)) (id : Id) :
    (((System.machine server).final
      (.new started maxSession maxIdle isTls greeting registry) inputs).sessions id).sessionState ≠
        .logout := by
  let Inv (system : System Id R) : Prop := (system.sessions id).sessionState ≠ .logout
  have hstep (system : System Id R) (input : Id × Turn) (_ : input ∈ inputs) (hinv : Inv system) :
      Inv ((System.machine server).step system input).1 := by
    simp only [Inv, System.sessions_step] at hinv ⊢
    by_cases hid : id = input.1
    · subst hid
      rw [Function.update_self, turn_course]
      generalize system.sessions input.1 = session at hinv ⊢
      cases session.course input.2 with
      | idle => exact hinv
      | finish farewell result => cases farewell <;> exact hinv
      | refuse tagHistory response => exact hinv
      | starttls tagHistory tag =>
          obtain ⟨isTls, ended, hsession⟩ := handleStarttls_cases { session with tagHistory }
            input.2 server.tlsAcceptor tag ⟨session.isTls, input.2.writeError⟩
            ⟨system.registry, []⟩
          rw [Course.execute, hsession]
          exact hinv
      | delegate tagHistory tag name args =>
          simp only [Course.execute, stateM_bind]
          generalize (server.commandHandlers.handle name tag args _ _ _ _).1 = next
          rcases next with _ | _ | username | ⟨username, mailbox⟩ | _
          · exact hinv
          · exact SessionState.noConfusion
          · exact SessionState.noConfusion
          · exact SessionState.noConfusion
          · exact hinv
    · rw [Function.update_of_ne hid]
      exact hinv
  have hnew : Inv (.new started maxSession maxIdle isTls greeting registry) := by
    simp only [Inv, System.sessionState_new]
    exact SessionState.noConfusion
  exact Machine.final_invariant hstep hnew

/--
What the parser understood is what the handler acts on.  Whatever the sessions of
a server did, let a line be parsed as LOGIN, SELECT, CREATE, DELETE or LIST and
its handler be let through in the state of a session.  The command then has a
demand, made of the parsed arguments, and the dispatcher meets it and does
nothing else: an empty username or password, an empty mailbox name, or a
reference and a pattern that are both empty are refused without asking.
-/
theorem handlers_meet_demand [UnicodeCase] {Id : Type} [DecidableEq Id] (mailboxes : Mailboxes R)
    (tlsAcceptor : Bool) (added : List (CommandHandler R)) (started maxSession maxIdle : Id → Nat)
    (isTls : Id → Bool) (greeting : Id → Option Error) (registry : R)
    (inputs : List (Id × Turn)) (id : Id) (currentState : SessionState)
    (hstate : currentState = (((System.machine (imapServerWith mailboxes tlsAcceptor added)).final
      (.new started maxSession maxIdle isTls greeting registry) inputs).sessions id).sessionState)
    (tag line : String) (command : Command) (hparse : parseCommand tag line = .ok command)
    (name : String) (hname : command.handlerName = some name) (handler : CommandHandler R)
    (hadmitted : (imapServerWith mailboxes tlsAcceptor added).commandHandlers.admitted name
      currentState = some handler) :
    ∃ demand, command.demand tag currentState = some demand ∧
      ∀ (connection : Connection) (context : SessionContext R) (world : World R),
        demand.Met connection context world
          (Session.handleCommandStatic tag command connection
            (imapServerWith mailboxes tlsAcceptor added).commandHandlers context currentState
            world) := by
  have hlogout : currentState ≠ .logout := by
    rw [hstate]
    exact sessionState_ne_logout _ started maxSession maxIdle isTls greeting registry inputs id
  obtain ⟨decision, demand, hdecision, hdemand, hhandled⟩ := handleCommandStatic_of_admitted
    (fun name handler hget => get_imapServerWith hget mailboxes tlsAcceptor added) hname hadmitted
    hlogout tag
  have hmeets : decision.Meets R demand :=
    commandDecision_meets (isArgument_of_parseCommand hparse) hdecision hdemand
  exact ⟨demand, hdemand, fun connection context world =>
    met_of_meets hmeets tag connection context world (hhandled connection context)⟩

/-- The law for LIST with an empty reference, which the handler sees as a pattern
on its own. -/
theorem handlers_meet_demand_list :
    let _ := UnicodeCase.ascii
    let mailboxes := inMemoryMailboxes .searching .listed
    let turn := Turn.smooth (fun _ => .ok true) "a1 LOGIN ann secret\r\n"
    Demand.Met (.operate (.list "ann" (.withPrefix "box"))) ⟨false, fun _ => none⟩
      (turn.context mailboxes) ⟨.new, []⟩
      (Session.handleCommandStatic "a2" (.list "" "box*") ⟨false, fun _ => none⟩
        (imapServerWith mailboxes false []).commandHandlers (turn.context mailboxes)
        (.authenticated "ann") ⟨.new, []⟩) := by
  intro _ mailboxes turn
  have hget : (imapServerWith mailboxes false []).commandHandlers.get "LIST" = some listHandler :=
    get_imapServerWith (by rw [get_builtInHandlers, toUppercase_word (by decide)]; rfl) _ _ _
  have hadmitted : (imapServerWith mailboxes false []).commandHandlers.admitted "LIST"
      (.authenticated "ann") = some listHandler := by
    rw [CommandHandlers.admitted, hget]
    rfl
  obtain ⟨demand, hdemand, hmet⟩ := handlers_meet_demand mailboxes false [] (fun _ => 0)
    (fun _ => 3600) (fun _ => 1800) (fun _ => false) (fun _ => none) .new [((), turn)] ()
    (.authenticated "ann") (by decide +kernel) "a2" "LIST \"\" box*" (.list "" "box*") (by decide)
    "LIST" rfl listHandler hadmitted
  have hlist : Command.demand "a2" (.authenticated "ann") (.list "" "box*") =
      some (.operate (.list "ann" (.withPrefix "box"))) := by decide +kernel
  rw [hlist] at hdemand
  rw [Option.some.inj hdemand]
  exact hmet _ _ _

end Scuttled
