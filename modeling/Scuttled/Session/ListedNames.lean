import Scuttled.Protocol.Quoted
import Scuttled.Session.Completion
import Scuttled.Session.Reparse
import Scuttled.Session.Selection

/-!
# Names that LIST shows

LIST writes a name between quotes and escapes nothing in it.  The names that
CREATE stores are parsed arguments, so the quoted name is read back as the name
it was printed from, whatever quotes and backslashes stand inside it.
-/

namespace Scuttled

open Rust Foundation

/-! ## What is stored -/

/-- The registry is consistent, and stores non-empty arguments only. -/
structure InMemoryMailboxes.StoresArguments (registry : InMemoryMailboxes) : Prop where
  wellFormed : registry.state.WellFormed
  isArgument : ∀ username name info,
    registry.state.mailboxes.lookup (username, name) = some info → IsArgument name ∧ name ≠ ""

namespace InMemoryMailboxes.StoresArguments

variable {registry : InMemoryMailboxes}

theorem iterated (hstores : registry.StoresArguments) (iterations : Nat) :
    InMemoryMailboxes.StoresArguments { registry with iterations } where
  wellFormed := hstores.wellFormed
  isArgument := hstores.isArgument

theorem createMailbox (hstores : registry.StoresArguments) (username : String) {name : String}
    (hname : IsArgument name) (hnonempty : name ≠ "") :
    InMemoryMailboxes.StoresArguments
      { registry with state := (registry.state.createMailbox username name).2 } where
  wellFormed := hstores.wellFormed.createMailbox username name
  isArgument username' name' info hlookup := by
    have hstored : ((registry.state.createMailbox username name).2.mailboxes.lookup
        (username', name')).isSome := Option.isSome_of_eq_some hlookup
    rw [MailboxState.isSome_lookup_createMailbox, Bool.or_eq_true, decide_eq_true_eq] at hstored
    rcases hstored with hnew | hold
    · obtain ⟨rfl, rfl⟩ := Prod.mk.inj hnew
      exact ⟨hname, hnonempty⟩
    · obtain ⟨other, hother⟩ := Option.isSome_iff_exists.mp hold
      exact hstores.isArgument username' name' other hother

theorem deleteMailbox (hstores : registry.StoresArguments) (username name : String) :
    InMemoryMailboxes.StoresArguments
      { registry with state := (registry.state.deleteMailbox username name).2 } where
  wellFormed := hstores.wellFormed.deleteMailbox username name
  isArgument username' name' info hlookup := by
    rw [lookup_deleteMailbox] at hlookup
    split at hlookup
    · cases hlookup
    · exact hstores.isArgument username' name' info hlookup

end InMemoryMailboxes.StoresArguments

theorem storesArguments_new : InMemoryMailboxes.new.StoresArguments where
  wellFormed := MailboxState.wellFormed_new
  isArgument username name info hlookup := by
    simp [InMemoryMailboxes.new, MailboxState.new] at hlookup

/-! ## What is created, and what is listed -/

/-- The replies of the decision have no untagged response. -/
def Decision.NeverLists (decision : Decision) : Prop :=
  ∀ reply, decision.Yields reply → ∀ message, .untagged message ∉ reply.responses

section Decisions

variable {tag args : String} {currentState : SessionState} {command : Command}
  {decision : Decision}

theorem create_of_commandDecision {username name : String} {settle : Result MailboxInfo → Reply}
    (harguments : ∀ argument ∈ command.arguments, IsArgument argument)
    (hdecision : commandDecision tag currentState command =
      some (.create username name settle)) : IsArgument name ∧ name ≠ "" := by
  cases asks_of_commandDecision hdecision (by simp) with
  | @create _ mailbox _ husername hname =>
      have hmailbox := harguments mailbox (by simp [Command.arguments])
      rw [hmailbox.trim_eq] at hname ⊢
      exact ⟨hmailbox, hname⟩

theorem settled_neverLists {reply : Reply}
    (hreply : ∀ message, .untagged message ∉ reply.responses) :
    (Decision.settled reply).NeverLists := by
  intro settled hyields
  cases hyields
  exact hreply

theorem namedDecision_neverLists {name : String} {decide : String → String → Decision}
    (hdecide : ∀ username mailbox, (decide username mailbox).NeverLists) :
    (namedDecision tag name args currentState decide).NeverLists := by
  unfold namedDecision
  split
  · exact settled_neverLists (by simp [Reply.just])
  · cases currentState.username with
    | none => exact settled_neverLists (by simp [Reply.just])
    | some username => exact hdecide username _

theorem loginDecision_neverLists : (loginDecision tag args).NeverLists := by
  unfold loginDecision
  split
  · exact settled_neverLists (by simp [Reply.just])
  · intro reply hyields message
    cases hyields with
    | authenticate answer => rcases answer with error | _ | _ <;> simp [Reply.just]

theorem selectDecision_neverLists : (selectDecision tag args currentState).NeverLists := by
  apply namedDecision_neverLists
  intro username mailbox reply hyields message
  cases hyields with
  | get answer hsettle => rcases answer with error | _ | info <;> cases hsettle <;> simp [Reply.just]

theorem createDecision_neverLists : (createDecision tag args currentState).NeverLists := by
  apply namedDecision_neverLists
  intro username mailbox reply hyields message
  cases hyields with
  | create answer => cases answer <;> simp [Reply.just]

theorem deleteDecision_neverLists : (deleteDecision tag args currentState).NeverLists := by
  unfold deleteDecision
  split
  · exact settled_neverLists (by simp [Reply.just])
  · apply namedDecision_neverLists
    intro username mailbox reply hyields message
    cases hyields with
    | delete answer => cases answer <;> simp [Reply.just]

theorem list_of_untagged {reply : Reply} {message : String}
    (hdecision : commandDecision tag currentState command = some decision)
    (hyields : decision.Yields reply) (hlisted : .untagged message ∈ reply.responses) :
    ∃ username filter settle, decision = .list username filter settle ∧
      currentState.username = some username ∧
      ∀ infos, (settle (.ok infos)).responses =
        infos.map listLine ++ [.ok (some tag) "LIST completed"] := by
  have hnever (hlists : decision.NeverLists) : False := hlists reply hyields message hlisted
  cases handledBy_of_commandDecision hdecision with
  | capability => exact (hnever (settled_neverLists (by simp [Reply.just]))).elim
  | noop => exact (hnever (settled_neverLists (by simp [Reply.just]))).elim
  | logout => exact (hnever (settled_neverLists (by simp))).elim
  | login username password => exact (hnever loginDecision_neverLists).elim
  | select mailbox => exact (hnever selectDecision_neverLists).elim
  | create mailbox => exact (hnever createDecision_neverLists).elim
  | delete mailbox => exact (hnever deleteDecision_neverLists).elim
  | list reference pattern =>
      cases hargs : listParseArgs (reference ++ " " ++ pattern) with
      | none =>
          rw [listDecision, hargs] at hnever
          exact (hnever (settled_neverLists (by simp [Reply.just]))).elim
      | some words =>
          cases husername : currentState.username with
          | none =>
              rw [listDecision, hargs, husername] at hnever
              exact (hnever (settled_neverLists (by simp [Reply.just]))).elim
          | some username =>
              rw [listDecision, hargs, husername]
              exact ⟨_, _, _, rfl, rfl, fun infos => rfl⟩

end Decisions

/-! ## One turn -/

theorem mem_of_wrote {connection : Connection} {position : Nat} {responses : List Response}
    {response : Response}
    (hwrote : .wrote response ∈ (connection.deliver position responses).1) :
    response ∈ responses := by
  induction responses generalizing position with
  | nil => simp [Connection.deliver] at hwrote
  | cons first rest ih =>
      rw [Connection.deliver] at hwrote
      cases herror : connection.writeError position with
      | some error => simp [herror] at hwrote
      | none =>
          simp only [herror, List.mem_cons, Action.wrote.injEq] at hwrote
          rcases hwrote with rfl | hrest
          · exact List.mem_cons_self
          · exact List.mem_cons_of_mem _ (ih hrest)

section Turn

variable {R : Type} {mailboxes : Mailboxes R} {tlsAcceptor : Bool} {session : Session}
  {turn : Turn} {registry : R}

theorem refused_ne_untagged [UnicodeCase] {tagHistory : TagHistory} {response : Response}
    (hplan : session.plan turn = .refuse tagHistory response) (message : String) :
    response ≠ .untagged message := by
  have htagged {tag : String} {plan : Plan} (hanswers : plan.Answers tag)
      (hrefuse : plan = .refuse tagHistory response) : response ≠ .untagged message := by
    subst hrefuse
    cases hanswers with
    | refuse htag =>
        rintro rfl
        cases htag
  unfold Session.plan at hplan
  split at hplan
  · unfold Session.linePlan at hplan
    split at hplan
    · split at hplan
      · cases hplan
        exact Response.noConfusion
      · split at hplan
        · cases hplan
          exact Response.noConfusion
        · exact htagged (commandPlan_answers _ _ _ _) hplan
    · cases hplan
      exact Response.noConfusion
  · split at hplan
    · cases hplan
    · split at hplan
      · cases hplan
      · split at hplan <;> cases hplan

/-- A turn that sends an untagged response runs LIST. -/
theorem listed_of_turn [UnicodeCase] {message : String}
    (hlisted : .wrote (.untagged message) ∈
      (session.outcome mailboxes tlsAcceptor turn registry).trace) :
    ∃ tagHistory tag decision reply, session.plan turn = .dispatch tagHistory tag decision ∧
      (decision.answer (turn.context mailboxes) registry).1 = .ok reply ∧
      .untagged message ∈ reply.responses := by
  rw [Session.outcome] at hlisted
  cases hplan : session.plan turn with
  | idle =>
      rw [hplan] at hlisted
      cases hlisted
  | finish farewell result =>
      rw [hplan] at hlisted
      have hmem := mem_of_wrote hlisted
      rcases Session.plan_finish_cases hplan with rfl | ⟨bye, rfl⟩
      · cases hmem
      · simp at hmem
  | refuse tagHistory response =>
      rw [hplan] at hlisted
      have hmem := mem_of_wrote hlisted
      rw [List.mem_singleton] at hmem
      exact absurd hmem.symm (refused_ne_untagged hplan message)
  | starttls tagHistory tag =>
      rw [hplan, Plan.outcome, trace_starttlsOutcome] at hlisted
      have hmem := mem_of_wrote hlisted
      rw [List.mem_singleton] at hmem
      have htag := completionTag_starttlsResponse tag session.isTls tlsAcceptor
      rw [← hmem] at htag
      cases htag
  | dispatch tagHistory tag decision =>
      rw [hplan] at hlisted
      have hnotAsked : .wrote (.untagged message) ∉ decision.asked (turn.context mailboxes) := by
        cases decision <;> simp [Decision.asked]
      simp only [Plan.outcome] at hlisted
      refine ⟨tagHistory, tag, decision, ?_⟩
      cases hanswer : (decision.answer (turn.context mailboxes) registry).1 with
      | error error =>
          rw [hanswer] at hlisted
          rcases List.mem_append.mp hlisted with hasked | hbad
          · exact absurd hasked hnotAsked
          · simpa using mem_of_wrote hbad
      | ok reply =>
          refine ⟨reply, rfl, rfl, ?_⟩
          rw [hanswer] at hlisted
          have hmem {written : List Action} {result : Result Unit}
              (hdeliver : Connection.deliver ⟨session.isTls, turn.writeError⟩
                (decision.asked (turn.context mailboxes)).length reply.responses =
                  (written, result))
              (hwritten : .wrote (.untagged message) ∈ written) :
              .untagged message ∈ reply.responses := by
            rw [show written = _ from (congrArg Prod.fst hdeliver).symm] at hwritten
            exact mem_of_wrote hwritten
          simp only [Reply.outcome] at hlisted
          split at hlisted
          · rename_i hdeliver
            rcases List.mem_append.mp hlisted with hasked | hwritten
            · exact absurd hasked hnotAsked
            · exact hmem hdeliver hwritten
          · rename_i hdeliver
            rcases List.mem_append.mp hlisted with hbefore | hbad
            · rcases List.mem_append.mp hbefore with hasked | hwritten
              · exact absurd hasked hnotAsked
              · exact hmem hdeliver hwritten
            · simpa using mem_of_wrote hbad

theorem registry_of_no_line [UnicodeCase] (hline : session.lineOf turn = none) :
    (session.outcome mailboxes tlsAcceptor turn registry).registry = registry := by
  rw [Session.outcome, Session.plan, hline]
  simp only
  split
  · rfl
  · split
    · rfl
    · split <;> rfl

end Turn

section InMemory

variable {engine : RegexEngine} {order : HashOrder (String × String) MailboxInfo}
  {tlsAcceptor : Bool} {session : Session} {turn : Turn} {registry : InMemoryMailboxes}

theorem storesArguments_outcome [UnicodeCase] (hstores : registry.StoresArguments) :
    (session.outcome (inMemoryMailboxes engine order) tlsAcceptor turn
      registry).registry.StoresArguments := by
  rw [Session.outcome]
  cases hplan : session.plan turn with
  | idle => exact hstores
  | finish farewell result => exact hstores
  | refuse tagHistory response => exact hstores
  | starttls tagHistory tag =>
      rw [Plan.outcome, registry_starttlsOutcome]
      exact hstores
  | dispatch tagHistory tag decision =>
      obtain ⟨line, commandLine, command, -, -, hparse, hdecision⟩ :=
        Session.plan_dispatch_cases hplan
      rw [registry_dispatch]
      cases decision with
      | settled reply => exact hstores
      | authenticate credentials settle => exact hstores
      | get username name settle => exact hstores
      | create username name settle =>
          obtain ⟨hname, hnonempty⟩ :=
            create_of_commandDecision (isArgument_of_parseCommand hparse) hdecision
          exact hstores.createMailbox username hname hnonempty
      | delete username name settle => exact hstores.deleteMailbox username name
      | list username filter settle =>
          obtain ⟨iterations, hlisted⟩ := listMailboxes_ok engine order username filter registry
          rw [Decision.answer, Turn.context, inMemoryMailboxes]
          simp only [hlisted]
          exact hstores.iterated iterations

/-- The message of the untagged line for a name. -/
def listMessage (name : String) : String := "LIST () \"/\" \"" ++ name ++ "\""

theorem listMessage_injective : Function.Injective listMessage := by
  intro name name' hsame
  unfold listMessage at hsame
  simpa using hsame

/-- A mailbox that is listed is stored for the user of the session, and LIST
changes neither what is stored nor the state of the session. -/
theorem stored_of_listed [UnicodeCase] (hstores : registry.StoresArguments) {name : String}
    (hlisted : .wrote (.untagged (listMessage name)) ∈
      (session.outcome (inMemoryMailboxes engine order) tlsAcceptor turn registry).trace) :
    ∃ username info, session.sessionState.username = some username ∧
      registry.state.mailboxes.lookup (username, name) = some info ∧
      (session.outcome (inMemoryMailboxes engine order) tlsAcceptor turn
        registry).registry.state = registry.state ∧
      (session.outcome (inMemoryMailboxes engine order) tlsAcceptor turn
        registry).session.sessionState.username = some username := by
  obtain ⟨tagHistory, tag, decision, reply, hplan, hanswer, hmem⟩ := listed_of_turn hlisted
  obtain ⟨line, commandLine, command, -, -, hparse, hdecision⟩ :=
    Session.plan_dispatch_cases hplan
  obtain ⟨username, filter, settle, rfl, husername, hlines⟩ :=
    list_of_untagged hdecision (yields_answer hanswer) hmem
  obtain ⟨iterations, hinfos⟩ := listMailboxes_ok engine order username filter registry
  rw [Decision.answer, Turn.context, inMemoryMailboxes] at hanswer
  simp only [hinfos] at hanswer
  cases hanswer
  rw [hlines, List.mem_append] at hmem
  obtain ⟨info, hinfo, hline⟩ := List.mem_map.mp (hmem.resolve_right (by simp))
  obtain rfl : info.id.name = name := listMessage_injective (Response.untagged.inj hline)
  have hlookup := (mem_iterateOf_iff hstores.wellFormed).mp (List.mem_filter.mp hinfo).1
  refine ⟨username, info, husername, hlookup, ?_, ?_⟩
  · rw [Session.outcome, hplan, registry_dispatch, Decision.answer, Turn.context,
      inMemoryMailboxes]
    simp only [hinfos]
  · rw [← husername]
    refine (user_of_not_login fun tagHistory' tag' decision hdispatch => ?_).2
    obtain ⟨-, -, rfl⟩ := Plan.dispatch.inj (hplan.symm.trans hdispatch)
    apply commandDecision_keepsUser hdecision
    rintro user password rfl
    cases asks_of_commandDecision hdecision (by simp)

/-! ## The line that uses the name -/

/-- The trace is one operation on the registry, then writes. -/
def Addresses (operation : RegistryOperation) (trace : List Action) : Prop :=
  ∃ written, trace = .registry operation :: written ∧ ∀ action ∈ written, action.IsWrite

theorem plan_of_line [UnicodeCase] {tag commandLine : String} {command : Command}
    (hline : session.lineOf turn = some (tag ++ " " ++ commandLine))
    (htag : ' ' ∉ tag.toList) (haccepts : (session.tagHistory.register tag).1 = .ok ())
    (hparse : parseCommand tag commandLine = .ok command) :
    ∃ tagHistory, session.plan turn =
      commandPlan tagHistory tag session.sessionState command := by
  rcases hregister : session.tagHistory.register tag with ⟨result, tagHistory⟩
  rw [hregister] at haccepts
  obtain rfl : result = .ok () := haccepts
  refine ⟨tagHistory, ?_⟩
  have hsplit : splitn2 ' ' (tag ++ " " ++ commandLine) = [tag, commandLine] :=
    splitn2_append htag commandLine
  rw [Session.plan, hline]
  simp only [Session.linePlan, hsplit, hregister, hparse]

/-- The name is INBOX, in some spelling. -/
def IsInbox (name : String) : Prop := eqIgnoreAsciiCase name "INBOX" = true

instance (name : String) : Decidable (IsInbox name) := inferInstanceAs (Decidable (_ = _))

theorem splitWhitespace_quoted {name : String} (hname : IsArgument name) :
    splitWhitespace (quoted name) = [quoted name] ∧ unquote (quoted name) = name :=
  ⟨splitWhitespace_of_isToken (isToken_quoted hname.noWhitespace),
    unquote_quoted hname.unquote_eq⟩

section Use

variable {username name tag word : String}

theorem addresses_dispatch {tagHistory : TagHistory} {decision : Decision}
    {operation : RegistryOperation}
    (hasked : decision.asked (turn.context (inMemoryMailboxes engine order)) =
      [.registry operation]) :
    Addresses operation ((Plan.dispatch tagHistory tag decision).outcome
      (inMemoryMailboxes engine order) tlsAcceptor session turn registry).trace := by
  obtain ⟨written, htrace, hwritten⟩ := trace_reply
    (decision.answer (turn.context (inMemoryMailboxes engine order)) registry).1
    ⟨session.isTls, turn.writeError⟩ { session with tagHistory }
    (decision.answer (turn.context (inMemoryMailboxes engine order)) registry).2 tag
    (decision.asked (turn.context (inMemoryMailboxes engine order)))
  refine ⟨written, ?_, hwritten⟩
  rw [Plan.outcome, htrace, hasked]
  rfl

theorem namedDecision_eq {command : String} {decide : String → String → Decision}
    (hname : IsArgument name) (hnonempty : name ≠ "")
    (husername : session.sessionState.username = some username) :
    namedDecision tag command name session.sessionState decide = decide username name := by
  rw [namedDecision, hname.trim_eq, husername,
    if_neg fun hempty => hnonempty (beq_iff_eq.mp hempty)]

theorem ne_notAuthenticated (husername : session.sessionState.username = some username) :
    ¬ (session.sessionState == .notAuthenticated) = true := by
  rw [beq_iff_eq]
  intro hstate
  rw [hstate] at husername
  cases husername

theorem select_of_quoted [UnicodeCase] (hname : IsArgument name) (hnonempty : name ≠ "")
    (husername : session.sessionState.username = some username)
    (hword : eqIgnoreAsciiCase word "SELECT" = true)
    (hline : session.lineOf turn = some (tag ++ " " ++ (word ++ " " ++ quoted name)))
    (htag : ' ' ∉ tag.toList) (haccepts : (session.tagHistory.register tag).1 = .ok ()) :
    let outcome := session.outcome (inMemoryMailboxes engine order) tlsAcceptor turn registry
    Addresses (.get username name) outcome.trace ∧
      ∀ info, registry.state.mailboxes.lookup (username, name) = some info →
        turn.writeError 1 = none →
          sent outcome.trace = [.ok (some tag) ("SELECT completed for " ++ name)] ∧
            outcome.session.sessionState = .selected username name := by
  intro outcome
  have hparse : parseCommand tag (word ++ " " ++ quoted name) = .ok (.select name) := by
    rw [parseCommand_select hword, (splitWhitespace_quoted hname).1]
    simp only [(splitWhitespace_quoted hname).2]
  obtain ⟨tagHistory, hplan⟩ := plan_of_line hline htag haccepts hparse
  simp only [commandPlan] at hplan
  rw [if_neg (ne_notAuthenticated husername), selectDecision,
    namedDecision_eq hname hnonempty husername] at hplan
  simp only [outcome]
  rw [Session.outcome, hplan]
  refine ⟨addresses_dispatch rfl, fun info hlookup hwrite => ?_⟩
  simp only [Plan.outcome, Decision.answer, Turn.context, inMemoryMailboxes, hlookup,
    Decision.asked, Reply.outcome, List.length_singleton, Connection.deliver, hwrite]
  exact ⟨rfl, rfl⟩

/-- DELETE of the quoted name deletes the mailbox, which is answered by OK if it is
stored. -/
theorem delete_of_quoted [UnicodeCase] (hname : IsArgument name) (hnonempty : name ≠ "")
    (hinbox : ¬ IsInbox name) (husername : session.sessionState.username = some username)
    (hword : eqIgnoreAsciiCase word "DELETE" = true)
    (hline : session.lineOf turn = some (tag ++ " " ++ (word ++ " " ++ quoted name)))
    (htag : ' ' ∉ tag.toList) (haccepts : (session.tagHistory.register tag).1 = .ok ()) :
    let outcome := session.outcome (inMemoryMailboxes engine order) tlsAcceptor turn registry
    Addresses (.delete username name) outcome.trace ∧
      (∀ key, outcome.registry.state.mailboxes.lookup key =
        if key = (username, name) then none else registry.state.mailboxes.lookup key) ∧
      ∀ info, registry.state.mailboxes.lookup (username, name) = some info →
        turn.writeError 1 = none →
          sent outcome.trace = [.ok (some tag) ("DELETE completed for " ++ name)] := by
  intro outcome
  have hparse : parseCommand tag (word ++ " " ++ quoted name) = .ok (.delete name) := by
    rw [parseCommand_delete hword, (splitWhitespace_quoted hname).1]
    simp only [(splitWhitespace_quoted hname).2]
  obtain ⟨tagHistory, hplan⟩ := plan_of_line hline htag haccepts hparse
  have hspelled : ¬ eqIgnoreAsciiCase (trim name) "INBOX" = true := by
    rw [hname.trim_eq]
    exact hinbox
  simp only [commandPlan] at hplan
  rw [if_neg (ne_notAuthenticated husername), deleteDecision, if_neg hspelled,
    namedDecision_eq hname hnonempty husername] at hplan
  simp only [outcome]
  rw [Session.outcome, hplan]
  refine ⟨addresses_dispatch rfl, fun key => ?_, fun info hlookup hwrite => ?_⟩
  · rw [registry_dispatch]
    exact lookup_deleteMailbox registry.state username name key
  · have hdeleted : (registry.state.deleteMailbox username name).1 = .ok () := by
      simp only [MailboxState.deleteMailbox, hlookup]
    simp only [Plan.outcome, Decision.answer, Turn.context, inMemoryMailboxes,
      InMemoryMailboxes.serve, hdeleted, Decision.asked, Reply.outcome, Reply.just,
      List.length_singleton, Connection.deliver, hwrite]
    rfl

end Use

end InMemory

/-! ## Runs -/

section Runs

variable {Id : Type} [DecidableEq Id] [UnicodeCase] {engine : RegexEngine}
  {order : HashOrder (String × String) MailboxInfo} {tlsAcceptor : Bool}

/-- The turn brings no command: its session processes no line. -/
def System.NoCommand (system : System Id InMemoryMailboxes) (input : Id × Turn) : Prop :=
  (system.sessions input.1).lineOf input.2 = none

theorem registry_of_noCommand {system : System Id InMemoryMailboxes} {inputs : List (Id × Turn)}
    (hquiet : (System.outcomes (inMemoryMailboxes engine order) tlsAcceptor).Meets
      System.NoCommand system inputs) :
    ((System.outcomes (inMemoryMailboxes engine order) tlsAcceptor).final system
      inputs).registry = system.registry := by
  induction inputs generalizing system with
  | nil => rfl
  | cons input rest ih =>
      rw [Machine.final_cons, ih hquiet.2]
      exact registry_of_no_line hquiet.1

/-- In every run on a registry that is empty at first, what is stored are
arguments. -/
theorem storesArguments_final (started maxSession maxIdle : Id → Nat) (isTls : Id → Bool)
    (greeting : Id → Option Error) (inputs : List (Id × Turn)) :
    ((System.outcomes (inMemoryMailboxes engine order) tlsAcceptor).final
      (.new started maxSession maxIdle isTls greeting .new)
        inputs).registry.StoresArguments := by
  let Inv (system : System Id InMemoryMailboxes) : Prop := system.registry.StoresArguments
  have hstep (system : System Id InMemoryMailboxes) (input : Id × Turn) (_ : input ∈ inputs)
      (hinv : Inv system) :
      Inv ((System.outcomes (inMemoryMailboxes engine order) tlsAcceptor).step system input).1 :=
    storesArguments_outcome hinv
  have hnew : Inv (.new started maxSession maxIdle isTls greeting .new) := storesArguments_new
  exact Machine.final_invariant hstep hnew

theorem session_of_others {id : Id} {system : System Id InMemoryMailboxes}
    {others : List (Id × Turn)} (hothers : ∀ input ∈ others, input.1 ≠ id) :
    ((System.outcomes (inMemoryMailboxes engine order) tlsAcceptor).final system
      others).sessions id = system.sessions id := by
  let Inv (reached : System Id InMemoryMailboxes) : Prop :=
    reached.sessions id = system.sessions id
  have hstep (reached : System Id InMemoryMailboxes) (input : Id × Turn) (hinput : input ∈ others)
      (hinv : Inv reached) :
      Inv ((System.outcomes (inMemoryMailboxes engine order) tlsAcceptor).step reached
        input).1 := by
    simp only [Inv, System.outcomes]
    rw [Function.update_of_ne (hothers input hinput).symm]
    exact hinv
  exact Machine.final_invariant hstep (Eq.refl (system.sessions id))

/--
Names that LIST shows can be used again.  In a run of sessions on a registry
that only CREATE fills, let a session be sent the untagged line for a name, and
let its next command be SELECT or DELETE of the name as it was printed, quotes
included, under a tag its history accepts.  Then the mailbox of that name was
stored for the user of the session, and the command is about this mailbox; if no
other command intervened it succeeds.  DELETE of INBOX is the exception.
-/
theorem listed_name_can_be_used (started maxSession maxIdle : Id → Nat) (isTls : Id → Bool)
    (greeting : Id → Option Error) (inputs : List (Id × Turn)) (id : Id) (listing : Turn)
    (name : String) (others : List (Id × Turn)) (hothers : ∀ input ∈ others, input.1 ≠ id)
    (next : Turn) (tag word : String) (htag : ' ' ∉ tag.toList)
    (machine : Machine (System Id InMemoryMailboxes) (Id × Turn) (List Action))
    (hmachine : machine = System.machine (imapServer (inMemoryMailboxes engine order) tlsAcceptor))
    (before listed reached : System Id InMemoryMailboxes)
    (hbefore : before = machine.final (.new started maxSession maxIdle isTls greeting .new) inputs)
    (hlisted : listed = (machine.step before (id, listing)).1)
    (hshown : .wrote (.untagged (listMessage name)) ∈ (machine.step before (id, listing)).2)
    (hreached : reached = machine.final listed others)
    (hline : (reached.sessions id).lineOf next =
      some (tag ++ " " ++ (word ++ " " ++ quoted name)))
    (haccepts : ((reached.sessions id).tagHistory.register tag).1 = .ok ()) :
    ∃ username info, (before.sessions id).sessionState.username = some username ∧
      before.registry.state.mailboxes.lookup (username, name) = some info ∧
      (eqIgnoreAsciiCase word "SELECT" = true →
        Addresses (.get username name) (machine.step reached (id, next)).2 ∧
        (machine.Meets System.NoCommand listed others →
          reached.registry.state.mailboxes.lookup (username, name) = some info ∧
          (next.writeError 1 = none →
            sent (machine.step reached (id, next)).2 =
                [.ok (some tag) ("SELECT completed for " ++ name)] ∧
              ((machine.step reached (id, next)).1.sessions id).sessionState =
                .selected username name))) ∧
      (eqIgnoreAsciiCase word "DELETE" = true → ¬ IsInbox name →
        Addresses (.delete username name) (machine.step reached (id, next)).2 ∧
        (machine.Meets System.NoCommand listed others →
          (∀ key, (machine.step reached (id, next)).1.registry.state.mailboxes.lookup key =
            if key = (username, name) then none
            else before.registry.state.mailboxes.lookup key) ∧
          (next.writeError 1 = none →
            sent (machine.step reached (id, next)).2 =
              [.ok (some tag) ("DELETE completed for " ++ name)]))) := by
  rw [System.machine_eq] at hmachine
  subst hmachine
  have hstores : before.registry.StoresArguments := by
    rw [hbefore]
    exact storesArguments_final started maxSession maxIdle isTls greeting inputs
  obtain ⟨username, info, husername, hlookup, hstate, hkept⟩ := stored_of_listed hstores hshown
  obtain ⟨hname, hnonempty⟩ := hstores.isArgument username name info hlookup
  have hsession : (reached.sessions id).sessionState.username = some username := by
    rw [hreached, session_of_others hothers, hlisted]
    simp only [System.outcomes, Function.update_self]
    exact hkept
  have hquiet (hmeets : (System.outcomes (inMemoryMailboxes engine order) tlsAcceptor).Meets
      System.NoCommand listed others) : reached.registry.state = before.registry.state := by
    rw [hreached, registry_of_noCommand hmeets, hlisted]
    exact hstate
  refine ⟨username, info, husername, hlookup, fun hword => ?_, fun hword hinbox => ?_⟩
  · obtain ⟨haddresses, hsucceeds⟩ := @select_of_quoted engine order tlsAcceptor _ next
      reached.registry _ _ _ _ _ hname hnonempty hsession hword hline htag haccepts
    refine ⟨haddresses, fun hmeets => ?_⟩
    have hstored : reached.registry.state.mailboxes.lookup (username, name) = some info := by
      rw [hquiet hmeets]
      exact hlookup
    refine ⟨hstored, fun hwrite => ?_⟩
    obtain ⟨hsent, hselected⟩ := hsucceeds info hstored hwrite
    refine ⟨hsent, ?_⟩
    simp only [System.outcomes, Function.update_self]
    exact hselected
  · obtain ⟨haddresses, hdeleted, hsucceeds⟩ := @delete_of_quoted engine order tlsAcceptor _ next
      reached.registry _ _ _ _ _ hname hnonempty hinbox hsession hword hline htag haccepts
    refine ⟨haddresses, fun hmeets => ?_⟩
    rw [← hquiet hmeets]
    refine ⟨hdeleted, fun hwrite => ?_⟩
    refine hsucceeds info ?_ hwrite
    rw [hquiet hmeets]
    exact hlookup

end Runs

/-- The law for a name with a quote in it, which SELECT finds in a run of one
session. -/
theorem listed_name_can_be_used_quote :
    let _ := UnicodeCase.ascii
    let turn := Turn.smooth (fun _ => .ok true)
    let machine := System.machine (imapServer (inMemoryMailboxes .searching .listed) false)
    let before := machine.final (.new (fun _ => 0) (fun _ => 3600) (fun _ => 1800)
      (fun _ => false) (fun _ => none) .new)
      [((), turn "a1 LOGIN ann x\r\n"), ((), turn "a2 CREATE a\"b\r\n")]
    let listed := (machine.step before ((), turn "a3 LIST \"\" *\r\n")).1
    sent (machine.step listed ((), turn "a4 SELECT \"a\"b\"\r\n")).2 =
      [.ok (some "a4") "SELECT completed for a\"b"] := by
  intro _ turn machine before listed
  have hshown : .wrote (.untagged (listMessage "a\"b")) ∈
      (machine.step before ((), turn "a3 LIST \"\" *\r\n")).2 := by
    decide +kernel
  have hline : (listed.sessions ()).lineOf (turn "a4 SELECT \"a\"b\"\r\n") =
      some ("a4" ++ " " ++ ("SELECT" ++ " " ++ quoted "a\"b")) := by
    decide +kernel
  have haccepts : ((listed.sessions ()).tagHistory.register "a4").1 = .ok () := by
    decide +kernel
  obtain ⟨username, info, -, -, hselect, -⟩ := listed_name_can_be_used (fun _ => 0)
    (fun _ => 3600) (fun _ => 1800) (fun _ => false) (fun _ => none) _ () _ "a\"b" []
    (List.forall_mem_nil _) _ "a4" "SELECT" (by decide) machine rfl before listed listed rfl rfl
    hshown (machine.final_nil listed).symm hline haccepts
  exact (((hselect (by decide)).2 trivial).2 rfl).1

end Scuttled
