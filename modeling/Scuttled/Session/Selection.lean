import Scuttled.Session.Authentication

/-!
# The selected mailbox

SELECT looks the mailbox up and the session remembers its name.  DELETE does not
look at what is selected, and a session that selected what it deletes goes on as
if the mailbox were there.
-/

namespace Scuttled

open Rust Foundation

/-! ## What SELECT finds -/

/-- The mailbox a successful SELECT found: it looked one up and said OK. -/
def foundBySelect (registry : InMemoryMailboxes) : List Action → List MailboxInfo
  | .registry (.get username name) :: .wrote (.ok _ _) :: _ =>
      (registry.state.mailboxes.lookup (username, name)).toList
  | _ => []

theorem foundBySelect_eq_nil {registry : InMemoryMailboxes} {trace : List Action}
    (hget : ∀ username name, .registry (.get username name) ∉ trace) :
    foundBySelect registry trace = [] := by
  unfold foundBySelect
  split
  · exact absurd List.mem_cons_self (hget _ _)
  · rfl

/-- The mailbox a session has selected is stored, and is the one the last
successful SELECT found. -/
def SelectionHolds (found : List MailboxInfo) (state : Session × InMemoryMailboxes) : Prop :=
  ∀ username mailbox, state.1.sessionState = .selected username mailbox →
    ∃ info last, state.2.state.mailboxes.lookup (username, mailbox) = some info ∧
      found.getLast? = some last ∧ info.uidValidity = last.uidValidity

/-- The turn deletes the mailbox its session has selected. -/
def Session.DeletesSelected [UnicodeCase] (session : Session) (turn : Turn) : Prop :=
  ∃ username mailbox tagHistory tag settle,
    session.sessionState = .selected username mailbox ∧
      session.plan turn = .dispatch tagHistory tag (.delete username mailbox settle)

/-! ## Who selects -/

/-- Only an answer to a lookup leads to the state in which the mailbox looked up
is selected. -/
def Decision.SelectsByGet (decision : Decision) : Prop :=
  ∀ reply, decision.Yields reply → ∀ username mailbox,
    reply.next = some (.selected username mailbox) →
      ∃ settle, decision = .get username mailbox settle

section Decisions

variable {tag args : String} {currentState : SessionState} {decision : Decision}

theorem settled_selectsByGet {reply : Reply} (hnext : ∀ username mailbox,
    reply.next ≠ some (.selected username mailbox)) : (Decision.settled reply).SelectsByGet := by
  intro settled hyields username mailbox hselected
  cases hyields
  exact absurd hselected (hnext username mailbox)

theorem namedDecision_selectsByGet {command : String} {decide : String → String → Decision}
    (hdecide : ∀ username name, (decide username name).SelectsByGet) :
    (namedDecision tag command args currentState decide).SelectsByGet := by
  unfold namedDecision
  split
  · exact settled_selectsByGet (by simp [Reply.just])
  · cases currentState.username with
    | none => exact settled_selectsByGet (by simp [Reply.just])
    | some username => exact hdecide username _

theorem loginDecision_selectsByGet : (loginDecision tag args).SelectsByGet := by
  unfold loginDecision
  split
  · exact settled_selectsByGet (by simp [Reply.just])
  · intro reply hyields username mailbox hselected
    cases hyields with
    | authenticate answer => rcases answer with error | _ | _ <;> simp [Reply.just] at hselected

theorem selectDecision_selectsByGet : (selectDecision tag args currentState).SelectsByGet := by
  apply namedDecision_selectsByGet
  intro username name reply hyields username' mailbox hselected
  cases hyields with
  | get answer hsettle =>
      rcases answer with error | _ | info
      · cases hsettle
      · cases hsettle
        simp [Reply.just] at hselected
      · cases hsettle
        obtain ⟨rfl, rfl⟩ : username = username' ∧ name = mailbox := by simpa using hselected
        exact ⟨_, rfl⟩

theorem createDecision_selectsByGet : (createDecision tag args currentState).SelectsByGet := by
  apply namedDecision_selectsByGet
  intro username name reply hyields username' mailbox hselected
  cases hyields with
  | create answer => cases answer <;> simp [Reply.just] at hselected

theorem deleteDecision_selectsByGet : (deleteDecision tag args currentState).SelectsByGet := by
  unfold deleteDecision
  split
  · exact settled_selectsByGet (by simp [Reply.just])
  · apply namedDecision_selectsByGet
    intro username name reply hyields username' mailbox hselected
    cases hyields with
    | delete answer => cases answer <;> simp [Reply.just] at hselected

theorem listDecision_selectsByGet : (listDecision tag args currentState).SelectsByGet := by
  unfold listDecision
  split
  · exact settled_selectsByGet (by simp [Reply.just])
  · split
    · exact settled_selectsByGet (by simp [Reply.just])
    · intro reply hyields username mailbox hselected
      cases hyields with
      | list answer => cases answer <;> simp [Reply.just] at hselected

theorem commandDecision_selectsByGet {command : Command}
    (hdecision : commandDecision tag currentState command = some decision) :
    decision.SelectsByGet := by
  cases handledBy_of_commandDecision hdecision with
  | capability => exact settled_selectsByGet (by simp [Reply.just])
  | noop => exact settled_selectsByGet (by simp [Reply.just])
  | logout => exact settled_selectsByGet (by simp)
  | login username password => exact loginDecision_selectsByGet
  | select mailbox => exact selectDecision_selectsByGet
  | create mailbox => exact createDecision_selectsByGet
  | delete mailbox => exact deleteDecision_selectsByGet
  | list reference pattern => exact listDecision_selectsByGet

/-- A named command that asks something asks it for the user of the state, about
the name. -/
theorem asks_of_namedDecision {command : String} {decide : String → String → Decision}
    (hnamed : namedDecision tag command args currentState decide = decision)
    (hasks : ∀ reply, decision ≠ .settled reply) :
    ∃ username, currentState.username = some username ∧ trim args ≠ "" ∧
      decision = decide username (trim args) := by
  unfold namedDecision at hnamed
  split at hnamed
  · exact absurd hnamed.symm (hasks _)
  · rename_i hempty
    cases husername : currentState.username with
    | none =>
        rw [husername] at hnamed
        exact absurd hnamed.symm (hasks _)
    | some username =>
        rw [husername] at hnamed
        exact ⟨username, rfl, fun hname => hempty (beq_iff_eq.mpr hname), hnamed.symm⟩

/-- The commands whose handlers ask something, and what they ask. -/
inductive Command.Asks (tag : String) (currentState : SessionState) : Command → Decision → Prop where
  | login {username password : String} {credentials : Credentials}
      {settle : Result Bool → Reply} :
      loginDecision tag (username ++ " " ++ password) = .authenticate credentials settle →
        Command.Asks tag currentState (.login username password) (.authenticate credentials settle)
  | select {username mailbox : String} {settle : Result (Option MailboxInfo) → Result Reply} :
      currentState.username = some username → trim mailbox ≠ "" →
      settle (.ok none) =
        .ok (.just (.no (some tag) ("Mailbox does not exist: " ++ trim mailbox))) →
      (∀ info, settle (.ok (some info)) = .ok
        { responses := [.ok (some tag) ("SELECT completed for " ++ trim mailbox)]
          next := some (.selected username (trim mailbox)) }) →
        Command.Asks tag currentState (.select mailbox) (.get username (trim mailbox) settle)
  | create {username mailbox : String} {settle : Result MailboxInfo → Reply} :
      currentState.username = some username → trim mailbox ≠ "" →
        Command.Asks tag currentState (.create mailbox) (.create username (trim mailbox) settle)
  | delete {username mailbox : String} {settle : Result Unit → Reply} :
      currentState.username = some username → trim mailbox ≠ "" →
      (∀ answer, (settle answer).next = none) →
        Command.Asks tag currentState (.delete mailbox) (.delete username (trim mailbox) settle)
  | list {username reference pattern : String} {filter : MailboxFilter}
      {settle : Result (List MailboxInfo) → Reply} :
      currentState.username = some username →
      (∀ infos, (settle (.ok infos)).responses =
        infos.map listLine ++ [.ok (some tag) "LIST completed"]) →
        Command.Asks tag currentState (.list reference pattern) (.list username filter settle)

/-- A handler that asks something asks what its command is for. -/
theorem asks_of_commandDecision {command : Command}
    (hdecision : commandDecision tag currentState command = some decision)
    (hasks : ∀ reply, decision ≠ .settled reply) : command.Asks tag currentState decision := by
  cases handledBy_of_commandDecision hdecision with
  | capability => exact absurd rfl (hasks _)
  | noop => exact absurd rfl (hasks _)
  | logout => exact absurd rfl (hasks _)
  | login username password =>
      cases hargs : loginParseArgs (username ++ " " ++ password) with
      | none => exact absurd (by rw [loginDecision, hargs]) (hasks _)
      | some words =>
          rw [loginDecision, hargs]
          exact .login (by rw [loginDecision, hargs])
  | select mailbox =>
      obtain ⟨username, husername, hname, hselect⟩ := asks_of_namedDecision rfl hasks
      rw [selectDecision, hselect]
      exact .select husername hname rfl fun info => rfl
  | create mailbox =>
      obtain ⟨username, husername, hname, hcreate⟩ := asks_of_namedDecision rfl hasks
      rw [createDecision, hcreate]
      exact .create husername hname
  | delete mailbox =>
      unfold deleteDecision at hasks ⊢
      split at hasks
      · exact absurd rfl (hasks _)
      · rename_i hinbox
        obtain ⟨username, husername, hname, hdelete⟩ := asks_of_namedDecision rfl hasks
        rw [if_neg hinbox, hdelete]
        exact .delete husername hname fun answer => by cases answer <;> rfl
  | list reference pattern =>
      cases hargs : listParseArgs (reference ++ " " ++ pattern) with
      | none => exact absurd (by rw [listDecision, hargs]) (hasks _)
      | some words =>
          cases husername : currentState.username with
          | none => exact absurd (by rw [listDecision, hargs, husername]) (hasks _)
          | some username =>
              rw [listDecision, hargs, husername]
              exact .list husername fun infos => rfl

theorem get_of_commandDecision {command : Command} {username name : String}
    {settle : Result (Option MailboxInfo) → Result Reply}
    (hdecision : commandDecision tag currentState command = some (.get username name settle)) :
    settle (.ok none) = .ok (.just (.no (some tag) ("Mailbox does not exist: " ++ name))) ∧
      ∀ info, settle (.ok (some info)) = .ok
        { responses := [.ok (some tag) ("SELECT completed for " ++ name)]
          next := some (.selected username name) } := by
  cases asks_of_commandDecision hdecision (by simp) with
  | select husername hname hnone hsome => exact ⟨hnone, hsome⟩

theorem delete_of_commandDecision {command : Command} {username name : String}
    {settle : Result Unit → Reply}
    (hdecision : commandDecision tag currentState command = some (.delete username name settle))
    (answer : Result Unit) : (settle answer).next = none := by
  cases asks_of_commandDecision hdecision (by simp) with
  | delete husername hname hnext => exact hnext answer

end Decisions

/-! ## What a turn does to the selection -/

section Registry

variable {registry : InMemoryMailboxes}

theorem lookup_createMailbox_of_stored {state : MailboxState} {key : String × String}
    {info : MailboxInfo} (hstored : state.mailboxes.lookup key = some info)
    (username name : String) :
    (state.createMailbox username name).2.mailboxes.lookup key = some info := by
  obtain ⟨other, -, hsame⟩ | ⟨hfree, other, -, -, -, hnew⟩ :=
    MailboxState.createMailbox_cases username name state
  · rw [hsame]
    exact hstored
  · rw [hnew, HashMap.lookup_insert_eq, if_neg]
    · exact hstored
    · rintro rfl
      rw [hfree] at hstored
      cases hstored

theorem lookup_deleteMailbox (state : MailboxState) (username name : String)
    (key : String × String) :
    (state.deleteMailbox username name).2.mailboxes.lookup key =
      if key = (username, name) then none else state.mailboxes.lookup key := by
  unfold MailboxState.deleteMailbox
  cases hlookup : state.mailboxes.lookup (username, name) with
  | none =>
      simp only [hlookup]
      split
      · rename_i hkey
        rw [hkey, hlookup]
      · rfl
  | some info => simp only [hlookup, HashMap.lookup_erase_eq]

end Registry

section Turn

variable {engine : RegexEngine} {order : HashOrder (String × String) MailboxInfo}
  {tlsAcceptor : Bool} {session : Session} {registry : InMemoryMailboxes} {turn : Turn}
  {found : List MailboxInfo}

/-- What a turn shows of what SELECT found. -/
def foundInTurn [UnicodeCase] (engine : RegexEngine)
    (order : HashOrder (String × String) MailboxInfo) (tlsAcceptor : Bool)
    (state : Session × InMemoryMailboxes) (turn : Turn) : List MailboxInfo :=
  foundBySelect state.2
    ((Session.machine (imapServer (inMemoryMailboxes engine order) tlsAcceptor)).step state turn).2

/-- What is selected stays sound while it is stored as it was and nothing is
selected anew. -/
theorem SelectionHolds.kept {state state' : Session × InMemoryMailboxes}
    (hholds : SelectionHolds found state)
    (hselected : ∀ username mailbox, state'.1.sessionState = .selected username mailbox →
      state.1.sessionState = .selected username mailbox)
    (hstored : ∀ username mailbox info, state.1.sessionState = .selected username mailbox →
      state.2.state.mailboxes.lookup (username, mailbox) = some info →
      state'.2.state.mailboxes.lookup (username, mailbox) = some info) :
    SelectionHolds found state' := by
  intro username mailbox hstate'
  have hstate := hselected username mailbox hstate'
  obtain ⟨info, last, hlookup, hlast, hvalidity⟩ := hholds username mailbox hstate
  exact ⟨info, last, hstored username mailbox info hstate hlookup, hlast, hvalidity⟩

theorem foundBySelect_of_plan {plan : Plan}
    (hget : ∀ tagHistory tag username name settle,
      plan ≠ .dispatch tagHistory tag (.get username name settle))
    (mailboxes : Mailboxes InMemoryMailboxes) (registry' : InMemoryMailboxes) :
    foundBySelect registry (plan.outcome mailboxes tlsAcceptor session turn registry').trace =
      [] := by
  apply foundBySelect_eq_nil
  intro username name haction
  rcases mem_trace_cases haction with hwrite | ⟨tagHistory, tag, decision, hplan, hasked⟩
  · cases hwrite
  · cases decision with
    | get username' name' settle => exact hget _ _ _ _ _ hplan
    | _ => simp [Decision.asked] at hasked

theorem selected_of_dispatch {decision : Decision} (hdecision : decision.SelectsByGet)
    (hget : ∀ username name settle, decision ≠ .get username name settle)
    (mailboxes : Mailboxes InMemoryMailboxes) (tagHistory : TagHistory) (tag : String)
    {username mailbox : String}
    (hselected : ((Plan.dispatch tagHistory tag decision).outcome mailboxes tlsAcceptor session turn
      registry).session.sessionState = .selected username mailbox) :
    session.sessionState = .selected username mailbox := by
  simp only [Plan.outcome] at hselected
  rcases session_reply (decision.answer (turn.context mailboxes) registry).1
    ⟨session.isTls, turn.writeError⟩ { session with tagHistory }
    (decision.answer (turn.context mailboxes) registry).2 tag
    (decision.asked (turn.context mailboxes)) with hsame | ⟨reply, hreply, hnext⟩
  · rw [hsame] at hselected
    exact hselected
  · rw [hnext] at hselected
    rcases hstate : reply.next with _ | _ | _ | _ | _
    all_goals rw [hstate] at hselected
    · exact hselected
    · cases hselected
    · cases hselected
    · cases hselected
      obtain ⟨settle, hsettle⟩ := hdecision reply (yields_answer hreply) _ _ hstate
      exact absurd hsettle (hget _ _ settle)
    · exact hselected

/-- After a lookup the session has selected what was found, or goes on as it was. -/
theorem selectionHolds_get {username name tag : String} {tagHistory : TagHistory}
    {settle : Result (Option MailboxInfo) → Result Reply}
    (hnone : settle (.ok none) =
      .ok (.just (.no (some tag) ("Mailbox does not exist: " ++ name))))
    (hsome : ∀ info, settle (.ok (some info)) = .ok
      { responses := [.ok (some tag) ("SELECT completed for " ++ name)]
        next := some (.selected username name) })
    (hholds : SelectionHolds found (session, registry)) :
    let outcome := (Plan.dispatch tagHistory tag (.get username name settle)).outcome
      (inMemoryMailboxes engine order) tlsAcceptor session turn registry
    SelectionHolds (found ++ foundBySelect registry outcome.trace)
      (outcome.session, outcome.registry) := by
  have hanswer : (Decision.get username name settle).answer
      (turn.context (inMemoryMailboxes engine order)) registry =
        (settle (.ok (registry.state.mailboxes.lookup (username, name))), registry) := rfl
  intro outcome
  have houtcome : outcome = Reply.outcome
      (settle (.ok (registry.state.mailboxes.lookup (username, name))))
      ⟨session.isTls, turn.writeError⟩ { session with tagHistory } registry tag
      [.registry (.get username name)] := by
    simp only [outcome, Plan.outcome, hanswer, Decision.asked]
  have hkept (hsession : outcome.session.sessionState = session.sessionState)
      (hregistry : outcome.registry = registry)
      (hfound : foundBySelect registry outcome.trace = []) :
      SelectionHolds (found ++ foundBySelect registry outcome.trace)
        (outcome.session, outcome.registry) := by
    rw [hfound, List.append_nil, hregistry]
    exact hholds.kept (fun _ _ hselected => hsession.symm.trans hselected) fun _ _ _ _ h => h
  cases hlookup : registry.state.mailboxes.lookup (username, name) with
  | none =>
      rw [hlookup, hnone] at houtcome
      simp only [Reply.outcome, Reply.just, List.length_singleton, Connection.deliver]
        at houtcome
      cases hwrite : turn.writeError 1 with
      | none =>
          rw [hwrite] at houtcome
          rw [houtcome] at hkept ⊢
          exact hkept rfl rfl rfl
      | some error =>
          rw [hwrite] at houtcome
          rw [houtcome] at hkept ⊢
          exact hkept rfl rfl rfl
  | some info =>
      rw [hlookup, hsome] at houtcome
      simp only [Reply.outcome, List.length_singleton, Connection.deliver] at houtcome
      cases hwrite : turn.writeError 1 with
      | none =>
          rw [hwrite] at houtcome
          rw [houtcome]
          intro username' mailbox hselected
          cases hselected
          refine ⟨info, info, hlookup, ?_, rfl⟩
          simp [foundBySelect, hlookup]
      | some error =>
          rw [hwrite] at houtcome
          rw [houtcome] at hkept ⊢
          exact hkept rfl rfl rfl

theorem registry_starttlsOutcome (connection : Connection) (session : Session) (turn : Turn)
    (tlsAcceptor : Bool) (registry : InMemoryMailboxes) (tag : String) :
    (starttlsOutcome connection session turn tlsAcceptor registry tag).registry = registry := by
  unfold starttlsOutcome
  simp only
  cases (connection.deliver 0 [Session.starttlsResponse tag session.isTls tlsAcceptor]).2 with
  | error error => rfl
  | ok written =>
      cases session.isTls || !tlsAcceptor with
      | true => rfl
      | false => cases turn.handshake <;> rfl

theorem registry_dispatch (mailboxes : Mailboxes InMemoryMailboxes) (tagHistory : TagHistory)
    (tag : String) (decision : Decision) :
    ((Plan.dispatch tagHistory tag decision).outcome mailboxes tlsAcceptor session turn
      registry).registry = (decision.answer (turn.context mailboxes) registry).2 :=
  registry_reply _ _ _ _ _ _

/-- A plan keeps the selection sound exactly if it does not delete what is
selected. -/
theorem selectionHolds_outcome_iff {plan : Plan}
    (hplan : ∀ tagHistory tag decision, plan = .dispatch tagHistory tag decision →
      ∃ command, commandDecision tag session.sessionState command = some decision)
    (hholds : SelectionHolds found (session, registry)) :
    let outcome := plan.outcome (inMemoryMailboxes engine order) tlsAcceptor session turn registry
    SelectionHolds (found ++ foundBySelect registry outcome.trace)
        (outcome.session, outcome.registry) ↔
      ¬ ∃ username mailbox tagHistory tag settle,
        session.sessionState = .selected username mailbox ∧
          plan = .dispatch tagHistory tag (.delete username mailbox settle) := by
  intro outcome
  have hfound (hget : ∀ tagHistory tag username name settle,
      plan ≠ .dispatch tagHistory tag (.get username name settle)) :
      found ++ foundBySelect registry outcome.trace = found := by
    rw [foundBySelect_of_plan hget, List.append_nil]
  cases plan with
  | idle =>
      rw [hfound (by simp)]
      exact iff_of_true hholds (by simp)
  | finish farewell result =>
      rw [hfound (by simp)]
      exact iff_of_true (hholds.kept (fun _ _ h => h) fun _ _ _ _ h => h) (by simp)
  | refuse tagHistory response =>
      rw [hfound (by simp)]
      exact iff_of_true (hholds.kept (fun _ _ h => h) fun _ _ _ _ h => h) (by simp)
  | starttls tagHistory tag =>
      rw [hfound (by simp)]
      have hregistry : outcome.registry = registry := registry_starttlsOutcome _ _ _ _ _ _
      have hstate : outcome.session.sessionState = session.sessionState :=
        sessionState_starttlsOutcome _ { session with tagHistory } turn tlsAcceptor registry tag
      refine iff_of_true (hholds.kept (fun username mailbox hselected => ?_) ?_) (by simp)
      · exact hstate.symm.trans hselected
      · intro username mailbox info _ hlookup
        rw [hregistry]
        exact hlookup
  | dispatch tagHistory tag decision =>
      obtain ⟨command, hdecision⟩ := hplan tagHistory tag decision rfl
      have hselects := commandDecision_selectsByGet hdecision
      have hregistry : outcome.registry =
          (decision.answer (turn.context (inMemoryMailboxes engine order)) registry).2 :=
        registry_dispatch _ tagHistory tag decision
      have hkept (hget : ∀ username name settle, decision ≠ .get username name settle)
          (hstored : ∀ username mailbox info, session.sessionState = .selected username mailbox →
            registry.state.mailboxes.lookup (username, mailbox) = some info →
            outcome.registry.state.mailboxes.lookup (username, mailbox) = some info) :
          SelectionHolds (found ++ foundBySelect registry outcome.trace)
            (outcome.session, outcome.registry) := by
        have hdispatch (tagHistory' : TagHistory) (tag' username name : String)
            (settle : Result (Option MailboxInfo) → Result Reply) :
            Plan.dispatch tagHistory tag decision ≠
              .dispatch tagHistory' tag' (.get username name settle) := by
          intro hsame
          exact hget username name settle (Plan.dispatch.inj hsame).2.2
        rw [hfound hdispatch]
        exact hholds.kept (fun username mailbox hselected =>
          selected_of_dispatch hselects hget _ _ _ hselected) hstored
      cases decision with
      | get username name settle =>
          obtain ⟨hnone, hsome⟩ := get_of_commandDecision hdecision
          exact iff_of_true (selectionHolds_get hnone hsome hholds) (by simp)
      | settled reply =>
          refine iff_of_true (hkept (by simp) fun username mailbox info _ hlookup => ?_) (by simp)
          rw [hregistry]
          exact hlookup
      | authenticate credentials settle =>
          refine iff_of_true (hkept (by simp) fun username mailbox info _ hlookup => ?_) (by simp)
          rw [hregistry]
          exact hlookup
      | create username name settle =>
          refine iff_of_true (hkept (by simp) fun username' mailbox info _ hlookup => ?_) (by simp)
          rw [hregistry]
          exact lookup_createMailbox_of_stored hlookup username name
      | list username filter settle =>
          refine iff_of_true (hkept (by simp) fun username' mailbox info _ hlookup => ?_) (by simp)
          obtain ⟨iterations, hlisted⟩ := listMailboxes_ok engine order username filter registry
          rw [hregistry, Decision.answer, Turn.context, inMemoryMailboxes]
          simp only [hlisted]
          exact hlookup
      | delete username name settle =>
          have hlookup (key : String × String) : outcome.registry.state.mailboxes.lookup key =
              if key = (username, name) then none else registry.state.mailboxes.lookup key := by
            rw [hregistry]
            exact lookup_deleteMailbox registry.state username name key
          constructor
          · rintro hafter ⟨username', mailbox, tagHistory', tag', settle', hselected, hdelete⟩
            cases hdelete
            have hstate : outcome.session.sessionState = .selected username name := by
              rcases session_reply ((Decision.delete username name settle).answer
                  (turn.context (inMemoryMailboxes engine order)) registry).1
                ⟨session.isTls, turn.writeError⟩ { session with tagHistory }
                ((Decision.delete username name settle).answer
                  (turn.context (inMemoryMailboxes engine order)) registry).2 tag
                ((Decision.delete username name settle).asked
                  (turn.context (inMemoryMailboxes engine order))) with
                hsame | ⟨reply, hreply, hnext⟩
              · exact (congrArg Session.sessionState hsame).trans hselected
              · cases hreply
                rw [delete_of_commandDecision hdecision] at hnext
                exact (congrArg Session.sessionState hnext).trans hselected
            obtain ⟨info, last, hstored, -⟩ := hafter username name hstate
            rw [hlookup, if_pos rfl] at hstored
            cases hstored
          · intro hdelete
            refine hkept (by simp) fun username' mailbox info hselected hstored => ?_
            rw [hlookup, if_neg]
            · exact hstored
            · intro hkey
              cases hkey
              exact hdelete ⟨username, name, tagHistory, tag, settle, hselected, rfl⟩

/-- A turn keeps the selection sound exactly if it does not delete what is
selected. -/
theorem selectionHolds_step [UnicodeCase] (state : Session × InMemoryMailboxes) (turn : Turn)
    (hholds : SelectionHolds found state) :
    SelectionHolds (found ++ foundInTurn engine order tlsAcceptor state turn)
        ((Session.machine (imapServer (inMemoryMailboxes engine order) tlsAcceptor)).step state
          turn).1 ↔
      ¬ state.1.DeletesSelected turn := by
  obtain ⟨session, registry⟩ := state
  unfold foundInTurn Session.DeletesSelected
  rw [machine_eq]
  refine selectionHolds_outcome_iff (fun tagHistory tag decision hplan => ?_) hholds
  obtain ⟨line, commandLine, command, -, -, -, hdecision⟩ := Session.plan_dispatch_cases hplan
  exact ⟨command, hdecision⟩

end Turn

/-! ## Runs -/

/--
The selected mailbox exists.  In a run of one session with the built-in handlers
over an in-memory registry of any content, at every point at which a mailbox is
selected it is stored, under the UID validity the last successful SELECT found
it with, exactly if no line deletes the mailbox that is selected when it comes.
-/
theorem selected_exists_iff [UnicodeCase] (engine : RegexEngine)
    (order : HashOrder (String × String) MailboxInfo) (tlsAcceptor : Bool)
    (started maxSession maxIdle : Nat) (isTls : Bool) (greeting : Option Error)
    (registry : InMemoryMailboxes) (inputs : List Turn) :
    let machine := Session.machine (imapServer (inMemoryMailboxes engine order) tlsAcceptor)
    let start := ((Session.new started maxSession maxIdle isTls).greeted greeting, registry)
    (∀ done rest, inputs = done ++ rest →
        SelectionHolds (machine.observed (foundInTurn engine order tlsAcceptor) start done)
          (machine.final start done)) ↔
      ∀ done turn rest, inputs = done ++ turn :: rest →
        ¬ (machine.final start done).1.DeletesSelected turn := by
  intro machine start
  have hstart : SelectionHolds [] start := by
    intro username mailbox hselected
    have hnew : start.1.sessionState = .notAuthenticated := by
      simp only [start, Session.greeted]
      cases greeting <;> rfl
    rw [hnew] at hselected
    cases hselected
  have hstep (found : List MailboxInfo) (state : Session × InMemoryMailboxes) (turn : Turn)
      (hholds : SelectionHolds found state) :
      SelectionHolds (found ++ foundInTurn engine order tlsAcceptor state turn)
          (machine.step state turn).1 ↔ ¬ state.1.DeletesSelected turn :=
    selectionHolds_step state turn hholds
  exact Machine.observed_always_iff_of_guard (fun _ _ hholds => hholds)
    (fun found state turn hholds => (hstep found state turn hholds).mp)
    (fun found state turn hholds => (hstep found state turn hholds).mpr) hstart inputs

/-- A session deletes the mailbox it has selected, and still has it selected. -/
theorem deleted_mailbox_stays_selected :
    let _ := UnicodeCase.ascii
    let machine := Session.machine (imapServer (inMemoryMailboxes .searching .listed) false)
    let start := (Session.new 0 3600 1800 false, InMemoryMailboxes.new)
    let inputs := ["a1 LOGIN ann x\r\n", "a2 CREATE box\r\n", "a3 SELECT box\r\n",
      "a4 DELETE box\r\n"].map (Turn.smooth fun _ => .ok true)
    ¬ SelectionHolds (machine.observed (foundInTurn .searching .listed false) start inputs)
      (machine.final start inputs) := by
  intro _ machine start inputs hholds
  have hselected : (machine.final start inputs).1.sessionState = .selected "ann" "box" := by
    decide +kernel
  have hgone : (machine.final start inputs).2.state.mailboxes.lookup ("ann", "box") = none := by
    decide +kernel
  obtain ⟨info, last, hstored, -⟩ := hholds "ann" "box" hselected
  rw [hgone] at hstored
  cases hstored

end Scuttled
