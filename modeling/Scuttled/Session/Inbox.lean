import Scuttled.Session.ListedNames

/-!
# INBOX under its spellings

DELETE and the exact filter of LIST take every spelling of INBOX for the one
mailbox; CREATE and SELECT compare names as they are parsed.  Here it is said which
runs of sessions keep one INBOX, and for which names SELECT and LIST agree.
-/

namespace Scuttled

open Rust Foundation

/-! ## The names of a user -/

/-- The user has a mailbox of exactly this name. -/
def InMemoryMailboxes.Stores (registry : InMemoryMailboxes) (username name : String) : Prop :=
  (registry.state.mailboxes.lookup (username, name)).isSome

instance (registry : InMemoryMailboxes) (username name : String) :
    Decidable (registry.Stores username name) := inferInstanceAs (Decidable (_ = _))

/-- The user has at most one mailbox called INBOX. -/
def InMemoryMailboxes.OneInbox (registry : InMemoryMailboxes) (username : String) : Prop :=
  ∀ name name', IsInbox name → IsInbox name' → registry.Stores username name →
    registry.Stores username name' → name = name'

/-! ## The commands a session is sent -/

/-- The command that a turn brings, if the history accepts its tag. -/
def Session.commandOf [UnicodeCase] (session : Session) (turn : Turn) : Option (String × Command) :=
  match session.lineOf turn with
  | none => none
  | some line =>
      match splitn2 ' ' line with
      | [tag, commandLine] =>
          match (session.tagHistory.register tag).1, parseCommand tag commandLine with
          | .ok (), .ok command => some (tag, command)
          | _, _ => none
      | _ => none

/-- The turn brings a line of a tag, which the history accepts, and a command line. -/
structure Session.Receives (session : Session) (turn : Turn) (tag commandLine : String) :
    Prop where
  line : session.lineOf turn = some (tag ++ " " ++ commandLine)
  spaceless : ' ' ∉ tag.toList
  accepted : (session.tagHistory.register tag).1 = .ok ()

/-- CREATE of INBOX in another spelling. -/
def Command.RespellsInbox : Command → Prop
  | .create name => IsInbox name ∧ name ≠ "INBOX"
  | _ => False

instance (command : Command) : Decidable command.RespellsInbox :=
  match command with
  | .create _ => inferInstanceAs (Decidable (_ ∧ _))
  | .capability | .noop | .logout | .starttls | .login _ _ | .select _ | .examine _ | .delete _
  | .list _ _ | .close | .expunge | .custom _ _ => inferInstanceAs (Decidable False)

/-- A session of the user is sent CREATE of INBOX in another spelling. -/
def Session.RespellsInbox [UnicodeCase] (session : Session) (username : String) (turn : Turn) :
    Prop :=
  session.sessionState.username = some username ∧
    ∃ received ∈ session.commandOf turn, received.2.RespellsInbox

instance [UnicodeCase] (session : Session) (username : String) (turn : Turn) :
    Decidable (session.RespellsInbox username turn) := inferInstanceAs (Decidable (_ ∧ _))

/-- The command of the tag is answered with OK. -/
def SaysOk (tag : String) (trace : List Action) : Prop :=
  ∃ message, .ok (some tag) message ∈ sent trace

def ShowsMailbox (trace : List Action) : Prop :=
  ∃ name, .untagged (listMessage name) ∈ sent trace

section Lines

variable [UnicodeCase] {session : Session} {turn : Turn} {tag commandLine : String}
  {command : Command}

theorem plan_of_commandOf (hcommand : session.commandOf turn = some (tag, command)) :
    ∃ tagHistory, session.plan turn = commandPlan tagHistory tag session.sessionState command := by
  unfold Session.commandOf at hcommand
  split at hcommand
  · cases hcommand
  · rename_i line hline
    split at hcommand
    · rename_i tag' commandLine hsplit
      split at hcommand
      · rename_i haccepted hparse
        cases hcommand
        rcases hregister : session.tagHistory.register tag with ⟨result, tagHistory⟩
        rw [hregister] at haccepted
        obtain rfl : result = .ok () := haccepted
        refine ⟨tagHistory, ?_⟩
        rw [Session.plan, hline]
        simp only [Session.linePlan, hsplit, hregister, hparse]
      · cases hcommand
    · cases hcommand

theorem commandOf_of_dispatch {tagHistory : TagHistory} {decision : Decision}
    (hplan : session.plan turn = .dispatch tagHistory tag decision) :
    ∃ command, session.commandOf turn = some (tag, command) ∧
      (∀ argument ∈ command.arguments, IsArgument argument) ∧
      commandDecision tag session.sessionState command = some decision := by
  obtain ⟨line, commandLine, command, hline, hsplit, hparse, hdecision⟩ :=
    Session.plan_dispatch_cases hplan
  refine ⟨command, ?_, isArgument_of_parseCommand hparse, hdecision⟩
  rw [Session.plan, hline] at hplan
  simp only [Session.linePlan, hsplit] at hplan
  rcases hregister : session.tagHistory.register tag with ⟨result, tagHistory'⟩
  rw [hregister] at hplan
  cases result with
  | error error => cases hplan
  | ok accepted =>
      have haccepted : (session.tagHistory.register tag).1 = .ok () := congrArg Prod.fst hregister
      simp only [Session.commandOf, hline, hsplit, haccepted, hparse]

theorem isArgument_of_create {name : String}
    (hcommand : session.commandOf turn = some (tag, .create name)) : IsArgument name := by
  unfold Session.commandOf at hcommand
  split at hcommand
  · cases hcommand
  · split at hcommand
    · split at hcommand
      · rename_i hparse
        cases hcommand
        exact isArgument_of_parseCommand hparse name List.mem_cons_self
      · cases hcommand
    · cases hcommand

end Lines

/-! ## What a turn does to the names -/

theorem ne_inbox_of_delete {tag username name : String} {currentState : SessionState}
    {command : Command} {settle : Result Unit → Reply}
    (hdecision : commandDecision tag currentState command =
      some (.delete username name settle)) : ¬ IsInbox name := by
  cases asks_of_commandDecision hdecision (by simp) with
  | @delete _ mailbox _ husername hname hnext =>
      intro hinbox
      have hspelled : eqIgnoreAsciiCase (trim mailbox) "INBOX" = true := hinbox
      rw [commandDecision, deleteDecision, if_pos hspelled] at hdecision
      cases hdecision

section Turns

variable [UnicodeCase] {engine : RegexEngine} {order : HashOrder (String × String) MailboxInfo}
  {tlsAcceptor : Bool} {session : Session} {turn : Turn} {registry : InMemoryMailboxes}
  {username : String}

/-- A turn creates what its command says, deletes another mailbox than INBOX, or leaves
the mailboxes as they are. -/
theorem registry_outcome_cases (engine : RegexEngine)
    (order : HashOrder (String × String) MailboxInfo) (tlsAcceptor : Bool) (session : Session)
    (turn : Turn) (registry : InMemoryMailboxes) :
    let reached := (session.outcome (inMemoryMailboxes engine order) tlsAcceptor turn
      registry).registry
    reached.state = registry.state ∨
    (∃ username tag name, session.sessionState.username = some username ∧
      session.commandOf turn = some (tag, .create name) ∧
      reached.state = (registry.state.createMailbox username name).2) ∨
    ∃ username name, ¬ IsInbox name ∧
      reached.state = (registry.state.deleteMailbox username name).2 := by
  intro reached
  cases hplan : session.plan turn with
  | idle =>
      left
      simp only [reached, Session.outcome, hplan, Plan.outcome]
  | finish farewell result =>
      left
      simp only [reached, Session.outcome, hplan, Plan.outcome]
  | refuse tagHistory response =>
      left
      simp only [reached, Session.outcome, hplan, Plan.outcome]
  | starttls tagHistory tag =>
      left
      simp only [reached, Session.outcome, hplan, Plan.outcome, registry_starttlsOutcome]
  | dispatch tagHistory tag decision =>
      have hreached : reached = (decision.answer
          (turn.context (inMemoryMailboxes engine order)) registry).2 := by
        simp only [reached, Session.outcome, hplan, registry_dispatch]
      rw [hreached]
      obtain ⟨command, hcommand, harguments, hdecision⟩ := commandOf_of_dispatch hplan
      cases decision with
      | settled reply => exact .inl rfl
      | authenticate credentials settle => exact .inl rfl
      | get username name settle => exact .inl rfl
      | create username name settle =>
          refine .inr (.inl ?_)
          cases asks_of_commandDecision hdecision (by simp) with
          | @create _ mailbox _ husername hname =>
              have htrim := (harguments mailbox (by simp [Command.arguments])).trim_eq
              refine ⟨username, tag, mailbox, husername, hcommand, ?_⟩
              rw [Decision.answer, htrim]
              rfl
      | delete username name settle =>
          exact .inr (.inr ⟨username, name, ne_inbox_of_delete hdecision, rfl⟩)
      | list username filter settle =>
          obtain ⟨iterations, hlisted⟩ := listMailboxes_ok engine order username filter registry
          left
          rw [Decision.answer, Turn.context, inMemoryMailboxes]
          simp only [hlisted]

omit [UnicodeCase] in
theorem stores_iff_of_create {reached : InMemoryMailboxes} {username' name' name : String}
    (hreached : reached.state = (registry.state.createMailbox username' name').2) :
    reached.Stores username name ↔
      (username, name) = (username', name') ∨ registry.Stores username name := by
  rw [InMemoryMailboxes.Stores, hreached, MailboxState.isSome_lookup_createMailbox,
    Bool.or_eq_true, decide_eq_true_eq]
  rfl

omit [UnicodeCase] in
theorem stores_iff_of_delete {reached : InMemoryMailboxes} {username' name' name : String}
    (hreached : reached.state = (registry.state.deleteMailbox username' name').2) :
    reached.Stores username name ↔
      (username, name) ≠ (username', name') ∧ registry.Stores username name := by
  rw [InMemoryMailboxes.Stores, hreached, lookup_deleteMailbox]
  split
  · rename_i hsame
    simp [hsame]
  · rename_i hother
    simp only [ne_eq, hother, not_false_eq_true, true_and]
    rfl

theorem wellFormed_outcome (hregistry : registry.state.WellFormed) :
    (session.outcome (inMemoryMailboxes engine order) tlsAcceptor turn
      registry).registry.state.WellFormed := by
  rcases registry_outcome_cases engine order tlsAcceptor session turn registry with
    hsame | ⟨username, tag, name, -, -, hcreated⟩ | ⟨username, name, -, hdeleted⟩
  · rw [hsame]
    exact hregistry
  · rw [hcreated]
    exact hregistry.createMailbox username name
  · rw [hdeleted]
    exact hregistry.deleteMailbox username name

theorem stores_inbox_outcome (hinbox : registry.Stores username "INBOX") :
    (session.outcome (inMemoryMailboxes engine order) tlsAcceptor turn registry).registry.Stores
      username "INBOX" := by
  rcases registry_outcome_cases engine order tlsAcceptor session turn registry with
    hsame | ⟨user, tag, name, -, -, hcreated⟩ | ⟨user, name, hother, hdeleted⟩
  · rw [InMemoryMailboxes.Stores, hsame]
    exact hinbox
  · exact (stores_iff_of_create hcreated).mpr (.inr hinbox)
  · refine (stores_iff_of_delete hdeleted).mpr ⟨fun hsame => hother ?_, hinbox⟩
    rw [← (Prod.mk.inj hsame).2]
    decide

theorem stores_of_commandOf {tag name : String}
    (husername : session.sessionState.username = some username)
    (hcommand : session.commandOf turn = some (tag, .create name)) (hnonempty : name ≠ "") :
    (session.outcome (inMemoryMailboxes engine order) tlsAcceptor turn registry).registry.Stores
      username name := by
  obtain ⟨tagHistory, hplan⟩ := plan_of_commandOf hcommand
  simp only [commandPlan] at hplan
  rw [if_neg (ne_notAuthenticated husername), createDecision,
    namedDecision_eq (isArgument_of_create hcommand) hnonempty husername] at hplan
  rw [Session.outcome, hplan, registry_dispatch]
  exact (stores_iff_of_create rfl).mpr (.inl rfl)

/-- A turn leaves one INBOX, unless CREATE is sent for another spelling. -/
theorem oneInbox_outcome_iff (hinbox : registry.Stores username "INBOX")
    (hone : registry.OneInbox username) :
    (session.outcome (inMemoryMailboxes engine order) tlsAcceptor turn registry).registry.OneInbox
      username ↔ ¬ session.RespellsInbox username turn := by
  constructor
  · rintro hafter ⟨husername, ⟨tag, command⟩, hcommand, hrespells⟩
    cases command with
    | create name =>
        obtain ⟨hspelled, hother⟩ := hrespells
        have hnonempty : name ≠ "" := by
          rintro rfl
          exact absurd hspelled (by decide)
        exact hother (hafter name "INBOX" hspelled (by decide)
          (stores_of_commandOf husername hcommand hnonempty) (stores_inbox_outcome hinbox))
    | _ => exact hrespells
  · intro hkept
    rcases registry_outcome_cases engine order tlsAcceptor session turn registry with
      hsame | ⟨user, tag, created, huser, hcommand, hcreated⟩ | ⟨user, name, -, hdeleted⟩
    · intro name name' hspelled hspelled' hstored hstored'
      rw [InMemoryMailboxes.Stores, hsame] at hstored hstored'
      exact hone name name' hspelled hspelled' hstored hstored'
    · -- a spelling that is stored now was stored before
      have hbefore {name : String} (hspelled : IsInbox name)
          (hstored : (session.outcome (inMemoryMailboxes engine order) tlsAcceptor turn
            registry).registry.Stores username name) : registry.Stores username name := by
        rcases (stores_iff_of_create hcreated).mp hstored with hnew | hold
        · obtain ⟨rfl, rfl⟩ := Prod.mk.inj hnew
          have hsame : name = "INBOX" := by
            by_contra hother
            exact hkept ⟨huser, (tag, .create name), hcommand, hspelled, hother⟩
          rw [hsame]
          exact hinbox
        · exact hold
      intro name name' hspelled hspelled' hstored hstored'
      exact hone name name' hspelled hspelled' (hbefore hspelled hstored)
        (hbefore hspelled' hstored')
    · intro name name' hspelled hspelled' hstored hstored'
      exact hone name name' hspelled hspelled' ((stores_iff_of_delete hdeleted).mp hstored).2
        ((stores_iff_of_delete hdeleted).mp hstored').2

end Turns

/-! ## What SELECT and LIST see -/

section Answers

variable [UnicodeCase] {engine : RegexEngine} {order : HashOrder (String × String) MailboxInfo}
  {tlsAcceptor : Bool} {session : Session} {turn : Turn} {registry : InMemoryMailboxes}
  {username tag word name : String}

theorem sent_of_dispatch (hwrites : turn.WritesSucceed) {tagHistory : TagHistory}
    {decision : Decision} {reply : Reply}
    (hplan : session.plan turn = .dispatch tagHistory tag decision)
    (hanswer : (decision.answer (turn.context (inMemoryMailboxes engine order)) registry).1 =
      .ok reply) :
    sent (session.outcome (inMemoryMailboxes engine order) tlsAcceptor turn registry).trace =
      reply.responses := by
  rw [Session.outcome, hplan]
  simp only [Plan.outcome, hanswer, Reply.outcome]
  rw [deliver_of_succeed ⟨session.isTls, turn.writeError⟩ hwrites]
  simp

/-- SELECT succeeds for the names that are stored, without their quotes. -/
theorem saysOk_select_iff (husername : session.sessionState.username = some username)
    (hword : eqIgnoreAsciiCase word "SELECT" = true)
    (hreceives : session.Receives turn tag (word ++ " " ++ name))
    (hwrites : turn.WritesSucceed) (hname : IsToken name) :
    SaysOk tag (session.outcome (inMemoryMailboxes engine order) tlsAcceptor turn registry).trace ↔
      unquote name ≠ "" ∧ registry.Stores username (unquote name) := by
  have hparse : parseCommand tag (word ++ " " ++ name) = .ok (.select (unquote name)) := by
    rw [parseCommand_select hword, splitWhitespace_of_isToken hname]
  have hargument : IsArgument (unquote name) := isArgument_unquote hname.noWhitespace
  obtain ⟨tagHistory, hplan⟩ :=
    plan_of_line hreceives.line hreceives.spaceless hreceives.accepted hparse
  simp only [commandPlan] at hplan
  rw [if_neg (ne_notAuthenticated husername), selectDecision] at hplan
  unfold SaysOk InMemoryMailboxes.Stores
  by_cases hempty : unquote name = ""
  · rw [namedDecision, hempty] at hplan
    rw [sent_of_dispatch hwrites hplan rfl]
    simp [hempty, Reply.just]
  · rw [namedDecision_eq hargument hempty husername] at hplan
    obtain ⟨settle, hdispatch, hnone, hsome⟩ : ∃ settle, session.plan turn =
        .dispatch tagHistory tag (.get username (unquote name) settle) ∧
        settle (.ok none) = .ok
          (.just (.no (some tag) ("Mailbox does not exist: " ++ unquote name))) ∧
        ∀ info, settle (.ok (some info)) = .ok
          { responses := [.ok (some tag) ("SELECT completed for " ++ unquote name)]
            next := some (.selected username (unquote name)) } :=
      ⟨_, hplan, rfl, fun _ => rfl⟩
    have hanswer : ((Decision.get username (unquote name) settle).answer
        (turn.context (inMemoryMailboxes engine order)) registry).1 =
        settle (.ok (registry.state.mailboxes.lookup (username, unquote name))) := rfl
    cases hlookup : registry.state.mailboxes.lookup (username, unquote name) with
    | none =>
        rw [hlookup, hnone] at hanswer
        rw [sent_of_dispatch hwrites hdispatch hanswer]
        simp [Reply.just]
    | some info =>
        rw [hlookup, hsome] at hanswer
        rw [sent_of_dispatch hwrites hdispatch hanswer]
        simp [hempty]

omit [UnicodeCase] in
theorem patternToFilter_of_wildcardFree {pattern : String} (hfree : WildcardFree pattern.toList) :
    patternToFilter pattern = .exact pattern := by
  have hstar : contains '*' pattern = false := by simpa [contains] using hfree.1
  have hpercent : contains '%' pattern = false := by simpa [contains] using hfree.2
  have hall : (pattern == "*") = false := by
    rw [beq_eq_false_iff_ne]
    rintro rfl
    exact hfree.1 (by decide)
  simp only [patternToFilter, hall, hstar, hpercent, Bool.not_false, Bool.and_self,
    Bool.false_eq_true, if_false, if_true]

omit [UnicodeCase] in
theorem listDecision_of_argument (tag : String) (hargument : IsArgument name) (hnonempty : name ≠ "")
    (hfree : WildcardFree name.toList)
    (husername : session.sessionState.username = some username) :
    ∃ settle, listDecision tag ("" ++ " " ++ name) session.sessionState =
        .list username (.exact name) settle ∧
      ∀ infos, settle (.ok infos) =
        { responses := infos.map listLine ++ [.ok (some tag) "LIST completed"]
          next := none } := by
  have hquotes : IsArgument "" := ⟨by decide, rfl⟩
  have hpattern : effectivePattern "" name = name := hargument.unquote_eq
  have hsplit : splitWhitespace ("" ++ " " ++ name) = [name] := by
    rw [splitWhitespace_arguments hquotes hargument]
    simp [hnonempty]
  rw [listDecision, listParseArgs, hsplit]
  simp only
  rw [husername, hpattern, patternToFilter_of_wildcardFree hfree]
  exact ⟨_, rfl, fun _ => rfl⟩

omit [UnicodeCase] in
/-- What the exact filter accepts of the mailboxes of a user: the one of this name, and for
a spelling of INBOX every spelling. -/
theorem accepted_iff (hregistry : registry.state.WellFormed) (pattern : String) :
    (∃ info ∈ registry.iterateOf order username,
        MailboxFilter.accepts engine info.id.name (.exact pattern) = true) ↔
      registry.Stores username pattern ∨
        IsInbox pattern ∧ ∃ stored, IsInbox stored ∧ registry.Stores username stored := by
  constructor
  · rintro ⟨info, hinfo, haccepts⟩
    have hstored : registry.Stores username info.id.name :=
      Option.isSome_of_eq_some ((mem_iterateOf_iff hregistry).mp hinfo)
    rw [MailboxFilter.accepts] at haccepts
    split at haccepts
    · rename_i hinbox
      rw [Bool.and_eq_true] at hinbox
      exact .inr ⟨hinbox.2, info.id.name, hinbox.1, hstored⟩
    · rw [← beq_iff_eq.mp haccepts]
      exact .inl hstored
  · intro hfound
    obtain ⟨stored, hstored, haccepts⟩ : ∃ stored, registry.Stores username stored ∧
        MailboxFilter.accepts engine stored (.exact pattern) = true := by
      rcases hfound with hstored | ⟨hinbox, stored, hspelled, hstored⟩
      · refine ⟨pattern, hstored, ?_⟩
        simp [MailboxFilter.accepts]
      · refine ⟨stored, hstored, ?_⟩
        rw [MailboxFilter.accepts, if_pos (Bool.and_eq_true _ _ ▸ ⟨hspelled, hinbox⟩)]
    obtain ⟨info, hlookup⟩ := Option.isSome_iff_exists.mp hstored
    have hid : info.id.name = stored := by rw [hregistry.id_of_lookup hlookup]
    refine ⟨info, ?_, hid ▸ haccepts⟩
    rw [mem_iterateOf_iff hregistry, hid]
    exact hlookup

/-- LIST shows a mailbox for the names that are stored, without their quotes, and for
every spelling of INBOX if one is stored. -/
theorem showsMailbox_list_iff (hregistry : registry.state.WellFormed)
    (husername : session.sessionState.username = some username)
    (hword : eqIgnoreAsciiCase word "LIST" = true)
    (hreceives : session.Receives turn tag (word ++ " " ++ ("\"\" " ++ name)))
    (hwrites : turn.WritesSucceed) (hname : IsToken name)
    (hfree : WildcardFree name.toList) :
    ShowsMailbox (session.outcome (inMemoryMailboxes engine order) tlsAcceptor turn
        registry).trace ↔
      unquote name ≠ "" ∧ (registry.Stores username (unquote name) ∨
        IsInbox (unquote name) ∧ ∃ stored, IsInbox stored ∧ registry.Stores username stored) := by
  have hquotes : IsToken "\"\"" := ⟨by decide, by decide⟩
  have hsplit : splitWhitespace ("\"\" " ++ name) = ["\"\"", name] := by
    have hsplit := splitWhitespace_token_append hquotes name
    rwa [splitWhitespace_of_isToken hname] at hsplit
  have hparse : parseCommand tag (word ++ " " ++ ("\"\" " ++ name)) =
      .ok (.list "" (unquote name)) := by
    rw [parseCommand_list hword, hsplit]
    rfl
  have hargument : IsArgument (unquote name) := isArgument_unquote hname.noWhitespace
  have hplain : WildcardFree (unquote name).toList :=
    ⟨fun hstar => hfree.1 (mem_of_mem_trimMatches hstar),
      fun hpercent => hfree.2 (mem_of_mem_trimMatches hpercent)⟩
  obtain ⟨tagHistory, hplan⟩ :=
    plan_of_line hreceives.line hreceives.spaceless hreceives.accepted hparse
  simp only [commandPlan] at hplan
  rw [if_neg (ne_notAuthenticated husername)] at hplan
  unfold ShowsMailbox
  by_cases hempty : unquote name = ""
  · rw [hempty] at hplan
    rw [sent_of_dispatch hwrites hplan rfl]
    simp [hempty, Reply.just]
  · obtain ⟨settle, hdecision, hsettle⟩ :=
      listDecision_of_argument tag hargument hempty hplain husername
    rw [hdecision] at hplan
    obtain ⟨iterations, hlisted⟩ :=
      listMailboxes_ok engine order username (.exact (unquote name)) registry
    have hanswer : ((Decision.list username (.exact (unquote name)) settle).answer
        (turn.context (inMemoryMailboxes engine order)) registry).1 =
        .ok (settle (InMemoryMailboxes.listMailboxes engine order username
          (.exact (unquote name)) registry).1) := rfl
    rw [hlisted, hsettle] at hanswer
    rw [sent_of_dispatch hwrites hplan hanswer]
    rw [← accepted_iff hregistry (unquote name), and_iff_right hempty]
    constructor
    · rintro ⟨shown, hshown⟩
      obtain ⟨info, hinfo, -⟩ := List.mem_map.mp ((List.mem_append.mp hshown).resolve_right (by simp))
      exact ⟨info, List.mem_filter.mp hinfo⟩
    · rintro ⟨info, hinfo, haccepts⟩
      refine ⟨info.id.name, List.mem_append_left _ ?_⟩
      exact List.mem_map_of_mem (List.mem_filter.mpr ⟨hinfo, haccepts⟩)

end Answers

/-! ## One INBOX, and agreement about it -/

/--
Along a run of sessions on a registry where a user has INBOX, the user has one INBOX
exactly if there was one at first and no session of the user is sent CREATE of another
spelling.  In each state SELECT and LIST agree on a name, except on a spelling of INBOX
under which no mailbox is stored.
-/
theorem inbox_agreement {Id : Type} [DecidableEq Id] [UnicodeCase] (engine : RegexEngine)
    (order : HashOrder (String × String) MailboxInfo) (tlsAcceptor : Bool)
    (system : System Id InMemoryMailboxes) (hregistry : system.registry.state.WellFormed)
    (username : String) (hinbox : system.registry.Stores username "INBOX")
    (inputs : List (Id × Turn))
    (machine : Machine (System Id InMemoryMailboxes) (Id × Turn) (List Action))
    (hmachine : machine =
      System.machine (imapServer (inMemoryMailboxes engine order) tlsAcceptor)) :
    ((∀ done rest, inputs = done ++ rest →
        (machine.final system done).registry.OneInbox username) ↔
      system.registry.OneInbox username ∧ machine.Meets
        (fun system input => ¬ (system.sessions input.1).RespellsInbox username input.2)
        system inputs) ∧
    ∀ done rest, inputs = done ++ rest → ∀ reached, reached = machine.final system done →
      ∀ id id', (reached.sessions id).sessionState.username = some username →
        (reached.sessions id').sessionState.username = some username →
        ∀ select, eqIgnoreAsciiCase select "SELECT" = true →
        ∀ list, eqIgnoreAsciiCase list "LIST" = true →
        ∀ name, IsToken name → WildcardFree name.toList →
        ∀ tag turn, (reached.sessions id).Receives turn tag (select ++ " " ++ name) →
          turn.WritesSucceed →
        ∀ tag' turn', (reached.sessions id').Receives turn' tag' (list ++ " " ++ ("\"\" " ++ name)) →
          turn'.WritesSucceed →
          ((SaysOk tag (machine.step reached (id, turn)).2 ↔
              ShowsMailbox (machine.step reached (id', turn')).2) ↔
            (IsInbox (unquote name) → reached.registry.Stores username (unquote name))) := by
  rw [System.machine_eq] at hmachine
  subst hmachine
  have hkept (done : List (Id × Turn)) :
      ((System.outcomes (inMemoryMailboxes engine order) tlsAcceptor).final system
          done).registry.state.WellFormed ∧
        ((System.outcomes (inMemoryMailboxes engine order) tlsAcceptor).final system
          done).registry.Stores username "INBOX" := by
    let Inv (system : System Id InMemoryMailboxes) : Prop :=
      system.registry.state.WellFormed ∧ system.registry.Stores username "INBOX"
    have hstep (system : System Id InMemoryMailboxes) (input : Id × Turn) (_ : input ∈ done)
        (hinv : Inv system) :
        Inv ((System.outcomes (inMemoryMailboxes engine order) tlsAcceptor).step system input).1 :=
      ⟨wellFormed_outcome hinv.1, stores_inbox_outcome hinv.2⟩
    have hsystem : Inv system := ⟨hregistry, hinbox⟩
    exact Machine.final_invariant hstep hsystem
  constructor
  · let Inv (system : System Id InMemoryMailboxes) : Prop :=
      system.registry.Stores username "INBOX" ∧ system.registry.OneInbox username
    let guard (system : System Id InMemoryMailboxes) (input : Id × Turn) : Prop :=
      ¬ (system.sessions input.1).RespellsInbox username input.2
    have hstep (system : System Id InMemoryMailboxes) (input : Id × Turn) (_ : input ∈ inputs)
        (hinv : Inv system) :
        Inv ((System.outcomes (inMemoryMailboxes engine order) tlsAcceptor).step system input).1 ↔
          guard system input := by
      have hone : (system.outcome (inMemoryMailboxes engine order) tlsAcceptor
          input).registry.OneInbox username ↔ guard system input :=
        oneInbox_outcome_iff hinv.1 hinv.2
      exact (and_iff_right (stores_inbox_outcome hinv.1)).trans hone
    constructor
    · intro halways
      have hone := halways [] inputs rfl
      have hsystem : Inv system := ⟨hinbox, hone⟩
      refine ⟨hone, Machine.meets_iff.mpr
        ((Machine.always_iff_of_guard inputs hstep hsystem).mp ?_)⟩
      exact fun done rest hsplit => ⟨(hkept done).2, halways done rest hsplit⟩
    · rintro ⟨hone, hrespells⟩ done rest hsplit
      have hsystem : Inv system := ⟨hinbox, hone⟩
      exact ((Machine.always_iff_of_guard inputs hstep hsystem).mpr
        (Machine.meets_iff.mp hrespells) done rest hsplit).2
  · intro done rest hsplit reached hreached id id' husername husername' select hselect list hlist
      name hname hfree tag turn hreceives hwrites tag' turn' hreceives' hwrites'
    obtain ⟨hwellFormed, hstored⟩ := hkept done
    rw [← hreached] at hwellFormed hstored
    refine Iff.trans (iff_congr (saysOk_select_iff husername hselect hreceives hwrites hname)
      (showsMailbox_list_iff hwellFormed husername' hlist hreceives' hwrites' hname hfree)) ?_
    by_cases hspelled : IsInbox (unquote name)
    · have hnonempty : unquote name ≠ "" := by
        intro hempty
        rw [hempty] at hspelled
        exact absurd hspelled (by decide)
      have hlisted : reached.registry.Stores username (unquote name) ∨
          IsInbox (unquote name) ∧
            ∃ stored, IsInbox stored ∧ reached.registry.Stores username stored :=
        .inr ⟨hspelled, "INBOX", by decide, hstored⟩
      have hshows : unquote name ≠ "" ∧ (reached.registry.Stores username (unquote name) ∨
          IsInbox (unquote name) ∧
            ∃ stored, IsInbox stored ∧ reached.registry.Stores username stored) :=
        ⟨hnonempty, hlisted⟩
      rw [iff_true_right hshows, and_iff_right hnonempty, forall_prop_of_true hspelled]
    · simp only [hspelled, false_and, or_false, false_implies, iff_self]

/-- The registry of a user with INBOX. -/
def withInbox (username : String) : InMemoryMailboxes :=
  { state := (MailboxState.new.createMailbox username "INBOX").2, iterations := 0 }

/-- A server with one session, on the registry of a user with INBOX. -/
def inboxSystem : System Unit InMemoryMailboxes :=
  .new (fun _ => 0) (fun _ => 3600) (fun _ => 1800) (fun _ => false) (fun _ => none)
    (withInbox "ann")

/-- The line arrives in time, every password is right and every write succeeds. -/
def smoothTurn (line : String) : Turn := Turn.smooth (fun _ => .ok true) line

theorem oneInbox_withInbox : (withInbox "ann").OneInbox "ann" := by
  have honly {found : String} (hfound : (withInbox "ann").Stores "ann" found) :
      found = "INBOX" := by
    rw [InMemoryMailboxes.Stores, withInbox, MailboxState.isSome_lookup_createMailbox] at hfound
    simpa [MailboxState.new] using hfound
  intro name name' _ _ hstored hstored'
  rw [honly hstored, honly hstored']

/-- The law for a session that creates another mailbox, deletes it, and tries to
delete INBOX; a quoted INBOX is selected and listed after that. -/
theorem inbox_agreement_box :
    let _ := UnicodeCase.ascii
    let machine := System.machine (imapServer (inMemoryMailboxes .searching .listed) false)
    let reached := machine.final inboxSystem
      [((), smoothTurn "a1 LOGIN ann x\r\n"), ((), smoothTurn "a2 CREATE box\r\n"),
        ((), smoothTurn "a3 DELETE box\r\n"), ((), smoothTurn "a4 DELETE inbox\r\n")]
    reached.registry.OneInbox "ann" ∧
      (SaysOk "a5" (machine.step reached ((), smoothTurn "a5 SELECT \"INBOX\"\r\n")).2 ↔
        ShowsMailbox (machine.step reached ((), smoothTurn "a6 LIST \"\" \"INBOX\"\r\n")).2) := by
  intro _ machine reached
  let inputs : List (Unit × Turn) := [((), smoothTurn "a1 LOGIN ann x\r\n"),
    ((), smoothTurn "a2 CREATE box\r\n"), ((), smoothTurn "a3 DELETE box\r\n"),
    ((), smoothTurn "a4 DELETE inbox\r\n")]
  obtain ⟨hone, hagree⟩ := inbox_agreement .searching .listed false inboxSystem
    (MailboxState.wellFormed_new.createMailbox _ _) "ann" (by decide) inputs machine rfl
  have husername : (reached.sessions ()).sessionState.username = some "ann" := by
    decide +kernel
  constructor
  · refine hone.mpr ⟨oneInbox_withInbox, ?_⟩ inputs [] (List.append_nil _).symm
    exact ⟨by decide +kernel, by decide +kernel, by decide +kernel, by decide +kernel, trivial⟩
  · have hselect : (reached.sessions ()).Receives (smoothTurn "a5 SELECT \"INBOX\"\r\n") "a5"
        ("SELECT" ++ " " ++ "\"INBOX\"") :=
      ⟨by decide +kernel, by decide, by decide +kernel⟩
    have hlist : (reached.sessions ()).Receives (smoothTurn "a6 LIST \"\" \"INBOX\"\r\n") "a6"
        ("LIST" ++ " " ++ ("\"\" " ++ "\"INBOX\"")) :=
      ⟨by decide +kernel, by decide, by decide +kernel⟩
    have hstored : reached.registry.Stores "ann" (unquote "\"INBOX\"") := by
      decide +kernel
    exact (hagree inputs [] (List.append_nil _).symm reached rfl () () husername husername
      "SELECT" (by decide) "LIST" (by decide) "\"INBOX\"" ⟨by decide, by decide⟩
      ⟨by decide, by decide⟩ "a5" _ hselect (fun _ => rfl) "a6" _ hlist (fun _ => rfl)).mpr
        fun _ => hstored

/-- A user with INBOX: SELECT of `inbox` fails and LIST returns INBOX for it; and
CREATE makes a second mailbox of that name. -/
theorem respelled_inbox :
    let _ := UnicodeCase.ascii
    let machine := System.machine (imapServer (inMemoryMailboxes .searching .listed) false)
    let reached := machine.final inboxSystem [((), smoothTurn "a1 LOGIN ann x\r\n")]
    (¬ SaysOk "a2" (machine.step reached ((), smoothTurn "a2 SELECT inbox\r\n")).2 ∧
        ShowsMailbox (machine.step reached ((), smoothTurn "a3 LIST \"\" inbox\r\n")).2) ∧
      ¬ (machine.step reached ((), smoothTurn "a2 CREATE inbox\r\n")).1.registry.OneInbox "ann" := by
  intro _ machine reached
  have hselect : sent (machine.step reached ((), smoothTurn "a2 SELECT inbox\r\n")).2 =
      [.no (some "a2") "Mailbox does not exist: inbox"] := by
    decide +kernel
  have hlist : sent (machine.step reached ((), smoothTurn "a3 LIST \"\" inbox\r\n")).2 =
      [.untagged (listMessage "INBOX"), .ok (some "a3") "LIST completed"] := by
    decide +kernel
  have hstores : (machine.step reached ((), smoothTurn "a2 CREATE inbox\r\n")).1.registry.Stores
      "ann" "INBOX" ∧ (machine.step reached
        ((), smoothTurn "a2 CREATE inbox\r\n")).1.registry.Stores "ann" "inbox" := by
    decide +kernel
  refine ⟨⟨?_, "INBOX", ?_⟩, fun hone => ?_⟩
  · rintro ⟨message, hmem⟩
    rw [hselect] at hmem
    simp at hmem
  · rw [hlist]
    exact List.mem_cons_self
  · exact absurd (hone "INBOX" "inbox" (by decide) (by decide) hstores.1 hstores.2) (by decide)

end Scuttled
