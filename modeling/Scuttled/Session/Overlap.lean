import Scuttled.Foundation.Turns
import Scuttled.Mailboxes.Directory
import Scuttled.Session.ListedNames

/-!
# Sessions whose turns overlap

The task of a session waits in the middle of a turn, for room in the channel of the
registry, for its lock or for its reply, and other sessions read lines and end turns of
theirs meanwhile.  The system of sessions takes each turn in one go.  Both come to the
same for the clients and the registry.
-/

namespace Scuttled

open Rust Foundation

variable {Id R : Type}

/-! ## Where a turn waits -/

/-- The call of the registry a handler makes. -/
def Decision.call : Decision → Option RegistryCall
  | .settled _ | .authenticate _ _ => none
  | .create username name _ => some (.write (.create username name))
  | .get username name _ => some (.getMailbox username name)
  | .delete username name _ => some (.write (.delete username name))
  | .list username filter _ => some (.listMailboxes username filter)

/-- The call of the registry a turn makes. -/
def Plan.call : Plan → Option RegistryCall
  | .dispatch _ _ decision => decision.call
  | _ => none

/-- A call without a reply, or with that of another kind of call, which the types of the
channels exclude. -/
def noReply {α : Type} : Result α := .error (.internal "Failed to receive response")

/-- The registry as a turn sees it that has its reply. -/
def answering (reply : Option RegistryReply) : Mailboxes Unit where
  createMailbox _ _ :=
    return match reply with
      | some (.written (.info result)) => result
      | _ => noReply
  getMailbox _ _ :=
    return match reply with
      | some (.found result) => result
      | _ => noReply
  deleteMailbox _ _ :=
    return match reply with
      | some (.written (.unit result)) => result
      | _ => noReply
  listMailboxes _ _ :=
    return match reply with
      | some (.listed result) => result
      | _ => noReply
  getNextUid _ _ :=
    return match reply with
      | some (.written (.uid result)) => result
      | _ => noReply

/-- The turn of a session that has its reply, if it needs one. -/
def Session.resume [UnicodeCase] (tlsAcceptor : Bool) (session : Session) (turn : Turn)
    (reply : Option RegistryReply) : Session × List Action :=
  let outcome := session.outcome (answering reply) tlsAcceptor turn ()
  (outcome.session, outcome.trace)

/-- A session as a client of the registry: it reads a line, makes at most one call, and
goes on with the reply. -/
def sessionClient [UnicodeCase] (tlsAcceptor : Bool) :
    Client Session Turn RegistryCall RegistryReply (List Action) := fun session turn =>
  match (session.plan turn).call with
  | none =>
      .done (session.resume tlsAcceptor turn none).1 (session.resume tlsAcceptor turn none).2
  | some call => .ask call fun reply => session.resume tlsAcceptor turn (some reply)

theorem asks_sessionClient [UnicodeCase] (tlsAcceptor : Bool) (session : Session) (turn : Turn) :
    (sessionClient tlsAcceptor).asks session turn = (session.plan turn).call.toList := by
  simp only [Client.asks, sessionClient]
  cases (session.plan turn).call <;> rfl

/-! ## A turn in one go -/

section InOneGo

variable {S : Type} (connection : Connection) (session : Session) (registry : R) (registry' : S)
  (tag : String)

theorem reply_outcome_congr (reply : Result Reply) (asked : List Action) :
    (Reply.outcome reply connection session registry tag asked).session =
        (Reply.outcome reply connection session registry' tag asked).session ∧
      (Reply.outcome reply connection session registry tag asked).trace =
        (Reply.outcome reply connection session registry' tag asked).trace := by
  cases reply with
  | error error => exact ⟨rfl, rfl⟩
  | ok reply =>
      simp only [Reply.outcome]
      split <;> exact ⟨rfl, rfl⟩

theorem starttlsOutcome_congr (turn : Turn) (tlsAcceptor : Bool) :
    (starttlsOutcome connection session turn tlsAcceptor registry tag).session =
        (starttlsOutcome connection session turn tlsAcceptor registry' tag).session ∧
      (starttlsOutcome connection session turn tlsAcceptor registry tag).trace =
        (starttlsOutcome connection session turn tlsAcceptor registry' tag).trace := by
  unfold starttlsOutcome
  simp only
  cases (connection.deliver 0 [Session.starttlsResponse tag session.isTls tlsAcceptor]).2 with
  | error error => exact ⟨rfl, rfl⟩
  | ok written =>
      cases session.isTls || !tlsAcceptor with
      | true => exact ⟨rfl, rfl⟩
      | false => cases turn.handshake <;> exact ⟨rfl, rfl⟩

end InOneGo

section Registry

variable (engine : RegexEngine) (order : HashOrder (String × String) MailboxInfo) (turn : Turn)
  (registry : InMemoryMailboxes)

theorem answer_inMemory (decision : Decision) :
    decision.answer (turn.context (inMemoryMailboxes engine order)) registry =
      match decision.call with
      | none => ((decision.answer (turn.context (answering none)) ()).1, registry)
      | some call =>
          ((decision.answer (turn.context (answering
              (some ((registryMachine engine order).step registry call).2))) ()).1,
            ((registryMachine engine order).step registry call).1) := by
  cases decision <;> rfl

/-- A turn taken in one go is that of the client that is served at once. -/
theorem outcome_eq_take [UnicodeCase] (tlsAcceptor : Bool) (session : Session) :
    let outcome := session.outcome (inMemoryMailboxes engine order) tlsAcceptor turn registry
    let taken := (sessionClient tlsAcceptor).take (registryMachine engine order) session registry
      turn
    outcome.session = taken.own ∧ outcome.registry = taken.state ∧
      outcome.trace = taken.output := by
  simp only [Client.take, sessionClient, Session.resume, Session.outcome]
  cases hplan : session.plan turn with
  | idle => exact ⟨rfl, rfl, rfl⟩
  | finish farewell result => exact ⟨rfl, rfl, rfl⟩
  | refuse tagHistory response => exact ⟨rfl, rfl, rfl⟩
  | starttls tagHistory tag =>
      obtain ⟨hsession, htrace⟩ := starttlsOutcome_congr ⟨session.isTls, turn.writeError⟩
        { session with tagHistory } registry () tag turn tlsAcceptor
      exact ⟨hsession, registry_starttlsOutcome _ _ _ _ _ _, htrace⟩
  | dispatch tagHistory tag decision =>
      simp only [Plan.call, Plan.outcome, answer_inMemory]
      cases hcall : decision.call with
      | none =>
          obtain ⟨hsession, htrace⟩ := reply_outcome_congr ⟨session.isTls, turn.writeError⟩
            { session with tagHistory } registry () tag
            (decision.answer (turn.context (answering none)) ()).1
            (decision.asked (turn.context (inMemoryMailboxes engine order)))
          exact ⟨hsession, registry_reply _ _ _ _ _ _, htrace⟩
      | some call =>
          obtain ⟨hsession, htrace⟩ := reply_outcome_congr ⟨session.isTls, turn.writeError⟩
            { session with tagHistory } ((registryMachine engine order).step registry call).1 ()
            tag (decision.answer (turn.context (answering
              (some ((registryMachine engine order).step registry call).2))) ()).1
            (decision.asked (turn.context (inMemoryMailboxes engine order)))
          exact ⟨hsession, registry_reply _ _ _ _ _ _, htrace⟩

end Registry

/-! ## The system is serial -/

section System

variable [DecidableEq Id] [UnicodeCase] (engine : RegexEngine)
  (order : HashOrder (String × String) MailboxInfo) (tlsAcceptor : Bool)

/-- The system of sessions takes their turns one after the other. -/
def serialSystem :
    Serial Id (sessionClient tlsAcceptor) (registryService engine order).object
      (System Id InMemoryMailboxes) where
  machine := System.machine (imapServer (inMemoryMailboxes engine order) tlsAcceptor)
  own := System.sessions
  state := System.registry
  own_step system id turn := by
    rw [System.machine_eq]
    simp only [System.outcomes, System.outcome]
    rw [(outcome_eq_take engine order turn system.registry tlsAcceptor (system.sessions id)).1]
    rfl
  state_step system id turn := by
    rw [System.machine_eq]
    exact (outcome_eq_take engine order turn system.registry tlsAcceptor (system.sessions id)).2.1
  output_step system id turn := by
    rw [System.machine_eq]
    exact (outcome_eq_take engine order turn system.registry tlsAcceptor (system.sessions id)).2.2

/-- The sessions of a system, each with a task of its own, and the registry with its
channel and its writer. -/
abbrev tasks : Machine (Overlapping Id Session Turn RegistryCall RegistryReply (List Action)
    InMemoryMailboxes) (OverlapEvent Id Turn) (Option ((Id × Turn) × List Action)) :=
  Overlapping.machine (sessionClient tlsAcceptor) (registryService engine order)

/-- A system whose sessions are all about to read a line. -/
def System.idle (system : System Id InMemoryMailboxes) :
    Overlapping Id Session Turn RegistryCall RegistryReply (List Action) InMemoryMailboxes :=
  .new system.sessions system.registry

/--
Sessions are serializable.  However the tasks of the sessions overlap while they wait for
the registry, there is an order of their turns in which, taken one after the other, they
make the calls that the registry has served, leave it as it is, and leave every session
as it is and with the traces it has seen; a turn whose call has been served counts as
taken.  The order only grows at its end: a turn that has ended comes before every turn
that starts later.
-/
theorem sessions_serializable (system : System Id InMemoryMailboxes)
    (events more : List (OverlapEvent Id Turn)) :
    let client := sessionClient tlsAcceptor
    let service := registryService engine order
    let after (events : List (OverlapEvent Id Turn)) :=
      (tasks engine order tlsAcceptor).final system.idle events
    ∃ schedule later,
      Overlapping.ExplainedBy (serialSystem engine order tlsAcceptor) system schedule
        (Overlapping.ended client service system.idle events) (after events) ∧
      Overlapping.ExplainedBy (serialSystem engine order tlsAcceptor) system (schedule ++ later)
        (Overlapping.ended client service system.idle (events ++ more))
        (after (events ++ more)) := by
  intro client service after
  exact Overlapping.serializable (serialSystem engine order tlsAcceptor) system events more

end System

/-! ## What LIST shows -/

theorem deliver_of_wrote_last {connection : Connection} {lines : List Response} {last : Response}
    (hlast : last ∉ lines) {position : Nat}
    (hwrote : .wrote last ∈ (connection.deliver position (lines ++ [last])).1) :
    connection.deliver position (lines ++ [last]) = ((lines ++ [last]).map .wrote, .ok ()) := by
  induction lines generalizing position with
  | nil =>
      simp only [List.nil_append, Connection.deliver] at hwrote ⊢
      cases herror : connection.writeError position with
      | some error => simp [herror] at hwrote
      | none => rfl
  | cons line rest ih =>
      rw [List.mem_cons, not_or] at hlast
      simp only [List.cons_append, Connection.deliver] at hwrote ⊢
      cases herror : connection.writeError position with
      | some error => simp [herror] at hwrote
      | none =>
          simp only [herror, List.mem_cons, Action.wrote.injEq, hlast.1, false_or] at hwrote ⊢
          rw [ih hlast.2 hwrote]
          rfl

/-- A reply that ends with an OK, its only one: if an OK was written, all was. -/
theorem trace_of_wrote_ok {reply : Reply} {connection : Connection} {session : Session}
    {registry : R} {tag : String} {asked : List Action} {lines : List Response} {last : Response}
    (hresponses : reply.responses = lines ++ [last])
    (hlines : ∀ line ∈ lines, ∀ tag message, line ≠ .ok tag message)
    (hasked : ∀ response, .wrote response ∉ asked) {tag' : Option String} {message : String}
    (hwrote : .wrote (.ok tag' message) ∈
      (Reply.outcome (.ok reply) connection session registry tag asked).trace) :
    (Reply.outcome (.ok reply) connection session registry tag asked).trace =
      asked ++ reply.responses.map .wrote := by
  have hdelivered (hmem : .wrote (.ok tag' message) ∈
      (connection.deliver asked.length reply.responses).1) :
      connection.deliver asked.length reply.responses = (reply.responses.map .wrote, .ok ()) := by
    rw [hresponses] at hmem ⊢
    rcases List.mem_append.mp (mem_of_wrote hmem) with hline | hlast
    · exact absurd rfl (hlines _ hline tag' message)
    · rw [List.mem_singleton] at hlast
      subst hlast
      exact deliver_of_wrote_last (fun hline => hlines _ hline tag' message rfl) hmem
  simp only [Reply.outcome] at hwrote ⊢
  rcases hdeliver : connection.deliver asked.length reply.responses with ⟨written, error | done⟩
  · -- a write failed: the OK is neither before the failure nor the answer to it
    rw [hdeliver] at hdelivered
    simp only [hdeliver, List.mem_append] at hwrote
    rcases hwrote with (hmem | hmem) | hmem
    · exact absurd hmem (hasked _)
    · exact absurd (Prod.mk.inj (hdelivered hmem)).2 (by simp)
    · have hbad := mem_of_wrote hmem
      simp at hbad
  · rw [hdeliver] at hdelivered
    simp only [hdeliver, List.mem_append] at hwrote ⊢
    obtain ⟨rfl, -⟩ := Prod.mk.inj (hdelivered (hwrote.resolve_left (hasked _)))
    rfl

section Listing

variable [UnicodeCase] {engine : RegexEngine} {order : HashOrder (String × String) MailboxInfo}
  {tlsAcceptor : Bool} {session : Session} {turn : Turn} {registry : InMemoryMailboxes}
  {username : String} {filter : MailboxFilter}

/-- A turn that asks for a list makes this call, and shows what the registry lists if it
completes. -/
theorem listed_of_registry_mem
    (hlist : .registry (.list username filter) ∈
      (session.outcome (inMemoryMailboxes engine order) tlsAcceptor turn registry).trace) :
    (session.plan turn).call = some (.listMailboxes username filter) ∧
      ∀ tag, .wrote (.ok (some tag) "LIST completed") ∈
          (session.outcome (inMemoryMailboxes engine order) tlsAcceptor turn registry).trace →
        ∀ name, .wrote (.untagged (listMessage name)) ∈
            (session.outcome (inMemoryMailboxes engine order) tlsAcceptor turn registry).trace ↔
          ∃ info ∈ (registry.iterateOf order username).filter
            fun info => filter.accepts engine info.id.name, info.id.name = name := by
  rw [Session.outcome] at hlist ⊢
  rcases mem_trace_cases hlist with hwrite | ⟨tagHistory, tag, decision, hplan, hasked⟩
  · cases hwrite
  obtain ⟨line, commandLine, command, -, -, -, hdecision⟩ := Session.plan_dispatch_cases hplan
  obtain ⟨settle, rfl⟩ : ∃ settle, decision = .list username filter settle := by
    cases decision with
    | list username' filter' settle =>
        simp only [Decision.asked, List.mem_singleton, Action.registry.injEq,
          RegistryOperation.list.injEq] at hasked
        obtain ⟨rfl, rfl⟩ := hasked
        exact ⟨settle, rfl⟩
    | _ => simp [Decision.asked] at hasked
  refine ⟨by rw [hplan]; rfl, fun tag' hwrote name => ?_⟩
  have hlines : ∀ infos, (settle (.ok infos)).responses =
      infos.map listLine ++ [.ok (some tag) "LIST completed"] := by
    cases asks_of_commandDecision hdecision (by simp) with
    | list husername hresponses => exact hresponses
  have huntagged (infos : List MailboxInfo) : ∀ line ∈ infos.map listLine, ∀ tag message,
      line ≠ .ok tag message := by
    rintro line hline tag message rfl
    obtain ⟨info, -, hsame⟩ := List.mem_map.mp hline
    cases hsame
  obtain ⟨iterations, hinfos⟩ := listMailboxes_ok engine order username filter registry
  simp only [hplan, Plan.outcome, Decision.answer, Turn.context, inMemoryMailboxes, hinfos,
    Decision.asked] at hwrote ⊢
  rw [trace_of_wrote_ok (hlines _) (huntagged _) (by simp) hwrote, hlines]
  simp only [List.mem_append, List.mem_singleton, reduceCtorEq, false_or, List.mem_map,
    Action.wrote.injEq, exists_eq_right, or_false]
  constructor
  · rintro ⟨info, hinfo, hline⟩
    exact ⟨info, hinfo, listMessage_injective (Response.untagged.inj hline)⟩
  · rintro ⟨info, hinfo, rfl⟩
    exact ⟨info, hinfo, rfl⟩

end Listing

section Tasks

variable [DecidableEq Id] [UnicodeCase] (engine : RegexEngine)
  (order : HashOrder (String × String) MailboxInfo) (tlsAcceptor : Bool)

/--
LIST shows one moment.  However the tasks of the sessions overlap: a LIST that a session
starts after some events, and that is completed, shows exactly the names that are in
force for its user at one moment since, and that its filter accepts.  The names in force
are those created last, not deleted last, by the calls the registry served up to that
moment, whichever session made them.
-/
theorem list_shows_moment (started maxSession maxIdle : Id → Nat) (isTls : Id → Bool)
    (greeting : Id → Option Error) (events more : List (OverlapEvent Id Turn)) (id : Id)
    (turn : Turn) (trace : List Action) (username : String) (filter : MailboxFilter)
    (tag : String) :
    let start := (System.new started maxSession maxIdle isTls greeting .new).idle
    let before := (tasks engine order tlsAcceptor).final start events
    let served (events : List (OverlapEvent Id Turn)) : List RegistryCall :=
      ((tasks engine order tlsAcceptor).final start events).shared.order.map Prod.snd
    before.asked id = none →
    ((id, turn), trace) ∈ Overlapping.ended (sessionClient tlsAcceptor)
      (registryService engine order) before more →
    .registry (.list username filter) ∈ trace →
    .wrote (.ok (some tag) "LIST completed") ∈ trace →
    ∃ meanwhile rest, served (events ++ more) =
        served events ++ meanwhile ++ .listMailboxes username filter :: rest ∧
      ∀ name, .wrote (.untagged (listMessage name)) ∈ trace ↔
        (username, name) ∈ Directory.ofCalls (served events ++ meanwhile) ∧
          filter.accepts engine name = true := by
  intro start before served hidle hended hlist hcompleted
  let system : System Id InMemoryMailboxes :=
    .new started maxSession maxIdle isTls greeting .new
  obtain ⟨schedule, later, hbefore, hafter⟩ :=
    sessions_serializable engine order tlsAcceptor system events more
  rw [Overlapping.ended_append] at hafter
  obtain ⟨done, rest, rfl, htrace⟩ :=
    Machine.mem_transcript_iff.mp (hbefore.mem_later hafter hidle hended)
  rw [← Machine.final_append] at htrace
  -- the system when the turn is taken, and the calls served since the events
  let serial : Serial Id _ _ _ := serialSystem engine order tlsAcceptor
  let middle := serial.machine.final system (schedule ++ done)
  let meanwhile := serial.operations (serial.machine.final system schedule) done
  have hserved : serial.operations system (schedule ++ done) = served events ++ meanwhile := by
    rw [Serial.operations_append, hbefore.order]
  have hdescribes : (Directory.ofCalls (served events ++ meanwhile)).Describe middle.registry := by
    have hregistry : middle.registry =
        (registryMachine engine order).final .new (served events ++ meanwhile) := by
      rw [← hserved]
      exact serial.state_final system (schedule ++ done)
    rw [hregistry]
    exact Directory.describe_final _
  obtain rfl : trace = ((middle.sessions id).outcome (inMemoryMailboxes engine order) tlsAcceptor
      turn middle.registry).trace := by
    rw [htrace, Serial.output_step]
    exact (outcome_eq_take engine order turn middle.registry tlsAcceptor
      (middle.sessions id)).2.2.symm
  obtain ⟨hcall, hshows⟩ := listed_of_registry_mem hlist
  refine ⟨meanwhile, serial.operations (serial.machine.step middle (id, turn)).1 rest, ?_,
    fun name => ?_⟩
  · have hasks : (sessionClient tlsAcceptor).asks (serial.own middle id) turn =
        [.listMailboxes username filter] := by
      rw [asks_sessionClient]
      exact congrArg Option.toList hcall
    have horder := hafter.order
    rw [← List.append_assoc, Serial.operations_append, hserved, Serial.operations_cons,
      hasks] at horder
    exact horder.symm
  · rw [hshows tag hcompleted name]
    exact hdescribes.mem_listed

end Tasks

/-! ## Two sessions -/

def twoSessions : System Bool InMemoryMailboxes :=
  .new (fun _ => 0) (fun _ => 3600) (fun _ => 1800) (fun _ => false) (fun _ => none) .new

def sends (id : Bool) (line : String) : OverlapEvent Bool Turn :=
  .start id (.smooth (fun _ => .ok true) line)

/-- Both sessions log in, and one creates a mailbox. -/
def beforeList : List (OverlapEvent Bool Turn) :=
  [sends true "a1 LOGIN ann x\r\n", sends false "b1 LOGIN ann x\r\n",
    sends false "b2 CREATE one\r\n", .send false, .receive, .process, .finish false]

/-- While one session waits for its list, the other creates a mailbox and deletes one; the
list is made in between. -/
def aroundList : List (OverlapEvent Bool Turn) :=
  [sends true "a2 LIST \"\" *\r\n", sends false "b3 CREATE two\r\n", .send false, .receive,
    .process, .finish false, sends false "b4 DELETE one\r\n", .perform true, .send false,
    .receive, .process, .finish true]

def listTrace : List Action :=
  [.registry (.list "ann" .all), .wrote (.untagged (listMessage "two")),
    .wrote (.untagged (listMessage "one")), .wrote (.ok (some "a2") "LIST completed")]

/-- The law for this list. -/
theorem list_shows_moment_twoSessions :
    let _ := UnicodeCase.ascii
    let served (events : List (OverlapEvent Bool Turn)) : List RegistryCall :=
      ((tasks .searching .listed false).final twoSessions.idle events).shared.order.map Prod.snd
    ∃ meanwhile rest, served (beforeList ++ aroundList) =
        served beforeList ++ meanwhile ++ .listMailboxes "ann" .all :: rest ∧
      ∀ name, .wrote (.untagged (listMessage name)) ∈ listTrace ↔
        ("ann", name) ∈ Directory.ofCalls (served beforeList ++ meanwhile) ∧
          MailboxFilter.accepts .searching name .all = true := by
  intro _ served
  have hseen : (true, listTrace) ∈ (Overlapping.ended (sessionClient false)
      (registryService .searching .listed)
      ((tasks .searching .listed false).final twoSessions.idle beforeList) aroundList).map
        fun entry => (entry.1.1, entry.2) := by
    decide +kernel
  obtain ⟨⟨⟨id, turn⟩, trace⟩, hended, hsame⟩ := List.mem_map.mp hseen
  obtain ⟨rfl, rfl⟩ := Prod.mk.inj hsame
  have hidle : (((tasks .searching .listed false).final twoSessions.idle beforeList).asked
      true).isNone = true := by
    decide +kernel
  have hlist : .registry (.list "ann" .all) ∈ listTrace := by decide
  have hcompleted : .wrote (.ok (some "a2") "LIST completed") ∈ listTrace := by decide
  rw [Option.isNone_iff_eq_none] at hidle
  -- from here on the run is not to be evaluated
  generalize beforeList = events at *
  generalize aroundList = more at *
  generalize listTrace = trace at *
  exact list_shows_moment .searching .listed false (fun _ => 0) (fun _ => 3600) (fun _ => 1800)
    (fun _ => false) (fun _ => none) events more true turn trace "ann" .all "a2" hidle hended
    hlist hcompleted

end Scuttled
