import Scuttled.Session.Outcome

/-!
# One completion for each command

Whatever a line is, and whatever state the session is in, a line with a tag is
answered by exactly one completion that carries this tag, after everything
else that is sent for the line.
-/

namespace Scuttled

open Rust Foundation

variable {R : Type}

/-- The tag a completion carries: OK, NO and BAD with a tag are completions. -/
def Response.completionTag : Response → Option String
  | .ok tag _ => tag
  | .no tag _ => tag
  | .bad tag _ => tag
  | .bye _ => none
  | .untagged _ => none
  | .continuation _ => none

/-- Untagged responses, then one completion with the tag. -/
def Completes (tag : String) (responses : List Response) : Prop :=
  ∃ before completion, responses = before ++ [completion] ∧
    completion.completionTag = some tag ∧
    ∀ response ∈ before, response.completionTag = none

theorem completes_singleton {tag : String} {response : Response}
    (htag : response.completionTag = some tag) : Completes tag [response] :=
  ⟨[], response, rfl, htag, by simp⟩

/-! ## Decisions complete -/

/-- Every reply a decision may come to is complete. -/
def Decision.AlwaysCompletes (decision : Decision) (tag : String) : Prop :=
  ∀ reply, decision.Yields reply → Completes tag reply.responses

section Decisions

variable {tag args : String} {currentState : SessionState}

theorem settled_alwaysCompletes {response : Response} (htag : response.completionTag = some tag) :
    (Decision.settled (.just response)).AlwaysCompletes tag := by
  intro reply hyields
  cases hyields
  exact completes_singleton htag

theorem logoutDecision_alwaysCompletes : (logoutDecision tag).AlwaysCompletes tag := by
  intro reply hyields
  cases hyields
  refine ⟨[.bye "Logging out"], .ok (some tag) "LOGOUT completed", rfl, rfl, ?_⟩
  simp [Response.completionTag]

theorem loginDecision_alwaysCompletes : (loginDecision tag args).AlwaysCompletes tag := by
  unfold loginDecision
  split
  · exact settled_alwaysCompletes rfl
  · intro reply hyields
    cases hyields with
    | authenticate answer =>
        rcases answer with error | _ | _
        · exact completes_singleton rfl
        · exact completes_singleton rfl
        · exact completes_singleton rfl

theorem namedDecision_alwaysCompletes {command : String} {decide : String → String → Decision}
    (hdecide : ∀ username name, (decide username name).AlwaysCompletes tag) :
    (namedDecision tag command args currentState decide).AlwaysCompletes tag := by
  unfold namedDecision
  split
  · exact settled_alwaysCompletes rfl
  · cases currentState.username with
    | none => exact settled_alwaysCompletes rfl
    | some username => exact hdecide username _

theorem selectDecision_alwaysCompletes :
    (selectDecision tag args currentState).AlwaysCompletes tag := by
  refine namedDecision_alwaysCompletes fun username name reply hyields => ?_
  cases hyields with
  | get answer hsettle =>
      rcases answer with error | _ | info
      · cases hsettle
      · cases hsettle
        exact completes_singleton rfl
      · cases hsettle
        exact completes_singleton rfl

theorem createDecision_alwaysCompletes :
    (createDecision tag args currentState).AlwaysCompletes tag := by
  refine namedDecision_alwaysCompletes fun username name reply hyields => ?_
  cases hyields with
  | create answer => cases answer <;> exact completes_singleton rfl

theorem deleteDecision_alwaysCompletes :
    (deleteDecision tag args currentState).AlwaysCompletes tag := by
  unfold deleteDecision
  split
  · exact settled_alwaysCompletes rfl
  · refine namedDecision_alwaysCompletes fun username name reply hyields => ?_
    cases hyields with
    | delete answer => cases answer <;> exact completes_singleton rfl

theorem listDecision_alwaysCompletes :
    (listDecision tag args currentState).AlwaysCompletes tag := by
  unfold listDecision
  split
  · exact settled_alwaysCompletes rfl
  · split
    · exact settled_alwaysCompletes rfl
    · intro reply hyields
      cases hyields with
      | list answer =>
          rcases answer with error | mailboxes
          · exact completes_singleton rfl
          · refine ⟨mailboxes.map listLine, .ok (some tag) "LIST completed", rfl, rfl, ?_⟩
            intro response hresponse
            obtain ⟨mailbox, -, rfl⟩ := List.mem_map.mp hresponse
            rfl

end Decisions

/-! ## Plans complete -/

/-- What a plan must be like to answer a line with a tag. -/
inductive Plan.Answers (tag : String) : Plan → Prop where
  | refuse {tagHistory : TagHistory} {response : Response} :
      response.completionTag = some tag → Plan.Answers tag (.refuse tagHistory response)
  | starttls {tagHistory : TagHistory} : Plan.Answers tag (.starttls tagHistory tag)
  | dispatch {tagHistory : TagHistory} {decision : Decision} :
      decision.AlwaysCompletes tag → Plan.Answers tag (.dispatch tagHistory tag decision)

theorem commandPlan_answers (tagHistory : TagHistory) (tag : String) (currentState : SessionState)
    (command : Command) : (commandPlan tagHistory tag currentState command).Answers tag := by
  have hgated {decision : Decision} (hdecision : decision.AlwaysCompletes tag) :
      Plan.Answers tag
        (if currentState == .notAuthenticated then
          .refuse tagHistory (.no (some tag) "Command requires authentication")
        else .dispatch tagHistory tag decision) := by
    split
    · exact .refuse rfl
    · exact .dispatch hdecision
  cases command with
  | capability => exact .dispatch (settled_alwaysCompletes rfl)
  | noop => exact hgated (settled_alwaysCompletes rfl)
  | logout => exact .dispatch logoutDecision_alwaysCompletes
  | starttls => exact .starttls
  | login username password => exact .dispatch loginDecision_alwaysCompletes
  | select mailbox => exact hgated selectDecision_alwaysCompletes
  | examine mailbox => exact .refuse rfl
  | create mailbox => exact hgated createDecision_alwaysCompletes
  | delete mailbox => exact hgated deleteDecision_alwaysCompletes
  | list reference pattern => exact hgated listDecision_alwaysCompletes
  | close => exact .refuse rfl
  | expunge => exact .refuse rfl
  | custom name args => exact .refuse rfl

/-- The tag of a line: what stands before its first space. -/
def tagOf (line : String) : String := String.ofList (line.toList.takeWhile (· != ' '))

theorem splitn2_of_mem {line : String} (hspace : ' ' ∈ line.toList) :
    ∃ commandLine, splitn2 ' ' line = [tagOf line, commandLine] := by
  unfold splitn2 tagOf
  rw [List.span_eq_takeWhile_dropWhile]
  cases hdrop : line.toList.dropWhile (· != ' ') with
  | nil =>
      rw [List.dropWhile_eq_nil_iff] at hdrop
      exact absurd (hdrop ' ' hspace) (by simp)
  | cons space after => exact ⟨_, rfl⟩

theorem linePlan_answers [UnicodeCase] (session : Session) {line : String}
    (hspace : ' ' ∈ line.toList) : (session.linePlan line).Answers (tagOf line) := by
  obtain ⟨commandLine, hsplit⟩ := splitn2_of_mem hspace
  unfold Session.linePlan
  rw [hsplit]
  rcases hregister : session.tagHistory.register (tagOf line) with ⟨error | accepted, tagHistory⟩
  · simp only [hregister]
    exact .refuse rfl
  simp only [hregister]
  cases hparse : parseCommand (tagOf line) commandLine with
  | error error => exact .refuse rfl
  | ok command => exact commandPlan_answers tagHistory _ _ command

theorem completionTag_starttlsResponse (tag : String) (isTls tlsAcceptor : Bool) :
    (Session.starttlsResponse tag isTls tlsAcceptor).completionTag = some tag := by
  cases isTls <;> cases tlsAcceptor <;> rfl

theorem Plan.Answers.completes {tag : String} {plan : Plan} (hplan : plan.Answers tag)
    (mailboxes : Mailboxes R) (tlsAcceptor : Bool) (session : Session) {turn : Turn}
    (hwrites : turn.WritesSucceed) (registry : R) :
    Completes tag (sent (plan.outcome mailboxes tlsAcceptor session turn registry).trace) := by
  have hdeliver := deliver_of_succeed ⟨session.isTls, turn.writeError⟩ hwrites
  cases hplan with
  | refuse htag =>
      simp only [Plan.outcome, hdeliver, sent_map_wrote]
      exact completes_singleton htag
  | starttls =>
      simp only [Plan.outcome, trace_starttlsOutcome, hdeliver, sent_map_wrote]
      exact completes_singleton (completionTag_starttlsResponse _ _ _)
  | dispatch hdecision =>
      simp only [Plan.outcome, Reply.outcome, hdeliver]
      cases hanswer : (Decision.answer (turn.context mailboxes) registry _).1 with
      | error error =>
          simp only [sent_append, sent_asked, sent_map_wrote, List.nil_append]
          exact completes_singleton rfl
      | ok reply =>
          simp only [sent_append, sent_asked, sent_map_wrote, List.nil_append]
          exact hdecision reply (yields_answer hanswer)

/--
One completion for each command.  In every run of a session with the built-in
handlers, a line with a space in it is answered, when its writes succeed, by
untagged responses and then exactly one completion, which carries its tag; no
response carries another tag.
-/
theorem completes_of_line [UnicodeCase] (mailboxes : Mailboxes R) (tlsAcceptor : Bool)
    (started maxSession maxIdle : Nat) (isTls : Bool) (greeting : Option Error) (registry : R)
    (turns : List Turn) {turn : Turn} (hwrites : turn.WritesSucceed) {line : String}
    (hline : ((Session.machine (imapServer mailboxes tlsAcceptor)).final
      ((Session.new started maxSession maxIdle isTls).greeted greeting, registry)
        turns).1.lineOf turn = some line)
    (hspace : ' ' ∈ line.toList) :
    Completes (tagOf line)
      (sent ((Session.machine (imapServer mailboxes tlsAcceptor)).step
        ((Session.machine (imapServer mailboxes tlsAcceptor)).final
          ((Session.new started maxSession maxIdle isTls).greeted greeting, registry) turns)
        turn).2) := by
  revert hline
  generalize (Session.machine (imapServer mailboxes tlsAcceptor)).final
    ((Session.new started maxSession maxIdle isTls).greeted greeting, registry) turns = state
  intro hline
  have hplan : state.1.plan turn = state.1.linePlan line := by
    rw [Session.plan, hline]
  have htrace : ((Session.machine (imapServer mailboxes tlsAcceptor)).step state turn).2 =
      (state.1.outcome mailboxes tlsAcceptor turn state.2).trace := by
    rw [machine_eq]
    rfl
  rw [htrace, Session.outcome, hplan]
  exact (linePlan_answers _ hspace).completes mailboxes tlsAcceptor _ hwrites _

/-- The law at a LIST after a LOGIN. -/
theorem completes_of_line_list :
    let _ := UnicodeCase.ascii
    Completes (tagOf "a2 LIST \"\" *")
      (sent ((Session.machine (imapServer (inMemoryMailboxes .searching .listed) true)).step
        ((Session.machine (imapServer (inMemoryMailboxes .searching .listed) true)).final
          ((Session.new 0 3600 1800 false).greeted none, .new)
          [.smooth (fun _ => .ok true) "a1 LOGIN ann secret\r\n"])
        (.smooth (fun _ => .ok true) "a2 LIST \"\" *\r\n")).2) := by
  intro _
  refine completes_of_line (inMemoryMailboxes .searching .listed) true 0 3600 1800 false none
    .new _ (fun _ => rfl) ?_ (by decide)
  rw [machine_eq]
  rfl

end Scuttled
