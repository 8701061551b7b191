import Scuttled.Protocol.Wire
import Scuttled.Session.ListedNames
import Scuttled.Session.Upgrade

/-!
# Sessions on the wire

Sessions that share the in-memory registry, each with a connection of its own.  What a
session writes holds words of the line it answers, names from the registry and texts of
errors.  None of them ends a line, so what is written is read back response by response.
-/

namespace Scuttled

open Rust Foundation

/-! ## Responses that a client can read -/

/-- A tag that can be told apart from what follows it. -/
structure IsTag (tag : String) : Prop where
  oneLine : OneLine tag
  noSpace : ' ' ∉ tag.toList

def Response.message : Response → String
  | .ok _ message | .no _ message | .bad _ message => message
  | .bye message | .untagged message | .continuation message => message

/-- A client reads the response as one line, and its tag as a tag. -/
structure Response.Readable (response : Response) : Prop where
  message : Scuttled.OneLine response.message
  tag : ∀ tag, response.tag = some tag → IsTag tag

theorem Response.Readable.oneLine {response : Response} (hreadable : response.Readable) :
    response.OneLine := by
  obtain ⟨hmessage, htag⟩ := hreadable
  have htagged {message : String} {tag : Option String} (hmessage : Scuttled.OneLine message)
      (htag : ∀ text, tag = some text → IsTag text) :
      ∀ text ∈ message :: tag.toList, Scuttled.OneLine text := by
    rw [List.forall_mem_cons]
    refine ⟨hmessage, fun text htext => (htag text ?_).oneLine⟩
    exact Option.mem_toList.mp htext
  cases response with
  | ok tag message => exact htagged hmessage htag
  | no tag message => exact htagged hmessage htag
  | bad tag message => exact htagged hmessage htag
  | bye message => exact List.forall_mem_singleton.mpr hmessage
  | untagged message => exact List.forall_mem_singleton.mpr hmessage
  | continuation message => exact List.forall_mem_singleton.mpr hmessage

theorem readable_of_untagged {response : Response} (htag : response.tag = none)
    (hmessage : OneLine response.message) : response.Readable :=
  ⟨hmessage, fun tag hsome => by rw [htag] at hsome; cases hsome⟩

theorem IsTag.readable {tag : String} (htag : IsTag tag) {response : Response}
    (hresponse : response.tag = some tag) (hmessage : OneLine response.message) :
    response.Readable :=
  ⟨hmessage, fun _ hother => Option.some.inj (hresponse.symm.trans hother) ▸ htag⟩

section Completions

variable {tag message : String}

theorem IsTag.ok (htag : IsTag tag) (hmessage : OneLine message) :
    ∀ response ∈ [Response.ok (some tag) message], response.Readable :=
  List.forall_mem_singleton.mpr (htag.readable rfl hmessage)

theorem IsTag.no (htag : IsTag tag) (hmessage : OneLine message) :
    ∀ response ∈ [Response.no (some tag) message], response.Readable :=
  List.forall_mem_singleton.mpr (htag.readable rfl hmessage)

theorem IsTag.bad (htag : IsTag tag) (hmessage : OneLine message) :
    ∀ response ∈ [Response.bad (some tag) message], response.Readable :=
  List.forall_mem_singleton.mpr (htag.readable rfl hmessage)

end Completions

/-! ## One turn -/

/-- The errors of the writes and of the authenticator are printed on one line. -/
structure Turn.PrintsErrors (turn : Turn) : Prop where
  writeError : ∀ position error, turn.writeError position = some error → OneLine error.display
  authenticator : ∀ credentials error, turn.authenticator credentials = .error error →
    OneLine error.display

section Line

variable {session : Session} {turn : Turn}

theorem oneLine_stripNewline {line : String} (hline : AtMostALine line) :
    OneLine (Session.stripNewline line) := by
  have hstrip : OneLine (String.ofList line.toList.dropLast) := by
    rw [OneLine, String.toList_ofList]
    intro hmem
    obtain ⟨before, after, hsplit⟩ := List.append_of_mem hmem
    have hne : line.toList ≠ [] := by
      intro hnil
      rw [hnil] at hmem
      cases hmem
    have hwhole := List.dropLast_concat_getLast hne
    rw [hsplit, List.append_assoc, List.cons_append] at hwhole
    exact List.append_ne_nil_of_right_ne_nil after (List.cons_ne_nil _ _)
      (hline _ _ hwhole.symm)
  unfold Session.stripNewline
  split
  · dsimp only
    split
    · rw [OneLine, String.toList_ofList]
      intro hmem
      exact hstrip (List.dropLast_subset _ hmem)
    · exact hstrip
  · rename_i hends
    intro hmem
    obtain ⟨before, after, hsplit⟩ := List.append_of_mem hmem
    obtain rfl := hline before after hsplit
    refine hends ?_
    rw [endsWith, List.isSuffixOf_iff_suffix, hsplit]
    exact List.suffix_append before ['\n']

theorem splitn2_pieces {line tag commandLine : String}
    (hsplit : splitn2 ' ' line = [tag, commandLine]) (hline : OneLine line) :
    IsTag tag ∧ OneLine commandLine := by
  have hcommand := (suffix_of_splitn2 hsplit).sublist
  unfold splitn2 at hsplit
  rw [List.span_eq_takeWhile_dropWhile] at hsplit
  split at hsplit
  · cases hsplit
  · rename_i before c after hspan
    obtain ⟨hbefore, hafter⟩ := Prod.mk.inj hspan
    simp only [List.cons.injEq, and_true] at hsplit
    obtain ⟨rfl, rfl⟩ := hsplit
    rw [← hbefore]
    refine ⟨⟨?_, ?_⟩, fun hmem => hline (hcommand.subset hmem)⟩
    · rw [OneLine, String.toList_ofList]
      exact fun hmem => hline ((List.takeWhile_subset _) hmem)
    · rw [String.toList_ofList]
      intro hmem
      simpa using List.mem_takeWhile_imp hmem

end Line

/-- The upper-case form of a character ends a line only where the character does. -/
def UpperKeepsLines [UnicodeCase] : Prop := ∀ c, '\n' ∈ UnicodeCase.upper c → c = '\n'

section Parse

variable [UnicodeCase] {tag line : String}

theorem oneLine_of_parseCommand_error {error : Error}
    (hparse : parseCommand tag line = .error error) : OneLine error.display := by
  unfold parseCommand at hparse
  split at hparse
  · cases hparse
    decide
  · split at hparse
    all_goals first
      | (cases hparse)
      | (split at hparse
         · cases hparse
         · cases hparse
           decide)

theorem oneLine_of_parseCommand_custom (hupper : UpperKeepsLines) {name args : String}
    (hparse : parseCommand tag line = .ok (.custom name args)) : OneLine name := by
  unfold parseCommand at hparse
  split at hparse
  · cases hparse
  · rename_i word words hsplit
    have hword : NoWhitespace word := by
      have hmem : word ∈ splitWhitespace line := hsplit ▸ List.mem_cons_self
      exact (isToken_of_mem_splitWhitespace hmem).noWhitespace
    have hname : OneLine (toUppercase word) := by
      intro hmem
      rw [toUppercase, String.toList_ofList, List.mem_flatMap] at hmem
      obtain ⟨c, hc, hline⟩ := hmem
      obtain rfl := hupper c hline
      exact NoWhitespace.oneLine hword hc
    split at hparse
    all_goals first
      | (cases hparse
         exact hname)
      | (cases hparse)
      | (split at hparse <;> cases hparse)

end Parse

section Turns

variable {R : Type} {mailboxes : Mailboxes R} {tlsAcceptor : Bool} {session : Session}
  {turn : Turn} {registry : R} {response : Response}

theorem error_of_deliver {connection : Connection} {position : Nat} {responses : List Response}
    {error : Error} (hdeliver : (connection.deliver position responses).2 = .error error) :
    ∃ position, connection.writeError position = some error := by
  induction responses generalizing position with
  | nil => cases hdeliver
  | cons first rest ih =>
      rw [Connection.deliver] at hdeliver
      cases herror : connection.writeError position with
      | some failed =>
          simp only [herror, Except.error.injEq] at hdeliver
          exact ⟨position, hdeliver ▸ herror⟩
      | none =>
          simp only [herror] at hdeliver
          exact ih hdeliver

/-- What may be written in a turn: a farewell, an answer of the session itself, the
responses of a handler, or its error. -/
inductive MayWrite [UnicodeCase] (mailboxes : Mailboxes R) (tlsAcceptor : Bool)
    (session : Session) (turn : Turn) (registry : R) : Response → Prop where
  | farewell {response result} (hplan : session.plan turn = .finish (some response) result) :
      MayWrite mailboxes tlsAcceptor session turn registry response
  | refusal {response tagHistory} (hplan : session.plan turn = .refuse tagHistory response) :
      MayWrite mailboxes tlsAcceptor session turn registry response
  | starttls {tagHistory tag} (hplan : session.plan turn = .starttls tagHistory tag) :
      MayWrite mailboxes tlsAcceptor session turn registry
        (Session.starttlsResponse tag session.isTls tlsAcceptor)
  | reply {response tagHistory tag decision reply}
      (hplan : session.plan turn = .dispatch tagHistory tag decision)
      (hanswer : (decision.answer (turn.context mailboxes) registry).1 = .ok reply)
      (hresponse : response ∈ reply.responses) :
      MayWrite mailboxes tlsAcceptor session turn registry response
  | handlerError {tagHistory tag decision error}
      (hplan : session.plan turn = .dispatch tagHistory tag decision)
      (herror : (decision.answer (turn.context mailboxes) registry).1 = .error error ∨
        ∃ position, turn.writeError position = some error) :
      MayWrite mailboxes tlsAcceptor session turn registry
        (.bad (some tag) ("Handler error: " ++ error.display))

theorem wrote_of_mem_sent {response : Response} {trace : List Action}
    (hresponse : response ∈ sent trace) : .wrote response ∈ trace := by
  obtain ⟨action, haction, hwrote⟩ := List.mem_filterMap.mp hresponse
  cases action with
  | wrote written =>
      cases hwrote
      exact haction
  | writeFailed failed => cases hwrote
  | authenticated credentials answer => cases hwrote
  | registry operation => cases hwrote

/-- Nothing else is written. -/
theorem mayWrite_of_wrote [UnicodeCase]
    (hwrote : .wrote response ∈ (session.outcome mailboxes tlsAcceptor turn registry).trace) :
    MayWrite mailboxes tlsAcceptor session turn registry response := by
  rw [Session.outcome] at hwrote
  cases hplan : session.plan turn with
  | idle =>
      rw [hplan] at hwrote
      cases hwrote
  | finish farewell result =>
      rw [hplan] at hwrote
      have hmem := mem_of_wrote hwrote
      rw [Option.mem_toList] at hmem
      exact .farewell (hplan.trans (congrArg (Plan.finish · result) hmem))
  | refuse tagHistory refusal =>
      rw [hplan] at hwrote
      obtain rfl := List.mem_singleton.mp (mem_of_wrote hwrote)
      exact .refusal hplan
  | starttls tagHistory tag =>
      rw [hplan, Plan.outcome, trace_starttlsOutcome] at hwrote
      obtain rfl := List.mem_singleton.mp (mem_of_wrote hwrote)
      exact .starttls hplan
  | dispatch tagHistory tag decision =>
      rw [hplan] at hwrote
      have hasked : .wrote response ∉ decision.asked (turn.context mailboxes) := by
        cases decision <;> simp [Decision.asked]
      simp only [Plan.outcome] at hwrote
      cases hanswer : (decision.answer (turn.context mailboxes) registry).1 with
      | error error =>
          rw [hanswer] at hwrote
          obtain rfl := List.mem_singleton.mp
            (mem_of_wrote ((List.mem_append.mp hwrote).resolve_left hasked))
          exact .handlerError hplan (.inl hanswer)
      | ok reply =>
          rw [hanswer] at hwrote
          have hmem {written : List Action} {result : Result Unit}
              (hdeliver : Connection.deliver ⟨session.isTls, turn.writeError⟩
                (decision.asked (turn.context mailboxes)).length reply.responses =
                  (written, result))
              (hwritten : .wrote response ∈ decision.asked (turn.context mailboxes) ++ written) :
              response ∈ reply.responses := by
            rw [show written = _ from (congrArg Prod.fst hdeliver).symm] at hwritten
            exact mem_of_wrote ((List.mem_append.mp hwritten).resolve_left hasked)
          simp only [Reply.outcome] at hwrote
          split at hwrote
          · rename_i hdeliver
            exact .reply hplan hanswer (hmem hdeliver hwrote)
          · rename_i hdeliver
            rcases List.mem_append.mp hwrote with hbefore | hbad
            · exact .reply hplan hanswer (hmem hdeliver hbefore)
            · obtain rfl := List.mem_singleton.mp (mem_of_wrote hbad)
              exact .handlerError hplan (.inr (error_of_deliver (congrArg Prod.snd hdeliver)))

end Turns

section InMemory

variable {engine : RegexEngine} {order : HashOrder (String × String) MailboxInfo}
  {tlsAcceptor : Bool} {session : Session} {turn : Turn} {registry : InMemoryMailboxes}
  {tag : String} {currentState : SessionState} {command : Command} {decision : Decision}
  {reply : Reply}

theorem readable_of_namedDecision {args word : String} {decide : String → String → Decision}
    (htag : IsTag tag) (hword : OneLine word)
    (hdecide : ∀ username,
      ((decide username (trim args)).answer (turn.context (inMemoryMailboxes engine order))
        registry).1 = .ok reply → ∀ response ∈ reply.responses, response.Readable)
    (hanswer : ((namedDecision tag word args currentState decide).answer
      (turn.context (inMemoryMailboxes engine order)) registry).1 = .ok reply) :
    ∀ response ∈ reply.responses, response.Readable := by
  unfold namedDecision at hanswer
  split at hanswer
  · cases hanswer
    exact htag.bad (oneLine_append.mpr ⟨hword, by decide⟩)
  · cases husername : currentState.username with
    | none =>
        simp only [husername] at hanswer
        cases hanswer
        exact htag.no (by decide)
    | some username =>
        simp only [husername] at hanswer
        exact hdecide username hanswer

/-- What a handler answers on the in-memory registry is readable. -/
theorem readable_of_commandDecision (htag : IsTag tag) (hprints : turn.PrintsErrors)
    (hstores : registry.StoresArguments)
    (harguments : ∀ argument ∈ command.arguments, IsArgument argument)
    (hdecision : commandDecision tag currentState command = some decision)
    (hanswer : (decision.answer (turn.context (inMemoryMailboxes engine order)) registry).1 =
      .ok reply) :
    ∀ response ∈ reply.responses, response.Readable := by
  have hone {text : String} (htext : IsArgument text) : OneLine text :=
    NoWhitespace.oneLine htext.noWhitespace
  cases handledBy_of_commandDecision hdecision with
  | capability =>
      cases hanswer
      exact htag.ok (by decide)
  | noop =>
      cases hanswer
      exact htag.ok (by decide)
  | logout =>
      cases hanswer
      rw [List.forall_mem_cons]
      exact ⟨readable_of_untagged rfl (by decide), htag.ok (by decide)⟩
  | login username password =>
      rw [loginDecision, loginParseArgs_arguments (harguments username (by simp [Command.arguments]))
        (harguments password (by simp [Command.arguments]))] at hanswer
      split at hanswer
      · cases hanswer
        exact htag.bad (by decide)
      · rename_i hwords
        split at hwords
        · cases hwords
        · cases hwords
          simp only [Decision.answer, Except.ok.injEq] at hanswer
          subst hanswer
          cases hauthenticated : (turn.context (inMemoryMailboxes engine order)).authenticator
              { username, password } with
          | error error =>
              exact htag.no
                (oneLine_append.mpr ⟨by decide, hprints.authenticator _ _ hauthenticated⟩)
          | ok accepted =>
              cases accepted with
              | true => exact htag.ok (by decide)
              | false => exact htag.no (by decide)
  | select mailbox =>
      have hmailbox := harguments mailbox (by simp [Command.arguments])
      refine readable_of_namedDecision htag (by decide) (fun username hget => ?_) hanswer
      rw [hmailbox.trim_eq, Decision.answer, Turn.context, inMemoryMailboxes] at hget
      dsimp only at hget
      cases hlookup : registry.state.mailboxes.lookup (username, mailbox) with
      | none =>
          rw [hlookup] at hget
          cases hget
          exact htag.no (oneLine_append.mpr ⟨by decide, hone hmailbox⟩)
      | some info =>
          rw [hlookup] at hget
          cases hget
          exact htag.ok (oneLine_append.mpr ⟨by decide, hone hmailbox⟩)
  | create mailbox =>
      have hmailbox := harguments mailbox (by simp [Command.arguments])
      refine readable_of_namedDecision htag (by decide) (fun username hcreate => ?_) hanswer
      simp only [hmailbox.trim_eq, Decision.answer, Turn.context, inMemoryMailboxes,
        InMemoryMailboxes.serve, Except.ok.injEq] at hcreate
      subst hcreate
      obtain ⟨-, -, hexists⟩ | ⟨-, info, -, -, -, hcreated⟩ :=
        MailboxState.createMailbox_cases username mailbox registry.state
      · rw [hexists]
        exact htag.no
          (oneLine_append.mpr ⟨by decide, oneLine_append.mpr ⟨by decide, hone hmailbox⟩⟩)
      · rw [hcreated]
        exact htag.ok (oneLine_append.mpr ⟨by decide, hone hmailbox⟩)
  | delete mailbox =>
      have hmailbox := harguments mailbox (by simp [Command.arguments])
      unfold deleteDecision at hanswer
      split at hanswer
      · cases hanswer
        exact htag.no (by decide)
      refine readable_of_namedDecision htag (by decide) (fun username hdelete => ?_) hanswer
      simp only [hmailbox.trim_eq, Decision.answer, Turn.context, inMemoryMailboxes,
        InMemoryMailboxes.serve, Except.ok.injEq] at hdelete
      subst hdelete
      obtain ⟨-, hmissing⟩ | ⟨-, hdeleted⟩ :=
        MailboxState.deleteMailbox_cases hstores.wellFormed username mailbox
      · rw [hmissing]
        exact htag.no
          (oneLine_append.mpr ⟨by decide, oneLine_append.mpr ⟨by decide, hone hmailbox⟩⟩)
      · rw [hdeleted]
        exact htag.ok (oneLine_append.mpr ⟨by decide, hone hmailbox⟩)
  | list reference pattern =>
      cases hargs : listParseArgs (reference ++ " " ++ pattern) with
      | none =>
          rw [listDecision, hargs] at hanswer
          cases hanswer
          exact htag.bad (by decide)
      | some words =>
          cases husername : currentState.username with
          | none =>
              rw [listDecision, hargs, husername] at hanswer
              cases hanswer
              exact htag.no (by decide)
          | some username =>
              obtain ⟨iterations, hlisted⟩ := listMailboxes_ok engine order username
                (patternToFilter (effectivePattern words.1 words.2)) registry
              rw [listDecision, hargs, husername] at hanswer
              simp only [Decision.answer, Turn.context, inMemoryMailboxes, hlisted,
                Except.ok.injEq] at hanswer
              subst hanswer
              intro response hresponse
              rcases List.mem_append.mp hresponse with hline | hcompleted
              · obtain ⟨info, hinfo, rfl⟩ := List.mem_map.mp hline
                have hlookup :=
                  (mem_iterateOf_iff hstores.wellFormed).mp (List.mem_filter.mp hinfo).1
                have hname := hone (hstores.isArgument username info.id.name info hlookup).1
                exact readable_of_untagged rfl
                  (oneLine_append.mpr ⟨oneLine_append.mpr ⟨by decide, hname⟩, by decide⟩)
              · exact htag.ok (by decide) response hcompleted

theorem answer_ne_error {error : Error}
    (hdecision : commandDecision tag currentState command = some decision) :
    (decision.answer (turn.context (inMemoryMailboxes engine order)) registry).1 ≠
      .error error := by
  intro hanswer
  cases decision with
  | settled reply => cases hanswer
  | authenticate credentials settle => cases hanswer
  | create username name settle => cases hanswer
  | delete username name settle => cases hanswer
  | list username filter settle => cases hanswer
  | get username name settle =>
      obtain ⟨hnone, hsome⟩ := get_of_commandDecision hdecision
      rw [Decision.answer, Turn.context, inMemoryMailboxes] at hanswer
      dsimp only at hanswer
      cases hlookup : registry.state.mailboxes.lookup (username, name) with
      | none =>
          rw [hlookup, hnone] at hanswer
          cases hanswer
      | some info =>
          rw [hlookup, hsome info] at hanswer
          cases hanswer

/-- What the session answers itself is readable. -/
theorem readable_of_refuse [UnicodeCase] (hupper : UpperKeepsLines)
    (hread : ∀ line, turn.read = .ok line → AtMostALine line) {tagHistory : TagHistory}
    {response : Response} (hplan : session.plan turn = .refuse tagHistory response) :
    response.Readable := by
  unfold Session.plan at hplan
  split at hplan
  · rename_i line hline
    obtain ⟨buffer, hbuffer, rfl⟩ := read_of_lineOf hline
    unfold Session.linePlan at hplan
    split at hplan
    · rename_i tag commandLine hsplit
      obtain ⟨htag, -⟩ := splitn2_pieces hsplit (oneLine_stripNewline (hread buffer hbuffer))
      have hrefused {message : String} (hmessage : OneLine message) :
          (Response.bad (some tag) message).Readable := htag.readable rfl hmessage
      split at hplan
      · rename_i error history hregister
        cases hplan
        refine hrefused (oneLine_append.mpr ⟨by decide, ?_⟩)
        unfold TagHistory.register at hregister
        split at hregister
        · cases hregister
          exact oneLine_append.mpr ⟨by decide, oneLine_append.mpr ⟨by decide, htag.oneLine⟩⟩
        · split at hregister
          · cases hregister
            decide
          · cases hregister
      · split at hplan
        · rename_i error hparse
          cases hplan
          exact hrefused (oneLine_append.mpr ⟨by decide, oneLine_of_parseCommand_error hparse⟩)
        · rename_i command hparse
          have hgated {decision : Decision} {history : TagHistory}
              (hdispatch : (if session.sessionState == .notAuthenticated then
                  Plan.refuse history (.no (some tag) "Command requires authentication")
                else .dispatch history tag decision) = .refuse tagHistory response) :
              response.Readable := by
            split at hdispatch
            · cases hdispatch
              exact htag.readable rfl (show OneLine "Command requires authentication" by decide)
            · cases hdispatch
          have hunimplemented : (Response.bad (some tag) "Command not yet implemented").Readable :=
            hrefused (by decide)
          cases command with
          | capability => cases hplan
          | noop => exact hgated hplan
          | logout => cases hplan
          | starttls => cases hplan
          | login username password => cases hplan
          | select mailbox => exact hgated hplan
          | examine mailbox =>
              cases hplan
              exact hunimplemented
          | create mailbox => exact hgated hplan
          | delete mailbox => exact hgated hplan
          | list reference pattern => exact hgated hplan
          | close =>
              cases hplan
              exact hunimplemented
          | expunge =>
              cases hplan
              exact hunimplemented
          | custom name args =>
              cases hplan
              exact hrefused (oneLine_append.mpr
                ⟨by decide, oneLine_of_parseCommand_custom hupper hparse⟩)
    · cases hplan
      exact readable_of_untagged rfl (show OneLine "Invalid command format" by decide)
  · split at hplan
    · cases hplan
    · split at hplan
      · cases hplan
      · split at hplan <;> cases hplan

theorem readable_of_finish [UnicodeCase] {response : Response} {result : Result Unit}
    (hplan : session.plan turn = .finish (some response) result) : response.Readable := by
  unfold Session.plan at hplan
  split at hplan
  · exact absurd hplan (Session.linePlan_ne_finish _ _ _ _)
  · split at hplan
    · cases hplan
    · split at hplan
      · cases hplan
        exact readable_of_untagged rfl (show OneLine "Session duration exceeded" by decide)
      · split at hplan
        · cases hplan
          exact readable_of_untagged rfl (show OneLine "Session idle timeout" by decide)
        · cases hplan

/-- STARTTLS is answered to the tag of a line. -/
theorem isTag_of_starttls [UnicodeCase]
    (hread : ∀ line, turn.read = .ok line → AtMostALine line) {tagHistory : TagHistory}
    (hplan : session.plan turn = .starttls tagHistory tag) : IsTag tag := by
  unfold Session.plan at hplan
  split at hplan
  · rename_i line hline
    obtain ⟨buffer, hbuffer, rfl⟩ := read_of_lineOf hline
    unfold Session.linePlan at hplan
    split at hplan
    · rename_i tag' commandLine hsplit
      obtain ⟨htag, -⟩ := splitn2_pieces hsplit (oneLine_stripNewline (hread buffer hbuffer))
      split at hplan
      · cases hplan
      · split at hplan
        · cases hplan
        · rename_i command hparse
          have hgated {decision : Decision} {history : TagHistory} :
              (if session.sessionState == .notAuthenticated then
                  Plan.refuse history (.no (some tag') "Command requires authentication")
                else .dispatch history tag' decision) ≠ .starttls tagHistory tag := by
            split <;> simp
          cases command with
          | starttls =>
              cases hplan
              exact htag
          | noop => exact absurd hplan hgated
          | select mailbox => exact absurd hplan hgated
          | create mailbox => exact absurd hplan hgated
          | delete mailbox => exact absurd hplan hgated
          | list reference pattern => exact absurd hplan hgated
          | _ => cases hplan
    · cases hplan
  · split at hplan
    · cases hplan
    · split at hplan
      · cases hplan
      · split at hplan <;> cases hplan

/-- Everything that is written in a turn is readable. -/
theorem readable_of_wrote [UnicodeCase] (hupper : UpperKeepsLines) (hprints : turn.PrintsErrors)
    (hread : ∀ line, turn.read = .ok line → AtMostALine line)
    (hstores : registry.StoresArguments) {response : Response}
    (hwrote : .wrote response ∈
      (session.outcome (inMemoryMailboxes engine order) tlsAcceptor turn registry).trace) :
    response.Readable := by
  have hdispatched {tagHistory : TagHistory} {tag : String} {decision : Decision}
      (hplan : session.plan turn = .dispatch tagHistory tag decision) :
      IsTag tag ∧ ∃ command, (∀ argument ∈ command.arguments, IsArgument argument) ∧
        commandDecision tag session.sessionState command = some decision := by
    obtain ⟨line, commandLine, command, hline, hsplit, hparse, hdecision⟩ :=
      Session.plan_dispatch_cases hplan
    obtain ⟨buffer, hbuffer, rfl⟩ := read_of_lineOf hline
    exact ⟨(splitn2_pieces hsplit (oneLine_stripNewline (hread buffer hbuffer))).1, command,
      isArgument_of_parseCommand hparse, hdecision⟩
  cases mayWrite_of_wrote hwrote with
  | farewell hplan => exact readable_of_finish hplan
  | refusal hplan => exact readable_of_refuse hupper hread hplan
  | starttls hplan =>
      have htag := isTag_of_starttls hread hplan
      unfold Session.starttlsResponse
      split
      · exact htag.readable rfl (show OneLine "Already using TLS" by decide)
      · split
        · exact htag.readable rfl (show OneLine "STARTTLS not available" by decide)
        · exact htag.readable rfl (show OneLine "Ready for TLS handshake" by decide)
  | reply hplan hanswer hresponse =>
      obtain ⟨htag, command, harguments, hdecision⟩ := hdispatched hplan
      exact readable_of_commandDecision htag hprints hstores harguments hdecision hanswer response
        hresponse
  | @handlerError tagHistory tag decision error hplan herror =>
      obtain ⟨htag, command, harguments, hdecision⟩ := hdispatched hplan
      have hprinted : OneLine error.display := by
        rcases herror with hanswer | ⟨position, hfailed⟩
        · exact absurd hanswer (answer_ne_error hdecision)
        · exact hprints.writeError position error hfailed
      exact htag.readable rfl (oneLine_append.mpr ⟨by decide, hprinted⟩)

end InMemory

/-! ## Connected systems -/

/-- Sessions with their connections, and the registry they share. -/
structure ConnectedSystem (Id R : Type) where
  sessions : Id → Session
  readers : Id → BufReader Error
  registry : R

namespace ConnectedSystem

variable {Id R : Type}

/-- Sessions that are new, each with a connection on which a stream is to come. -/
def new (started maxSession maxIdle : Id → Nat) (isTls : Id → Bool)
    (greeting : Id → Option Error) (readers : Id → BufReader Error) (registry : R) :
    ConnectedSystem Id R where
  sessions := (System.new started maxSession maxIdle isTls greeting registry).sessions
  readers
  registry

/-- One session of the system on its connection. -/
def connected (system : ConnectedSystem Id R) (id : Id) : ConnectedSession R where
  session := system.sessions id
  reader := system.readers id
  registry := system.registry

variable [DecidableEq Id]

/-- One session takes a turn on its connection. -/
def step [UnicodeCase] (server : Server R) (accept : TlsAccept) (system : ConnectedSystem Id R)
    (input : Id × Turn) : ConnectedSystem Id R × TurnRecord :=
  let (connected, record) := (system.connected input.1).step server accept (input.2, fun registry => registry)
  ({ sessions := Function.update system.sessions input.1 connected.session
     readers := Function.update system.readers input.1 connected.reader
     registry := connected.registry }, record)

/-- Connected sessions as a machine over their turns. -/
def machine [UnicodeCase] (server : Server R) (accept : TlsAccept) :
    Machine (ConnectedSystem Id R) (Id × Turn) TurnRecord where
  step := step server accept

/-- The responses that went out on one connection, in order. -/
def written (id : Id) (transcript : List ((Id × Turn) × TurnRecord)) : List Response :=
  transcript.flatMap fun entry => if entry.1.1 = id then sent entry.2.trace else []

section Written

variable [UnicodeCase] {engine : RegexEngine} {order : HashOrder (String × String) MailboxInfo}
  {tlsAcceptor : Bool} {accept : TlsAccept}

theorem step_eq (system : ConnectedSystem Id InMemoryMailboxes) (input : Id × Turn) :
    ((step (imapServer (inMemoryMailboxes engine order) tlsAcceptor) accept system
        input).2.trace =
      ((system.sessions input.1).outcome (inMemoryMailboxes engine order) tlsAcceptor
        ((system.connected input.1).turnOf accept input.2) system.registry).trace) ∧
    (step (imapServer (inMemoryMailboxes engine order) tlsAcceptor) accept system
        input).1.registry =
      ((system.sessions input.1).outcome (inMemoryMailboxes engine order) tlsAcceptor
        ((system.connected input.1).turnOf accept input.2) system.registry).registry := by
  simp only [step, ConnectedSession.step, turn_eq, execute_eq]
  exact ⟨rfl, rfl⟩

omit [UnicodeCase] in
theorem atMostALine_turnOf {connected : ConnectedSession InMemoryMailboxes} {turn : Turn}
    {line : String} (hread : (connected.turnOf accept turn).read = .ok line) :
    AtMostALine line := by
  change (connected.read turn).1 = .ok line at hread
  by_cases hwaits : connected.session.waits turn = true
  · exact BufReader.atMostALine_of_readLine (ConnectedSession.readLine_of_waits hwaits hread)
  · rw [ConnectedSession.read, if_neg hwaits] at hread
    cases hread
    intro before after htext
    simp at htext

/-- In every run on a registry that is empty at first, everything that is written is
readable. -/
theorem readable_of_mem_transcript (hupper : UpperKeepsLines)
    (started maxSession maxIdle : Id → Nat) (isTls : Id → Bool) (greeting : Id → Option Error)
    (readers : Id → BufReader Error) {inputs : List (Id × Turn)}
    (hprints : ∀ input ∈ inputs, input.2.PrintsErrors) :
    ∀ entry ∈ (machine (imapServer (inMemoryMailboxes engine order) tlsAcceptor) accept).transcript
      (.new started maxSession maxIdle isTls greeting readers .new) inputs,
      ∀ response ∈ sent entry.2.trace, response.Readable := by
  let Inv (system : ConnectedSystem Id InMemoryMailboxes) : Prop := system.registry.StoresArguments
  have hstep (system : ConnectedSystem Id InMemoryMailboxes) (input : Id × Turn) (hinv : Inv system) :
      Inv ((machine (imapServer (inMemoryMailboxes engine order) tlsAcceptor) accept).step system
        input).1 := by
    change (step _ accept system input).1.registry.StoresArguments
    rw [(step_eq system input).2]
    exact storesArguments_outcome hinv
  rintro ⟨input, record⟩ hentry response hresponse
  obtain ⟨done, rest, rfl, rfl⟩ := Machine.mem_transcript_iff.mp hentry
  have hinv : Inv ((machine (imapServer (inMemoryMailboxes engine order) tlsAcceptor) accept).final
      (.new started maxSession maxIdle isTls greeting readers .new) done) :=
    Machine.final_invariant (fun system input _ => hstep system input) storesArguments_new
  obtain ⟨hwrites, hauthenticates⟩ :=
    hprints input (List.mem_append_right _ List.mem_cons_self)
  have hwrote := wrote_of_mem_sent hresponse
  change .wrote response ∈ (step _ accept _ input).2.trace at hwrote
  rw [(step_eq _ input).1] at hwrote
  refine readable_of_wrote hupper ?_ (fun line hread => atMostALine_turnOf hread) hinv hwrote
  exact ⟨hwrites, hauthenticates⟩

/--
What a client reads.  In every run of sessions on a registry that is empty at first,
whatever their clients send and however the turns interleave: let the texts of the
responses that a session has written arrive at its client, cut into pieces anyhow.  Then
the client reads as many lines as responses were written, and each is the line that its
response is meant to be, except a completion under the tag `*` or `+`.  Nothing that a
client sends or stores makes one response look like two.
-/
theorem responses_read_back (hupper : UpperKeepsLines) (started maxSession maxIdle : Id → Nat)
    (isTls : Id → Bool) (greeting : Id → Option Error) (readers : Id → BufReader Error)
    (inputs : List (Id × Turn)) (hprints : ∀ input ∈ inputs, input.2.PrintsErrors) (id : Id)
    (responses : List Response)
    (hresponses : responses = written id
      ((machine (imapServer (inMemoryMailboxes engine order) tlsAcceptor) accept).transcript
        (.new started maxSession maxIdle isTls greeting readers .new) inputs))
    {ε : Type} (invalid : ε) (pieces : List (List UInt8)) (hpieces : [] ∉ pieces)
    (more : List UInt8)
    (harrived : pieces.flatten =
      (responses.flatMap fun response => asBytes response.display) ++ more)
    (after : ByteStream ε) :
    ∃ lines : List ServerLine,
      (BufReader.readLines invalid responses.length (.new (.cut pieces after))).map
          (Except.map ServerLine.read) = lines.map (fun line => .ok (some line)) ∧
        List.Forall₂ (fun response line => line = response.line ↔ response.ShowsTag)
          responses lines := by
  have hreadable : ∀ response ∈ responses, response.Readable := by
    intro response hresponse
    rw [hresponses, written, List.mem_flatMap] at hresponse
    obtain ⟨entry, hentry, hsent⟩ := hresponse
    split at hsent
    · exact readable_of_mem_transcript hupper started maxSession maxIdle isTls greeting readers
        hprints entry hentry response hsent
    · cases hsent
  have hlines : ∀ line ∈ responses.map Response.display, IsLine line := by
    intro line hline
    obtain ⟨response, hresponse, rfl⟩ := List.mem_map.mp hline
    exact isLine_display_iff.mpr (hreadable response hresponse).oneLine
  have hbytes : [] ++ pieces.flatten = (responses.map Response.display).flatMap asBytes ++ more := by
    rw [List.nil_append, harrived, List.flatMap_map]
  have hread := BufReader.readLines_cut invalid hlines hpieces hbytes after
  rw [List.length_map] at hread
  rw [BufReader.new, hread, List.map_map, List.map_map]
  clear hread harrived hbytes hlines hresponses
  induction responses with
  | nil => exact ⟨[], rfl, .nil⟩
  | cons response rest ih =>
      obtain ⟨hresponse, hrest⟩ := List.forall_mem_cons.mp hreadable
      obtain ⟨lines, hlines, hmeant⟩ := ih hrest
      obtain ⟨line, hline, hshows⟩ := read_display fun tag htag => (hresponse.tag tag htag).noSpace
      refine ⟨line :: lines, ?_, .cons hshows hmeant⟩
      rw [List.map_cons, List.map_cons, hlines]
      exact congrArg (· :: _) (congrArg Except.ok hline)

end Written

/-! ## Pieces of the input -/

section Recut

variable [UnicodeCase] {server : Server R} {accept : TlsAccept}

/-- Two connections on which a session reads the same do the same in a turn without an
upgrade, and are left with what is behind it. -/
theorem step_of_read {connected connected' : ConnectedSession R} {input : Turn × (R → R)}
    (hsession : connected'.session = connected.session)
    (hregistry : connected'.registry = connected.registry)
    (hread : (connected'.read input.1).1 = (connected.read input.1).1)
    (hupgrades : ¬ connected.Upgrades server accept input.1) :
    (connected'.step server accept input).2 = (connected.step server accept input).2 ∧
      (connected'.step server accept input).1 =
        { (connected.step server accept input).1 with
          reader := (connected'.read input.1).2 } ∧
      (connected.step server accept input).1.reader = (connected.read input.1).2 := by
  have hturn : connected'.turnOf accept input.1 =
      { connected.turnOf accept input.1 with
        handshake := (connected'.turnOf accept input.1).handshake } := by
    simp only [ConnectedSession.turnOf, hread]
  have hnext : connected'.session.turn server (connected'.turnOf accept input.1)
        ⟨input.2 connected'.registry, []⟩ =
      connected.session.turn server (connected.turnOf accept input.1)
        ⟨input.2 connected.registry, []⟩ := by
    rw [hsession, hregistry, hturn]
    exact (turn_of_not_answersStarttls hupgrades _ _).1
  have hupgrades' : ¬ connected'.Upgrades server accept input.1 := by
    intro hanswers
    unfold ConnectedSession.Upgrades at hanswers
    rw [hturn, hsession] at hanswers
    exact hupgrades ⟨hanswers.parsed, hanswers.plain, hanswers.available, hanswers.written⟩
  have hparsed : connected'.session.parsed (connected'.turnOf accept input.1) =
      connected.session.parsed (connected.turnOf accept input.1) := by
    rw [hsession, hturn]
    rfl
  refine ⟨?_, ?_, (ConnectedSession.step_of_not_upgrades hupgrades).2⟩
  · simp only [ConnectedSession.step, hnext, hparsed]
  · rw [← (ConnectedSession.step_of_not_upgrades hupgrades').2]
    simp only [ConnectedSession.step, hnext]

omit [UnicodeCase] in
theorem read_of_recut {connected connected' : ConnectedSession R}
    (hsession : connected'.session = connected.session)
    (hreader : connected.reader.Recut connected'.reader) (turn : Turn) :
    (connected'.read turn).1 = (connected.read turn).1 ∧
      (connected.read turn).2.Recut (connected'.read turn).2 := by
  unfold ConnectedSession.read
  rw [hsession]
  split
  · obtain ⟨hresult, hrest⟩ := hreader.readLine ConnectedSession.invalidUtf8
    exact ⟨hresult.symm, hrest⟩
  · exact ⟨rfl, hreader⟩

/-- Two systems whose clients send the same bytes, cut into pieces differently. -/
structure Recut (system system' : ConnectedSystem Id R) : Prop where
  sessions : system'.sessions = system.sessions
  registry : system'.registry = system.registry
  readers : ∀ id, (system.readers id).Recut (system'.readers id)

/-- No STARTTLS is answered with OK in this turn. -/
def KeepsConnection (server : Server R) (accept : TlsAccept) (system : ConnectedSystem Id R)
    (input : Id × Turn) : Prop :=
  ¬ (system.connected input.1).Upgrades server accept input.2

theorem Recut.step {system system' : ConnectedSystem Id R} (hrecut : Recut system system')
    {input : Id × Turn} (hkeeps : KeepsConnection server accept system input) :
    ((machine server accept).step system input).2 = ((machine server accept).step system' input).2 ∧
      Recut ((machine server accept).step system input).1
        ((machine server accept).step system' input).1 := by
  have hread : ((system'.connected input.1).read input.2).1 =
        ((system.connected input.1).read input.2).1 ∧
      ((system.connected input.1).read input.2).2.Recut
        ((system'.connected input.1).read input.2).2 :=
    read_of_recut (congrFun hrecut.sessions input.1) (hrecut.readers input.1) input.2
  obtain ⟨hrecord, hnext, hreader⟩ := @step_of_read R _ server accept (system.connected input.1)
    (system'.connected input.1) (input.2, fun registry => registry) (congrFun hrecut.sessions input.1)
    hrecut.registry hread.1 hkeeps
  refine ⟨hrecord.symm, ?_, ?_, fun id => ?_⟩
  · simp only [machine, ConnectedSystem.step, hnext, hrecut.sessions]
  · simp only [machine, ConnectedSystem.step, hnext]
  · simp only [machine, ConnectedSystem.step, hnext, hreader]
    by_cases hsame : id = input.1
    · subst hsame
      rw [Function.update_self, Function.update_self]
      exact hread.2
    · rw [Function.update_of_ne hsame, Function.update_of_ne hsame]
      exact hrecut.readers id

/--
How the input is cut into pieces does not matter.  Take two systems that agree in their
sessions and in their registry, and whose clients send the same bytes in other pieces.
As long as no STARTTLS is answered with OK, every turn does the same in both, and they
agree again afterwards.
-/
theorem cuts_do_not_matter (server : Server R) (accept : TlsAccept)
    {system system' : ConnectedSystem Id R} (hrecut : Recut system system')
    {inputs : List (Id × Turn)}
    (hkeeps : (machine server accept).Meets (KeepsConnection server accept) system inputs) :
    (machine server accept).transcript system inputs =
        (machine server accept).transcript system' inputs ∧
      Recut ((machine server accept).final system inputs)
        ((machine server accept).final system' inputs) :=
  Machine.bisimulation_of_meets (fun _ _ _ hkeeps hrecut => hrecut.step hkeeps) hrecut hkeeps

end Recut

/-! ## A client that pipelines -/

/-- One session, on whose connection the pieces are to come. -/
def oneClient (pieces : List (List UInt8)) : ConnectedSystem Unit InMemoryMailboxes :=
  .new (fun _ => 0) (fun _ => 3600) (fun _ => 1800) (fun _ => false) (fun _ => none)
    (fun _ => .new (.cut pieces [])) .new

/-- Three commands; the name of the mailbox has a quote and a backslash in it. -/
def threeCommands : List UInt8 :=
  asBytes "a1 LOGIN ann x\r\na2 CREATE a\"\\b\r\na3 LIST \"\" *\r\n"

/-- Bytes that come one by one. -/
def bytewise (bytes : List UInt8) : List (List UInt8) := bytes.map fun byte => [byte]

theorem nil_notMem_bytewise (bytes : List UInt8) : [] ∉ bytewise bytes := by
  intro hmem
  obtain ⟨byte, -, hempty⟩ := List.mem_map.mp hmem
  cases hempty

theorem flatten_bytewise (bytes : List UInt8) : (bytewise bytes).flatten = bytes := by
  induction bytes with
  | nil => rfl
  | cons byte rest ih => exact congrArg (List.cons byte) ih

def threeTurns : List (Unit × Turn) :=
  List.replicate 3 ((), .smooth (fun _ => .ok true) "")

theorem upperKeepsLines_ascii : @UpperKeepsLines UnicodeCase.ascii := by
  intro c hupper
  have hsame : c.toUpper = '\n' := (List.mem_singleton.mp hupper).symm
  have hnat := toNat_toUpper c
  rw [hsame] at hnat
  have hten : ('\n').toNat = 10 := rfl
  rw [hten] at hnat
  apply Char.toNat_inj.mp
  rw [hten]
  split at hnat <;> omega

/-- The law for this client, which reads its four responses in pieces of one byte. -/
theorem responses_read_back_threeCommands :
    let responses := [Response.ok (some "a1") "LOGIN completed",
      .ok (some "a2") "CREATE completed for a\"\\b", .untagged "LIST () \"/\" \"a\"\\b\"",
      .ok (some "a3") "LIST completed"]
    let pieces := bytewise (responses.flatMap fun response => asBytes response.display)
    (BufReader.readLines () 4 (.new (.cut pieces []))).map (Except.map ServerLine.read) =
      [.ok (some (.tagged "a1" "OK LOGIN completed")),
        .ok (some (.tagged "a2" "OK CREATE completed for a\"\\b")),
        .ok (some (.untagged "LIST () \"/\" \"a\"\\b\"")),
        .ok (some (.tagged "a3" "OK LIST completed"))] := by
  intro responses pieces
  let _ := UnicodeCase.ascii
  have hwritten : responses = written () ((machine (imapServer
      (inMemoryMailboxes .searching .listed) false) (fun _ => .error "")).transcript
        (oneClient [threeCommands]) threeTurns) := by
    decide +kernel
  have hprints : ∀ input ∈ threeTurns, input.2.PrintsErrors := by
    intro input hinput
    obtain rfl := List.eq_of_mem_replicate hinput
    constructor
    · intro position error herror
      cases herror
    · intro credentials error herror
      cases herror
  have harrived : pieces.flatten =
      (responses.flatMap fun response => asBytes response.display) ++ [] := by
    rw [List.append_nil]
    exact flatten_bytewise _
  obtain ⟨lines, hread, hmeant⟩ := responses_read_back upperKeepsLines_ascii _ _ _ _ _ _
    threeTurns hprints () responses hwritten () pieces (nil_notMem_bytewise _) [] harrived []
  rw [show responses.length = 4 from rfl] at hread
  rw [hread]
  -- no response has one of the two signs for its tag
  simp only [responses] at hmeant
  obtain _ | ⟨hfirst, _ | ⟨hsecond, _ | ⟨hthird, _ | ⟨hfourth, _ | _⟩⟩⟩⟩ := hmeant
  rw [hfirst.mpr (by decide), hsecond.mpr (by decide), hthird.mpr (by decide),
    hfourth.mpr (by decide)]
  rfl

/-- The law for this client, whose bytes arrive all at once or one by one. -/
theorem cuts_do_not_matter_threeCommands :
    let _ := UnicodeCase.ascii
    let machine := machine (imapServer (inMemoryMailboxes .searching .listed) false)
      (fun _ => .error "")
    machine.transcript (oneClient [threeCommands]) threeTurns =
      machine.transcript (oneClient (bytewise threeCommands)) threeTurns := by
  intro _ machine
  have hrecut : Recut (oneClient [threeCommands]) (oneClient (bytewise threeCommands)) := by
    refine ⟨rfl, rfl, fun _ => .bytes (by decide +kernel) (nil_notMem_bytewise _) ?_ []⟩
    rw [flatten_bytewise]
    rfl
  have hkeeps (system : ConnectedSystem Unit InMemoryMailboxes) (inputs : List (Unit × Turn)) :
      machine.Meets (KeepsConnection (imapServer (inMemoryMailboxes .searching .listed) false)
        (fun _ => .error "")) system inputs := by
    induction inputs generalizing system with
    | nil => trivial
    | cons input rest ih => exact ⟨fun hupgrades => Bool.noConfusion hupgrades.available, ih _⟩
  exact (cuts_do_not_matter _ _ hrecut (hkeeps _ threeTurns)).1

end ConnectedSystem

end Scuttled
