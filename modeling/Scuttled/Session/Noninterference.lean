import Scuttled.Handlers.Pattern
import Scuttled.Session.Authentication
import Scuttled.Session.System

/-!
# Noninterference between users

The sessions of one user answer as if the lines of all other users had not been
sent.  The relation that carries this says that the two registries store the
same mailboxes of that user; the UID validities may differ, since one counter
serves all users, and so may the order in which a listing meets the mailboxes.
-/

namespace Scuttled

open Rust Foundation

/-! ## Responses alike but for the order of a listing -/

/-- A line of an answer to LIST. -/
def Response.IsListLine (response : Response) : Prop := ∃ info, response = listLine info

/-- Two turns send the same responses, but for the order of the lines of one
listing.  A failing write cuts both listings after the same number of lines. -/
def SentAlike (turn : Turn) (trace trace' : List Action) : Prop :=
  ∃ (lines lines' rest : List Response) (count : Nat), lines.Perm lines' ∧
    (∀ line ∈ lines, line.IsListLine) ∧ sent trace = lines.take count ++ rest ∧
    sent trace' = lines'.take count ++ rest ∧ (turn.WritesSucceed → lines.length ≤ count)

theorem SentAlike.of_eq {turn : Turn} {trace trace' : List Action}
    (hsent : sent trace = sent trace') : SentAlike turn trace trace' := by
  refine ⟨[], [], sent trace, 0, .nil, by simp, rfl, ?_, fun _ => Nat.le_refl 0⟩
  rw [← hsent]
  rfl

/-- Replies that differ at most in the order of the lines of a listing. -/
inductive Reply.Alike : Result Reply → Result Reply → Prop where
  | error (error : Error) : Alike (.error error) (.error error)
  | ok {lines lines' rest : List Response} (next : Option SessionState) :
      lines.Perm lines' → (∀ line ∈ lines, line.IsListLine) →
      Alike (.ok ⟨lines ++ rest, next⟩) (.ok ⟨lines' ++ rest, next⟩)

theorem Reply.Alike.refl (reply : Result Reply) : Reply.Alike reply reply := by
  cases reply with
  | error error => exact .error error
  | ok reply =>
      have halike : Reply.Alike (.ok ⟨[] ++ reply.responses, reply.next⟩)
          (.ok ⟨[] ++ reply.responses, reply.next⟩) := .ok reply.next (.refl []) (by simp)
      exact halike

/-- Writes of as many responses go equally far and end alike. -/
theorem deliver_alike (connection : Connection) {first second : List Response}
    (hlength : first.length = second.length) (position : Nat) :
    (connection.deliver position first).2 = (connection.deliver position second).2 ∧
      (connection.deliver position first).1.length =
        (connection.deliver position second).1.length ∧
      ∃ count, sent (connection.deliver position first).1 = first.take count ∧
        sent (connection.deliver position second).1 = second.take count ∧
        ((∀ position, connection.writeError position = none) → count = first.length) := by
  induction first generalizing second position with
  | nil =>
      obtain rfl := List.length_eq_zero_iff.mp hlength.symm
      exact ⟨rfl, rfl, 0, rfl, rfl, fun _ => rfl⟩
  | cons response firstRest ih =>
      cases second with
      | nil => cases hlength
      | cons response' secondRest =>
          obtain ⟨hresult, hwritten, count, hfirst, hsecond, hall⟩ :=
            ih (Nat.succ.inj hlength) (position + 1)
          simp only [Connection.deliver]
          cases hwrite : connection.writeError position with
          | some error =>
              refine ⟨rfl, rfl, 0, rfl, rfl, fun hsucceed => ?_⟩
              rw [hsucceed position] at hwrite
              cases hwrite
          | none =>
              refine ⟨hresult, congrArg (· + 1) hwritten, count + 1, ?_, ?_, fun hsucceed => ?_⟩
              · rw [List.take_succ_cons, ← hfirst]
                rfl
              · rw [List.take_succ_cons, ← hsecond]
                rfl
              · rw [hall hsucceed, List.length_cons]

/-- Replies that are alike lead to the same session and to responses alike. -/
theorem replyOutcome_alike {R R' : Type} {reply reply' : Result Reply}
    (halike : Reply.Alike reply reply') (isTls : Bool) (turn : Turn) (session : Session)
    (registry : R) (registry' : R') (tag : String) {asked : List Action}
    (hasked : sent asked = []) :
    (Reply.outcome reply ⟨isTls, turn.writeError⟩ session registry tag asked).session =
        (Reply.outcome reply' ⟨isTls, turn.writeError⟩ session registry' tag asked).session ∧
      SentAlike turn
        (Reply.outcome reply ⟨isTls, turn.writeError⟩ session registry tag asked).trace
        (Reply.outcome reply' ⟨isTls, turn.writeError⟩ session registry' tag asked).trace := by
  cases halike with
  | error error => exact ⟨rfl, .of_eq rfl⟩
  | @ok lines lines' rest next hperm hlines =>
      have hlength : (lines ++ rest).length = (lines' ++ rest).length := by
        rw [List.length_append, List.length_append, hperm.length_eq]
      obtain ⟨hresult, hwritten, count, hfirst, hsecond, hall⟩ :=
        deliver_alike ⟨isTls, turn.writeError⟩ hlength asked.length
      rw [List.take_append] at hfirst hsecond
      rw [← hperm.length_eq] at hsecond
      simp only [Reply.outcome]
      generalize Connection.deliver ⟨isTls, turn.writeError⟩ asked.length (lines ++ rest) =
        delivered at hresult hwritten hfirst hall ⊢
      generalize Connection.deliver ⟨isTls, turn.writeError⟩ asked.length (lines' ++ rest) =
        delivered' at hresult hwritten hsecond ⊢
      obtain ⟨written, result⟩ := delivered
      obtain ⟨written', result'⟩ := delivered'
      obtain rfl : result = result' := hresult
      have hcount (hsucceed : turn.WritesSucceed) : lines.length ≤ count := by
        rw [hall hsucceed, List.length_append]
        exact Nat.le_add_right _ _
      cases result with
      | ok delivered =>
          refine ⟨rfl, lines, lines', rest.take (count - lines.length), count, hperm, hlines, ?_, ?_,
            hcount⟩
          · rw [sent_append, hasked, List.nil_append]
            exact hfirst
          · rw [sent_append, hasked, List.nil_append]
            exact hsecond
      | error error =>
          -- the answer of the dispatcher follows, at the same position
          have hposition : (asked ++ written').length = (asked ++ written).length := by
            rw [List.length_append, List.length_append]
            exact congrArg _ hwritten.symm
          let answer := sent (Connection.deliver ⟨isTls, turn.writeError⟩ (asked ++ written).length
            [.bad (some tag) ("Handler error: " ++ error.display)]).1
          refine ⟨rfl, lines, lines', rest.take (count - lines.length) ++ answer, count, hperm,
            hlines, ?_, ?_, hcount⟩
          · rw [sent_append, sent_append, hasked, List.nil_append, ← List.append_assoc]
            exact congrArg (· ++ answer) hfirst
          · simp only [hposition]
            rw [sent_append, sent_append, hasked, List.nil_append, ← List.append_assoc]
            exact congrArg (· ++ answer) hsecond

/-! ## Registries that agree for a user -/

/-- The registries store the same mailboxes of the user. -/
structure InMemoryMailboxes.AgreeFor (username : String) (registry registry' : InMemoryMailboxes) :
    Prop where
  wellFormed : registry.state.WellFormed
  wellFormed' : registry'.state.WellFormed
  stored_eq : ∀ name, (registry.state.mailboxes.lookup (username, name)).isSome =
    (registry'.state.mailboxes.lookup (username, name)).isSome

section AgreeFor

variable {engine : RegexEngine} {order order' : HashOrder (String × String) MailboxInfo}
  {username : String} {registry registry' : InMemoryMailboxes}

theorem agreeFor_answer (turn : Turn) (decision : Decision)
    (hagree : registry.AgreeFor username registry') :
    InMemoryMailboxes.AgreeFor username
      (decision.answer (turn.context (inMemoryMailboxes engine order)) registry).2
      (decision.answer (turn.context (inMemoryMailboxes engine order')) registry').2 := by
  cases decision with
  | settled reply => exact hagree
  | authenticate credentials settle => exact hagree
  | get user name settle => exact hagree
  | create user name settle =>
      constructor
      · exact hagree.wellFormed.createMailbox user name
      · exact hagree.wellFormed'.createMailbox user name
      · intro other
        simp only [Decision.answer, Turn.context, inMemoryMailboxes, InMemoryMailboxes.serve,
          MailboxState.isSome_lookup_createMailbox, hagree.stored_eq]
  | delete user name settle =>
      constructor
      · exact hagree.wellFormed.deleteMailbox user name
      · exact hagree.wellFormed'.deleteMailbox user name
      · intro other
        simp only [Decision.answer, Turn.context, inMemoryMailboxes, InMemoryMailboxes.serve,
          MailboxState.isSome_lookup_deleteMailbox, hagree.stored_eq]
  | list user filter settle =>
      obtain ⟨iterations, hlist⟩ := listMailboxes_ok engine order user filter registry
      obtain ⟨iterations', hlist'⟩ := listMailboxes_ok engine order' user filter registry'
      simp only [Decision.answer, Turn.context, inMemoryMailboxes, hlist, hlist']
      exact ⟨hagree.wellFormed, hagree.wellFormed', hagree.stored_eq⟩

/-- What is asked for other users leaves the agreement for this one. -/
theorem agreeFor_answer_of_ne (turn : Turn) {decision : Decision}
    (hother : ∀ operation,
      .registry operation ∈ decision.asked (turn.context (inMemoryMailboxes engine order)) →
        operation.username ≠ username)
    (hagree : registry.AgreeFor username registry') :
    InMemoryMailboxes.AgreeFor username
      (decision.answer (turn.context (inMemoryMailboxes engine order)) registry).2 registry' := by
  have hkey {user name other : String} (huser : user ≠ username) :
      decide ((username, other) = (user, name)) = false :=
    decide_eq_false fun heq => huser (Prod.mk.inj heq).1.symm
  cases decision with
  | settled reply => exact hagree
  | authenticate credentials settle => exact hagree
  | get user name settle => exact hagree
  | create user name settle =>
      have huser : user ≠ username := hother _ (List.mem_singleton.mpr rfl)
      constructor
      · exact hagree.wellFormed.createMailbox user name
      · exact hagree.wellFormed'
      · intro other
        simp only [Decision.answer, Turn.context, inMemoryMailboxes, InMemoryMailboxes.serve,
          MailboxState.isSome_lookup_createMailbox, hkey huser, Bool.false_or, hagree.stored_eq]
  | delete user name settle =>
      have huser : user ≠ username := hother _ (List.mem_singleton.mpr rfl)
      constructor
      · exact hagree.wellFormed.deleteMailbox user name
      · exact hagree.wellFormed'
      · intro other
        simp only [Decision.answer, Turn.context, inMemoryMailboxes, InMemoryMailboxes.serve,
          MailboxState.isSome_lookup_deleteMailbox, hkey huser, Bool.not_false, Bool.true_and,
          hagree.stored_eq]
  | list user filter settle =>
      obtain ⟨iterations, hlist⟩ := listMailboxes_ok engine order user filter registry
      simp only [Decision.answer, Turn.context, inMemoryMailboxes, hlist]
      exact ⟨hagree.wellFormed, hagree.wellFormed', hagree.stored_eq⟩

theorem mem_names_iterateOf_iff (hregistry : registry.state.WellFormed) {name : String} :
    name ∈ (registry.iterateOf order username).map (fun info => info.id.name) ↔
      (registry.state.mailboxes.lookup (username, name)).isSome := by
  rw [List.mem_map, Option.isSome_iff_exists]
  constructor
  · rintro ⟨info, hinfo, rfl⟩
    exact ⟨info, (mem_iterateOf_iff hregistry).mp hinfo⟩
  · rintro ⟨info, hlookup⟩
    have hname : info.id.name = name := by rw [hregistry.id_of_lookup hlookup]
    exact ⟨info, (mem_iterateOf_iff hregistry).mpr (hname ▸ hlookup), hname⟩

theorem names_iterateOf_perm (hagree : registry.AgreeFor username registry') :
    ((registry.iterateOf order username).map fun info => info.id.name).Perm
      ((registry'.iterateOf order' username).map fun info => info.id.name) := by
  rw [List.perm_ext_iff_of_nodup (nodup_names_iterateOf hagree.wellFormed order username)
    (nodup_names_iterateOf hagree.wellFormed' order' username)]
  intro name
  rw [mem_names_iterateOf_iff hagree.wellFormed, mem_names_iterateOf_iff hagree.wellFormed',
    hagree.stored_eq]

theorem map_listLine_perm (accepts : String → Bool) {infos infos' : List MailboxInfo}
    (hnames : (infos.map fun info => info.id.name).Perm (infos'.map fun info => info.id.name)) :
    ((infos.filter fun info => accepts info.id.name).map listLine).Perm
      ((infos'.filter fun info => accepts info.id.name).map listLine) := by
  let line (name : String) : Response := .untagged ("LIST () \"/\" \"" ++ name ++ "\"")
  have hline (found : List MailboxInfo) :
      (found.filter fun info => accepts info.id.name).map listLine =
        ((found.map fun info => info.id.name).filter accepts).map line := by
    rw [List.filter_map, List.map_map]
    rfl
  rw [hline, hline]
  exact (hnames.filter accepts).map line

/-! ## Decisions answered alike -/

/-- Registries that agree for the user answer the decision alike. -/
structure Decision.AnsweredAlike (decision : Decision) (engine : RegexEngine)
    (order order' : HashOrder (String × String) MailboxInfo) (username : String) : Prop where
  alike : ∀ (turn : Turn) (registry registry' : InMemoryMailboxes),
    registry.AgreeFor username registry' →
      Reply.Alike (decision.answer (turn.context (inMemoryMailboxes engine order)) registry).1
        (decision.answer (turn.context (inMemoryMailboxes engine order')) registry').1

variable {tag args : String} {currentState : SessionState}

theorem settled_answeredAlike (reply : Reply) :
    (Decision.settled reply).AnsweredAlike engine order order' username :=
  ⟨fun _ _ _ _ => .refl _⟩

theorem loginDecision_answeredAlike :
    (loginDecision tag args).AnsweredAlike engine order order' username := by
  unfold loginDecision
  split
  · exact settled_answeredAlike _
  · exact ⟨fun _ _ _ _ => .refl _⟩

theorem namedDecision_answeredAlike {command : String} {decide : String → String → Decision}
    (hcurrent : ∀ user, currentState.username = some user → user = username)
    (hdecide : ∀ name, (decide username name).AnsweredAlike engine order order' username) :
    (namedDecision tag command args currentState decide).AnsweredAlike engine order order'
      username := by
  unfold namedDecision
  split
  · exact settled_answeredAlike _
  · cases hstate : currentState.username with
    | none => exact settled_answeredAlike _
    | some user =>
        obtain rfl := hcurrent user hstate
        exact hdecide _

section Commands

variable (hcurrent : ∀ user, currentState.username = some user → user = username)

include hcurrent

theorem selectDecision_answeredAlike :
    (selectDecision tag args currentState).AnsweredAlike engine order order' username := by
  apply namedDecision_answeredAlike hcurrent
  intro name
  constructor
  intro turn registry registry' hagree
  have hstored := hagree.stored_eq name
  simp only [Decision.answer, Turn.context, inMemoryMailboxes]
  cases hlookup : registry.state.mailboxes.lookup (username, name) with
  | none =>
      rw [hlookup, Option.isSome_none, eq_comm, Option.isSome_eq_false_iff,
        Option.isNone_iff_eq_none] at hstored
      rw [hstored]
      exact .refl _
  | some info =>
      rw [hlookup, Option.isSome_some, eq_comm] at hstored
      obtain ⟨info', hlookup'⟩ := Option.isSome_iff_exists.mp hstored
      rw [hlookup']
      exact .refl _

theorem createDecision_answeredAlike :
    (createDecision tag args currentState).AnsweredAlike engine order order' username := by
  apply namedDecision_answeredAlike hcurrent
  intro name
  constructor
  intro turn registry registry' hagree
  have hstored := hagree.stored_eq name
  simp only [Decision.answer, Turn.context, inMemoryMailboxes, InMemoryMailboxes.serve]
  rcases MailboxState.createMailbox_cases username name registry.state with
    ⟨info, hlookup, hsame⟩ | ⟨hlookup, info, -, -, -, hnew⟩
  · rcases MailboxState.createMailbox_cases username name registry'.state with
      ⟨info', -, hsame'⟩ | ⟨hlookup', -⟩
    · rw [hsame, hsame']
      exact .refl _
    · rw [hlookup, hlookup'] at hstored
      cases hstored
  · rcases MailboxState.createMailbox_cases username name registry'.state with
      ⟨info', hlookup', -⟩ | ⟨-, info', -, -, -, hnew'⟩
    · rw [hlookup, hlookup'] at hstored
      cases hstored
    · rw [hnew, hnew']
      exact .refl _

theorem deleteDecision_answeredAlike :
    (deleteDecision tag args currentState).AnsweredAlike engine order order' username := by
  unfold deleteDecision
  split
  · exact settled_answeredAlike _
  · apply namedDecision_answeredAlike hcurrent
    intro name
    constructor
    intro turn registry registry' hagree
    have hstored := hagree.stored_eq name
    simp only [Decision.answer, Turn.context, inMemoryMailboxes, InMemoryMailboxes.serve]
    rcases MailboxState.deleteMailbox_cases hagree.wellFormed username name with
      ⟨hlookup, hsame⟩ | ⟨hlookup, hgone⟩
    · rcases MailboxState.deleteMailbox_cases hagree.wellFormed' username name with
        ⟨-, hsame'⟩ | ⟨hlookup', -⟩
      · rw [hsame, hsame']
        exact .refl _
      · rw [hlookup, hlookup'] at hstored
        cases hstored
    · rcases MailboxState.deleteMailbox_cases hagree.wellFormed' username name with
        ⟨hlookup', -⟩ | ⟨-, hgone'⟩
      · rw [hlookup, hlookup'] at hstored
        cases hstored
      · rw [hgone, hgone']
        exact .refl _

theorem listDecision_answeredAlike :
    (listDecision tag args currentState).AnsweredAlike engine order order' username := by
  unfold listDecision
  split
  · exact settled_answeredAlike _
  · rename_i reference pattern _
    cases hstate : currentState.username with
    | none => exact settled_answeredAlike _
    | some user =>
        obtain rfl := hcurrent user hstate
        constructor
        intro turn registry registry' hagree
        obtain ⟨iterations, hlist⟩ := listMailboxes_ok engine order user
          (patternToFilter (effectivePattern reference pattern)) registry
        obtain ⟨iterations', hlist'⟩ := listMailboxes_ok engine order' user
          (patternToFilter (effectivePattern reference pattern)) registry'
        simp only [Decision.answer, Turn.context, inMemoryMailboxes, hlist, hlist']
        apply Reply.Alike.ok
        · exact map_listLine_perm (fun name => MailboxFilter.accepts engine name _)
            (names_iterateOf_perm hagree)
        · intro line hline
          obtain ⟨info, -, rfl⟩ := List.mem_map.mp hline
          exact ⟨info, rfl⟩

theorem commandDecision_answeredAlike {command : Command} {decision : Decision}
    (hdecision : commandDecision tag currentState command = some decision) :
    decision.AnsweredAlike engine order order' username := by
  cases handledBy_of_commandDecision hdecision with
  | capability => exact settled_answeredAlike _
  | noop => exact settled_answeredAlike _
  | logout => exact settled_answeredAlike _
  | login user password => exact loginDecision_answeredAlike
  | select mailbox => exact selectDecision_answeredAlike hcurrent
  | create mailbox => exact createDecision_answeredAlike hcurrent
  | delete mailbox => exact deleteDecision_answeredAlike hcurrent
  | list reference pattern => exact listDecision_answeredAlike hcurrent

end Commands

end AgreeFor

/-! ## Turns -/

section Turns

variable [UnicodeCase] {engine : RegexEngine}
  {order order' : HashOrder (String × String) MailboxInfo} {tlsAcceptor : Bool}
  {session : Session} {turn : Turn} {username : String} {registry registry' : InMemoryMailboxes}

/-- A turn of a session of the user: over registries that agree for the user
the session ends up the same, and its responses are alike. -/
theorem outcome_alike
    (hcurrent : ∀ user, session.sessionState.username = some user → user = username)
    (hagree : registry.AgreeFor username registry') :
    let outcome := session.outcome (inMemoryMailboxes engine order) tlsAcceptor turn registry
    let outcome' := session.outcome (inMemoryMailboxes engine order') tlsAcceptor turn registry'
    outcome.session = outcome'.session ∧ SentAlike turn outcome.trace outcome'.trace ∧
      outcome.registry.AgreeFor username outcome'.registry := by
  intro outcome outcome'
  simp only [outcome, outcome', Session.outcome]
  cases hplan : session.plan turn with
  | idle => exact ⟨rfl, .of_eq rfl, hagree⟩
  | finish farewell result => exact ⟨rfl, .of_eq rfl, hagree⟩
  | refuse tagHistory response => exact ⟨rfl, .of_eq rfl, hagree⟩
  | starttls tagHistory tag =>
      simp only [Plan.outcome, starttlsOutcome]
      split
      · exact ⟨rfl, .of_eq rfl, hagree⟩
      · split
        · exact ⟨rfl, .of_eq rfl, hagree⟩
        · split <;> exact ⟨rfl, .of_eq rfl, hagree⟩
  | dispatch tagHistory tag decision =>
      obtain ⟨line, commandLine, command, -, -, -, hdecision⟩ := Session.plan_dispatch_cases hplan
      have hanswered : decision.AnsweredAlike engine order order' username :=
        commandDecision_answeredAlike hcurrent hdecision
      have hasked : decision.asked (turn.context (inMemoryMailboxes engine order')) =
          decision.asked (turn.context (inMemoryMailboxes engine order)) := by
        cases decision <;> rfl
      simp only [Plan.outcome, registry_reply, hasked]
      obtain ⟨hsession, hsent⟩ := replyOutcome_alike (hanswered.alike turn _ _ hagree)
        session.isTls turn { session with tagHistory }
        (decision.answer (turn.context (inMemoryMailboxes engine order)) registry).2
        (decision.answer (turn.context (inMemoryMailboxes engine order')) registry').2 tag
        (sent_asked (turn.context (inMemoryMailboxes engine order)) decision)
      exact ⟨hsession, hsent, agreeFor_answer turn decision hagree⟩

theorem agreeFor_outcome_of_ne
    (hcurrent : ∀ user, session.sessionState.username = some user → user ≠ username)
    (hagree : registry.AgreeFor username registry') :
    (session.outcome (inMemoryMailboxes engine order) tlsAcceptor turn
      registry).registry.AgreeFor username registry' := by
  unfold Session.outcome
  cases hplan : session.plan turn with
  | idle => exact hagree
  | finish farewell result => exact hagree
  | refuse tagHistory response => exact hagree
  | starttls tagHistory tag =>
      simp only [Plan.outcome, starttlsOutcome]
      split
      · exact hagree
      · split
        · exact hagree
        · split <;> exact hagree
  | dispatch tagHistory tag decision =>
      obtain ⟨line, commandLine, command, -, -, -, hdecision⟩ := Session.plan_dispatch_cases hplan
      simp only [Plan.outcome, registry_reply]
      refine agreeFor_answer_of_ne turn (fun operation hasked => ?_) hagree
      exact hcurrent _ (commandDecision_actsFor hdecision _ operation hasked)

end Turns

/-! ## Runs -/

variable {Id : Type} [DecidableEq Id]

/-- The credentials the authenticator accepted in a turn. -/
def accepted (trace : List Action) : List Credentials :=
  trace.filterMap fun
    | .authenticated credentials (.ok true) => some credentials
    | _ => none

theorem mem_accepted_of_loggedIn [UnicodeCase] {entry : Turn × List Action} {username : String}
    (hlogin : LoggedIn entry username) :
    ∃ credentials ∈ accepted entry.2, credentials.username = username := by
  obtain ⟨buffer, tag, commandLine, password, -, -, -, -, htrace⟩ := hlogin
  refine ⟨⟨username, password⟩, ?_, rfl⟩
  rw [htrace]
  exact List.mem_cons_self

/-- The systems agree about everything of one user: the user's sessions are the
same, the registries store the same of the user's mailboxes, and in the first
system every session acts for its owner. -/
structure System.AgreeFor (owner : Id → String) (username : String)
    (system system' : System Id InMemoryMailboxes) : Prop where
  registry : system.registry.AgreeFor username system'.registry
  sessions : ∀ id, owner id = username → system.sessions id = system'.sessions id
  owned : ∀ id user, (system.sessions id).sessionState.username = some user → user = owner id

section Runs

variable [UnicodeCase] {engine : RegexEngine}
  {order order' : HashOrder (String × String) MailboxInfo} {tlsAcceptor : Bool}
  {owner : Id → String} {username : String} {system system' : System Id InMemoryMailboxes}
  {input : Id × Turn}

/-- A turn in which only the owner of its session is accepted leaves every
session acting for its owner. -/
theorem owned_step
    (howner : ∀ credentials ∈ accepted
      ((System.outcomes (inMemoryMailboxes engine order) tlsAcceptor).step system input).2,
        credentials.username = owner input.1)
    (howned : ∀ id user, (system.sessions id).sessionState.username = some user → user = owner id)
    (id : Id) (user : String)
    (huser : (((System.outcomes (inMemoryMailboxes engine order) tlsAcceptor).step system
      input).1.sessions id).sessionState.username = some user) : user = owner id := by
  by_cases hid : id = input.1
  · subst hid
    simp only [System.outcomes, System.outcome, Function.update_self] at huser
    rcases user_after_turn (inMemoryMailboxes engine order) tlsAcceptor (system.sessions input.1)
      input.2 system.registry with ⟨login, hlogin, hafter⟩ | ⟨-, hafter⟩
    · obtain ⟨credentials, hmem, rfl⟩ := mem_accepted_of_loggedIn hlogin
      obtain rfl := Option.some.inj (hafter.symm.trans huser)
      exact howner credentials hmem
    · exact howned input.1 user (hafter.symm.trans huser)
  · simp only [System.outcomes, Function.update_of_ne hid] at huser
    exact howned id user huser

theorem agreeFor_step (hinput : owner input.1 = username)
    (howner : ∀ credentials ∈ accepted
      ((System.outcomes (inMemoryMailboxes engine order) tlsAcceptor).step system input).2,
        credentials.username = owner input.1)
    (hagree : system.AgreeFor owner username system') :
    SentAlike input.2
        ((System.outcomes (inMemoryMailboxes engine order) tlsAcceptor).step system input).2
        ((System.outcomes (inMemoryMailboxes engine order') tlsAcceptor).step system' input).2 ∧
      ((System.outcomes (inMemoryMailboxes engine order) tlsAcceptor).step system
        input).1.AgreeFor owner username
        ((System.outcomes (inMemoryMailboxes engine order') tlsAcceptor).step system' input).1 := by
  have hcurrent (user : String)
      (huser : (system.sessions input.1).sessionState.username = some user) : user = username :=
    (hagree.owned input.1 user huser).trans hinput
  have howned := owned_step howner hagree.owned
  obtain ⟨hsession, hsent, hregistry⟩ : _ ∧ _ ∧ _ := outcome_alike hcurrent hagree.registry
  rw [hagree.sessions input.1 hinput] at hsession hsent hregistry
  refine ⟨?_, ?_, fun id hid => ?_, howned⟩
  · simp only [System.outcomes, System.outcome, hagree.sessions input.1 hinput]
    exact hsent
  · simp only [System.outcomes, System.outcome, hagree.sessions input.1 hinput]
    exact hregistry
  · simp only [System.outcomes, System.outcome, hagree.sessions input.1 hinput]
    by_cases heq : id = input.1
    · subst heq
      simp only [Function.update_self]
      exact hsession
    · simp only [Function.update_of_ne heq]
      exact hagree.sessions id hid

theorem agreeFor_step_of_ne (hinput : owner input.1 ≠ username)
    (howner : ∀ credentials ∈ accepted
      ((System.outcomes (inMemoryMailboxes engine order) tlsAcceptor).step system input).2,
        credentials.username = owner input.1)
    (hagree : system.AgreeFor owner username system') :
    ((System.outcomes (inMemoryMailboxes engine order) tlsAcceptor).step system
      input).1.AgreeFor owner username system' := by
  have hcurrent (user : String)
      (huser : (system.sessions input.1).sessionState.username = some user) : user ≠ username :=
    fun heq => hinput ((hagree.owned input.1 user huser).symm.trans heq)
  refine ⟨?_, fun id hid => ?_, owned_step howner hagree.owned⟩
  · exact agreeFor_outcome_of_ne hcurrent hagree.registry
  · have hne : id ≠ input.1 := fun heq => hinput (heq ▸ hid)
    simp only [System.outcomes, Function.update_of_ne hne]
    exact hagree.sessions id hid

/--
Noninterference between users.  In a run in which every session is
authenticated as its owner only, the sessions of a user answer each of their
lines as in the run from which the lines of all other sessions were removed, but
for the order of the lines of a listing.
-/
theorem sent_alike_without_others (engine : RegexEngine)
    (order order' : HashOrder (String × String) MailboxInfo) (tlsAcceptor : Bool)
    (started maxSession maxIdle : Id → Nat) (isTls : Id → Bool) (greeting : Id → Option Error)
    (commands : List WriteCommand) (iterations : Nat) (inputs : List (Id × Turn))
    (owner : Id → String)
    (howner : ∀ entry ∈ (System.machine (imapServer (inMemoryMailboxes engine order)
        tlsAcceptor)).transcript (System.new started maxSession maxIdle isTls greeting
          ⟨writerLoop.final .new commands, iterations⟩) inputs,
      ∀ credentials ∈ accepted entry.2, credentials.username = owner entry.1.1)
    (username : String) :
    List.Forall₂
      (fun entry entry' => entry.1 = entry'.1 ∧ SentAlike entry.1.2 entry.2 entry'.2)
      (((System.machine (imapServer (inMemoryMailboxes engine order) tlsAcceptor)).transcript
        (System.new started maxSession maxIdle isTls greeting
          ⟨writerLoop.final .new commands, iterations⟩) inputs).filter
            fun entry => owner entry.1.1 == username)
      ((System.machine (imapServer (inMemoryMailboxes engine order') tlsAcceptor)).transcript
        (System.new started maxSession maxIdle isTls greeting
          ⟨writerLoop.final .new commands, iterations⟩)
        (inputs.filter fun input => owner input.1 == username)) := by
  rw [System.machine_eq] at howner ⊢
  rw [System.machine_eq]
  let machine : Machine (System Id InMemoryMailboxes) (Id × Turn) (List Action) :=
    System.outcomes (inMemoryMailboxes engine order) tlsAcceptor
  let reduced : Machine (System Id InMemoryMailboxes) (Id × Turn) (List Action) :=
    System.outcomes (inMemoryMailboxes engine order') tlsAcceptor
  let Alike (input : Id × Turn) (trace trace' : List Action) : Prop :=
    SentAlike input.2 trace trace'
  let Good (input : Id × Turn) (trace : List Action) : Prop :=
    ∀ credentials ∈ accepted trace, credentials.username = owner input.1
  have hkeep (system system' : System Id InMemoryMailboxes) (input : Id × Turn)
      (_ : input ∈ inputs) (hinput : (owner input.1 == username) = true)
      (hgood : Good input (machine.step system input).2)
      (hagree : system.AgreeFor owner username system') :
      Alike input (machine.step system input).2 (reduced.step system' input).2 ∧
        (machine.step system input).1.AgreeFor owner username (reduced.step system' input).1 :=
    agreeFor_step (beq_iff_eq.mp hinput) hgood hagree
  have hdrop (system system' : System Id InMemoryMailboxes) (input : Id × Turn)
      (_ : input ∈ inputs) (hinput : (owner input.1 == username) = false)
      (hgood : Good input (machine.step system input).2)
      (hagree : system.AgreeFor owner username system') :
      (machine.step system input).1.AgreeFor owner username system' :=
    agreeFor_step_of_ne (beq_eq_false_iff_ne.mp hinput) hgood hagree
  have hwellFormed := MailboxState.wellFormed_final commands
  let start : System Id InMemoryMailboxes := System.new started maxSession maxIdle isTls greeting
    ⟨writerLoop.final .new commands, iterations⟩
  have hstart : start.AgreeFor owner username start := by
    refine ⟨⟨hwellFormed, hwellFormed, fun _ => rfl⟩, fun _ _ => rfl, fun id user huser => ?_⟩
    rw [System.sessionState_new] at huser
    cases huser
  exact (Machine.unwinding hkeep hdrop hstart howner).1

end Runs

/-- The law for ann, whose mailbox has the name of one of bob's. -/
theorem sent_alike_without_others_bob :
    let _ := UnicodeCase.ascii
    let server := imapServer (inMemoryMailboxes .searching .listed) false
    let start : System Bool InMemoryMailboxes := System.new (fun _ => 0) (fun _ => 3600)
      (fun _ => 1800) (fun _ => false) (fun _ => none) ⟨writerLoop.final .new [], 0⟩
    let line (id : Bool) (text : String) : Bool × Turn := (id, .smooth (fun _ => .ok true) text)
    let inputs := [line false "a1 LOGIN ann x\r\n", line true "b1 LOGIN bob y\r\n",
      line true "b2 CREATE box\r\n", line false "a2 CREATE box\r\n", line true "b3 DELETE box\r\n",
      line false "a3 LIST \"\" *\r\n"]
    let owner (id : Bool) : String := if id then "bob" else "ann"
    List.Forall₂ (fun entry entry' => entry.1 = entry'.1 ∧ SentAlike entry.1.2 entry.2 entry'.2)
      (((System.machine server).transcript start inputs).filter
        fun entry => owner entry.1.1 == "ann")
      ((System.machine server).transcript start
        (inputs.filter fun input => owner input.1 == "ann")) := by
  intro _ server start line inputs owner
  refine sent_alike_without_others .searching .listed .listed false _ _ _ _ _ [] 0 inputs owner
    ?_ "ann"
  rw [System.machine_eq]
  decide +kernel

end Scuttled
