import Scuttled.Session.System
import Scuttled.Session.Tags

/-!
# Refused lines have no effect

A line that is answered with NO or BAD leaves the registry and the state of its
session as they were; all that stays of it is its tag.  A run in which no later
line of the session has the same tag therefore goes on as if the line had not
been there.
-/

namespace Scuttled

open Rust Foundation

def Response.Refuses : Response → Prop
  | .no _ _ => True
  | .bad _ _ => True
  | _ => False

/-! ## A refused line keeps registry and state -/

section Registry

variable {engine : RegexEngine} {order : HashOrder (String × String) MailboxInfo}
  {context : SessionContext InMemoryMailboxes} {registry : InMemoryMailboxes}

/-- Whenever the decision ends in a refusal, registry and state stay. -/
structure Decision.RefusesPurely (decision : Decision) (engine : RegexEngine)
    (order : HashOrder (String × String) MailboxInfo) : Prop where
  stays : ∀ (context : SessionContext InMemoryMailboxes) registry,
    context.mailboxes = inMemoryMailboxes engine order →
    match decision.answer context registry with
    | (.error _, registry') => registry' = registry
    | (.ok reply, registry') =>
        (∃ response ∈ reply.responses, response.Refuses) → reply.next = none ∧ registry' = registry

variable {tag args : String} {currentState : SessionState}

theorem settled_refusesPurely (response : Response) :
    (Decision.settled (.just response)).RefusesPurely engine order := by
  constructor
  intro context registry hcontext hrefused
  exact ⟨rfl, rfl⟩

theorem logoutDecision_refusesPurely : (logoutDecision tag).RefusesPurely engine order := by
  constructor
  rintro context registry hcontext ⟨response, hmem, hrefuses⟩
  simp only [List.mem_cons, List.not_mem_nil, or_false] at hmem
  rcases hmem with rfl | rfl <;> exact hrefuses.elim

theorem loginDecision_refusesPurely : (loginDecision tag args).RefusesPurely engine order := by
  unfold loginDecision
  split
  · exact settled_refusesPurely _
  · constructor
    intro context registry hcontext
    simp only [Decision.answer]
    rcases context.authenticator _ with error | _ | _
    · exact fun _ => ⟨rfl, trivial⟩
    · exact fun _ => ⟨rfl, trivial⟩
    · rintro ⟨response, hmem, hrefuses⟩
      rw [List.mem_singleton] at hmem
      exact (hmem ▸ hrefuses).elim

theorem namedDecision_refusesPurely {command : String} {decide : String → String → Decision}
    (hdecide : ∀ username name, (decide username name).RefusesPurely engine order) :
    (namedDecision tag command args currentState decide).RefusesPurely engine order := by
  unfold namedDecision
  split
  · exact settled_refusesPurely _
  · cases currentState.username with
    | none => exact settled_refusesPurely _
    | some username => exact hdecide username _

theorem selectDecision_refusesPurely :
    (selectDecision tag args currentState).RefusesPurely engine order := by
  apply namedDecision_refusesPurely
  intro username name
  constructor
  intro context registry hcontext
  simp only [Decision.answer, hcontext, inMemoryMailboxes]
  cases registry.state.mailboxes.lookup (username, name) with
  | none => exact fun _ => ⟨rfl, rfl⟩
  | some info =>
      rintro ⟨response, hmem, hrefuses⟩
      rw [List.mem_singleton] at hmem
      exact (hmem ▸ hrefuses).elim

theorem createDecision_refusesPurely :
    (createDecision tag args currentState).RefusesPurely engine order := by
  apply namedDecision_refusesPurely
  intro username name
  constructor
  intro context registry hcontext
  simp only [Decision.answer, hcontext, inMemoryMailboxes, InMemoryMailboxes.serve]
  rcases MailboxState.createMailbox_cases username name registry.state with
    ⟨info, -, hsame⟩ | ⟨-, info, -, -, -, hnew⟩
  · rw [hsame]
    exact fun _ => ⟨rfl, rfl⟩
  · rw [hnew]
    rintro ⟨response, hmem, hrefuses⟩
    rw [List.mem_singleton.mp hmem] at hrefuses
    exact hrefuses.elim

theorem deleteDecision_refusesPurely :
    (deleteDecision tag args currentState).RefusesPurely engine order := by
  unfold deleteDecision
  split
  · exact settled_refusesPurely _
  · apply namedDecision_refusesPurely
    intro username name
    constructor
    intro context registry hcontext
    simp only [Decision.answer, hcontext, inMemoryMailboxes, InMemoryMailboxes.serve,
      MailboxState.deleteMailbox]
    cases registry.state.mailboxes.lookup (username, name) with
    | none => exact fun _ => ⟨rfl, rfl⟩
    | some info =>
        rintro ⟨response, hmem, hrefuses⟩
        rw [List.mem_singleton.mp hmem] at hrefuses
        exact hrefuses.elim

theorem listDecision_refusesPurely :
    (listDecision tag args currentState).RefusesPurely engine order := by
  unfold listDecision
  cases listParseArgs args with
  | none => exact settled_refusesPurely _
  | some words =>
      obtain ⟨reference, pattern⟩ := words
      cases currentState.username with
      | none => exact settled_refusesPurely _
      | some username =>
          constructor
          intro context registry hcontext
          obtain ⟨iterations, hlist⟩ := listMailboxes_ok engine order username
            (patternToFilter (effectivePattern reference pattern)) registry
          simp only [Decision.answer, hcontext, inMemoryMailboxes, hlist]
          rintro ⟨response, hmem, hrefuses⟩
          rcases List.mem_append.mp hmem with hline | hlast
          · obtain ⟨mailbox, -, rfl⟩ := List.mem_map.mp hline
            exact hrefuses.elim
          · rw [List.mem_singleton.mp hlast] at hrefuses
            exact hrefuses.elim

theorem commandDecision_refusesPurely {command : Command} {decision : Decision}
    (hdecision : commandDecision tag currentState command = some decision) :
    decision.RefusesPurely engine order := by
  cases handledBy_of_commandDecision hdecision with
  | capability => exact settled_refusesPurely _
  | noop => exact settled_refusesPurely _
  | logout => exact logoutDecision_refusesPurely
  | login username password => exact loginDecision_refusesPurely
  | select mailbox => exact selectDecision_refusesPurely
  | create mailbox => exact createDecision_refusesPurely
  | delete mailbox => exact deleteDecision_refusesPurely
  | list reference pattern => exact listDecision_refusesPurely

end Registry

section Turns

variable {R : Type} [UnicodeCase] {engine : RegexEngine}
  {order : HashOrder (String × String) MailboxInfo} {tlsAcceptor : Bool} {session : Session}
  {turn : Turn}

/-- A refused line keeps the registry, and its session but for the tags. -/
theorem refused_outcome {registry : InMemoryMailboxes} (hwrites : turn.WritesSucceed)
    (hrefused : ∃ response ∈ sent
      (session.outcome (inMemoryMailboxes engine order) tlsAcceptor turn registry).trace,
        response.Refuses) :
    (session.outcome (inMemoryMailboxes engine order) tlsAcceptor turn registry).registry =
        registry ∧
      session.SameButTags
        (session.outcome (inMemoryMailboxes engine order) tlsAcceptor turn registry).session := by
  have hdeliver := deliver_of_succeed ⟨session.isTls, turn.writeError⟩ hwrites
  obtain ⟨response, hmem, hrefuses⟩ := hrefused
  unfold Session.outcome at hmem ⊢
  cases hplan : session.plan turn with
  | idle => exact ⟨rfl, rfl⟩
  | finish farewell result =>
      rw [hplan] at hmem
      rcases Session.plan_finish_cases hplan with rfl | ⟨message, rfl⟩
      · simp [Plan.outcome, Connection.deliver, sent] at hmem
      · simp only [Plan.outcome, hdeliver, sent_map_wrote, Option.toList_some,
          List.mem_singleton] at hmem
        exact (hmem ▸ hrefuses).elim
  | refuse tagHistory response => exact ⟨rfl, rfl⟩
  | starttls tagHistory tag =>
      rw [hplan] at hmem
      simp only [Plan.outcome, trace_starttlsOutcome, hdeliver, sent_map_wrote,
        List.mem_singleton] at hmem
      simp only [Plan.outcome, starttlsOutcome, hdeliver]
      cases hrefusal : session.isTls || !tlsAcceptor with
      | true => exact ⟨rfl, rfl⟩
      | false =>
          obtain ⟨hplain, hacceptor⟩ : session.isTls = false ∧ tlsAcceptor = true := by
            simpa using hrefusal
          rw [hmem, hplain, hacceptor] at hrefuses
          exact hrefuses.elim
  | dispatch tagHistory tag decision =>
      rw [hplan] at hmem
      obtain ⟨line, commandLine, command, -, -, -, hdecision⟩ :=
        Session.plan_dispatch_cases hplan
      have hdecide : decision.RefusesPurely engine order :=
        commandDecision_refusesPurely hdecision
      have hpure := hdecide.stays (turn.context (inMemoryMailboxes engine order)) registry rfl
      simp only [Plan.outcome, Reply.outcome, hdeliver] at hmem ⊢
      rcases hanswer : decision.answer (turn.context (inMemoryMailboxes engine order)) registry
        with ⟨error | reply, registry'⟩
      · rw [hanswer] at hpure
        exact ⟨hpure, rfl⟩
      · rw [hanswer] at hpure hmem
        simp only [sent_append, sent_asked, sent_map_wrote, List.nil_append] at hmem
        obtain ⟨hnext, hregistry⟩ := hpure ⟨response, hmem, hrefuses⟩
        simp only [hnext]
        exact ⟨hregistry, rfl⟩

end Turns

/-! ## Runs -/

variable {Id : Type} [DecidableEq Id]

/-- Two systems that agree but for one tag in the history of one session. -/
structure System.AgreeBut (id : Id) (removed : Option String) (tags : Finset String)
    (system system' : System Id InMemoryMailboxes) : Prop where
  registry : system'.registry = system.registry
  others : ∀ other, other ≠ id → system'.sessions other = system.sessions other
  same : (system.sessions id).SameButTags (system'.sessions id)
  mem_iff : ∀ tag, some tag ≠ removed →
    (tag ∈ (system'.sessions id).tagHistory.tags ↔ tag ∈ (system.sessions id).tagHistory.tags)
  within : (system.sessions id).tagHistory.Within tags
  within' : (system'.sessions id).tagHistory.Within tags

section Runs

variable {engine : RegexEngine} {order : HashOrder (String × String) MailboxInfo}
  {tlsAcceptor : Bool} {id : Id} {removed : Option String} {tags : Finset String}

omit [DecidableEq Id] in
/-- The two sessions register the tag of a line that is not the removed one
alike, and stay in agreement about every other tag. -/
theorem registered_agree {system system' : System Id InMemoryMailboxes} {turn : Turn}
    (hagree : system.AgreeBut id removed tags system')
    (htags : ∀ tag, turn.tag = some tag → tag ∈ tags ∧ some tag ≠ removed) :
    let registered := (system.sessions id).registered turn
    let registered' := (system'.sessions id).registered turn
    registered'.1 = registered.1 ∧ registered.2.Within tags ∧ registered'.2.Within tags ∧
      ∀ tag, some tag ≠ removed → (tag ∈ registered'.2.tags ↔ tag ∈ registered.2.tags) := by
  intro registered registered'
  simp only [registered, registered', Session.registered, tagOf_of_same hagree.same]
  cases htag : (system.sessions id).tagOf turn with
  | none => exact ⟨rfl, hagree.within, hagree.within', hagree.mem_iff⟩
  | some tag =>
      obtain ⟨hmem, hkept⟩ := htags tag (tag_of_tagOf htag)
      simp only
      refine ⟨?_, hagree.within.register hmem, hagree.within'.register hmem, ?_⟩
      · rw [hagree.within.register_eq hmem, hagree.within'.register_eq hmem]
        simp only [hagree.mem_iff tag hkept]
        split <;> rfl
      · intro other hother
        rw [hagree.within.register_eq hmem, hagree.within'.register_eq hmem]
        simp only [hagree.mem_iff tag hkept]
        split
        · exact hagree.mem_iff other hother
        · simp only [Finset.mem_insert, hagree.mem_iff other hother]

/-- A turn of any session keeps the agreement, unless it brings the removed tag
to the session. -/
theorem agreeBut_step [UnicodeCase] {system system' : System Id InMemoryMailboxes}
    {input : Id × Turn}
    (hagree : system.AgreeBut id removed tags system')
    (htags : input.1 = id → ∀ tag, input.2.tag = some tag → tag ∈ tags ∧ some tag ≠ removed) :
    ((System.outcomes (inMemoryMailboxes engine order) tlsAcceptor).step system input).2 =
        ((System.outcomes (inMemoryMailboxes engine order) tlsAcceptor).step system' input).2 ∧
      ((System.outcomes (inMemoryMailboxes engine order) tlsAcceptor).step system input).1.AgreeBut
        id removed tags
        ((System.outcomes (inMemoryMailboxes engine order) tlsAcceptor).step system' input).1 := by
  obtain ⟨other, turn⟩ := input
  by_cases hid : other = id
  · subst hid
    obtain ⟨hregister, hwithin, hwithin', hmem⟩ := registered_agree hagree (htags rfl)
    obtain ⟨htrace, hregistry, hsame⟩ := outcome_of_same (inMemoryMailboxes engine order)
      tlsAcceptor system.registry hagree.same hregister
    simp only [System.outcomes, System.outcome, hagree.registry]
    refine ⟨htrace.symm, ?_⟩
    constructor
    · exact hregistry
    · intro another hne
      simp only [Function.update_of_ne hne]
      exact hagree.others another hne
    · simpa only [Function.update_self] using hsame
    · simpa only [Function.update_self, tagHistory_outcome] using hmem
    · simpa only [Function.update_self, tagHistory_outcome] using hwithin
    · simpa only [Function.update_self, tagHistory_outcome] using hwithin'
  · have hother := hagree.others other hid
    simp only [System.outcomes, System.outcome, hagree.registry, hother]
    refine ⟨trivial, ?_⟩
    have hne : id ≠ other := fun h => hid h.symm
    constructor
    · rfl
    · intro another hanother
      by_cases heq : another = other
      · subst heq
        simp only [Function.update_self]
      · simp only [Function.update_of_ne heq]
        exact hagree.others another hanother
    · simpa only [Function.update_of_ne hne] using hagree.same
    · simpa only [Function.update_of_ne hne] using hagree.mem_iff
    · simpa only [Function.update_of_ne hne] using hagree.within
    · simpa only [Function.update_of_ne hne] using hagree.within'

theorem registered_within {session : Session} {turn : Turn}
    (hwithin : session.tagHistory.Within tags)
    (htags : ∀ tag, turn.tag = some tag → tag ∈ tags) :
    (session.registered turn).2.Within tags ∧
      ∀ tag, some tag ≠ turn.tag →
        (tag ∈ session.tagHistory.tags ↔ tag ∈ (session.registered turn).2.tags) := by
  unfold Session.registered
  cases htag : session.tagOf turn with
  | none => exact ⟨hwithin, fun tag _ => Iff.rfl⟩
  | some tag =>
      have hturn := tag_of_tagOf htag
      refine ⟨hwithin.register (htags tag hturn), fun other hother => ?_⟩
      simp only
      rw [hwithin.register_eq (htags tag hturn)]
      split
      · rfl
      · have hne : other ≠ tag := fun heq => hother (heq ▸ hturn.symm)
        simp only [Finset.mem_insert, hne, false_or]

/-- A refused line leaves a system that agrees with the one before it but for
the tag of the line. -/
theorem agreeBut_of_refused [UnicodeCase] {system : System Id InMemoryMailboxes} {turn : Turn}
    (hwithin : (system.sessions id).tagHistory.Within tags)
    (htags : ∀ tag, turn.tag = some tag → tag ∈ tags) (hwrites : turn.WritesSucceed)
    (hrefused : ∃ response ∈ sent ((System.outcomes (inMemoryMailboxes engine order)
      tlsAcceptor).step system (id, turn)).2, response.Refuses) :
    ((System.outcomes (inMemoryMailboxes engine order) tlsAcceptor).step system
      (id, turn)).1.AgreeBut id turn.tag tags system := by
  obtain ⟨hregistry, hsame⟩ := refused_outcome hwrites hrefused
  obtain ⟨hwithin', hmem⟩ := registered_within hwithin htags
  simp only [System.outcomes, System.outcome]
  constructor
  · exact hregistry.symm
  · intro other hother
    simp only [Function.update_of_ne hother]
  · simpa only [Function.update_self] using hsame.symm
  · simpa only [Function.update_self, tagHistory_outcome] using hmem
  · simpa only [Function.update_self, tagHistory_outcome] using hwithin'
  · exact hwithin

theorem within_final [UnicodeCase] {system : System Id InMemoryMailboxes}
    {inputs : List (Id × Turn)}
    (hwithin : (system.sessions id).tagHistory.Within tags)
    (htags : ∀ input ∈ inputs, input.1 = id → ∀ tag, input.2.tag = some tag → tag ∈ tags) :
    (((System.outcomes (inMemoryMailboxes engine order) tlsAcceptor).final system
      inputs).sessions id).tagHistory.Within tags := by
  have hstep (current : System Id InMemoryMailboxes) (input : Id × Turn) (hinput : input ∈ inputs)
      (hcurrent : (current.sessions id).tagHistory.Within tags) :
      (((System.outcomes (inMemoryMailboxes engine order) tlsAcceptor).step current
        input).1.sessions id).tagHistory.Within tags := by
    obtain ⟨other, turn⟩ := input
    by_cases hid : other = id
    · subst hid
      simp only [System.outcomes, System.outcome, Function.update_self, tagHistory_outcome]
      exact (registered_within hcurrent (htags _ hinput rfl)).1
    · have hne : id ≠ other := fun h => hid h.symm
      simp only [System.outcomes, Function.update_of_ne hne]
      exact hcurrent
  exact Machine.final_invariant hstep hwithin

/--
Refused lines have no effect.  Remove from a run a line that is answered with
NO or BAD: every other line is answered as before, and registry and sessions
end up the same, provided no later line of the session reuses its tag and the
session is sent at most as many distinct tags as a history holds.
-/
theorem refused_line_has_no_effect [UnicodeCase] (engine : RegexEngine)
    (order : HashOrder (String × String) MailboxInfo) (tlsAcceptor : Bool)
    (started maxSession maxIdle : Id → Nat) (isTls : Id → Bool) (greeting : Id → Option Error)
    (registry : InMemoryMailboxes) (before after : List (Id × Turn)) (id : Id) (turn : Turn)
    (hwrites : turn.WritesSucceed)
    (hrefused : ∃ response ∈
      sent ((System.machine (imapServer (inMemoryMailboxes engine order) tlsAcceptor)).step
        ((System.machine (imapServer (inMemoryMailboxes engine order) tlsAcceptor)).final
          (System.new started maxSession maxIdle isTls greeting registry) before)
        (id, turn)).2, response.Refuses)
    (hreuse : ∀ input ∈ after, input.1 = id → ∀ tag, input.2.tag = some tag →
      turn.tag ≠ some tag)
    (hdistinct : (tagsOf id (before ++ (id, turn) :: after)).card ≤ defaultMaxTagHistory) :
    let machine := System.machine (imapServer (inMemoryMailboxes engine order) tlsAcceptor)
    let start := System.new started maxSession maxIdle isTls greeting registry
    let full := machine.final start (before ++ (id, turn) :: after)
    let reduced := machine.final start (before ++ after)
    (∃ output rest,
      machine.transcript start (before ++ (id, turn) :: after) =
        machine.transcript start before ++ ((id, turn), output) :: rest ∧
      machine.transcript start (before ++ after) = machine.transcript start before ++ rest) ∧
    full.registry = reduced.registry ∧
    ∀ other, (full.sessions other).SameButTags (reduced.sessions other) ∧
      (other ≠ id → full.sessions other = reduced.sessions other) := by
  rw [System.machine_eq] at hrefused ⊢
  have htags (input : Id × Turn) (hinput : input ∈ before ++ (id, turn) :: after)
      (hid : input.1 = id) (tag : String) (htag : input.2.tag = some tag) :
      tag ∈ tagsOf id (before ++ (id, turn) :: after) :=
    mem_tagsOf (show (id, input.2) ∈ _ from hid ▸ hinput) htag
  have hstart : ((System.new started maxSession maxIdle isTls greeting registry).sessions
      id).tagHistory.Within (tagsOf id (before ++ (id, turn) :: after)) := by
    rw [System.tagHistory_new]
    exact ⟨Finset.empty_subset _, hdistinct⟩
  have hbefore : (((System.outcomes (inMemoryMailboxes engine order) tlsAcceptor).final
      (System.new started maxSession maxIdle isTls greeting registry) before).sessions
      id).tagHistory.Within (tagsOf id (before ++ (id, turn) :: after)) :=
    within_final hstart fun input hinput => htags input (List.mem_append_left _ hinput)
  have hagree := agreeBut_of_refused hbefore
    (htags (id, turn) (List.mem_append_right _ List.mem_cons_self) rfl) hwrites hrefused
  have hstep (system system' : System Id InMemoryMailboxes) (input : Id × Turn)
      (hinput : input ∈ after)
      (hrelated : system.AgreeBut id turn.tag (tagsOf id (before ++ (id, turn) :: after))
        system') :
      ((System.outcomes (inMemoryMailboxes engine order) tlsAcceptor).step system input).2 =
          ((System.outcomes (inMemoryMailboxes engine order) tlsAcceptor).step system' input).2 ∧
        ((System.outcomes (inMemoryMailboxes engine order) tlsAcceptor).step system
          input).1.AgreeBut id turn.tag (tagsOf id (before ++ (id, turn) :: after))
          ((System.outcomes (inMemoryMailboxes engine order) tlsAcceptor).step system' input).1 :=
    agreeBut_step hrelated fun hid tag htag =>
      ⟨htags input (List.mem_append_right _ (List.mem_cons_of_mem _ hinput)) hid tag htag,
        (hreuse input hinput hid tag htag).symm⟩
  obtain ⟨htranscript, hfinal⟩ := Machine.bisimulation hstep hagree
  refine ⟨?_, ?_, fun other => ?_⟩
  · rw [Machine.transcript_append, Machine.transcript_append, Machine.transcript_cons,
      htranscript]
    exact ⟨_, _, rfl, rfl⟩
  · rw [Machine.final_append, Machine.final_append, Machine.final_cons]
    exact hfinal.registry.symm
  · rw [Machine.final_append, Machine.final_append, Machine.final_cons]
    by_cases hid : other = id
    · subst hid
      exact ⟨hfinal.same, fun hne => absurd rfl hne⟩
    · refine ⟨?_, fun _ => (hfinal.others other hid).symm⟩
      rw [hfinal.others other hid]
      rfl

/-- A second CREATE of a mailbox is refused; the CREATE after it fares as if it
had not been sent. -/
theorem refused_line_has_no_effect_create :
    let _ := UnicodeCase.ascii
    let machine : Machine (System Unit InMemoryMailboxes) (Unit × Turn) (List Action) :=
      System.machine (imapServer (inMemoryMailboxes .searching .listed) false)
    let start := System.new (fun _ => 0) (fun _ => 3600) (fun _ => 1800) (fun _ => false)
      (fun _ => none) InMemoryMailboxes.new
    let line (text : String) : Unit × Turn := ((), .smooth (fun _ => .ok true) text)
    let before := [line "a1 LOGIN ann x\r\n", line "a2 CREATE box\r\n"]
    (machine.final start
        (before ++ line "a3 CREATE box\r\n" :: [line "a4 CREATE new\r\n"])).registry =
      (machine.final start (before ++ [line "a4 CREATE new\r\n"])).registry := by
  intro _ machine start line before
  refine (refused_line_has_no_effect .searching .listed false _ _ _ _ _ _ before
    [line "a4 CREATE new\r\n"] () (.smooth (fun _ => .ok true) "a3 CREATE box\r\n")
    (fun _ => rfl) ⟨.no (some "a3") "CREATE failed: Mailbox already exists: box", ?_, trivial⟩ ?_ ?_).2.1
  · rw [System.machine_eq]
    decide +kernel
  · intro input hinput _ tag htag
    rw [List.mem_singleton.mp hinput] at htag
    rw [← htag]
    decide +kernel
  · decide +kernel

end Runs

end Scuttled
