import Scuttled.Index.Listener
import Scuttled.Session.Outcome

/-!
# UID uniqueness in the index

CREATE and DELETE act on the registry alone: no `MailboxDeleted` is published
for a DELETE, so the entries of a deleted mailbox stay in the index, and after
the next CREATE of its name the counter hands their UIDs out again.  UIDs are
unique along the runs in which this does not happen.
-/

namespace Scuttled

open Rust Foundation

/-! ## Runs of commands and events -/

/-- What may happen next: a command of some session, an event for the listener,
or the reply the listener waits for. -/
inductive IndexingAction where
  | create (call : HandlerCall)
  | delete (call : HandlerCall)
  | receive (event : Event) (messageId : MessageId)
  | add

/-- The registry is shared by the handlers and the listener. -/
def indexingStep (engine : RegexEngine) (order : HashOrder (String × String) MailboxInfo)
    (state : ListenerState InMemoryMailboxes) :
    IndexingAction → Option (ListenerState InMemoryMailboxes)
  | .create call =>
      some { state with
        registry := call.run createHandler (inMemoryMailboxes engine order) state.registry }
  | .delete call =>
      some { state with
        registry := call.run deleteHandler (inMemoryMailboxes engine order) state.registry }
  | .receive event messageId =>
      state.receive (some (inMemoryMailboxes engine order)) event messageId
  | .add => state.add

/-- No two entries of a mailbox have one UID. -/
def InMemoryBackend.UniqueUids (backend : InMemoryBackend) : Prop :=
  ∀ id id' entry entry' username mailbox,
    backend.messages.lookup id = some entry → backend.messages.lookup id' = some entry' →
      entry.In username mailbox → entry'.In username mailbox →
        entry.metadata.uid = entry'.metadata.uid → id = id'

theorem InMemoryBackend.UniqueUids.candidates_length_le_one {backend : InMemoryBackend}
    (hunique : backend.UniqueUids) (order : HashOrder MessageId MessageEntry) (iteration : Nat)
    (username mailbox : String) (uid : Uid) :
    (backend.candidates order iteration username mailbox uid).length ≤ 1 := by
  rw [InMemoryBackend.candidates, List.filter_map, List.length_map]
  generalize hfound : (order.arrange iteration backend.messages.entries).filter _ = found
  have hkeys : (found.map Sigma.fst).Nodup := by
    rw [← hfound]
    exact HashMap.nodup_keys_arrange.sublist (List.filter_sublist.map _)
  have hentry (entry : Sigma fun _ : MessageId => MessageEntry) (hmem : entry ∈ found) :
      backend.messages.lookup entry.1 = some entry.2 ∧ entry.2.In username mailbox ∧
        entry.2.metadata.uid = uid := by
    rw [← hfound, List.mem_filter, HashMap.mem_arrange_iff] at hmem
    simp only [Function.comp_apply, Bool.and_eq_true, beq_iff_eq] at hmem
    exact ⟨hmem.1, hmem.2.1, hmem.2.2⟩
  match found with
  | [] => exact Nat.zero_le 1
  | [_] => exact Nat.le_refl 1
  | first :: second :: rest =>
      obtain ⟨hfirst, hin, huid⟩ := hentry first List.mem_cons_self
      obtain ⟨hsecond, hin', huid'⟩ := hentry second (List.mem_cons_of_mem _ List.mem_cons_self)
      have hsame : first.1 = second.1 :=
        hunique _ _ _ _ _ _ hfirst hsecond hin hin' (huid.trans huid'.symm)
      simp [hsame] at hkeys

/-! ## Mailboxes that leave nothing behind -/

/-- The message the listener waits for belongs to the mailbox. -/
def ListenerPhase.AddsTo (username mailbox : String) : ListenerPhase → Prop
  | .receiving => False
  | .adding created _ => created.username = username ∧ created.mailbox = mailbox

instance (username mailbox : String) (phase : ListenerPhase) :
    Decidable (phase.AddsTo username mailbox) := by
  cases phase with
  | receiving => exact inferInstanceAs (Decidable False)
  | adding created message => exact inferInstanceAs (Decidable (_ ∧ _))

/-- Nothing of the mailbox is in the index, or about to be added to it. -/
def ListenerState.Clean {R : Type} (username mailbox : String) (state : ListenerState R) : Prop :=
  (∀ entry ∈ state.indexer.backend.messages.entries, ¬ entry.2.In username mailbox) ∧
    ¬ state.phase.AddsTo username mailbox

instance {R : Type} (username mailbox : String) (state : ListenerState R) :
    Decidable (state.Clean username mailbox) := inferInstanceAs (Decidable (_ ∧ _))

/-- A CREATE that makes a mailbox finds nothing of its name in the index, and no
UID is drawn from a counter that has wrapped. -/
def CreatesClean (state : ListenerState InMemoryMailboxes) : IndexingAction → Prop
  | .create call =>
      match call.currentState.username with
      | none => True
      | some username =>
          (trim call.args == "") = false →
            state.registry.state.mailboxes.lookup (username, trim call.args) = none →
              state.Clean username (trim call.args)
  | .receive (.messageCreated created) _ =>
      match state.registry.state.mailboxes.lookup (created.username, created.mailbox) with
      | none => True
      | some info => info.nextUid ≠ 0
  | _ => True

instance (state : ListenerState InMemoryMailboxes) (action : IndexingAction) :
    Decidable (CreatesClean state action) := by
  unfold CreatesClean
  split
  · split <;> infer_instance
  · split <;> infer_instance
  · infer_instance

/-! ## What the handlers do to the registry -/

section Handlers

variable (engine : RegexEngine) (order : HashOrder (String × String) MailboxInfo)
  (call : HandlerCall) (registry : InMemoryMailboxes)

theorem run_createHandler :
    call.run createHandler (inMemoryMailboxes engine order) registry = registry ∨
    ∃ username info, call.currentState.username = some username ∧ (trim call.args == "") = false ∧
      registry.state.mailboxes.lookup (username, trim call.args) = none ∧ info.nextUid = 1 ∧
      (call.run createHandler (inMemoryMailboxes engine order) registry).state.mailboxes =
        registry.state.mailboxes.insert (username, trim call.args) info := by
  rw [HandlerCall.run, createHandler_handle, registry_perform, createDecision, namedDecision]
  cases hname : trim call.args == "" with
  | true => exact .inl rfl
  | false =>
      cases husername : call.currentState.username with
      | none => exact .inl rfl
      | some username =>
          simp only [Bool.false_eq_true, if_false, Decision.answer, inMemoryMailboxes,
            InMemoryMailboxes.serve]
          rcases MailboxState.createMailbox_cases username (trim call.args) registry.state with
            ⟨info, -, hsame⟩ | ⟨hlookup, info, -, hnext, -, hnew⟩
          · rw [hsame]
            exact .inl rfl
          · rw [hnew]
            exact .inr ⟨username, info, rfl, trivial, hlookup, hnext, rfl⟩

/-- What is stored after a DELETE was stored before it. -/
theorem run_deleteHandler {key : String × String} {info : MailboxInfo}
    (hlookup : (call.run deleteHandler (inMemoryMailboxes engine order)
      registry).state.mailboxes.lookup key = some info) :
    registry.state.mailboxes.lookup key = some info := by
  rw [HandlerCall.run, deleteHandler_handle, registry_perform, deleteDecision] at hlookup
  cases hinbox : eqIgnoreAsciiCase (trim call.args) "INBOX" with
  | true =>
      rw [hinbox] at hlookup
      exact hlookup
  | false =>
      rw [hinbox, namedDecision] at hlookup
      cases hname : trim call.args == "" with
      | true =>
          rw [hname] at hlookup
          exact hlookup
      | false =>
          rw [hname] at hlookup
          cases husername : call.currentState.username with
          | none =>
              rw [husername] at hlookup
              exact hlookup
          | some username =>
              rw [husername] at hlookup
              simp only [Bool.false_eq_true, if_false, Decision.answer, inMemoryMailboxes,
                InMemoryMailboxes.serve, MailboxState.deleteMailbox] at hlookup
              split at hlookup
              · rw [HashMap.lookup_erase_eq] at hlookup
                split at hlookup
                · cases hlookup
                · exact hlookup
              · exact hlookup

end Handlers

/-! ## What a write does to the UIDs -/

/-- The entries of the first backend are entries of the second, with their
mailbox and UID. -/
def InMemoryBackend.Within (backend' backend : InMemoryBackend) : Prop :=
  ∀ id entry', backend'.messages.lookup id = some entry' →
    ∃ entry, backend.messages.lookup id = some entry ∧ entry.username = entry'.username ∧
      entry.metadata.mailbox = entry'.metadata.mailbox ∧ entry.metadata.uid = entry'.metadata.uid

theorem InMemoryBackend.Within.refl (backend : InMemoryBackend) : backend.Within backend :=
  fun _ entry hentry => ⟨entry, hentry, rfl, rfl, rfl⟩

/-- Only an addition brings an entry, a mailbox or a UID into the index. -/
theorem within_writerStep (backend : InMemoryBackend) {command : Indexer.WriteCommand}
    (hcommand : ∀ username mailbox message, command ≠ .addMessage username mailbox message) :
    (Indexer.writerStep backend command).1.Within backend := by
  intro id entry' hentry'
  cases command with
  | addMessage username mailbox message => exact absurd rfl (hcommand _ _ _)
  | updateFlags id' flags =>
      simp only [Indexer.writerStep, InMemoryBackend.updateFlags] at hentry'
      cases hlookup : backend.messages.lookup id' with
      | none =>
          rw [hlookup] at hentry'
          exact ⟨entry', hentry', rfl, rfl, rfl⟩
      | some entry =>
          rw [hlookup] at hentry'
          simp only [HashMap.lookup_insert_eq] at hentry'
          split at hentry'
          · rename_i hid
            obtain rfl := Option.some.inj hentry'
            exact ⟨entry, hid ▸ hlookup, rfl, rfl, rfl⟩
          · exact ⟨entry', hentry', rfl, rfl, rfl⟩
  | deleteMessage id' =>
      simp only [Indexer.writerStep, InMemoryBackend.deleteMessage] at hentry'
      split at hentry'
      · rw [HashMap.lookup_erase_eq] at hentry'
        split at hentry'
        · cases hentry'
        · exact ⟨entry', hentry', rfl, rfl, rfl⟩
      · exact ⟨entry', hentry', rfl, rfl, rfl⟩
  | removeMessagesForMailbox username mailbox =>
      simp only [Indexer.writerStep, InMemoryBackend.removeMessagesForMailbox] at hentry'
      exact ⟨entry', (HashMap.lookup_retain_iff.mp hentry').1, rfl, rfl, rfl⟩

theorem within_messageModified (username mailbox uniqueId : String) (flags : List MessageFlag)
    (indexer : Indexer) :
    (indexer.messageModified username mailbox uniqueId flags).backend.Within indexer.backend := by
  unfold Indexer.messageModified
  split
  · exact within_writerStep _ (by simp)
  · exact .refl _

theorem within_messageDeleted (username mailbox uniqueId : String) (indexer : Indexer) :
    (indexer.messageDeleted username mailbox uniqueId).backend.Within indexer.backend := by
  unfold Indexer.messageDeleted
  simp only
  split
  · exact within_writerStep indexer.backend (by simp)
  · exact .refl _

theorem within_mailboxDeleted (username mailbox : String) (indexer : Indexer) :
    (indexer.mailboxDeleted username mailbox).backend.Within indexer.backend :=
  within_writerStep indexer.backend (by simp)

/-! ## The invariant -/

/-- The counter of the mailbox, if there is one, is past the UID or has wrapped. -/
def InMemoryMailboxes.Issued (registry : InMemoryMailboxes) (username mailbox : String)
    (uid : Uid) : Prop :=
  ∀ info, registry.state.mailboxes.lookup (username, mailbox) = some info →
    info.nextUid = 0 ∨ uid < info.nextUid

/-- UIDs are unique, those in use were issued by the counters, and the message
the listener waits for has a UID of its own. -/
structure UidInvariant (state : ListenerState InMemoryMailboxes) : Prop where
  unique : state.indexer.backend.UniqueUids
  issued : ∀ id entry, state.indexer.backend.messages.lookup id = some entry →
    state.registry.Issued entry.username entry.metadata.mailbox entry.metadata.uid
  adding : ∀ created message, state.phase = .adding created message →
    message.mailbox = created.mailbox ∧
      state.registry.Issued created.username created.mailbox message.uid ∧
      ∀ id entry, state.indexer.backend.messages.lookup id = some entry →
        entry.In created.username created.mailbox → entry.metadata.uid ≠ message.uid

theorem InMemoryBackend.UniqueUids.within {backend backend' : InMemoryBackend}
    (hunique : backend.UniqueUids) (hwithin : backend'.Within backend) : backend'.UniqueUids := by
  intro id id' entry entry' username mailbox hentry hentry' hin hin' huid
  obtain ⟨older, holder, husername, hmailbox, hsame⟩ := hwithin id entry hentry
  obtain ⟨older', holder', husername', hmailbox', hsame'⟩ := hwithin id' entry' hentry'
  have holderIn : older.In username mailbox := ⟨husername.trans hin.1, hmailbox.trans hin.2⟩
  have holderIn' : older'.In username mailbox := ⟨husername'.trans hin'.1, hmailbox'.trans hin'.2⟩
  exact hunique id id' older older' username mailbox holder holder' holderIn holderIn'
    (hsame.trans (huid.trans hsame'.symm))

theorem UidInvariant.within {state : ListenerState InMemoryMailboxes} (hstate : UidInvariant state)
    {indexer : Indexer} (hwithin : indexer.backend.Within state.indexer.backend) :
    UidInvariant { state with indexer, phase := .receiving } where
  unique := hstate.unique.within hwithin
  issued := by
    intro id entry hentry
    obtain ⟨older, holder, husername, hmailbox, huid⟩ := hwithin id entry hentry
    have hissued := hstate.issued id older holder
    rwa [husername, hmailbox, huid] at hissued
  adding := by
    intro created message hadding
    cases hadding

theorem UidInvariant.delete {state : ListenerState InMemoryMailboxes} (hstate : UidInvariant state)
    {registry : InMemoryMailboxes}
    (hregistry : ∀ key info, registry.state.mailboxes.lookup key = some info →
      state.registry.state.mailboxes.lookup key = some info) :
    UidInvariant { state with registry } where
  unique := hstate.unique
  issued := fun id entry hentry info hlookup =>
    hstate.issued id entry hentry info (hregistry _ _ hlookup)
  adding := by
    intro created message hadding
    obtain ⟨hmailbox, hissued, hfresh⟩ := hstate.adding created message hadding
    exact ⟨hmailbox, fun info hlookup => hissued info (hregistry _ _ hlookup), hfresh⟩

/-- A CREATE of a mailbox that left nothing behind: a new counter, and no UID it
could issue again. -/
theorem UidInvariant.create {state : ListenerState InMemoryMailboxes} (hstate : UidInvariant state)
    {username name : String} (hclean : state.Clean username name) {registry : InMemoryMailboxes}
    {info : MailboxInfo} (hregistry : registry.state.mailboxes =
      state.registry.state.mailboxes.insert (username, name) info) :
    UidInvariant { state with registry } where
  unique := hstate.unique
  issued := by
    intro id entry hentry found hlookup
    rw [hregistry, HashMap.lookup_insert_eq] at hlookup
    split at hlookup
    · rename_i hkey
      obtain ⟨husername, hmailbox⟩ := Prod.mk.inj hkey
      have hmem := HashMap.lookup_eq_some_iff.mp hentry
      exact absurd ⟨husername, hmailbox⟩ (hclean.1 ⟨id, entry⟩ hmem)
    · exact hstate.issued id entry hentry found hlookup
  adding := by
    intro created message hadding
    obtain ⟨hmailbox, hissued, hfresh⟩ := hstate.adding created message hadding
    refine ⟨hmailbox, fun found hlookup => ?_, hfresh⟩
    rw [hregistry, HashMap.lookup_insert_eq] at hlookup
    split at hlookup
    · rename_i hkey
      have hadds : state.phase.AddsTo username name := by
        rw [show state.phase = .adding created message from hadding]
        exact Prod.mk.inj hkey
      exact absurd hadds hclean.2
    · exact hissued found hlookup

theorem succ_eq_zero_or_lt {uid counter : Uid} (hle : uid ≤ counter) :
    counter + 1 = 0 ∨ uid < counter + 1 := by
  rw [UInt32.le_iff_toNat_le] at hle
  have hbound := counter.toNat_lt
  rw [UInt32.lt_iff_toNat_lt, ← UInt32.toNat_inj, UInt32.toNat_add]
  have hone : (1 : UInt32).toNat = 1 := rfl
  have hzero : (0 : UInt32).toNat = 0 := rfl
  omega

/-- Drawing the UID a counter holds: it was not in use, and the counter is past
it afterwards. -/
theorem UidInvariant.draw {state : ListenerState InMemoryMailboxes} (hstate : UidInvariant state)
    {created : CreatedMessage} {messageId : MessageId}
    {engine : RegexEngine} {order : HashOrder (String × String) MailboxInfo}
    (hcounter : ∀ info,
      state.registry.state.mailboxes.lookup (created.username, created.mailbox) = some info →
        info.nextUid ≠ 0) :
    UidInvariant (state.draw (some (inMemoryMailboxes engine order)) created messageId) := by
  rcases ListenerState.draw_cases engine order created messageId state with ⟨-, hdrawn⟩ | ⟨info, hlookup, hdrawn⟩
  · rw [hdrawn]
    exact hstate
  · have hnonzero := hcounter info hlookup
    rw [hdrawn]
    -- every UID of the mailbox is below the counter, which moves on by one
    have hpast {uid : Uid} (huid : uid < info.nextUid) :
        info.nextUid + 1 = 0 ∨ uid < info.nextUid + 1 :=
      succ_eq_zero_or_lt (UInt32.le_of_lt huid)
    refine ⟨hstate.unique, fun id entry hentry found hfound => ?_, fun other message hadding => ?_⟩
    · have hissued := hstate.issued id entry hentry
      rw [HashMap.lookup_insert_eq] at hfound
      split at hfound
      · rename_i hkey
        rw [← Option.some.inj hfound]
        exact hpast ((hissued info (hkey ▸ hlookup)).resolve_left hnonzero)
      · exact hissued found hfound
    · obtain ⟨rfl, rfl⟩ := ListenerPhase.adding.inj hadding
      refine ⟨rfl, fun found hfound => ?_, fun id entry hentry hin huid => ?_⟩
      · rw [HashMap.lookup_insert_eq, if_pos rfl] at hfound
        rw [← Option.some.inj hfound]
        exact succ_eq_zero_or_lt (UInt32.le_refl _)
      · have hissued := hstate.issued id entry hentry info (by rw [hin.1, hin.2]; exact hlookup)
        have hlt := hissued.resolve_left hnonzero
        rw [huid] at hlt
        exact UInt32.lt_irrefl _ hlt

/-- The message with the drawn UID is added. -/
theorem UidInvariant.add {state : ListenerState InMemoryMailboxes} (hstate : UidInvariant state)
    {created : CreatedMessage} {message : IndexedMessage}
    (hphase : state.phase = .adding created message) :
    UidInvariant { state with
      indexer := state.indexer.messageCreated created message
      phase := .receiving } := by
  obtain ⟨hmailbox, hissued, hfresh⟩ := hstate.adding created message hphase
  let added : MessageEntry :=
    { metadata := message
      path := InMemoryBackend.makeMessagePath created.username created.mailbox message.id
      username := created.username }
  have hlookup (id : MessageId) :
      (state.indexer.messageCreated created message).backend.messages.lookup id =
        if id = message.id then some added else state.indexer.backend.messages.lookup id :=
    HashMap.lookup_insert_eq
  constructor
  · intro id id' entry entry' username mailbox hentry hentry' hin hin' huid
    rw [hlookup] at hentry hentry'
    split at hentry
    · split at hentry'
      · rename_i hid hid'
        rw [hid, hid']
      · obtain rfl := Option.some.inj hentry
        refine absurd huid.symm (hfresh id' entry' hentry' ⟨hin'.1.trans hin.1.symm, ?_⟩)
        exact hin'.2.trans (hin.2.symm.trans hmailbox)
    · split at hentry'
      · obtain rfl := Option.some.inj hentry'
        refine absurd huid (hfresh id entry hentry ⟨hin.1.trans hin'.1.symm, ?_⟩)
        exact hin.2.trans (hin'.2.symm.trans hmailbox)
      · exact hstate.unique id id' entry entry' username mailbox hentry hentry' hin hin' huid
  · intro id entry hentry
    rw [hlookup] at hentry
    split at hentry
    · obtain rfl := Option.some.inj hentry
      have hkept : state.registry.Issued created.username message.mailbox message.uid := by
        rw [hmailbox]
        exact hissued
      exact hkept
    · exact hstate.issued id entry hentry
  · intro other later hadding
    cases hadding

/-- Every action keeps the invariant, if the mailboxes it creates left nothing
behind. -/
theorem UidInvariant.step {engine : RegexEngine} {order : HashOrder (String × String) MailboxInfo}
    {state state' : ListenerState InMemoryMailboxes} {action : IndexingAction}
    (hstate : UidInvariant state) (hclean : CreatesClean state action)
    (hstep : indexingStep engine order state action = some state') : UidInvariant state' := by
  cases action with
  | create call =>
      obtain rfl := Option.some.inj hstep
      rcases run_createHandler engine order call state.registry with
        hsame | ⟨username, info, husername, hname, hlookup, -, hnew⟩
      · rw [hsame]
        exact hstate
      · have hnothing : state.Clean username (trim call.args) := by
          rw [CreatesClean, husername] at hclean
          exact hclean hname hlookup
        exact hstate.create hnothing hnew
  | delete call =>
      obtain rfl := Option.some.inj hstep
      exact hstate.delete fun key info hlookup =>
        run_deleteHandler engine order call state.registry hlookup
  | receive event messageId =>
      simp only [indexingStep, ListenerState.receive] at hstep
      cases hphase : state.phase with
      | adding created message =>
          rw [hphase] at hstep
          cases hstep
      | receiving =>
          rw [hphase] at hstep
          cases event with
          | messageCreated created =>
              obtain rfl := Option.some.inj hstep
              refine hstate.draw fun info hlookup => ?_
              simpa [CreatesClean, hlookup] using hclean
          | messageModified username mailbox uniqueId flags =>
              obtain rfl := Option.some.inj hstep
              exact hstate.within (within_messageModified _ _ _ _ _)
          | messageDeleted username mailbox uniqueId =>
              obtain rfl := Option.some.inj hstep
              exact hstate.within (within_messageDeleted _ _ _ _)
          | mailboxDeleted username mailbox =>
              obtain rfl := Option.some.inj hstep
              exact hstate.within (within_mailboxDeleted _ _ _)
          | mailboxCreated username mailbox =>
              obtain rfl := Option.some.inj hstep
              exact hstate
          | mailboxRenamed username oldName newName =>
              obtain rfl := Option.some.inj hstep
              exact hstate
  | add =>
      simp only [indexingStep, ListenerState.add] at hstep
      cases hphase : state.phase with
      | receiving =>
          rw [hphase] at hstep
          cases hstep
      | adding created message =>
          rw [hphase] at hstep
          obtain rfl := Option.some.inj hstep
          exact hstate.add hphase

theorem uidInvariant_new (registry : InMemoryMailboxes) : UidInvariant (.new registry) where
  unique := by
    intro id id' entry entry' username mailbox hentry
    simp [ListenerState.new, Indexer.new, InMemoryBackend.new] at hentry
  issued := by
    intro id entry hentry
    simp [ListenerState.new, Indexer.new, InMemoryBackend.new] at hentry
  adding := by
    intro created message hadding
    cases hadding

/--
UIDs are unique in the index along every run in which the mailboxes created
left nothing behind: no two entries of a mailbox have one UID, and a lookup by
UID has at most one candidate.
-/
theorem uniqueUids_of_createsClean (engine : RegexEngine)
    (order : HashOrder (String × String) MailboxInfo) (registry : InMemoryMailboxes)
    (actions : List IndexingAction) (state : ListenerState InMemoryMailboxes)
    (hrun : Steps (guarded CreatesClean fun source action target =>
      indexingStep engine order source action = some target) (.new registry) actions state) :
    state.indexer.backend.UniqueUids ∧
      ∀ iterated iteration username mailbox uid,
        (state.indexer.backend.candidates iterated iteration username mailbox uid).length ≤ 1 := by
  have hinvariant := hrun.invariant_of_guarded
    (fun _ _ _ hsource hclean hstep => UidInvariant.step hsource hclean hstep)
    (uidInvariant_new registry)
  exact ⟨hinvariant.unique, hinvariant.unique.candidates_length_le_one⟩

/-! ## A mailbox that is deleted and created again -/

/-- A session of ann calls a handler. -/
def callOfAnn (tag args : String) : HandlerCall where
  tag
  args
  connection := { isTls := false, writeError := fun _ => none }
  authenticator := fun _ => .ok true
  currentState := .authenticated "ann"

/-- The watcher reports a new message file in ann's mailbox. -/
def createdForAnn (mailbox uniqueId : String) : Event :=
  .messageCreated
    { username := "ann"
      mailbox
      uniqueId
      path := uniqueIdKey "ann" mailbox uniqueId
      flags := []
      isNew := true
      fromHeader := "bob"
      toHeader := "ann"
      subject := "Hello"
      bodyPreview := ""
      size := 100
      internalDate := 0 }

/-- A mailbox is deleted and created again after the index has forgotten its
messages: both incarnations hand out the UID 1, one after the other. -/
theorem uniqueUids_of_createsClean_forgotten :
    ∃ state, Steps
        (guarded CreatesClean fun source action target =>
          indexingStep .searching .listed source action = some target)
        (.new InMemoryMailboxes.new)
        [.create (callOfAnn "a1" "box"), .receive (createdForAnn "box" "m1") ⟨1⟩, .add,
          .delete (callOfAnn "a2" "box"), .receive (.mailboxDeleted "ann" "box") ⟨2⟩,
          .create (callOfAnn "a3" "box"), .receive (createdForAnn "box" "m2") ⟨3⟩, .add] state ∧
      state.indexer.backend.UniqueUids := by
  obtain ⟨state, hstate⟩ := Option.isSome_iff_exists.mp (show (List.foldlM
    (fun source action => if CreatesClean source action then
      indexingStep .searching .listed source action else none)
    (.new InMemoryMailboxes.new)
    [.create (callOfAnn "a1" "box"), .receive (createdForAnn "box" "m1") ⟨1⟩, .add,
      .delete (callOfAnn "a2" "box"), .receive (.mailboxDeleted "ann" "box") ⟨2⟩,
      .create (callOfAnn "a3" "box"), .receive (createdForAnn "box" "m2") ⟨3⟩, .add]).isSome from by
    decide +kernel)
  have hrun := Steps.guarded_of_foldlM hstate
  exact ⟨state, hrun, (uniqueUids_of_createsClean _ _ _ _ state hrun).1⟩

/-- After CREATE, a message, DELETE, CREATE and a message, two entries of the
mailbox have the UID 1. -/
theorem recreated_mailbox_repeats_uid :
    ∃ actions state, Steps
        (fun source action target =>
          indexingStep .searching .listed source action = some target)
        (.new InMemoryMailboxes.new) actions state ∧
      ¬ state.indexer.backend.UniqueUids := by
  let actions : List IndexingAction :=
    [.create (callOfAnn "a1" "box"), .receive (createdForAnn "box" "m1") ⟨1⟩, .add,
      .delete (callOfAnn "a2" "box"), .create (callOfAnn "a3" "box"),
      .receive (createdForAnn "box" "m2") ⟨2⟩, .add]
  let summary (state : ListenerState InMemoryMailboxes) (id : MessageId) :
      Option (String × String × Uid) :=
    (state.indexer.backend.messages.lookup id).map fun entry =>
      (entry.username, entry.metadata.mailbox, entry.metadata.uid)
  have hsummary : (actions.foldlM (indexingStep .searching .listed)
      (.new InMemoryMailboxes.new)).map (fun state => (summary state ⟨1⟩, summary state ⟨2⟩)) =
        some (some ("ann", "box", 1), some ("ann", "box", 1)) := by
    decide +kernel
  obtain ⟨state, hstate, hpair⟩ := Option.map_eq_some_iff.mp hsummary
  obtain ⟨hfirst, hsecond⟩ := Prod.mk.inj hpair
  obtain ⟨entry, hentry, hsame⟩ := Option.map_eq_some_iff.mp hfirst
  obtain ⟨entry', hentry', hsame'⟩ := Option.map_eq_some_iff.mp hsecond
  simp only [Prod.mk.injEq] at hsame hsame'
  refine ⟨actions, state, Steps.of_foldlM hstate, fun hunique => ?_⟩
  have hid := hunique ⟨1⟩ ⟨2⟩ entry entry' "ann" "box" hentry hentry' ⟨hsame.1, hsame.2.1⟩
    ⟨hsame'.1, hsame'.2.1⟩ (hsame.2.2.trans hsame'.2.2.symm)
  exact absurd hid (by decide)

end Scuttled
