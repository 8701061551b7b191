import Scuttled.Index.Subscribed

/-!
# What is filed in the index

Every entry of the index is that of a message its identifier was drawn for.  What
the entries reflect of an event stays, until the writer loop serves the command of
an event that overrides it.
-/

namespace Scuttled

open Rust Foundation

/-! ## The queue of the listener -/

namespace Bus

variable {order : HashOrder SubscriptionId Subscriber} {bus bus' : Bus}

theorem events_of_offered {sync : Bool} {event : Event} {id : SubscriptionId}
    {subscriber : Subscriber} {remaining : List (Sigma fun _ : SubscriptionId => Subscriber)}
    {delivered : Nat} {ackReceivers : List Nat}
    (hoffered : Offered sync event id subscriber remaining delivered ackReceivers bus bus')
    (queue : Nat) :
    (bus'.queues queue).items.map EventDelivery.event =
        (bus.queues queue).items.map EventDelivery.event ∨
      (bus'.queues queue).items.map EventDelivery.event =
        (bus.queues queue).items.map EventDelivery.event ++ [event] := by
  have hplaced {delivery : EventDelivery} {placed : BoundedQueue EventDelivery subscriberCapacity}
      (hevent : delivery.event = event)
      (hsend : (bus.queues subscriber.sender).trySend delivery = (.ok (), placed)) :
      (Function.update bus.queues subscriber.sender placed queue).items.map EventDelivery.event =
          (bus.queues queue).items.map EventDelivery.event ∨
        (Function.update bus.queues subscriber.sender placed queue).items.map EventDelivery.event =
          (bus.queues queue).items.map EventDelivery.event ++ [event] := by
    by_cases hqueue : queue = subscriber.sender
    · subst hqueue
      obtain ⟨hitems, -⟩ := BoundedQueue.items_of_trySend hsend
      rw [Function.update_self, hitems, List.map_append, List.map_singleton, hevent]
      exact .inr rfl
    · rw [Function.update_of_ne hqueue]
      exact .inl rfl
  cases hoffered with
  | passed | dropped | droppedSync => exact .inl rfl
  | placed hkind hsend => exact hplaced rfl hsend
  | placedSync hkind hsync htype hsend => exact hplaced rfl hsend

/-- What a move does to a queue that was opened, unless its receiver is used: the event
that is published may be added to it. -/
theorem events_of_moves {move : BusMove} (hmoves : Moves order bus move bus') {queue : Nat}
    (hopened : queue < bus.opened) (hreceiver : move.receiver? ≠ some queue) :
    queue < bus'.opened ∧
      (bus'.queues queue).receiverAlive = (bus.queues queue).receiverAlive ∧
      ((bus'.queues queue).items.map EventDelivery.event =
          (bus.queues queue).items.map EventDelivery.event ∨
        ∃ sync event remaining delivered ackReceivers,
          bus.phase = .publishing sync event remaining delivered ackReceivers ∧
            (bus'.queues queue).items.map EventDelivery.event =
              (bus.queues queue).items.map EventDelivery.event ++ [event]) := by
  cases hmoves with
  | subscribe hphase =>
      have hkept : (Function.update bus.queues bus.opened .new) queue = bus.queues queue :=
        Function.update_of_ne hopened.ne _ _
      refine ⟨hopened.trans (Nat.lt_succ_self _), ?_, .inl ?_⟩
      · exact congrArg BoundedQueue.receiverAlive hkept
      · exact congrArg (fun queue => queue.items.map EventDelivery.event) hkept
  | tryNext hphase hoffered =>
      refine ⟨?_, (queue_of_offered hoffered queue).1, ?_⟩
      · cases hoffered <;> exact hopened
      · rcases events_of_offered hoffered queue with hsame | hadded
        · exact .inl hsame
        · exact .inr ⟨_, _, _, _, _, hphase, hadded⟩
  | @take sender delivery rest hrecv =>
      have hne : queue ≠ sender := fun hsame => hreceiver (by rw [hsame]; rfl)
      have hkept : (Function.update bus.queues sender rest) queue = bus.queues queue :=
        Function.update_of_ne hne _ _
      refine ⟨hopened, congrArg BoundedQueue.receiverAlive hkept, .inl ?_⟩
      exact congrArg (fun queue => queue.items.map EventDelivery.event) hkept
  | @close sender =>
      have hne : queue ≠ sender := fun hsame => hreceiver (by rw [hsame]; rfl)
      have hkept : (Function.update bus.queues sender (bus.queues sender).close) queue =
          bus.queues queue := Function.update_of_ne hne _ _
      refine ⟨hopened, congrArg BoundedQueue.receiverAlive hkept, .inl ?_⟩
      exact congrArg (fun queue => queue.items.map EventDelivery.event) hkept
  | _ => exact ⟨hopened, rfl, .inl rfl⟩

end Bus

namespace IndexedBus

/-! ## What is filed in the index -/

/-- The entry of a message that was announced, with the flags it has by now. -/
def Enters (created : CreatedMessage) (id : MessageId) (entry : MessageEntry) : Prop :=
  ∃ uid flags, entry =
    { metadata := { ListenerState.indexed created id uid with flags }
      path := InMemoryBackend.makeMessagePath created.username created.mailbox id
      username := created.username }

/-- Every entry is that of a message its identifier was drawn for. -/
def Filed (system : IndexedBus) : Prop :=
  ∀ id entry, system.entry id = some entry →
    ∃ created, originOf id system.drawn = some created.key ∧ Enters created id entry

def Reflects (system : IndexedBus) : Event → Prop
  | .messageCreated created => ∃ id entry, system.entry id = some entry ∧
      originOf id system.drawn = some created.key ∧ Enters created id entry
  | .messageDeleted username mailbox uniqueId => ∀ id entry, system.entry id = some entry →
      originOf id system.drawn ≠ some ⟨username, mailbox, uniqueId⟩
  | .mailboxDeleted username mailbox => ∀ id entry, system.entry id = some entry →
      ¬ entry.In username mailbox
  | _ => True

/-- The command for the writer loop fits the event it is sent for. -/
def Fits (system : IndexedBus) (event : Event) (command : Indexer.WriteCommand) : Prop :=
  match event with
  | .messageCreated created => ∃ id uid,
      command = .addMessage created.username created.mailbox
        (ListenerState.indexed created id uid) ∧
      originOf id system.drawn = some created.key ∧ system.entry id = none ∧
      ∀ other entry, system.entry other = some entry →
        entry.In created.username created.mailbox → entry.metadata.uid ≠ uid
  | .messageModified _ _ _ _ => ∃ id flags, command = .updateFlags id flags
  | .messageDeleted username mailbox uniqueId => ∃ id, command = .deleteMessage id ∧
      (∀ entry, system.entry id = some entry →
        originOf id system.drawn = some ⟨username, mailbox, uniqueId⟩) ∧
      (system.complete = true → ∀ other entry, system.entry other = some entry →
        originOf other system.drawn = some ⟨username, mailbox, uniqueId⟩ → other = id)
  | .mailboxDeleted username mailbox => command = .removeMessagesForMailbox username mailbox
  | _ => False

/-- What each stage of the listener says about the index. -/
def Staged (system : IndexedBus) : Prop :=
  match system.stage with
  | .writing event command => system.Fits event command
  | .noting event _ => system.complete = true → system.Reflects event
  | _ => True

/-- The index between the steps of its listener. -/
structure Indexed (system : IndexedBus) : Prop where
  filed : system.Filed
  unique : system.indexer.backend.UniqueUids
  staged : system.Staged
  handled : ∀ event, system.handled = some event →
    system.stage = .receiving ∧ system.Reflects event

variable {system : IndexedBus}

theorem Indexed.handled_eq_none (hindexed : system.Indexed) (hstage : system.stage ≠ .receiving) :
    system.handled = none := by
  cases hhandled : system.handled with
  | none => rfl
  | some event => exact absurd (hindexed.handled event hhandled).1 hstage

/-! ## The writer loop -/

theorem write_eq {event : Event} {command : Indexer.WriteCommand}
    (hstage : system.stage = .writing event command) :
    system.write =
      { system with
        indexer := (system.indexer.write command).2
        stage := .noting event command } := by
  unfold write
  rw [hstage]

/-- What the writer loop leaves behind an event: its own effect, if it goes through, and
that of every event it does not override. -/
structure Wrote (system written : IndexedBus) (event : Event) : Prop where
  filed : written.Filed
  unique : written.indexer.backend.UniqueUids
  own : system.complete = true → written.Reflects event
  others : ∀ other, system.Reflects other → ¬ event.Overrides other → written.Reflects other

/-- The index after a message was added. -/
theorem Indexed.added (hindexed : system.Indexed) {created : CreatedMessage} {id : MessageId}
    {uid : Uid} (horigin : originOf id system.drawn = some created.key)
    (hnew : system.entry id = none)
    (huid : ∀ other entry, system.entry other = some entry →
      entry.In created.username created.mailbox → entry.metadata.uid ≠ uid)
    {written : IndexedBus} (hdrawn : written.drawn = system.drawn)
    (hentries : ∀ other, written.entry other =
      if other = id then
        some { metadata := ListenerState.indexed created id uid
               path := InMemoryBackend.makeMessagePath created.username created.mailbox id
               username := created.username }
      else system.entry other) :
    system.Wrote written (.messageCreated created) := by
  have hown : written.entry id = some
      { metadata := ListenerState.indexed created id uid
        path := InMemoryBackend.makeMessagePath created.username created.mailbox id
        username := created.username } := (hentries id).trans (if_pos rfl)
  have hother {other : MessageId} (hne : other ≠ id) : written.entry other = system.entry other :=
    (hentries other).trans (if_neg hne)
  have henters : Enters created id
      { metadata := ListenerState.indexed created id uid
        path := InMemoryBackend.makeMessagePath created.username created.mailbox id
        username := created.username } := ⟨uid, created.flags, rfl⟩
  refine ⟨fun other entry hentry => ?_, ?_, fun _ => ⟨id, _, hown, hdrawn ▸ horigin, henters⟩,
    fun event hreflects hlater => ?_⟩
  · by_cases hsame : other = id
    · subst hsame
      obtain rfl := Option.some.inj (hentry.symm.trans hown)
      exact ⟨created, hdrawn ▸ horigin, henters⟩
    · rw [hother hsame] at hentry
      rw [hdrawn]
      exact hindexed.filed other entry hentry
  · intro first second entry entry' username mailbox hentry hentry' hin hin' hsame
    change written.entry first = some entry at hentry
    change written.entry second = some entry' at hentry'
    by_cases hfirst : first = id <;> by_cases hsecond : second = id
    · exact hfirst.trans hsecond.symm
    · subst hfirst
      obtain rfl := Option.some.inj (hentry.symm.trans hown)
      rw [hother hsecond] at hentry'
      obtain ⟨rfl, rfl⟩ := hin
      exact absurd hsame.symm (huid second entry' hentry' hin')
    · subst hsecond
      obtain rfl := Option.some.inj (hentry'.symm.trans hown)
      rw [hother hfirst] at hentry
      obtain ⟨rfl, rfl⟩ := hin'
      exact absurd hsame (huid first entry hentry hin)
    · rw [hother hfirst] at hentry
      rw [hother hsecond] at hentry'
      exact hindexed.unique first second entry entry' username mailbox hentry hentry' hin hin' hsame
  · cases event with
    | messageCreated other =>
        obtain ⟨held, entry, hentry, hkey, hheld⟩ := hreflects
        have hne : held ≠ id := by
          rintro rfl
          rw [hnew] at hentry
          cases hentry
        exact ⟨held, entry, (hother hne).trans hentry, hdrawn ▸ hkey, hheld⟩
    | messageDeleted username mailbox uniqueId =>
        intro other entry hentry hkey
        rw [hdrawn] at hkey
        by_cases hsame : other = id
        · subst hsame
          exact hlater ⟨created, rfl, Option.some.inj (horigin.symm.trans hkey)⟩
        · exact hreflects other entry ((hother hsame).symm.trans hentry) hkey
    | mailboxDeleted username mailbox =>
        intro other entry hentry hin
        by_cases hsame : other = id
        · subst hsame
          obtain rfl := Option.some.inj (hentry.symm.trans hown)
          exact hlater ⟨created, rfl, hin⟩
        · exact hreflects other entry ((hother hsame).symm.trans hentry) hin
    | _ => trivial

theorem Indexed.reduced (hindexed : system.Indexed) {written : IndexedBus}
    (hdrawn : written.drawn = system.drawn)
    (hentries : ∀ id entry, written.entry id = some entry →
      ∃ flags old, system.entry id = some old ∧
        entry = { old with metadata := { old.metadata with flags } }) :
    written.Filed ∧ written.indexer.backend.UniqueUids ∧
      ∀ event, (∀ created, event ≠ .messageCreated created) → system.Reflects event →
        written.Reflects event := by
  refine ⟨fun id entry hentry => ?_, ?_, fun event hnot hreflects => ?_⟩
  · obtain ⟨flags, old, hold, rfl⟩ := hentries id entry hentry
    obtain ⟨created, horigin, uid, oldFlags, rfl⟩ := hindexed.filed id old hold
    exact ⟨created, hdrawn ▸ horigin, uid, flags, rfl⟩
  · intro first second entry entry' username mailbox hentry hentry' hin hin' hsame
    obtain ⟨flags, old, hold, rfl⟩ := hentries first entry hentry
    obtain ⟨flags', old', hold', rfl⟩ := hentries second entry' hentry'
    exact hindexed.unique first second old old' username mailbox hold hold' hin hin' hsame
  · cases event with
    | messageCreated created => exact absurd rfl (hnot created)
    | messageDeleted username mailbox uniqueId =>
        intro id entry hentry
        obtain ⟨flags, old, hold, rfl⟩ := hentries id entry hentry
        rw [hdrawn]
        exact hreflects id old hold
    | mailboxDeleted username mailbox =>
        intro id entry hentry
        obtain ⟨flags, old, hold, rfl⟩ := hentries id entry hentry
        exact hreflects id old hold
    | _ => trivial

/-- The index after the flags of a message were changed. -/
theorem Indexed.modified (hindexed : system.Indexed) {username mailbox uniqueId : String}
    {given : List MessageFlag} {id : MessageId} {flags : List MessageFlag} {written : IndexedBus}
    (hdrawn : written.drawn = system.drawn)
    (hentries : ∀ other, written.entry other =
      if other = id then
        (system.entry id).map fun entry => { entry with metadata := { entry.metadata with flags } }
      else system.entry other) :
    system.Wrote written (.messageModified username mailbox uniqueId given) := by
  have hkept (other : MessageId) (entry : MessageEntry) (hentry : system.entry other = some entry) :
      ∃ flags, written.entry other =
        some { entry with metadata := { entry.metadata with flags } } := by
    rw [hentries]
    by_cases hsame : other = id
    · subst hsame
      rw [if_pos rfl, hentry]
      exact ⟨flags, rfl⟩
    · rw [if_neg hsame, hentry]
      exact ⟨entry.metadata.flags, rfl⟩
  have hold (other : MessageId) (entry : MessageEntry) (hentry : written.entry other = some entry) :
      ∃ flags old, system.entry other = some old ∧
        entry = { old with metadata := { old.metadata with flags } } := by
    rw [hentries] at hentry
    by_cases hsame : other = id
    · subst hsame
      rw [if_pos rfl] at hentry
      obtain ⟨old, hold, rfl⟩ := Option.map_eq_some_iff.mp hentry
      exact ⟨flags, old, hold, rfl⟩
    · rw [if_neg hsame] at hentry
      exact ⟨entry.metadata.flags, entry, hentry, rfl⟩
  obtain ⟨hfiled, hunique, hothers⟩ := hindexed.reduced hdrawn hold
  refine ⟨hfiled, hunique, fun _ => trivial, fun other hreflects _ => ?_⟩
  cases other with
  | messageCreated created =>
      obtain ⟨held, entry, hentry, horigin, uid, oldFlags, rfl⟩ := hreflects
      obtain ⟨newFlags, hnew⟩ := hkept held _ hentry
      exact ⟨held, _, hnew, hdrawn ▸ horigin, uid, newFlags, rfl⟩
  | _ => exact hothers _ (by rintro _ ⟨⟩) hreflects

/-- The index after a message was deleted. -/
theorem Indexed.deleted (hindexed : system.Indexed) {username mailbox uniqueId : String}
    {id : MessageId}
    (hown : ∀ entry, system.entry id = some entry →
      originOf id system.drawn = some ⟨username, mailbox, uniqueId⟩)
    (hall : system.complete = true → ∀ other entry, system.entry other = some entry →
      originOf other system.drawn = some ⟨username, mailbox, uniqueId⟩ → other = id)
    {written : IndexedBus} (hdrawn : written.drawn = system.drawn)
    (hentries : ∀ other, written.entry other =
      if other = id then none else system.entry other) :
    system.Wrote written (.messageDeleted username mailbox uniqueId) := by
  have hold (other : MessageId) (entry : MessageEntry) (hentry : written.entry other = some entry) :
      other ≠ id ∧ system.entry other = some entry := by
    rw [hentries] at hentry
    by_cases hsame : other = id
    · rw [if_pos hsame] at hentry
      cases hentry
    · rw [if_neg hsame] at hentry
      exact ⟨hsame, hentry⟩
  obtain ⟨hfiled, hunique, hothers⟩ := hindexed.reduced hdrawn
    fun other entry hentry => ⟨entry.metadata.flags, entry, (hold other entry hentry).2, rfl⟩
  refine ⟨hfiled, hunique, fun hcomplete other entry hentry horigin => ?_,
    fun other hreflects hlater => ?_⟩
  · obtain ⟨hne, hbefore⟩ := hold other entry hentry
    rw [hdrawn] at horigin
    exact hne (hall hcomplete other entry hbefore horigin)
  · cases other with
    | messageCreated created =>
        obtain ⟨held, entry, hentry, horigin, henters⟩ := hreflects
        have hne : held ≠ id := by
          rintro rfl
          have hkey := Option.some.inj (horigin.symm.trans (hown entry hentry))
          cases hkey
          exact hlater (.inl rfl)
        exact ⟨held, entry, (hentries held).trans ((if_neg hne).trans hentry), hdrawn ▸ horigin,
          henters⟩
    | _ => exact hothers _ (by rintro _ ⟨⟩) hreflects

theorem Indexed.emptied (hindexed : system.Indexed) {username mailbox : String}
    {written : IndexedBus} (hdrawn : written.drawn = system.drawn)
    (hentries : ∀ id entry, written.entry id = some entry ↔
      system.entry id = some entry ∧ ¬ entry.In username mailbox) :
    system.Wrote written (.mailboxDeleted username mailbox) := by
  obtain ⟨hfiled, hunique, hothers⟩ := hindexed.reduced hdrawn fun id entry hentry =>
    ⟨entry.metadata.flags, entry, ((hentries id entry).mp hentry).1, rfl⟩
  refine ⟨hfiled, hunique, fun _ id entry hentry => ((hentries id entry).mp hentry).2,
    fun other hreflects hlater => ?_⟩
  cases other with
  | messageCreated created =>
      obtain ⟨held, entry, hentry, horigin, uid, flags, rfl⟩ := hreflects
      refine ⟨held, _, (hentries held _).mpr ⟨hentry, ?_⟩, hdrawn ▸ horigin, uid, flags, rfl⟩
      rintro ⟨rfl, rfl⟩
      exact hlater (.inr rfl)
  | _ => exact hothers _ (by rintro _ ⟨⟩) hreflects

/-- The writer loop serves the listener. -/
theorem Indexed.write (hindexed : system.Indexed) {event : Event} {command : Indexer.WriteCommand}
    (hstage : system.stage = .writing event command) : system.Wrote system.write event := by
  have hfits : system.Fits event command := by
    have hstaged := hindexed.staged
    unfold Staged at hstaged
    rwa [hstage] at hstaged
  have hdrawn : system.write.drawn = system.drawn := by rw [write_eq hstage]
  have hentries (other : MessageId) : system.write.entry other =
      (Indexer.writerStep system.indexer.backend command).1.messages.lookup other := by
    rw [write_eq hstage]
    rfl
  cases event with
  | messageCreated created =>
      obtain ⟨id, uid, rfl, horigin, hnew, huid⟩ := hfits
      exact hindexed.added horigin hnew huid hdrawn fun other =>
        (hentries other).trans HashMap.lookup_insert_eq
  | messageModified username mailbox uniqueId given =>
      obtain ⟨id, flags, rfl⟩ := hfits
      exact hindexed.modified hdrawn fun other =>
        (hentries other).trans (InMemoryBackend.lookup_updateFlags id other flags _)
  | messageDeleted username mailbox uniqueId =>
      obtain ⟨id, rfl, hown, hall⟩ := hfits
      exact hindexed.deleted hown hall hdrawn fun other =>
        (hentries other).trans (InMemoryBackend.lookup_deleteMessage id other _)
  | mailboxDeleted username mailbox =>
      obtain rfl : command = .removeMessagesForMailbox username mailbox := hfits
      refine hindexed.emptied hdrawn fun id entry => ?_
      rw [hentries id]
      apply HashMap.lookup_retain_iff.trans
      rw [Bool.not_eq_true', decide_eq_false_iff_not]
      rfl
  | mailboxCreated | mailboxRenamed => exact hfits.elim

/-! ## The listener -/

theorem Filed.drawn (hfiled : system.Filed) {system' : IndexedBus} {received : Received}
    (hbackend : system'.indexer.backend = system.indexer.backend)
    (hdrawn : system'.drawn = system.drawn ++ [received]) :
    system'.Filed ∧ ∀ event, system.Reflects event → system'.Reflects event := by
  have hentry (id : MessageId) : system'.entry id = system.entry id := by
    unfold entry
    rw [hbackend]
  have horigin (id : MessageId) (entry : MessageEntry) (hheld : system.entry id = some entry) :
      originOf id system'.drawn = originOf id system.drawn := by
    obtain ⟨created, hkey, -⟩ := hfiled id entry hheld
    rw [hdrawn, hkey]
    exact originOf_concat_of_some _ _ hkey
  refine ⟨fun id entry hheld => ?_, fun event hreflects => ?_⟩
  · rw [hentry] at hheld
    rw [horigin id entry hheld]
    exact hfiled id entry hheld
  · cases event with
    | messageCreated created =>
        obtain ⟨id, entry, hheld, hkey, henters⟩ := hreflects
        exact ⟨id, entry, (hentry id).trans hheld, (horigin id entry hheld).trans hkey, henters⟩
    | messageDeleted username mailbox uniqueId =>
        intro id entry hheld
        rw [hentry] at hheld
        rw [horigin id entry hheld]
        exact hreflects id entry hheld
    | mailboxDeleted username mailbox =>
        intro id entry hheld
        rw [hentry] at hheld
        exact hreflects id entry hheld
    | _ => trivial

theorem Indexed.finish {event : Event} (hfiled : system.Filed)
    (hunique : system.indexer.backend.UniqueUids)
    (hown : system.complete = true → system.Reflects event) : (finish event system).Indexed where
  filed := hfiled
  unique := hunique
  staged := trivial
  handled := by
    intro other hhandled
    change (if system.complete then some event else none) = some other at hhandled
    split at hhandled
    · obtain rfl := Option.some.inj hhandled
      exact ⟨rfl, hown ‹_›⟩
    · cases hhandled

structure Beside (system system' : IndexedBus) : Prop where
  bus : system'.bus = system.bus
  subscription : system'.subscription = system.subscription
  calling : system'.calling = system.calling

/-- What the listener does with an event until its command is on the way, or nothing is
left to do. -/
structure Took (system system' : IndexedBus) (event : Event) : Prop where
  indexed : system'.Indexed
  reflects : ∀ other, system.Reflects other → system'.Reflects other
  complete : system.calling = some (event, true) → system'.complete = true
  beside : system.Beside system'
  stage : (∃ command, system'.stage = .writing event command) ∨
    system'.stage = .receiving ∧ (system'.complete = true → system'.handled = some event)

theorem Took.finished {event : Event} {taken : IndexedBus} (hfiled : taken.Filed)
    (hunique : taken.indexer.backend.UniqueUids)
    (hown : taken.complete = true → taken.Reflects event)
    (hreflects : ∀ other, system.Reflects other → taken.Reflects other)
    (hcomplete : system.calling = some (event, true) → taken.complete = true)
    (hbeside : system.Beside taken) : system.Took (finish event taken) event where
  indexed := .finish hfiled hunique hown
  reflects := hreflects
  complete := hcomplete
  beside := ⟨hbeside.bus, hbeside.subscription, hbeside.calling⟩
  stage := .inr ⟨rfl, fun hdone => if_pos hdone⟩

theorem Took.sent {event : Event} {command : Indexer.WriteCommand} {taken : IndexedBus}
    (hfiled : taken.Filed) (hunique : taken.indexer.backend.UniqueUids)
    (hstage : taken.stage = .writing event command) (hfits : taken.Fits event command)
    (hhandled : taken.handled = none)
    (hreflects : ∀ other, system.Reflects other → taken.Reflects other)
    (hcomplete : system.calling = some (event, true) → taken.complete = true)
    (hbeside : system.Beside taken) : system.Took taken event where
  indexed :=
    { filed := hfiled
      unique := hunique
      staged := by
        unfold Staged
        rw [hstage]
        exact hfits
      handled := by
        intro other hother
        rw [hhandled] at hother
        cases hother }
  reflects := hreflects
  complete := hcomplete
  beside := hbeside
  stage := .inl ⟨command, hstage⟩

/-- The listener handles an event. -/
theorem Indexed.handle (hindexed : system.Indexed) {event : Event}
    (hstage : system.stage = .handling event) {messageId : MessageId}
    (hprompt : system.Prompt (.handle messageId)) :
    system.Took (system.handle messageId) event := by
  have hidle : system.handled = none :=
    hindexed.handled_eq_none (by rw [hstage]; exact ListenerStage.noConfusion)
  unfold Prompt at hprompt
  unfold IndexedBus.handle
  simp only [hstage] at hprompt ⊢
  cases event with
  | messageCreated created =>
      obtain ⟨hfresh, hregistered, huid⟩ := hprompt
      rcases MailboxState.getNextUid_cases created.username created.mailbox system.registry with
        ⟨hmissing, hdrawn⟩ | ⟨info, hlookup, hdrawn⟩
      · simp only [hdrawn]
        refine .finished hindexed.filed hindexed.unique (fun hdone => absurd hdone Bool.false_ne_true)
          (fun _ hreflects => hreflects) (fun hcalling => ?_) ⟨rfl, rfl, rfl⟩
        have hknown : (system.registry.mailboxes.lookup (created.username, created.mailbox)).isSome :=
          hregistered hcalling
        rw [hmissing] at hknown
        cases hknown
      · simp only [hdrawn]
        have hnone : originOf messageId system.drawn = none := originOf_eq_none _ hfresh
        have hown : originOf messageId (system.drawn ++ [(.messageCreated created, messageId)]) =
            some created.key := by
          rw [originOf_concat, hnone]
          exact if_pos rfl
        have hnew : system.entry messageId = none := by
          cases hentry : system.entry messageId with
          | none => rfl
          | some entry =>
              obtain ⟨other, horigin, -⟩ := hindexed.filed messageId entry hentry
              rw [hnone] at horigin
              cases horigin
        obtain ⟨hfiled, hreflects⟩ := @Filed.drawn system hindexed.filed
          { system with
            registry := { system.registry with
              mailboxes := system.registry.mailboxes.insert (created.username, created.mailbox)
                { info with nextUid := info.nextUid + 1 } }
            stage := .writing (.messageCreated created) (.addMessage created.username
              created.mailbox (ListenerState.indexed created messageId info.nextUid))
            drawn := system.drawn ++ [(.messageCreated created, messageId)]
            complete := true } (.messageCreated created, messageId) rfl rfl
        exact .sent hfiled hindexed.unique rfl
          ⟨messageId, info.nextUid, rfl, hown, hnew, huid _ _ hdrawn⟩ hidle hreflects (fun _ => rfl)
          ⟨rfl, rfl, rfl⟩
  | messageModified username mailbox uniqueId flags =>
      dsimp only
      cases hmapped : system.mapped ⟨username, mailbox, uniqueId⟩ with
      | none =>
          exact .finished hindexed.filed hindexed.unique (fun _ => trivial)
            (fun _ hreflects => hreflects) (fun _ => rfl) ⟨rfl, rfl, rfl⟩
      | some id =>
          exact .sent hindexed.filed hindexed.unique rfl ⟨id, flags, rfl⟩ hidle
            (fun _ hreflects => hreflects) (fun _ => rfl) ⟨rfl, rfl, rfl⟩
  | messageDeleted username mailbox uniqueId =>
      obtain ⟨hnames, hown⟩ := hprompt
      dsimp only
      have hnamed (hall : system.NamesAll ⟨username, mailbox, uniqueId⟩) (id : MessageId)
          (entry : MessageEntry) (hentry : system.entry id = some entry)
          (horigin : originOf id system.drawn = some ⟨username, mailbox, uniqueId⟩) :
          system.mapped ⟨username, mailbox, uniqueId⟩ = some id :=
        hall ⟨id, entry⟩ (HashMap.lookup_eq_some_iff.mp hentry) horigin
      cases hmapped : system.mapped ⟨username, mailbox, uniqueId⟩ with
      | none =>
          refine .finished hindexed.filed hindexed.unique
            (fun hdone id entry hentry horigin => ?_) (fun _ hreflects => hreflects)
            (fun hcalling => decide_eq_true (hnames hcalling)) ⟨rfl, rfl, rfl⟩
          have hsome := hnamed (of_decide_eq_true hdone) id entry hentry horigin
          rw [hmapped] at hsome
          cases hsome
      | some id =>
          refine .sent hindexed.filed hindexed.unique rfl
            ⟨id, rfl, fun entry => hown id entry hmapped, fun hdone other entry hentry horigin => ?_⟩
            hidle (fun _ hreflects => hreflects)
            (fun hcalling => decide_eq_true (hnames hcalling)) ⟨rfl, rfl, rfl⟩
          have hsome := hnamed (of_decide_eq_true hdone) other entry hentry horigin
          exact Option.some.inj (hsome.symm.trans hmapped)
  | mailboxDeleted username mailbox =>
      exact .sent hindexed.filed hindexed.unique rfl rfl hidle (fun _ hreflects => hreflects)
        (fun _ => rfl) ⟨rfl, rfl, rfl⟩
  | mailboxCreated | mailboxRenamed =>
      exact .finished hindexed.filed hindexed.unique (fun _ => trivial)
        (fun _ hreflects => hreflects) (fun _ => rfl) ⟨rfl, rfl, rfl⟩

theorem note_eq {event : Event} {command : Indexer.WriteCommand}
    (hstage : system.stage = .noting event command) :
    ∃ uniqueIdMapping, system.note =
      finish event { system with indexer := { system.indexer with uniqueIdMapping } } := by
  unfold note
  rw [hstage]
  exact ⟨_, rfl⟩

theorem Indexed.note (hindexed : system.Indexed) {event : Event} {command : Indexer.WriteCommand}
    (hstage : system.stage = .noting event command) : system.note.Indexed := by
  have hown : system.complete = true → system.Reflects event := by
    have hstaged := hindexed.staged
    unfold Staged at hstaged
    rwa [hstage] at hstaged
  obtain ⟨uniqueIdMapping, hnote⟩ := note_eq hstage
  rw [hnote]
  exact .finish hindexed.filed hindexed.unique hown

end IndexedBus

end Scuttled
