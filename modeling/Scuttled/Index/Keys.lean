import Scuttled.Index.UidUniqueness

/-!
# One entry for each message key

The listener draws a new identifier for every `MessageCreated`, also when the
message it announces is indexed already; the mapping then forgets the older
entry, which stays in the index for ever.  As long as a message is announced
only while it is not indexed, each key has one entry, with the flags it was last
given.
-/

namespace Scuttled

open Rust Foundation

/-! ## Keys and the log of events -/

/-- What tells a message file from others. -/
structure MessageKey where
  username : String
  mailbox : String
  uniqueId : String
  deriving DecidableEq, Repr

/-- The path the key of a message spells. -/
def MessageKey.path (key : MessageKey) : String :=
  uniqueIdKey key.username key.mailbox key.uniqueId

def CreatedMessage.key (created : CreatedMessage) : MessageKey :=
  ⟨created.username, created.mailbox, created.uniqueId⟩

/-- An event the listener received, with the identifier it may have drawn. -/
abbrev Received := Event × MessageId

/-- The key the identifier was drawn for, if this event drew it. -/
def Received.origin (id : MessageId) : Received → Option MessageKey
  | (.messageCreated created, drawn) => if drawn = id then some created.key else none
  | _ => none

/-- The key an identifier was drawn for. -/
def originOf (id : MessageId) (log : List Received) : Option MessageKey :=
  log.findSome? (Received.origin id)

/-- The flags after an event: those it gives the key, or those before. -/
def Received.flags (key : MessageKey) (flags : Option (List MessageFlag)) :
    Received → Option (List MessageFlag)
  | (.messageCreated created, _) => if created.key = key then some created.flags else flags
  | (.messageModified username mailbox uniqueId modified, _) =>
      if ⟨username, mailbox, uniqueId⟩ = key then some modified else flags
  | _ => flags

/-- The flags the last `MessageCreated` or `MessageModified` for a key gave it. -/
def lastFlags (key : MessageKey) (log : List Received) : Option (List MessageFlag) :=
  log.foldl (Received.flags key) none

/-- Whether the key is there after an event. -/
def Received.present (key : MessageKey) (present : Option Bool) : Received → Option Bool
  | (.messageCreated created, _) => if created.key = key then some true else present
  | (.messageDeleted username mailbox uniqueId, _) =>
      if ⟨username, mailbox, uniqueId⟩ = key then some false else present
  | _ => present

/-- Whether the last `MessageCreated` or `MessageDeleted` for a key created it. -/
def lastPresent (key : MessageKey) (log : List Received) : Option Bool :=
  log.foldl (Received.present key) none

/-- The key of the message file an event is about. -/
def Received.about : Received → Option MessageKey
  | (.messageCreated created, _) => some created.key
  | (.messageModified username mailbox uniqueId _, _) => some ⟨username, mailbox, uniqueId⟩
  | (.messageDeleted username mailbox uniqueId, _) => some ⟨username, mailbox, uniqueId⟩
  | _ => none

theorem Received.other {received : Received} {key : MessageKey} (hother : received.about ≠ some key)
    (flags : Option (List MessageFlag)) (present : Option Bool) :
    received.flags key flags = flags ∧ received.present key present = present := by
  obtain ⟨event, drawn⟩ := received
  cases event <;> simp_all [Received.about, Received.flags, Received.present]

section Append

variable (log : List Received) (received : Received)

theorem originOf_concat (id : MessageId) :
    originOf id (log ++ [received]) = (originOf id log).or (received.origin id) := by
  rw [originOf, List.findSome?_append, List.findSome?_singleton]
  rfl

theorem lastFlags_concat (key : MessageKey) :
    lastFlags key (log ++ [received]) = received.flags key (lastFlags key log) := by
  rw [lastFlags, List.foldl_append]
  rfl

theorem lastPresent_concat (key : MessageKey) :
    lastPresent key (log ++ [received]) = received.present key (lastPresent key log) := by
  rw [lastPresent, List.foldl_append]
  rfl

theorem originOf_concat_of_some {id : MessageId} {key : MessageKey} (horigin : originOf id log = some key) :
    originOf id (log ++ [received]) = some key := by
  rw [originOf_concat, horigin]
  rfl

theorem originOf_eq_none {id : MessageId} (hfresh : ∀ received ∈ log, received.2 ≠ id) :
    originOf id log = none := by
  rw [originOf, List.findSome?_eq_none_iff]
  rintro ⟨event, drawn⟩ hmem
  have hne : drawn ≠ id := hfresh _ hmem
  cases event <;> simp [Received.origin, hne]

end Append

/-! ## Runs of the listener -/

/-- The listener, and what it has received so far; the log is never read. -/
structure Indexing where
  listener : ListenerState InMemoryMailboxes
  log : List Received

namespace Indexing

def new (registry : InMemoryMailboxes) : Indexing where
  listener := .new registry
  log := []

/-- The entry an identifier has in the index. -/
def entry (indexing : Indexing) (id : MessageId) : Option MessageEntry :=
  indexing.listener.indexer.backend.messages.lookup id

/-- The identifier that is mapped under a path. -/
def mapped (indexing : Indexing) (path : String) : Option MessageId :=
  indexing.listener.indexer.uniqueIdMapping.lookup path

end Indexing

/-- The listener receives an event, or adds the message it waits for; in between
the registry serves others. -/
inductive ListenerAction where
  | receive (event : Event) (messageId : MessageId)
  | add
  | serve (command : WriteCommand)

/-- One step of the listener, or of the registry beside it. -/
def listenerStep (engine : RegexEngine) (order : HashOrder (String × String) MailboxInfo)
    (indexing : Indexing) : ListenerAction → Option Indexing
  | .receive event messageId =>
      (indexing.listener.receive (some (inMemoryMailboxes engine order)) event messageId).map
        fun listener => { listener, log := indexing.log ++ [(event, messageId)] }
  | .add => indexing.listener.add.map fun listener => { indexing with listener }
  | .serve command =>
      some { indexing with
        listener := { indexing.listener with
          registry := { indexing.listener.registry with
            state := (writerStep indexing.listener.registry.state command).1 } } }

/-- An event about a message file as it is published: the path spells its key, and
the mailbox is registered.  Identifiers are drawn afresh. -/
def AsPublished (indexing : Indexing) : ListenerAction → Prop
  | .receive (.messageCreated created) messageId =>
      created.path = created.key.path ∧
        (indexing.listener.registry.state.mailboxes.lookup
          (created.username, created.mailbox)).isSome ∧
        ∀ received ∈ indexing.log, received.2 ≠ messageId
  | .receive (.messageModified _ _ _ _) _ | .receive (.messageDeleted _ _ _) _ => True
  | .receive _ _ => False
  | .add | .serve _ => True

instance (indexing : Indexing) (action : ListenerAction) :
    Decidable (AsPublished indexing action) := by
  unfold AsPublished
  split <;> infer_instance

/-- A message is announced while nothing is mapped under its path, and modified
while what is mapped under its path is that message. -/
def OwnPath (indexing : Indexing) : ListenerAction → Prop
  | .receive (.messageCreated created) _ => indexing.mapped created.path = none
  | .receive (.messageModified username mailbox uniqueId _) _ =>
      match indexing.mapped (uniqueIdKey username mailbox uniqueId) with
      | none => True
      | some id => originOf id indexing.log = some ⟨username, mailbox, uniqueId⟩
  | _ => True

instance (indexing : Indexing) (action : ListenerAction) : Decidable (OwnPath indexing action) := by
  unfold OwnPath
  split
  · infer_instance
  · split <;> infer_instance
  · infer_instance

def Indexing.OneEntry (indexing : Indexing) : Prop :=
  ∀ id id' entry entry' key, indexing.entry id = some entry → indexing.entry id' = some entry' →
    originOf id indexing.log = some key → originOf id' indexing.log = some key → id = id'

/-! ## The invariant -/

/-- An entry belongs to the key its identifier was drawn for, which is mapped to it
and has its flags. -/
structure Indexing.BelongsTo (indexing : Indexing) (id : MessageId) (flags : List MessageFlag)
    (key : MessageKey) : Prop where
  origin : originOf id indexing.log = some key
  flags : lastFlags key indexing.log = some flags
  present : lastPresent key indexing.log = some true

/-- Entries belong to keys that are mapped to them, and so does the message the
listener waits for, but that its path is not mapped yet. -/
structure Indexing.Keyed (indexing : Indexing) : Prop where
  live : ∀ id entry, indexing.entry id = some entry →
    ∃ key, indexing.BelongsTo id entry.metadata.flags key ∧ indexing.mapped key.path = some id
  adding : ∀ created message, indexing.listener.phase = .adding created message →
    indexing.BelongsTo message.id message.flags created.key ∧
      created.path = created.key.path ∧ indexing.mapped created.path = none

theorem keyed_new (registry : InMemoryMailboxes) : (Indexing.new registry).Keyed where
  live := by
    intro id entry hentry
    simp [Indexing.entry, Indexing.new, ListenerState.new, Indexer.new, InMemoryBackend.new] at hentry
  adding := by
    intro created message hadding
    cases hadding

variable {indexing : Indexing}

theorem Indexing.BelongsTo.concat {id : MessageId} {flags : List MessageFlag} {key : MessageKey}
    (hbelongs : indexing.BelongsTo id flags key) {received : Received}
    (hother : received.about ≠ some key) (listener : ListenerState InMemoryMailboxes) :
    Indexing.BelongsTo { listener, log := indexing.log ++ [received] } id flags key where
  origin := originOf_concat_of_some _ _ hbelongs.origin
  flags := by rw [lastFlags_concat, (received.other hother _ none).1, hbelongs.flags]
  present := by rw [lastPresent_concat, (received.other hother none _).2, hbelongs.present]

theorem Indexing.Keyed.kept (hkeyed : indexing.Keyed) {id : MessageId} {entry : MessageEntry}
    (hentry : indexing.entry id = some entry) {received : Received} {key : MessageKey}
    (habout : received.about = some key) (hunmapped : indexing.mapped key.path ≠ some id)
    {listener : ListenerState InMemoryMailboxes}
    (hmapping : ∀ path, path ≠ key.path →
      listener.indexer.uniqueIdMapping.lookup path = indexing.mapped path) :
    ∃ own, Indexing.BelongsTo { listener, log := indexing.log ++ [received] } id
        entry.metadata.flags own ∧
      listener.indexer.uniqueIdMapping.lookup own.path = some id := by
  obtain ⟨own, hbelongs, hmapped⟩ := hkeyed.live id entry hentry
  have hpath : own.path ≠ key.path := fun hsame => hunmapped (hsame ▸ hmapped)
  refine ⟨own, hbelongs.concat ?_ _, (hmapping _ hpath).trans hmapped⟩
  rw [habout]
  rintro ⟨⟩
  exact hpath rfl

/-- The first half of `MessageCreated`: the key is not that of an entry, and the
identifier is drawn for it. -/
theorem Indexing.Keyed.created (hkeyed : indexing.Keyed) {created : CreatedMessage}
    {messageId : MessageId}
    (hpublished : AsPublished indexing (.receive (.messageCreated created) messageId))
    (hown : OwnPath indexing (.receive (.messageCreated created) messageId))
    (engine : RegexEngine) (order : HashOrder (String × String) MailboxInfo) :
    Indexing.Keyed
      { listener := indexing.listener.draw (some (inMemoryMailboxes engine order)) created messageId
        log := indexing.log ++ [(.messageCreated created, messageId)] } := by
  obtain ⟨hpath, hregistered, hfresh⟩ := hpublished
  obtain ⟨registry, message, hdraw, hid, hflags⟩ :=
    ListenerState.draw_of_registered hregistered messageId engine order
  rw [hdraw]
  constructor
  · intro id entry hentry
    refine hkeyed.kept hentry rfl ?_ fun _ _ => rfl
    rw [← hpath, show indexing.mapped created.path = none from hown]
    exact nofun
  · intro other later hadding
    obtain ⟨rfl, rfl⟩ := ListenerPhase.adding.inj hadding
    refine ⟨⟨?_, ?_, ?_⟩, hpath, hown⟩
    · rw [originOf_concat, hid, originOf_eq_none _ hfresh, Option.none_or]
      exact if_pos rfl
    · rw [lastFlags_concat, hflags]
      exact if_pos rfl
    · rw [lastPresent_concat]
      exact if_pos rfl

theorem Indexing.Keyed.add (hkeyed : indexing.Keyed) {created : CreatedMessage}
    {message : IndexedMessage} (hphase : indexing.listener.phase = .adding created message) :
    Indexing.Keyed { indexing with
      listener := { indexing.listener with
        indexer := indexing.listener.indexer.messageCreated created message
        phase := .receiving } } := by
  obtain ⟨hadded, hpath, hunmapped⟩ := hkeyed.adding created message hphase
  obtain ⟨hentries, hmapping⟩ :=
    indexing.listener.indexer.messageCreated_lookup created message
  constructor
  · intro id entry hentry
    have hlookup := (hentries id).symm.trans hentry
    split at hlookup
    · rename_i hid
      obtain rfl := Option.some.inj hlookup
      refine ⟨created.key, ?_, (hmapping _).trans ?_⟩
      · rw [hid]
        exact ⟨hadded.origin, hadded.flags, hadded.present⟩
      · rw [if_pos hpath.symm, hid]
    · obtain ⟨key, hbelongs, hmapped⟩ := hkeyed.live id entry hlookup
      refine ⟨key, ⟨hbelongs.origin, hbelongs.flags, hbelongs.present⟩, (hmapping _).trans ?_⟩
      rw [if_neg ?_]
      · exact hmapped
      intro hsame
      rw [hsame, hunmapped] at hmapped
      cases hmapped
  · intro other later hadding
    cases hadding

/-- `MessageModified`: what is mapped under the path is the message itself. -/
theorem Indexing.Keyed.messageModified (hkeyed : indexing.Keyed)
    {username mailbox uniqueId : String} {flags : List MessageFlag} {messageId : MessageId}
    (hown : OwnPath indexing
      (.receive (.messageModified username mailbox uniqueId flags) messageId)) :
    Indexing.Keyed
      { listener := { indexing.listener with
          indexer := indexing.listener.indexer.messageModified username mailbox uniqueId flags
          phase := .receiving }
        log := indexing.log ++ [(.messageModified username mailbox uniqueId flags, messageId)] } := by
  refine ⟨fun id entry hentry => ?_, fun created message hadding => ?_⟩
  · rcases indexing.listener.indexer.messageModified_cases username mailbox uniqueId flags with
      ⟨hunmapped, hsame⟩ | ⟨mapped, hmapped, hmapping, hlookup⟩
    · rw [hsame]
      refine hkeyed.kept (by rwa [hsame] at hentry) rfl (fun hid => ?_) fun _ _ => rfl
      exact nomatch hunmapped.symm.trans hid
    · have hnew := (hlookup id).symm.trans hentry
      split at hnew
      · rename_i hid
        subst hid
        obtain ⟨older, hlive, rfl⟩ := Option.map_eq_some_iff.mp hnew
        obtain ⟨own, hbelongs, hpath⟩ := hkeyed.live id older hlive
        have horigin : originOf id indexing.log = some ⟨username, mailbox, uniqueId⟩ := by
          simpa [OwnPath, Indexing.mapped, hmapped] using hown
        obtain rfl := Option.some.inj (hbelongs.origin.symm.trans horigin)
        refine ⟨_, ⟨originOf_concat_of_some _ _ horigin, ?_, ?_⟩, ?_⟩
        · rw [lastFlags_concat]
          exact if_pos rfl
        · rw [lastPresent_concat]
          exact hbelongs.present
        · rw [Indexing.mapped, hmapping]
          exact hmapped
      · rename_i hid
        refine hkeyed.kept hnew rfl (fun hsame => ?_) fun _ _ => by rw [hmapping]; rfl
        exact hid (Option.some.inj (hsame.symm.trans hmapped))
  · cases hadding

theorem Indexing.Keyed.messageDeleted (hkeyed : indexing.Keyed)
    (username mailbox uniqueId : String) (messageId : MessageId) :
    Indexing.Keyed
      { listener := { indexing.listener with
          indexer := indexing.listener.indexer.messageDeleted username mailbox uniqueId
          phase := .receiving }
        log := indexing.log ++ [(.messageDeleted username mailbox uniqueId, messageId)] } := by
  refine ⟨fun id entry hentry => ?_, fun created message hadding => ?_⟩
  · rcases indexing.listener.indexer.messageDeleted_cases username mailbox uniqueId with
      ⟨hunmapped, hsame⟩ | ⟨mapped, hmapped, hmapping, hlookup⟩
    · rw [hsame]
      refine hkeyed.kept (by rwa [hsame] at hentry) rfl (fun hid => ?_) fun _ _ => rfl
      exact nomatch hunmapped.symm.trans hid
    · have hkept := (hlookup id).symm.trans hentry
      split at hkept
      · cases hkept
      · rename_i hid
        refine hkeyed.kept hkept rfl (fun hsame => ?_) fun path hpath => ?_
        · exact hid (Option.some.inj (hsame.symm.trans hmapped))
        · exact (hmapping path).trans (if_neg hpath)
  · cases hadding

/-- Every step keeps the invariant, if messages are announced while nothing is
mapped under their paths. -/
theorem Indexing.Keyed.step {engine : RegexEngine} {order : HashOrder (String × String) MailboxInfo}
    {indexing' : Indexing} {action : ListenerAction} (hkeyed : indexing.Keyed)
    (hguard : AsPublished indexing action ∧ OwnPath indexing action)
    (hstep : listenerStep engine order indexing action = some indexing') : indexing'.Keyed := by
  obtain ⟨hpublished, hown⟩ := hguard
  cases action with
  | receive event messageId =>
      obtain ⟨listener, hlistener, rfl⟩ := Option.map_eq_some_iff.mp hstep
      simp only [ListenerState.receive] at hlistener
      cases hphase : indexing.listener.phase with
      | adding created message =>
          rw [hphase] at hlistener
          cases hlistener
      | receiving =>
          rw [hphase] at hlistener
          cases event with
          | messageCreated created =>
              obtain rfl := Option.some.inj hlistener
              exact hkeyed.created hpublished hown engine order
          | messageModified username mailbox uniqueId flags =>
              obtain rfl := Option.some.inj hlistener
              exact hkeyed.messageModified hown
          | messageDeleted username mailbox uniqueId =>
              obtain rfl := Option.some.inj hlistener
              exact hkeyed.messageDeleted username mailbox uniqueId messageId
          | mailboxCreated | mailboxDeleted | mailboxRenamed => exact hpublished.elim
  | add =>
      obtain ⟨listener, hlistener, rfl⟩ := Option.map_eq_some_iff.mp hstep
      simp only [ListenerState.add] at hlistener
      cases hphase : indexing.listener.phase with
      | receiving =>
          rw [hphase] at hlistener
          cases hlistener
      | adding created message =>
          rw [hphase] at hlistener
          obtain rfl := Option.some.inj hlistener
          exact hkeyed.add hphase
  | serve command =>
      obtain rfl := Option.some.inj hstep
      refine ⟨fun id entry hentry => ?_, fun created message hadding => ?_⟩
      · obtain ⟨key, hbelongs, hmapped⟩ := hkeyed.live id entry hentry
        exact ⟨key, ⟨hbelongs.origin, hbelongs.flags, hbelongs.present⟩, hmapped⟩
      · obtain ⟨hbelongs, hunmapped⟩ := hkeyed.adding created message hadding
        exact ⟨⟨hbelongs.origin, hbelongs.flags, hbelongs.present⟩, hunmapped⟩

theorem ne_of_originOf {log : List Received} {id messageId : MessageId} {key : MessageKey}
    (horigin : originOf id log = some key) (hfresh : ∀ received ∈ log, received.2 ≠ messageId) :
    id ≠ messageId := by
  rintro rfl
  rw [originOf_eq_none _ hfresh] at horigin
  cases horigin

theorem announced_again {engine : RegexEngine} {order : HashOrder (String × String) MailboxInfo}
    {created : CreatedMessage} {messageId id : MessageId} {entry : MessageEntry}
    (hphase : indexing.listener.phase = .receiving)
    (hpublished : AsPublished indexing (.receive (.messageCreated created) messageId))
    (hentry : indexing.entry id = some entry)
    (horigin : originOf id indexing.log = some created.key) {indexing' : Indexing}
    (hrun : [.receive (.messageCreated created) messageId, .add].foldlM (listenerStep engine order)
      indexing = some indexing') : ¬ indexing'.OneEntry := by
  obtain ⟨-, hregistered, hfresh⟩ := hpublished
  obtain ⟨registry, message, hdraw, hid, -⟩ :=
    ListenerState.draw_of_registered hregistered messageId engine order
  have hadded : indexing' =
      { listener :=
          { registry
            indexer := indexing.listener.indexer.messageCreated created message
            phase := .receiving }
        log := indexing.log ++ [(.messageCreated created, messageId)] } := by
    simpa [listenerStep, ListenerState.receive, ListenerState.add, hphase, hdraw] using hrun.symm
  obtain ⟨hentries, -⟩ := indexing.listener.indexer.messageCreated_lookup created message
  have hother : id ≠ messageId := ne_of_originOf horigin hfresh
  intro hone
  rw [hadded] at hone
  have hold := (hentries id).trans (if_neg (hid ▸ hother))
  have hnew := (hentries messageId).trans (if_pos hid.symm)
  refine hother (hone id messageId entry _ created.key (hold.trans hentry) hnew ?_ ?_)
  · exact originOf_concat_of_some _ _ horigin
  · rw [originOf_concat, originOf_eq_none _ hfresh, Option.none_or]
    exact if_pos rfl

/--
One entry for each message key.  Along every run in which messages are announced
only while nothing is mapped under their paths, no key has two entries, a key
that was deleted last has none, and entries have the flags their keys were last
given.  A message that is announced while it has an entry gets a second one.
-/
theorem oneEntry_of_ownPath (engine : RegexEngine) (order : HashOrder (String × String) MailboxInfo)
    (registry : InMemoryMailboxes) :
    (∀ actions indexing,
      Steps (guarded (fun source action => AsPublished source action ∧ OwnPath source action)
        fun source action target => listenerStep engine order source action = some target)
        (.new registry) actions indexing →
      indexing.OneEntry ∧
      ∀ id entry, indexing.entry id = some entry →
        ∃ key, originOf id indexing.log = some key ∧
          lastPresent key indexing.log = some true ∧
          lastFlags key indexing.log = some entry.metadata.flags) ∧
    ∀ indexing created messageId id entry indexing',
      indexing.listener.phase = .receiving →
      AsPublished indexing (.receive (.messageCreated created) messageId) →
      indexing.entry id = some entry → originOf id indexing.log = some created.key →
      [.receive (.messageCreated created) messageId, .add].foldlM (listenerStep engine order)
        indexing = some indexing' →
      ¬ indexing'.OneEntry := by
  refine ⟨fun actions indexing hrun => ?_, fun indexing created messageId id entry indexing'
    hphase hpublished hentry horigin hrun =>
      announced_again hphase hpublished hentry horigin hrun⟩
  have hkeyed : indexing.Keyed := hrun.invariant_of_guarded
    (fun _ _ _ hsource hguard hstep => hsource.step hguard hstep) (keyed_new registry)
  refine ⟨fun id id' entry entry' key hentry hentry' horigin horigin' => ?_,
    fun id entry hentry => ?_⟩
  · obtain ⟨own, hbelongs, hmapped⟩ := hkeyed.live id entry hentry
    obtain ⟨own', hbelongs', hmapped'⟩ := hkeyed.live id' entry' hentry'
    obtain rfl := Option.some.inj (hbelongs.origin.symm.trans horigin)
    obtain rfl := Option.some.inj (hbelongs'.origin.symm.trans horigin')
    exact Option.some.inj (hmapped.symm.trans hmapped')
  · obtain ⟨own, hbelongs, -⟩ := hkeyed.live id entry hentry
    exact ⟨own, hbelongs.origin, hbelongs.present, hbelongs.flags⟩

/-- A message is announced, modified, deleted and announced again. -/
theorem oneEntry_of_ownPath_recreated :
    ∃ indexing, Steps
        (guarded (fun source action => AsPublished source action ∧ OwnPath source action)
          fun source action target => listenerStep .searching .listed source action = some target)
        (.new .new)
        [.serve (.create "ann" "box"), .receive (createdForAnn "box" "m1") ⟨1⟩, .add,
          .receive (.messageModified "ann" "box" "m1" [.seen]) ⟨2⟩,
          .receive (.messageDeleted "ann" "box" "m1") ⟨3⟩,
          .receive (createdForAnn "box" "m1") ⟨4⟩, .add] indexing ∧
      indexing.OneEntry := by
  obtain ⟨indexing, hindexing⟩ := Option.isSome_iff_exists.mp (show (List.foldlM
    (fun source action => if AsPublished source action ∧ OwnPath source action then
      listenerStep .searching .listed source action else none)
    (.new .new)
    [.serve (.create "ann" "box"), .receive (createdForAnn "box" "m1") ⟨1⟩, .add,
      .receive (.messageModified "ann" "box" "m1" [.seen]) ⟨2⟩,
      .receive (.messageDeleted "ann" "box" "m1") ⟨3⟩,
      .receive (createdForAnn "box" "m1") ⟨4⟩, .add]).isSome from by
    decide +kernel)
  have hrun := Steps.guarded_of_foldlM hindexing
  exact ⟨indexing, hrun, ((oneEntry_of_ownPath _ _ _).1 _ indexing hrun).1⟩

/-- The start-up scan announces a message that `notify` has announced already:
its key has two entries. -/
theorem scanned_again_has_two_entries :
    ∃ actions indexing, Steps
        (guarded AsPublished fun source action target =>
          listenerStep .searching .listed source action = some target)
        (.new .new) actions indexing ∧
      ¬ indexing.OneEntry := by
  let actions : List ListenerAction :=
    [.serve (.create "ann" "box"), .receive (createdForAnn "box" "m1") ⟨1⟩, .add,
      .receive (createdForAnn "box" "m1") ⟨2⟩, .add]
  let summary (indexing : Indexing) (id : MessageId) : Bool × Option MessageKey :=
    ((indexing.entry id).isSome, originOf id indexing.log)
  have hsummary : (actions.foldlM (fun source action => if AsPublished source action then
      listenerStep .searching .listed source action else none) (.new .new)).map
        (fun indexing => (summary indexing ⟨1⟩, summary indexing ⟨2⟩)) =
      some ((true, some ⟨"ann", "box", "m1"⟩), (true, some ⟨"ann", "box", "m1"⟩)) := by
    decide +kernel
  obtain ⟨indexing, hindexing, hpair⟩ := Option.map_eq_some_iff.mp hsummary
  simp only [summary, Prod.mk.injEq, Option.isSome_iff_exists] at hpair
  obtain ⟨⟨⟨entry, hentry⟩, horigin⟩, ⟨entry', hentry'⟩, horigin'⟩ := hpair
  refine ⟨actions, indexing, Steps.guarded_of_foldlM hindexing, fun hone => ?_⟩
  have hid := hone _ _ _ _ _ hentry hentry' horigin horigin'
  exact absurd hid (by decide)

end Scuttled
