import Scuttled.Index.InMemory
import Scuttled.Mailboxes.Memory

/-!
# The event listener of the indexer

The listener takes one event at a time and updates the index.  A
`MessageCreated` takes two steps, with a wait between them: the UID is drawn
from the registry, then the message is added to the index.  Commands of sessions
may reach the registry in between.
-/

namespace Scuttled

open Rust Foundation

/-- `Indexer`, as the listener sees it: the backend behind the writer loop, and
the map from keys of message files to message identifiers. -/
structure Indexer where
  backend : InMemoryBackend
  uniqueIdMapping : HashMap String MessageId

/-- `format!("{}/{}/{}", username, mailbox, unique_id)`. -/
def uniqueIdKey (username mailbox uniqueId : String) : String :=
  username ++ "/" ++ mailbox ++ "/" ++ uniqueId

namespace Indexer

def new : Indexer where
  backend := .new
  uniqueIdMapping := ∅

/-- Sends a write command and waits for its reply. -/
def write (command : WriteCommand) (indexer : Indexer) : WriteReply × Indexer :=
  ((writerStep indexer.backend command).2,
    { indexer with backend := (writerStep indexer.backend command).1 })

/-- The second half of `MessageCreated`: the message is added, and the mapping
notes its identifier under the path of the event. -/
def messageCreated (created : CreatedMessage) (message : IndexedMessage) (indexer : Indexer) :
    Indexer :=
  match indexer.write (.addMessage created.username created.mailbox message) with
  | (.path (.ok _), indexer) =>
      { indexer with
        uniqueIdMapping := indexer.uniqueIdMapping.insert created.path message.id }
  | (_, indexer) => indexer

/-- `MessageModified`: a message that is not mapped is passed over. -/
def messageModified (username mailbox uniqueId : String) (flags : List MessageFlag)
    (indexer : Indexer) : Indexer :=
  match indexer.uniqueIdMapping.lookup (uniqueIdKey username mailbox uniqueId) with
  | some id => (indexer.write (.updateFlags id flags)).2
  | none => indexer

/-- `MessageDeleted`: the mapping forgets the message, then the index does. -/
def messageDeleted (username mailbox uniqueId : String) (indexer : Indexer) : Indexer :=
  let key := uniqueIdKey username mailbox uniqueId
  match indexer.uniqueIdMapping.lookup key with
  | some id =>
      let indexer := { indexer with uniqueIdMapping := indexer.uniqueIdMapping.erase key }
      (indexer.write (.deleteMessage id)).2
  | none => indexer

/-- `MailboxDeleted`: the index forgets the messages of the mailbox, then the
mapping forgets the keys under it. -/
def mailboxDeleted (username mailbox : String) (indexer : Indexer) : Indexer :=
  let indexer := (indexer.write (.removeMessagesForMailbox username mailbox)).2
  let mailboxPrefix := username ++ "/" ++ mailbox ++ "/"
  { indexer with
    uniqueIdMapping := indexer.uniqueIdMapping.retain fun key _ => !startsWith key mailboxPrefix }

section Lookup

variable (username mailbox uniqueId : String) (flags : List MessageFlag) (indexer : Indexer)

theorem messageCreated_lookup (created : CreatedMessage) (message : IndexedMessage) :
    (∀ id, (indexer.messageCreated created message).backend.messages.lookup id =
      if id = message.id then
        some {
          metadata := message
          path := InMemoryBackend.makeMessagePath created.username created.mailbox message.id
          username := created.username }
      else indexer.backend.messages.lookup id) ∧
    ∀ path, (indexer.messageCreated created message).uniqueIdMapping.lookup path =
      if path = created.path then some message.id else indexer.uniqueIdMapping.lookup path :=
  ⟨fun _ => HashMap.lookup_insert_eq, fun _ => HashMap.lookup_insert_eq⟩

theorem messageModified_cases :
    indexer.uniqueIdMapping.lookup (uniqueIdKey username mailbox uniqueId) = none ∧
      indexer.messageModified username mailbox uniqueId flags = indexer ∨
    ∃ mapped, indexer.uniqueIdMapping.lookup (uniqueIdKey username mailbox uniqueId) = some mapped ∧
      (indexer.messageModified username mailbox uniqueId flags).uniqueIdMapping =
        indexer.uniqueIdMapping ∧
      ∀ id, (indexer.messageModified username mailbox uniqueId flags).backend.messages.lookup id =
        if id = mapped then
          (indexer.backend.messages.lookup mapped).map fun entry =>
            { entry with metadata := { entry.metadata with flags } }
        else indexer.backend.messages.lookup id := by
  unfold messageModified
  split
  · rename_i mapped hmapped
    exact .inr ⟨mapped, hmapped, rfl, fun id => InMemoryBackend.lookup_updateFlags mapped id flags _⟩
  · exact .inl ⟨‹_›, rfl⟩

theorem messageDeleted_cases :
    indexer.uniqueIdMapping.lookup (uniqueIdKey username mailbox uniqueId) = none ∧
      indexer.messageDeleted username mailbox uniqueId = indexer ∨
    ∃ mapped, indexer.uniqueIdMapping.lookup (uniqueIdKey username mailbox uniqueId) = some mapped ∧
      (∀ path, (indexer.messageDeleted username mailbox uniqueId).uniqueIdMapping.lookup path =
        if path = uniqueIdKey username mailbox uniqueId then none
        else indexer.uniqueIdMapping.lookup path) ∧
      ∀ id, (indexer.messageDeleted username mailbox uniqueId).backend.messages.lookup id =
        if id = mapped then none else indexer.backend.messages.lookup id := by
  simp only [messageDeleted]
  split
  · rename_i mapped hmapped
    exact .inr ⟨mapped, hmapped, fun path => HashMap.lookup_erase_eq,
      fun id => InMemoryBackend.lookup_deleteMessage mapped id _⟩
  · exact .inl ⟨‹_›, rfl⟩

end Lookup

end Indexer

/-! ## The listener and the registry it draws from -/

/-- The listener waits for an event, or for the reply to a message it adds. -/
inductive ListenerPhase where
  | receiving
  | adding (created : CreatedMessage) (message : IndexedMessage)
  deriving DecidableEq

/-- The listener, its index, and the registry. -/
structure ListenerState (R : Type) where
  registry : R
  indexer : Indexer
  phase : ListenerPhase

namespace ListenerState

variable {R : Type}

def new (registry : R) : ListenerState R where
  registry
  indexer := .new
  phase := .receiving

/-- The first half of `MessageCreated`: a UID is drawn for the message; without
one the event is passed over. -/
def draw (mailboxes : Option (Mailboxes R)) (created : CreatedMessage) (messageId : MessageId)
    (state : ListenerState R) : ListenerState R :=
  match mailboxes with
  | none => state
  | some mailboxes =>
      match mailboxes.getNextUid created.username created.mailbox state.registry with
      | (.error _, registry) => { state with registry }
      | (.ok uid, registry) =>
          let message : IndexedMessage :=
            { id := messageId
              uid
              mailbox := created.mailbox
              flags := created.flags
              internalDate := created.internalDate
              size := created.size
              fromHeader := created.fromHeader
              toHeader := created.toHeader
              subject := created.subject
              bodyPreview := created.bodyPreview }
          { state with registry, phase := .adding created message }

/-- `event_listener` receives an event.  `messageId` is the identifier
`MessageId::new` would yield. -/
def receive (mailboxes : Option (Mailboxes R)) (event : Event) (messageId : MessageId)
    (state : ListenerState R) : Option (ListenerState R) :=
  match state.phase with
  | .adding _ _ => none
  | .receiving =>
      match event with
      | .messageCreated created => some (state.draw mailboxes created messageId)
      | .messageModified username mailbox uniqueId flags =>
          some { state with
            indexer := state.indexer.messageModified username mailbox uniqueId flags }
      | .messageDeleted username mailbox uniqueId =>
          some { state with indexer := state.indexer.messageDeleted username mailbox uniqueId }
      | .mailboxDeleted username mailbox =>
          some { state with indexer := state.indexer.mailboxDeleted username mailbox }
      | .mailboxCreated _ _ | .mailboxRenamed _ _ _ => some state

/-- The message the listener waits for is added. -/
def add (state : ListenerState R) : Option (ListenerState R) :=
  match state.phase with
  | .receiving => none
  | .adding created message =>
      some { state with
        indexer := state.indexer.messageCreated created message
        phase := .receiving }

/-! ## What is drawn -/

/-- The message that is indexed for an event. -/
def indexed (created : CreatedMessage) (id : MessageId) (uid : Uid) : IndexedMessage where
  id
  uid
  mailbox := created.mailbox
  flags := created.flags
  internalDate := created.internalDate
  size := created.size
  fromHeader := created.fromHeader
  toHeader := created.toHeader
  subject := created.subject
  bodyPreview := created.bodyPreview

/-- A message is drawn for if its mailbox is registered; the counter of the mailbox
moves on. -/
theorem draw_cases (engine : RegexEngine) (order : HashOrder (String × String) MailboxInfo)
    (created : CreatedMessage) (messageId : MessageId) (state : ListenerState InMemoryMailboxes) :
    state.registry.state.mailboxes.lookup (created.username, created.mailbox) = none ∧
      state.draw (some (inMemoryMailboxes engine order)) created messageId = state ∨
    ∃ info, state.registry.state.mailboxes.lookup (created.username, created.mailbox) = some info ∧
      state.draw (some (inMemoryMailboxes engine order)) created messageId =
        { state with
          registry := { state.registry with
            state := { state.registry.state with
              mailboxes := state.registry.state.mailboxes.insert
                (created.username, created.mailbox) { info with nextUid := info.nextUid + 1 } } }
          phase := .adding created (indexed created messageId info.nextUid) } := by
  simp only [draw, inMemoryMailboxes, InMemoryMailboxes.serve]
  rcases MailboxState.getNextUid_cases created.username created.mailbox state.registry.state with
    ⟨hmissing, hfailed⟩ | ⟨info, hlookup, hdrawn⟩
  · rw [hfailed]
    exact .inl ⟨hmissing, rfl⟩
  · rw [hdrawn]
    exact .inr ⟨info, hlookup, rfl⟩

theorem draw_of_registered {state : ListenerState InMemoryMailboxes} {created : CreatedMessage}
    (hregistered : (state.registry.state.mailboxes.lookup
      (created.username, created.mailbox)).isSome) (messageId : MessageId) (engine : RegexEngine)
    (order : HashOrder (String × String) MailboxInfo) :
    ∃ registry message, state.draw (some (inMemoryMailboxes engine order)) created messageId =
        { state with registry, phase := .adding created message } ∧
      message.id = messageId ∧ message.flags = created.flags := by
  rcases draw_cases engine order created messageId state with ⟨hmissing, -⟩ | ⟨info, -, hdraw⟩
  · rw [hmissing] at hregistered
    cases hregistered
  · exact ⟨_, _, hdraw, rfl, rfl⟩

end ListenerState

end Scuttled
