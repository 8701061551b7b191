import Scuttled.Events.Event
import Scuttled.Foundation.Machine
import Scuttled.Rust.HashMap

/-!
# The in-memory index

`InMemoryBackend` keeps the entries of all users and mailboxes in one map, by
message identifier.  Its writes go through the writer loop of the `Indexer`.
-/

namespace Scuttled

open Rust Foundation

/-- Message metadata stored in the index. -/
structure IndexedMessage where
  id : MessageId
  uid : Uid
  mailbox : String
  flags : List MessageFlag
  internalDate : DateTime
  size : Nat
  fromHeader : String
  toHeader : String
  subject : String
  bodyPreview : String
  deriving DecidableEq, Repr

/-- Message entry with metadata and path. -/
structure MessageEntry where
  metadata : IndexedMessage
  path : String
  username : String
  deriving DecidableEq, Repr

/-- The entry is filed under the mailbox. -/
def MessageEntry.In (entry : MessageEntry) (username mailbox : String) : Prop :=
  entry.username = username ∧ entry.metadata.mailbox = mailbox

instance (entry : MessageEntry) (username mailbox : String) :
    Decidable (entry.In username mailbox) := inferInstanceAs (Decidable (_ ∧ _))

structure InMemoryBackend where
  messages : HashMap MessageId MessageEntry

namespace InMemoryBackend

def new : InMemoryBackend where
  messages := ∅

def makeMessagePath (username mailbox : String) (messageId : MessageId) : String :=
  username ++ "/" ++ mailbox ++ "/" ++ messageId.display ++ ".eml"

def addMessage (username mailbox : String) (message : IndexedMessage)
    (backend : InMemoryBackend) : Result String × InMemoryBackend :=
  let path := makeMessagePath username mailbox message.id
  (.ok path,
    { messages := backend.messages.insert message.id { metadata := message, path, username } })

/-- The error for a message that is not indexed; `Debug` prints the identifier
as a tuple structure. -/
def notFound (id : MessageId) : Error :=
  .notFound ("Message MessageId(" ++ id.display ++ ") not found")

def updateFlags (id : MessageId) (flags : List MessageFlag) (backend : InMemoryBackend) :
    Result Unit × InMemoryBackend :=
  match backend.messages.lookup id with
  | some entry =>
      (.ok (),
        { messages := backend.messages.insert id
            { entry with metadata := { entry.metadata with flags } } })
  | none => (.error (notFound id), backend)

def deleteMessage (id : MessageId) (backend : InMemoryBackend) :
    Result Unit × InMemoryBackend :=
  match backend.messages.lookup id with
  | some _ => (.ok (), { messages := backend.messages.erase id })
  | none => (.error (notFound id), backend)

theorem lookup_updateFlags (id other : MessageId) (flags : List MessageFlag)
    (backend : InMemoryBackend) :
    (backend.updateFlags id flags).2.messages.lookup other =
      if other = id then
        (backend.messages.lookup id).map fun entry =>
          { entry with metadata := { entry.metadata with flags } }
      else backend.messages.lookup other := by
  rw [updateFlags]
  cases hentry : backend.messages.lookup id with
  | some entry => exact HashMap.lookup_insert_eq
  | none =>
      by_cases hid : other = id
      · rw [if_pos hid, hid]
        exact hentry
      · rw [if_neg hid]

theorem lookup_deleteMessage (id other : MessageId) (backend : InMemoryBackend) :
    (backend.deleteMessage id).2.messages.lookup other =
      if other = id then none else backend.messages.lookup other := by
  rw [deleteMessage]
  cases hentry : backend.messages.lookup id with
  | some entry => exact HashMap.lookup_erase_eq
  | none =>
      by_cases hid : other = id
      · rw [if_pos hid, hid]
        exact hentry
      · rw [if_neg hid]

/-- Removes all messages of a mailbox. -/
def removeMessagesForMailbox (username mailbox : String) (backend : InMemoryBackend) :
    Result Unit × InMemoryBackend :=
  (.ok (), { messages := backend.messages.retain fun _ entry => !decide (entry.In username mailbox) })

def getMessagePath (id : MessageId) (backend : InMemoryBackend) : Option String :=
  (backend.messages.lookup id).map MessageEntry.path

/-- The entries `get_message_path_by_uid` accepts, in the order of an iteration. -/
def candidates (order : HashOrder MessageId MessageEntry) (iteration : Nat)
    (username mailbox : String) (uid : Uid) (backend : InMemoryBackend) : List MessageEntry :=
  ((order.arrange iteration backend.messages.entries).map Sigma.snd).filter fun entry =>
    entry.username == username && entry.metadata.mailbox == mailbox && entry.metadata.uid == uid

/-- `get_message_path_by_uid`: the path of the first candidate the iteration meets. -/
def getMessagePathByUid (order : HashOrder MessageId MessageEntry) (iteration : Nat)
    (username mailbox : String) (uid : Uid) (backend : InMemoryBackend) : Option String :=
  (backend.candidates order iteration username mailbox uid).head?.map MessageEntry.path

/-- The entries of a mailbox, in the order of an iteration. -/
def entriesOf (order : HashOrder MessageId MessageEntry) (iteration : Nat)
    (username mailbox : String) (backend : InMemoryBackend) : List MessageEntry :=
  ((order.arrange iteration backend.messages.entries).map Sigma.snd).filter fun entry =>
    entry.username == username && entry.metadata.mailbox == mailbox

def listMessagePaths (order : HashOrder MessageId MessageEntry) (iteration : Nat)
    (username mailbox : String) (backend : InMemoryBackend) : List String :=
  (backend.entriesOf order iteration username mailbox).map MessageEntry.path

end InMemoryBackend

def matchesQuery (message : IndexedMessage) : SearchQuery → Bool
  | .all => true
  | .fromHeader s => containsText message.fromHeader s
  | .toHeader s => containsText message.toHeader s
  | .subject s => containsText message.subject s
  | .body s => containsText message.bodyPreview s
  | .text s =>
      containsText message.fromHeader s || containsText message.toHeader s ||
        containsText message.subject s || containsText message.bodyPreview s
  | .uid uids => uids.contains message.uid
  | .sequence _ => false
  | .seen => message.flags.contains .seen
  | .unseen => !message.flags.contains .seen
  | .flagged => message.flags.contains .flagged
  | .unflagged => !message.flags.contains .flagged
  | .deleted => message.flags.contains .deleted
  | .undeleted => !message.flags.contains .deleted
  | .and first second => matchesQuery message first && matchesQuery message second
  | .or first second => matchesQuery message first || matchesQuery message second
  | .not query => !matchesQuery message query

namespace InMemoryBackend

/-- `search`: the filter looks at the mailbox and the query at once. -/
def search (order : HashOrder MessageId MessageEntry) (iteration : Nat)
    (username mailbox : String) (query : SearchQuery) (backend : InMemoryBackend) : List String :=
  ((backend.entriesOf order iteration username mailbox).filter fun entry =>
    matchesQuery entry.metadata query).map MessageEntry.path

theorem mem_entriesOf_iff {order : HashOrder MessageId MessageEntry} {iteration : Nat}
    {username mailbox : String} {backend : InMemoryBackend} {entry : MessageEntry} :
    entry ∈ backend.entriesOf order iteration username mailbox ↔
      (∃ id, backend.messages.lookup id = some entry) ∧ entry.In username mailbox := by
  simp only [entriesOf, List.mem_filter, List.mem_map, Bool.and_eq_true, beq_iff_eq,
    MessageEntry.In]
  refine and_congr_left fun _ => ⟨?_, ?_⟩
  · rintro ⟨⟨id, entry⟩, hmem, rfl⟩
    exact ⟨id, HashMap.mem_arrange_iff.mp hmem⟩
  · rintro ⟨id, hlookup⟩
    exact ⟨⟨id, entry⟩, HashMap.mem_arrange_iff.mpr hlookup, rfl⟩

end InMemoryBackend

/-! ## The writer loop of the indexer -/

namespace Indexer

/-- The write commands of the indexer. -/
inductive WriteCommand where
  | addMessage (username mailbox : String) (message : IndexedMessage)
  | updateFlags (id : MessageId) (flags : List MessageFlag)
  | deleteMessage (id : MessageId)
  | removeMessagesForMailbox (username mailbox : String)

/-- What a write is answered with: a path for a message added, nothing else
otherwise. -/
inductive WriteReply where
  | path (result : Result String)
  | unit (result : Result Unit)

/-- One turn of `writer_loop`. -/
def writerStep (backend : InMemoryBackend) : WriteCommand → InMemoryBackend × WriteReply
  | .addMessage username mailbox message =>
      ((backend.addMessage username mailbox message).2,
        .path (backend.addMessage username mailbox message).1)
  | .updateFlags id flags =>
      ((backend.updateFlags id flags).2, .unit (backend.updateFlags id flags).1)
  | .deleteMessage id => ((backend.deleteMessage id).2, .unit (backend.deleteMessage id).1)
  | .removeMessagesForMailbox username mailbox =>
      ((backend.removeMessagesForMailbox username mailbox).2,
        .unit (backend.removeMessagesForMailbox username mailbox).1)

end Indexer

end Scuttled
