import Scuttled.Events.Delivery
import Scuttled.Index.Keys

/-!
# The index behind the event bus

The event listener of the indexer runs in a task of its own.  It subscribes when
its turn comes, and every event it receives takes it some steps: the registry or
the mapping is asked, a command goes through the writer loop, and the mapping is
brought up to date.  The bus does not wait for any of them, and queries read the
backend in between.
-/

namespace Scuttled

open Rust Foundation

/-! ## The listener step by step -/

/-- The kinds of events `event_listener` subscribes to. -/
def listenerKinds : List EventKind :=
  [.messageCreated, .messageModified, .messageDeleted, .mailboxDeleted]

/-- Where the listener is with an event. -/
inductive ListenerStage where
  | receiving
  | handling (event : Event)
  /-- Its command is on the way to the writer loop. -/
  | writing (event : Event) (command : Indexer.WriteCommand)
  /-- The reply is there. -/
  | noting (event : Event) (command : Indexer.WriteCommand)

/-- The event the listener is at. -/
def ListenerStage.event? : ListenerStage → Option Event
  | .receiving => none
  | .handling event => some event
  | .writing event _ => some event
  | .noting event _ => some event

/-- The bus, the registry, the index and its listener.  For the statements only, it
is noted which identifiers were drawn for what, which event `publish_sync` is at and
whether its mailbox was registered, whether the event at hand goes through, and the
last that did. -/
structure IndexedBus where
  bus : Bus
  subscription : Option (SubscriptionId × Nat)
  registry : MailboxState
  indexer : Indexer
  stage : ListenerStage
  drawn : List Received
  calling : Option (Event × Bool)
  complete : Bool
  handled : Option Event

inductive IndexedBusEvent where
  /-- The bus or another subscriber goes on. -/
  | bus (move : BusMove)
  /-- The bus serves the `subscribe` of the listener. -/
  | listen (id : SubscriptionId)
  | receive
  | handle (messageId : MessageId)
  /-- The writer loop serves the listener. -/
  | write
  | note
  /-- The registry serves somebody. -/
  | serve (command : WriteCommand)

/-- What can be seen of the bus: an event is published, and `publish_sync` returns. -/
inductive BusHappening where
  | published (event : Event)
  | replied (event : Event) (registered : Bool)

/-- The queue whose receiver is used. -/
def BusMove.receiver? : BusMove → Option Nat
  | .take queue => some queue
  | .close queue => some queue
  | _ => none

namespace IndexedBus

/-- `create_inmemory_index_with_eventbus` has returned; its tasks did not run so far. -/
def new (registry : MailboxState) : IndexedBus where
  bus := .new
  subscription := none
  registry
  indexer := .new
  stage := .receiving
  drawn := []
  calling := none
  complete := false
  handled := none

/-- The queue the listener has the receiver of. -/
def queue? (system : IndexedBus) : Option Nat := system.subscription.map Prod.snd

/-- The entry an identifier has in the index. -/
def entry (system : IndexedBus) (id : MessageId) : Option MessageEntry :=
  system.indexer.backend.messages.lookup id

/-- The identifier that is mapped for a message. -/
def mapped (system : IndexedBus) (key : MessageKey) : Option MessageId :=
  system.indexer.uniqueIdMapping.lookup key.path

/-- The mailbox of the event is registered, if it announces a message. -/
def registered (event : Event) (system : IndexedBus) : Bool :=
  match event with
  | .messageCreated created =>
      (system.registry.mailboxes.lookup (created.username, created.mailbox)).isSome
  | _ => true

/-- The mapping names every entry of a message. -/
def NamesAll (key : MessageKey) (system : IndexedBus) : Prop :=
  ∀ entry ∈ system.indexer.backend.messages.entries, originOf entry.1 system.drawn = some key →
    system.mapped key = some entry.1

instance (key : MessageKey) (system : IndexedBus) : Decidable (system.NamesAll key) := by
  unfold NamesAll
  infer_instance

/-- The listener is done with an event. -/
def finish (event : Event) (system : IndexedBus) : IndexedBus :=
  { system with
    stage := .receiving
    handled := if system.complete then some event else none }

/-- The bus goes on.  Nobody else has the receiver of the listener. -/
def moveBus (order : HashOrder SubscriptionId Subscriber) (move : BusMove) (system : IndexedBus) :
    IndexedBus × List BusHappening :=
  if move.receiver?.isSome ∧ move.receiver? = system.queue? then (system, [])
  else
    match busStep order system.bus move with
    | none => (system, [])
    | some bus =>
        match move with
        | .publish event => ({ system with bus, calling := none }, [.published event])
        | .publishSync event =>
            ({ system with bus, calling := some (event, system.registered event) },
              [.published event])
        | .reply =>
            ({ system with bus, calling := none },
              system.calling.toList.map fun call => .replied call.1 call.2)
        | _ => ({ system with bus }, [])

def listen (id : SubscriptionId) (system : IndexedBus) : IndexedBus :=
  match system.subscription, system.bus.phase with
  | none, .receiving =>
      { system with
        bus := system.bus.subscribe id listenerKinds .async
        subscription := some (id, system.bus.opened) }
  | _, _ => system

/-- `event_rx.recv()`. -/
def receive (system : IndexedBus) : IndexedBus :=
  match system.subscription, system.stage with
  | some (_, queue), .receiving =>
      match (system.bus.queues queue).recv with
      | some (delivery, rest) =>
          { system with
            bus := { system.bus with queues := Function.update system.bus.queues queue rest }
            stage := .handling delivery.event
            handled := none }
      | none => system
  | _, _ => system

/-- What the listener does with an event up to its command for the writer loop.
`messageId` is the identifier `MessageId::new` would yield. -/
def handle (messageId : MessageId) (system : IndexedBus) : IndexedBus :=
  match system.stage with
  | .handling event =>
      match event with
      | .messageCreated created =>
          match system.registry.getNextUid created.username created.mailbox with
          | (.error _, registry) => finish event { system with registry, complete := false }
          | (.ok uid, registry) =>
              { system with
                registry
                stage := .writing event (.addMessage created.username created.mailbox
                  (ListenerState.indexed created messageId uid))
                drawn := system.drawn ++ [(event, messageId)]
                complete := true }
      | .messageModified username mailbox uniqueId flags =>
          match system.mapped ⟨username, mailbox, uniqueId⟩ with
          | some id =>
              { system with stage := .writing event (.updateFlags id flags), complete := true }
          | none => finish event { system with complete := true }
      | .messageDeleted username mailbox uniqueId =>
          let key : MessageKey := ⟨username, mailbox, uniqueId⟩
          let complete : Bool := system.NamesAll key
          match system.mapped key with
          | some id =>
              { system with
                indexer := { system.indexer with
                  uniqueIdMapping := system.indexer.uniqueIdMapping.erase key.path }
                stage := .writing event (.deleteMessage id)
                complete }
          | none => finish event { system with complete }
      | .mailboxDeleted username mailbox =>
          { system with
            stage := .writing event (.removeMessagesForMailbox username mailbox)
            complete := true }
      | .mailboxCreated _ _ | .mailboxRenamed _ _ _ => finish event { system with complete := true }
  | _ => system

/-- The writer loop serves the command of the listener. -/
def write (system : IndexedBus) : IndexedBus :=
  match system.stage with
  | .writing event command =>
      { system with
        indexer := (system.indexer.write command).2
        stage := .noting event command }
  | _ => system

/-- What the listener does after the reply of the writer loop. -/
def note (system : IndexedBus) : IndexedBus :=
  match system.stage with
  | .noting event command =>
      let mapping := system.indexer.uniqueIdMapping
      let uniqueIdMapping :=
        match event, command with
        | .messageCreated created, .addMessage _ _ message => mapping.insert created.path message.id
        | .mailboxDeleted username mailbox, _ =>
            mapping.retain fun key _ => !startsWith key (username ++ "/" ++ mailbox ++ "/")
        | _, _ => mapping
      finish event { system with indexer := { system.indexer with uniqueIdMapping } }
  | _ => system

/-- One step of the bus, the listener, the writer loop or the registry.  What is not
due does not happen. -/
def step (order : HashOrder SubscriptionId Subscriber) (system : IndexedBus) :
    IndexedBusEvent → IndexedBus × List BusHappening
  | .bus move => system.moveBus order move
  | .listen id => (system.listen id, [])
  | .receive => (system.receive, [])
  | .handle messageId => (system.handle messageId, [])
  | .write => (system.write, [])
  | .note => (system.note, [])
  | .serve command => ({ system with registry := (writerStep system.registry command).1 }, [])

def machine (order : HashOrder SubscriptionId Subscriber) :
    Machine IndexedBus IndexedBusEvent (List BusHappening) where
  step := step order

end IndexedBus

/-! ## What is promised -/

/-- The event has to show in the index once `publish_sync` has returned. -/
def Event.Shows : Event → Prop
  | .messageCreated _ | .messageDeleted _ _ _ | .mailboxDeleted _ _ => True
  | _ => False

def Event.Overrides (later : Event) : Event → Prop
  | .messageCreated created =>
      later = .messageDeleted created.username created.mailbox created.uniqueId ∨
        later = .mailboxDeleted created.username created.mailbox
  | .messageDeleted username mailbox uniqueId =>
      ∃ created, later = .messageCreated created ∧ created.key = ⟨username, mailbox, uniqueId⟩
  | .mailboxDeleted username mailbox =>
      ∃ created, later = .messageCreated created ∧ created.username = username ∧
        created.mailbox = mailbox
  | _ => False

namespace IndexedBus

/-- The message is found by every query it matches. -/
def Finds (order : HashOrder MessageId MessageEntry) (backend : InMemoryBackend)
    (username mailbox : String) (message : IndexedMessage) : Prop :=
  let path := InMemoryBackend.makeMessagePath username mailbox message.id
  ∀ iteration, path ∈ backend.listMessagePaths order iteration username mailbox ∧
    (∀ query, matchesQuery message query → path ∈ backend.search order iteration username mailbox
      query) ∧
    backend.getMessagePathByUid order iteration username mailbox message.uid = some path

/-- No query of the mailbox answers with the path. -/
def Misses (order : HashOrder MessageId MessageEntry) (backend : InMemoryBackend)
    (username mailbox path : String) : Prop :=
  ∀ iteration, path ∉ backend.listMessagePaths order iteration username mailbox ∧
    (∀ query, path ∉ backend.search order iteration username mailbox query) ∧
    ∀ uid, backend.getMessagePathByUid order iteration username mailbox uid ≠ some path

/-- The queries reflect an event: the message is there, or none that was drawn for its
key, or the mailbox is empty. -/
def Answers (order : HashOrder MessageId MessageEntry) (system : IndexedBus) : Event → Prop
  | .messageCreated created =>
      ∃ id uid flags, originOf id system.drawn = some created.key ∧
        Finds order system.indexer.backend created.username created.mailbox
          { ListenerState.indexed created id uid with flags }
  | .messageDeleted username mailbox uniqueId =>
      ∀ id, originOf id system.drawn = some ⟨username, mailbox, uniqueId⟩ →
        Misses order system.indexer.backend username mailbox
          (InMemoryBackend.makeMessagePath username mailbox id)
  | .mailboxDeleted username mailbox =>
      ∀ path, Misses order system.indexer.backend username mailbox path
  | _ => True

/-- Every event that `publish_sync` returned for is reflected, unless a later one says
otherwise; a message, if its mailbox was registered. -/
def UpToDate (order : HashOrder MessageId MessageEntry) (history : List BusHappening)
    (system : IndexedBus) : Prop :=
  ∀ past event since, history = past ++ .replied event true :: since → event.Shows →
    (∀ later, .published later ∈ since → ¬ later.Overrides event) → system.Answers order event

/-- The deliveries the listener has not received. -/
def unread (system : IndexedBus) : List Event :=
  match system.queue? with
  | some queue => (system.bus.queues queue).items.map EventDelivery.event
  | none => []

/-- What keeps the index up to date.  The listener has subscribed before
`publish_sync` is served, has room for the event, and is done with it when the reply
is sent.  When it handles the event, the mailbox is still registered, or the mapping
names every entry of the message.  Identifiers and UIDs are drawn afresh, and what is
mapped for a message is an entry of its own. -/
def Prompt (system : IndexedBus) : IndexedBusEvent → Prop
  | .bus (.publishSync event) => event.Shows → system.bus.phase = .receiving →
      ∃ id queue, system.subscription = some (id, queue) ∧
        system.bus.subscribers.lookup id = some ⟨listenerKinds, .async, queue⟩
  | .bus .tryNext => ∀ sync event id subscriber remaining delivered ackReceivers,
      system.bus.phase =
        .publishing sync event (⟨id, subscriber⟩ :: remaining) delivered ackReceivers →
      system.queue? = some subscriber.sender → event.kind ∈ subscriber.kinds →
      system.calling.isSome → event.Shows →
        (system.bus.queues subscriber.sender).items.length < subscriberCapacity
  | .bus .reply => ∀ event, system.calling = some (event, true) → event.Shows →
      system.stage = .receiving ∧ system.unread = []
  | .handle messageId =>
      match system.stage with
      | .handling (.messageCreated created) =>
          (∀ received ∈ system.drawn, received.2 ≠ messageId) ∧
            (system.calling = some (.messageCreated created, true) →
              system.registered (.messageCreated created)) ∧
            ∀ uid registry, system.registry.getNextUid created.username created.mailbox =
                (.ok uid, registry) →
              ∀ id entry, system.entry id = some entry →
                entry.In created.username created.mailbox → entry.metadata.uid ≠ uid
      | .handling (.messageDeleted username mailbox uniqueId) =>
          (system.calling = some (.messageDeleted username mailbox uniqueId, true) →
            system.NamesAll ⟨username, mailbox, uniqueId⟩) ∧
            ∀ id entry, system.mapped ⟨username, mailbox, uniqueId⟩ = some id →
              system.entry id = some entry →
                originOf id system.drawn = some ⟨username, mailbox, uniqueId⟩
      | _ => True
  | _ => True

end IndexedBus

end Scuttled
