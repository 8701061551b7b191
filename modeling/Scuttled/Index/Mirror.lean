import Scuttled.Index.View

/-!
# The index as a mirror of a Maildir

Operations on the files of a mailbox are reported by `notify`, translated by the
watcher, and received by the listener of the index, each in its own time.  What is
on the way is a list of changes; applied to what the index shows they lead to what
the files are.
-/

namespace Scuttled

open Rust Foundation

/-! ## Files, what is on the way, and the index -/

/-- The files of the mailbox, the operations that were reported and not handled,
the events that were published and not received, and the index. -/
structure Mirroring where
  files : Finset MessageFile
  reported : List FileOperation
  published : List Event
  indexing : Indexing

/-- What happens next.  When the watcher handles a report it finds some file system,
and `mailparse` and the clock as they are. -/
inductive MirrorMove where
  | operate (operation : FileOperation)
  | handle (env : WatcherEnv) (tree : FileTree)
  | receive (messageId : MessageId)
  | add
  | serve (command : WriteCommand)

def Mirroring.new (registry : InMemoryMailboxes) : Mirroring where
  files := ∅
  reported := []
  published := []
  indexing := .new registry

/-- One step of the files, the watcher or the index. -/
def mirrorStep (engine : RegexEngine) (order : HashOrder (String × String) MailboxInfo)
    (watched : WatchedMailbox) (state : Mirroring) : MirrorMove → Option Mirroring
  | .operate operation =>
      if operation.Possible state.files then
        some { state with
          files := operation.apply state.files
          reported := state.reported ++ [operation] }
      else none
  | .handle env tree =>
      match state.reported with
      | [] => none
      | operation :: reported =>
          some { state with
            reported
            published := state.published ++
              handleFilesystemEvent env tree watched.root (operation.notification watched) }
  | .receive messageId =>
      match state.published with
      | [] => none
      | event :: published =>
          (listenerStep engine order state.indexing (.receive event messageId)).map fun indexing =>
            { state with published, indexing }
  | .add => (listenerStep engine order state.indexing .add).map fun indexing =>
      { state with indexing }
  | .serve command => (listenerStep engine order state.indexing (.serve command)).map fun indexing =>
      { state with indexing }

/-- What the mirror takes for granted: a file is still there when its creation is
handled, the mailbox is registered when an event is received, and identifiers are
drawn afresh. -/
def Granted (watched : WatchedMailbox) (state : Mirroring) : MirrorMove → Prop
  | .handle env tree => ∀ operation ∈ state.reported.head?, operation.Readable watched env tree
  | .receive messageId =>
      (state.indexing.listener.registry.state.mailboxes.lookup
        (watched.username, watched.mailbox)).isSome ∧
        ∀ received ∈ state.indexing.log, received.2 ≠ messageId
  | .operate _ | .add | .serve _ => True

/-- Every operation is one the index can follow. -/
def CanFollow (state : Mirroring) : MirrorMove → Prop
  | .operate operation => operation.Followed state.files
  | _ => True

instance (watched : WatchedMailbox) (state : Mirroring) (move : MirrorMove) :
    Decidable (Granted watched state move) := by
  unfold Granted
  split <;> infer_instance

instance (state : Mirroring) (move : MirrorMove) : Decidable (CanFollow state move) := by
  unfold CanFollow
  split <;> infer_instance

/-- Every report was handled, and every event received and dealt with. -/
def Mirroring.Settled (state : Mirroring) : Prop :=
  state.reported = [] ∧ state.published = [] ∧ state.indexing.listener.phase = .receiving

instance (state : Mirroring) : Decidable state.Settled :=
  inferInstanceAs (Decidable (_ ∧ _ ∧ _))

/-- What the path of a message file says the index has to hold. -/
def ParsedMessage.key (parsed : ParsedMessage) : MessageKey :=
  ⟨parsed.username, parsed.mailbox, parsed.uniqueId⟩

/-- The index holds exactly one entry for the unique identifier of each file in `new`
or `cur`, with the flags of the file, and no entry for any other. -/
structure Mirroring.Mirrors (watched : WatchedMailbox) (state : Mirroring) : Prop where
  one : ∀ file ∈ state.files, ∀ parsed,
    MaildirFormat.parseMessagePath (file.path watched) watched.root = some parsed →
      ∃ id entry, state.indexing.entry id = some entry ∧
        originOf id state.indexing.log = some parsed.key ∧
        entry.metadata.flags = parsed.eventFlags ∧
        ∀ other otherEntry, state.indexing.entry other = some otherEntry →
          originOf other state.indexing.log = some parsed.key → other = id
  only : ∀ id entry, state.indexing.entry id = some entry →
    ∃ file ∈ state.files, ∃ parsed,
      MaildirFormat.parseMessagePath (file.path watched) watched.root = some parsed ∧
        originOf id state.indexing.log = some parsed.key

/-! ## What is on the way -/

variable {watched : WatchedMailbox} {view : MailboxView}

namespace Mirroring

/-- The message the listener waits for. -/
def adding (state : Mirroring) : List Change :=
  match state.indexing.listener.phase with
  | .receiving => []
  | .adding created message => [.added (created.uniqueId, message.flags)]

/-- What the index shows, what is on the way, and what it leads to. -/
structure Underway (watched : WatchedMailbox) (state : Mirroring) (view later : MailboxView)
    (waiting : List Change) : Prop where
  shows : state.indexing.Shows watched view
  told : List.Forall₂ watched.Tells state.published waiting
  leads : (state.adding ++ (waiting ++ state.reported.flatMap FileOperation.changes)).foldlM
    Change.apply view = some later
  drawn : ∀ created message, state.indexing.listener.phase = .adding created message →
    created.path = (watched.key created.uniqueId).path ∧
      originOf message.id state.indexing.log = some (watched.key created.uniqueId)

theorem underway_new (registry : InMemoryMailboxes) :
    (new registry).Underway watched (fun _ => none) (fun _ => none) [] where
  shows := shows_new registry
  told := .nil
  leads := rfl
  drawn := nofun

variable {state : Mirroring} {later : MailboxView} {waiting : List Change}

theorem Underway.handle (hunderway : state.Underway watched view later waiting)
    {operation : FileOperation} {reported : List FileOperation}
    (hreported : state.reported = operation :: reported) {env : WatcherEnv} {tree : FileTree}
    (hreadable : operation.Readable watched env tree) :
    Underway watched
      { state with
        reported
        published := state.published ++
          handleFilesystemEvent env tree watched.root (operation.notification watched) }
      view later (waiting ++ operation.changes) where
  shows := hunderway.shows
  told := List.rel_append hunderway.told (tells_of_handled hreadable)
  leads := by
    have hleads := hunderway.leads
    rw [hreported, List.flatMap_cons, ← List.append_assoc waiting] at hleads
    exact hleads
  drawn := hunderway.drawn

theorem draw_of_granted {messageId : MessageId} (hgranted : Granted watched state (.receive messageId))
    {created : CreatedMessage} {uniqueId : String} (hkey : created.key = watched.key uniqueId)
    (engine : RegexEngine) (order : HashOrder (String × String) MailboxInfo) :
    ∃ registry message,
      state.indexing.listener.draw (some (inMemoryMailboxes engine order)) created messageId =
        { state.indexing.listener with registry, phase := .adding created message } ∧
      message.id = messageId ∧ message.flags = created.flags ∧
      originOf message.id (state.indexing.log ++ [(.messageCreated created, messageId)]) =
        some (watched.key uniqueId) := by
  obtain ⟨hregistered, hfresh⟩ := hgranted
  obtain ⟨husername, hmailbox, -⟩ := MessageKey.mk.inj hkey
  rw [← husername, ← hmailbox] at hregistered
  obtain ⟨registry, message, hdraw, hid, hflags⟩ :=
    ListenerState.draw_of_registered hregistered messageId engine order
  refine ⟨registry, message, hdraw, hid, hflags, ?_⟩
  rw [originOf_concat, hid, originOf_eq_none _ hfresh, Option.none_or, ← hkey]
  exact if_pos rfl

/-- The listener receives an event: it waits for a message to add, or has changed what
the index shows. -/
theorem Underway.receive (hunderway : state.Underway watched view later waiting) {event : Event}
    {published : List Event} (hpublished : state.published = event :: published)
    {messageId : MessageId} (hgranted : Granted watched state (.receive messageId))
    {engine : RegexEngine} {order : HashOrder (String × String) MailboxInfo} {indexing : Indexing}
    (hstep : listenerStep engine order state.indexing (.receive event messageId) = some indexing) :
    ∃ view' waiting', Underway watched { state with published, indexing } view' later waiting' := by
  obtain ⟨listener, hlistener, rfl⟩ := Option.map_eq_some_iff.mp hstep
  have htold := hunderway.told
  rw [hpublished] at htold
  cases hphase : state.indexing.listener.phase with
  | adding created message =>
      simp only [ListenerState.receive, hphase] at hlistener
      cases hlistener
  | receiving =>
      have hleads := hunderway.leads
      rw [adding, hphase, List.nil_append] at hleads
      cases htold with
      | @cons _ change _ waiting htells htold =>
          simp only [ListenerState.receive, hphase] at hlistener
          cases htells with
          | @created created hkey hpath =>
              obtain rfl := Option.some.inj hlistener
              obtain ⟨registry, message, hdraw, -, hflags, horigin⟩ :=
                draw_of_granted hgranted hkey engine order
              refine ⟨view, waiting, ?_, htold, ?_, fun other later hadding => ?_⟩
              · rw [hdraw]
                exact (hunderway.shows.logged _).of_indexer rfl
              · simp only [adding, hdraw, hflags]
                exact hleads
              · rw [hdraw] at hadding
                obtain ⟨rfl, rfl⟩ := ListenerPhase.adding.inj hadding
                exact ⟨hpath.trans (congrArg MessageKey.path hkey), horigin⟩
          | modified uniqueId flags =>
              obtain rfl := Option.some.inj hlistener
              refine ⟨view.flag (some (uniqueId, flags)), waiting,
                ((hunderway.shows.flagged uniqueId flags).logged _).of_indexer rfl, htold, ?_, (by simp)⟩
              exact hleads
          | deleted uniqueId flags =>
              obtain rfl := Option.some.inj hlistener
              refine ⟨Function.update view uniqueId none, waiting,
                ((hunderway.shows.removed uniqueId).logged _).of_indexer rfl, htold, ?_, (by simp)⟩
              exact hleads

theorem Underway.add (hunderway : state.Underway watched view later waiting)
    {engine : RegexEngine} {order : HashOrder (String × String) MailboxInfo} {indexing : Indexing}
    (hstep : listenerStep engine order state.indexing .add = some indexing) :
    ∃ view', Underway watched { state with indexing } view' later waiting := by
  obtain ⟨listener, hlistener, rfl⟩ := Option.map_eq_some_iff.mp hstep
  simp only [ListenerState.add] at hlistener
  cases hphase : state.indexing.listener.phase with
  | receiving =>
      rw [hphase] at hlistener
      cases hlistener
  | adding created message =>
      rw [hphase] at hlistener
      obtain rfl := Option.some.inj hlistener
      obtain ⟨hpath, horigin⟩ := hunderway.drawn created message hphase
      have hleads := hunderway.leads
      simp only [adding, hphase, List.cons_append, List.nil_append, List.foldlM_cons] at hleads
      obtain ⟨view', hview', hrest⟩ := Option.bind_eq_some_iff.mp hleads
      simp only [Change.apply] at hview'
      split at hview'
      · cases hview'
      · obtain rfl := Option.some.inj hview'
        refine ⟨_, hunderway.shows.added hpath horigin (Option.not_isSome_iff_eq_none.mp ‹_›),
          hunderway.told, hrest, (by simp)⟩

theorem Underway.operate (hunderway : state.Underway watched view later waiting)
    {operation : FileOperation} {next : MailboxView}
    (hnext : operation.changes.foldlM Change.apply later = some next) :
    Underway watched
      { state with
        files := operation.apply state.files
        reported := state.reported ++ [operation] }
      view next waiting where
  shows := hunderway.shows
  told := hunderway.told
  leads := by
    have hleads := hunderway.leads
    simp only [List.flatMap_append, ← List.append_assoc, List.flatMap_singleton] at hleads ⊢
    rw [List.foldlM_append]
    exact Option.bind_eq_some_iff.mpr ⟨later, hleads, hnext⟩
  drawn := hunderway.drawn

/-- Whatever happens but an operation, what is on the way leads to the same. -/
theorem Underway.step (hunderway : state.Underway watched view later waiting)
    {engine : RegexEngine} {order : HashOrder (String × String) MailboxInfo} {move : MirrorMove}
    {state' : Mirroring} (hgranted : Granted watched state move)
    (hmove : ∀ operation, move ≠ .operate operation)
    (hstep : mirrorStep engine order watched state move = some state') :
    ∃ view' waiting', state'.Underway watched view' later waiting' ∧
      state'.files = state.files := by
  cases move with
  | operate operation => exact absurd rfl (hmove operation)
  | handle env tree =>
      simp only [mirrorStep] at hstep
      split at hstep
      · cases hstep
      · rename_i operation reported hreported
        obtain rfl := Option.some.inj hstep
        have hreadable : operation.Readable watched env tree :=
          hgranted operation (by rw [hreported]; rfl)
        exact ⟨view, _, hunderway.handle hreported hreadable, rfl⟩
  | receive messageId =>
      simp only [mirrorStep] at hstep
      split at hstep
      · cases hstep
      · rename_i event published hpublished
        obtain ⟨indexing, hindexing, rfl⟩ := Option.map_eq_some_iff.mp hstep
        obtain ⟨view', waiting', hunderway'⟩ := hunderway.receive hpublished hgranted hindexing
        exact ⟨view', waiting', hunderway', rfl⟩
  | add =>
      obtain ⟨indexing, hindexing, rfl⟩ := Option.map_eq_some_iff.mp hstep
      obtain ⟨view', hunderway'⟩ := hunderway.add hindexing
      exact ⟨view', waiting, hunderway', rfl⟩
  | serve command =>
      obtain rfl := Option.some.inj hstep
      exact ⟨view, waiting, ⟨hunderway.shows.of_indexer rfl, hunderway.told, hunderway.leads,
        hunderway.drawn⟩, rfl⟩

/-- What is on the way leads to what the files are. -/
def Synced (watched : WatchedMailbox) (state : Mirroring) : Prop :=
  ∃ view later waiting, state.Underway watched view later waiting ∧ later.Mirrors state.files

theorem Synced.step (hsynced : state.Synced watched) {engine : RegexEngine}
    {order : HashOrder (String × String) MailboxInfo} {move : MirrorMove} {state' : Mirroring}
    (hgranted : Granted watched state move) (hfollow : CanFollow state move)
    (hstep : mirrorStep engine order watched state move = some state') : state'.Synced watched := by
  obtain ⟨view, later, waiting, hunderway, hmirrors⟩ := hsynced
  by_cases hmove : ∃ operation, move = .operate operation
  · obtain ⟨operation, rfl⟩ := hmove
    simp only [mirrorStep] at hstep
    split at hstep
    · rename_i hpossible
      obtain rfl := Option.some.inj hstep
      obtain ⟨next, hnext, hmirrors'⟩ := (hmirrors.operate_iff hpossible).mpr hfollow
      exact ⟨view, next, waiting, hunderway.operate hnext, hmirrors'⟩
    · cases hstep
  · obtain ⟨view', waiting', hunderway', hfiles⟩ :=
      hunderway.step hgranted (not_exists.mp hmove) hstep
    refine ⟨view', later, waiting', hunderway', ?_⟩
    rw [hfiles]
    exact hmirrors

theorem Underway.eq_of_settled (hunderway : state.Underway watched view later waiting)
    (hsettled : state.Settled) : view = later := by
  obtain ⟨hreported, hpublished, hphase⟩ := hsettled
  have htold := hunderway.told
  rw [hpublished] at htold
  obtain rfl := List.forall₂_nil_left_iff.mp htold
  have hleads := hunderway.leads
  rw [adding, hphase, hreported] at hleads
  exact Option.some.inj hleads

theorem key_of_parse {file : MessageFile} {parsed : ParsedMessage}
    (hparsed : MaildirFormat.parseMessagePath (file.path watched) watched.root = some parsed) :
    parsed.key = watched.key parsed.uniqueId := by
  obtain ⟨-, husername, hmailbox⟩ := MessageFile.message_of_parse hparsed
  rw [ParsedMessage.key, WatchedMailbox.key, husername, hmailbox]

theorem shown_iff {indexing : Indexing} (hshows : indexing.Shows watched view) {uniqueId : String}
    {flags : List MessageFlag} :
    view uniqueId = some flags ↔ ∃ id entry, indexing.entry id = some entry ∧
      originOf id indexing.log = some (watched.key uniqueId) ∧ entry.metadata.flags = flags := by
  constructor
  · intro hview
    obtain ⟨id, entry, -, hentry, horigin, hflags⟩ := hshows.shown uniqueId flags hview
    exact ⟨id, entry, hentry, horigin, hflags⟩
  · rintro ⟨id, entry, hentry, horigin, hflags⟩
    obtain ⟨other, hother, hmapped⟩ := hshows.only id entry hentry
    obtain rfl := key_inj.mp (Option.some.inj (hother.symm.trans horigin))
    obtain ⟨shownFlags, -, hview, -⟩ := hshows.of_mapped hmapped
    obtain ⟨id', entry', hmapped', hentry', -, hflags'⟩ := hshows.shown other shownFlags hview
    obtain rfl := Option.some.inj (hmapped'.symm.trans hmapped)
    obtain rfl := Option.some.inj (hentry'.symm.trans hentry)
    rw [hview, ← hflags, ← hflags']

/-- Once nothing is on the way, the index shows what the files are. -/
theorem Underway.mirrors_iff (hunderway : state.Underway watched view later waiting)
    (hsettled : state.Settled) : state.Mirrors watched ↔ later.Mirrors state.files := by
  obtain rfl := hunderway.eq_of_settled hsettled
  have hshows := hunderway.shows
  constructor
  · intro hmirrors
    refine ⟨fun file hfile message hmessage => ?_, fun uniqueId hview => ?_⟩
    · obtain ⟨parsed, hparsed, -, -, rfl⟩ :=
        (MessageFile.message_eq_some_iff watched).mp hmessage
      obtain ⟨id, entry, hentry, horigin, hflags, -⟩ := hmirrors.one file hfile parsed hparsed
      rw [key_of_parse hparsed] at horigin
      exact (shown_iff hshows).mpr ⟨id, entry, hentry, horigin, hflags⟩
    · obtain ⟨flags, hview⟩ := Option.isSome_iff_exists.mp hview
      obtain ⟨id, entry, hentry, horigin, -⟩ := (shown_iff hshows).mp hview
      obtain ⟨file, hfile, parsed, hparsed, hkey⟩ := hmirrors.only id entry hentry
      refine ⟨file, hfile, ?_⟩
      rw [key_of_parse hparsed] at hkey
      obtain rfl := key_inj.mp (Option.some.inj (hkey.symm.trans horigin))
      exact MailboxView.uniqueId_of_message (MessageFile.message_of_parse hparsed).1
  · intro hmirrors
    refine ⟨fun file hfile parsed hparsed => ?_, fun id entry hentry => ?_⟩
    · have hmessage := (MessageFile.message_of_parse hparsed).1
      obtain ⟨id, entry, hmapped, hentry, horigin, hflags⟩ :=
        hshows.shown _ _ (hmirrors.shown file hfile _ hmessage)
      rw [key_of_parse hparsed]
      refine ⟨id, entry, hentry, horigin, hflags, fun other otherEntry hother hsame => ?_⟩
      obtain ⟨uniqueId, hown, hmapped'⟩ := hshows.only other otherEntry hother
      obtain rfl := key_inj.mp (Option.some.inj (hown.symm.trans hsame))
      exact Option.some.inj (hmapped'.symm.trans hmapped)
    · obtain ⟨uniqueId, horigin, hmapped⟩ := hshows.only id entry hentry
      obtain ⟨flags, -, hview, -⟩ := hshows.of_mapped hmapped
      obtain ⟨file, hfile, hown⟩ := hmirrors.only uniqueId (by rw [hview]; rfl)
      obtain ⟨fileFlags, hmessage⟩ := MailboxView.exists_message hown
      obtain ⟨parsed, hparsed, -, -, hsame⟩ :=
        (MessageFile.message_eq_some_iff watched).mp hmessage
      refine ⟨file, hfile, parsed, hparsed, ?_⟩
      rw [key_of_parse hparsed, (Prod.mk.inj hsame).1]
      exact horigin

/-! ## Operations the index cannot follow -/

/-- An identifier has an entry, and was drawn for the key. -/
def Holds (indexing : Indexing) (id : MessageId) (key : MessageKey) : Prop :=
  (indexing.entry id).isSome ∧ originOf id indexing.log = some key

/-- A second entry is underway for a key that has one: its file is reported, it is
announced, it is waited for, or it is there. -/
inductive Doubling (key : MessageKey) (id : MessageId) (state : Mirroring) : Prop where
  | reported {file : MessageFile} (hholds : Holds state.indexing id key)
      (hreported : state.reported = [.create file]) (hpublished : state.published = [])
      (hphase : state.indexing.listener.phase = .receiving)
      (huniqueId : file.uniqueId = some key.uniqueId)
  | announced {created : CreatedMessage} (hholds : Holds state.indexing id key)
      (hreported : state.reported = []) (hpublished : state.published = [.messageCreated created])
      (hphase : state.indexing.listener.phase = .receiving) (hkey : created.key = key)
  | awaited {created : CreatedMessage} {message : IndexedMessage}
      (hholds : Holds state.indexing id key) (hreported : state.reported = [])
      (hpublished : state.published = [])
      (hphase : state.indexing.listener.phase = .adding created message)
      (hdrawn : originOf message.id state.indexing.log = some key) (hother : message.id ≠ id)
  | there {other : MessageId} (hholds : Holds state.indexing id key) (hreported : state.reported = [])
      (hpublished : state.published = [])
      (hphase : state.indexing.listener.phase = .receiving)
      (hother : Holds state.indexing other key) (hne : other ≠ id)

/-- The watcher announces the file, and the listener draws an identifier for it and
adds it. -/
theorem Doubling.step {uniqueId : String} {id : MessageId}
    (hdoubling : state.Doubling (watched.key uniqueId) id)
    {engine : RegexEngine} {order : HashOrder (String × String) MailboxInfo} {move : MirrorMove}
    {state' : Mirroring} (hgranted : Granted watched state move)
    (hmove : ∀ operation, move ≠ .operate operation)
    (hstep : mirrorStep engine order watched state move = some state') :
    state'.Doubling (watched.key uniqueId) id := by
  cases move with
  | operate operation => exact absurd rfl (hmove operation)
  | handle env tree =>
      simp only [mirrorStep] at hstep
      split at hstep
      · cases hstep
      · rename_i operation reported hreported
        obtain rfl := Option.some.inj hstep
        have hreadable : operation.Readable watched env tree :=
          hgranted operation (by rw [hreported]; rfl)
        cases hdoubling with
        | @reported file hholds hone hpublished hphase huniqueId =>
            obtain ⟨rfl, rfl⟩ := List.cons.inj (hreported.symm.trans hone)
            obtain ⟨flags, hmessage⟩ := MailboxView.exists_message huniqueId
            have htold := tells_of_handled hreadable
            rw [FileOperation.changes, hmessage] at htold
            obtain ⟨event, htells, hevents⟩ : ∃ event,
                watched.Tells event (.added (uniqueId, flags)) ∧
                  handleFilesystemEvent env tree watched.root
                    (FileOperation.notification watched (.create file)) = [event] := by
              obtain ⟨event, rest, htells, hrest, hevents⟩ := List.forall₂_cons_right_iff.mp htold
              exact ⟨event, htells, hevents.trans (by rw [List.forall₂_nil_right_iff.mp hrest])⟩
            cases htells with
            | @created created hkey hpath =>
                refine .announced hholds rfl ?_ hphase hkey
                rw [hpublished, hevents]
                rfl
        | announced hholds hnone | awaited hholds hnone | there hholds hnone =>
            cases hreported.symm.trans hnone
  | receive messageId =>
      simp only [mirrorStep] at hstep
      split at hstep
      · cases hstep
      · rename_i event published hpublished
        obtain ⟨indexing, hindexing, rfl⟩ := Option.map_eq_some_iff.mp hstep
        cases hdoubling with
        | @announced created hholds hreported hone hphase hkey =>
            obtain ⟨rfl, rfl⟩ := List.cons.inj (hpublished.symm.trans hone)
            obtain ⟨listener, hlistener, rfl⟩ := Option.map_eq_some_iff.mp hindexing
            simp only [ListenerState.receive, hphase] at hlistener
            obtain rfl := Option.some.inj hlistener
            obtain ⟨registry, message, hdraw, hid, -, horigin⟩ :=
              draw_of_granted hgranted hkey engine order
            rw [hdraw]
            refine .awaited ⟨hholds.1, originOf_concat_of_some _ _ hholds.2⟩ hreported rfl rfl
              horigin ?_
            rw [hid]
            exact (ne_of_originOf hholds.2 hgranted.2).symm
        | reported hholds hreported hnone | awaited hholds hreported hnone
        | there hholds hreported hnone => cases hpublished.symm.trans hnone
  | add =>
      obtain ⟨indexing, hindexing, rfl⟩ := Option.map_eq_some_iff.mp hstep
      obtain ⟨listener, hlistener, rfl⟩ := Option.map_eq_some_iff.mp hindexing
      cases hdoubling with
      | @awaited created message hholds hreported hpublished hphase hdrawn hother =>
          simp only [ListenerState.add, hphase] at hlistener
          obtain rfl := Option.some.inj hlistener
          obtain ⟨hentries, -⟩ :=
            state.indexing.listener.indexer.messageCreated_lookup created message
          refine .there ⟨?_, hholds.2⟩ hreported hpublished rfl ⟨?_, hdrawn⟩ hother
          · exact (congrArg Option.isSome ((hentries id).trans (if_neg hother.symm))).trans hholds.1
          · exact congrArg Option.isSome ((hentries message.id).trans (if_pos rfl))
      | reported hholds hreported hpublished hphase | announced hholds hreported hpublished hphase
      | there hholds hreported hpublished hphase =>
          simp only [ListenerState.add, hphase] at hlistener
          cases hlistener
  | serve command =>
      obtain rfl := Option.some.inj hstep
      cases hdoubling with
      | reported hholds hreported hpublished hphase huniqueId =>
          exact .reported hholds hreported hpublished hphase huniqueId
      | announced hholds hreported hpublished hphase hkey =>
          exact .announced hholds hreported hpublished hphase hkey
      | awaited hholds hreported hpublished hphase hdrawn hother =>
          exact .awaited hholds hreported hpublished hphase hdrawn hother
      | there hholds hreported hpublished hphase hother hne =>
          exact .there hholds hreported hpublished hphase hother hne

theorem Doubling.not_mirrors {uniqueId : String} {id : MessageId}
    (hdoubling : state.Doubling (watched.key uniqueId) id) (hsettled : state.Settled) :
    ¬ state.Mirrors watched := by
  obtain ⟨hreported, hpublished, hphase⟩ := hsettled
  cases hdoubling with
  | reported hholds hone => exact nomatch hreported.symm.trans hone
  | announced hholds hnone hone => exact nomatch hpublished.symm.trans hone
  | awaited hholds hnone hempty hadding => exact nomatch hphase.symm.trans hadding
  | @there other hholds hnone hempty hidle hother hne =>
      intro hmirrors
      obtain ⟨entry, hentry⟩ := Option.isSome_iff_exists.mp hholds.1
      obtain ⟨otherEntry, hotherEntry⟩ := Option.isSome_iff_exists.mp hother.1
      obtain ⟨file, hfile, parsed, hparsed, hkey⟩ := hmirrors.only id entry hentry
      obtain ⟨own, -, -, -, -, hunique⟩ := hmirrors.one file hfile parsed hparsed
      have hsame := hkey.symm.trans hholds.2
      exact hne ((hunique other otherEntry hotherEntry (hother.2.trans hsame.symm)).trans
        (hunique id entry hentry hkey).symm)

/-- An operation the index cannot follow, performed when everything is dealt with:
when its events are dealt with as well, the index is no mirror. -/
theorem Synced.not_mirrors (hsynced : state.Synced watched) (hsettled : state.Settled)
    {operation : FileOperation} (hnot : ¬ operation.Followed state.files) {engine : RegexEngine}
    {order : HashOrder (String × String) MailboxInfo} {moves : List MirrorMove}
    {state' : Mirroring}
    (hrun : Steps (guarded (Granted watched) fun source move target =>
      mirrorStep engine order watched source move = some target)
      state (.operate operation :: moves) state')
    (hothers : ∀ other, .operate other ∉ moves) (hsettled' : state'.Settled) :
    ¬ state'.Mirrors watched := by
  obtain ⟨view, later, waiting, hunderway, hmirrors⟩ := hsynced
  obtain rfl := hunderway.eq_of_settled hsettled
  obtain ⟨performed, ⟨-, hstep⟩, hrest⟩ := hrun.exists_of_cons
  simp only [mirrorStep] at hstep
  split at hstep
  · rename_i hpossible
    obtain rfl := Option.some.inj hstep
    have hmove (move : MirrorMove) (hmem : move ∈ moves) (other : FileOperation) :
        move ≠ .operate other := fun hsame => hothers other (hsame ▸ hmem)
    cases hnext : operation.changes.foldlM Change.apply view with
    | some next =>
        let Leads (current : Mirroring) : Prop := ∃ shown waiting,
          current.Underway watched shown next waiting ∧
            current.files = operation.apply state.files
        have hleads : Leads state' := by
          refine hrest.invariant_on ?_ ⟨view, waiting, hunderway.operate hnext, rfl⟩
          rintro source move hmem target ⟨shown, waiting, hsource, hfiles⟩ ⟨hgranted, hstep⟩
          obtain ⟨shown', waiting', htarget, hsame⟩ :=
            hsource.step hgranted (hmove move hmem) hstep
          exact ⟨shown', waiting', htarget, hsame.trans hfiles⟩
        obtain ⟨shown, waiting', hunderway', hfiles⟩ := hleads
        rw [hunderway'.mirrors_iff hsettled', hfiles]
        exact fun hnextMirrors =>
          hnot ((hmirrors.operate_iff hpossible).mp ⟨next, hnext, hnextMirrors⟩)
    | none =>
        obtain ⟨file, message, rfl, hmessage, hshown⟩ :=
          hmirrors.create_of_foldlM_eq_none hpossible hnext
        obtain ⟨flags, hflags⟩ := Option.isSome_iff_exists.mp hshown
        obtain ⟨id, entry, hentry, horigin, -⟩ := (shown_iff hunderway.shows).mp hflags
        obtain ⟨hreported, hpublished, hphase⟩ := hsettled
        have hdoubling : state'.Doubling (watched.key message.1) id := by
          refine hrest.invariant_on (fun source move hmem target hsource hmoved =>
            hsource.step hmoved.1 (hmove move hmem) hmoved.2) (.reported ⟨?_, horigin⟩ ?_ hpublished
              hphase (MailboxView.uniqueId_of_message hmessage))
          · exact congrArg Option.isSome hentry
          · rw [hreported]
            rfl
        exact hdoubling.not_mirrors hsettled'
  · cases hstep

end Mirroring

/--
The index mirrors the Maildir as long as it can follow the operations.  In every
run whose operations it can follow, once every report is handled and every event
dealt with, it holds one entry for the message of each file in `new` or `cur`, with
the flags of the file, and no other.  Any other operation, performed then, leaves
it no mirror.
-/
theorem mirrors_of_canFollow (engine : RegexEngine)
    (order : HashOrder (String × String) MailboxInfo) (watched : WatchedMailbox)
    (registry : InMemoryMailboxes) (moves : List MirrorMove) (state : Mirroring)
    (hrun : Steps (guarded (fun source move => Granted watched source move ∧ CanFollow source move)
      fun source move target => mirrorStep engine order watched source move = some target)
      (.new registry) moves state)
    (hsettled : state.Settled) :
    state.Mirrors watched ∧
    ∀ operation others state', ¬ operation.Followed state.files →
      (∀ other, .operate other ∉ others) →
      Steps (guarded (Granted watched) fun source move target =>
        mirrorStep engine order watched source move = some target)
        state (.operate operation :: others) state' →
      state'.Settled → ¬ state'.Mirrors watched := by
  have hsynced : state.Synced watched := by
    refine hrun.invariant_of_guarded (fun source move target hsource hguard hstep =>
      hsource.step hguard.1 hguard.2 hstep) ?_
    exact ⟨_, _, _, Mirroring.underway_new registry, MailboxView.mirrors_empty⟩
  refine ⟨?_, fun operation others state' hnot hothers hrest hsettled' =>
    hsynced.not_mirrors hsettled hnot hrest hothers hsettled'⟩
  obtain ⟨view, later, waiting, hunderway, hmirrors⟩ := hsynced
  exact (hunderway.mirrors_iff hsettled).mpr hmirrors

def mailboxOfAnn : WatchedMailbox where
  root := "/mail"
  username := "ann"
  mailbox := "box"
  username_single := by decide
  mailbox_single := by decide

/-- A message that was delivered, and the same message once it was seen. -/
def delivered : MessageFile := ⟨.new, "m1", by decide⟩

def seen : MessageFile := ⟨.cur, "m1:2,S", by decide⟩

/-- A message is created in `new`, seen, and deleted. -/
def createdSeenDeleted : List MirrorMove :=
  [.serve (.create "ann" "box"), .operate (.create delivered),
    .handle plainMail (emptyFiles ["/mail/ann/box/new/m1"]), .receive ⟨1⟩,
    .operate (.rename delivered seen), .add, .handle plainMail (emptyFiles []), .receive ⟨2⟩,
    .receive ⟨3⟩, .operate (.delete seen), .handle plainMail (emptyFiles []), .receive ⟨4⟩]

theorem mirrors_of_canFollow_deleted :
    ∃ state, Steps
        (guarded (fun source move => Granted mailboxOfAnn source move ∧ CanFollow source move)
          fun source move target => mirrorStep .searching .listed mailboxOfAnn source move =
            some target)
        (.new .new) createdSeenDeleted state ∧
      state.Mirrors mailboxOfAnn := by
  have hrun : (createdSeenDeleted.foldlM (fun source move =>
      if Granted mailboxOfAnn source move ∧ CanFollow source move then
        mirrorStep .searching .listed mailboxOfAnn source move else none) (.new .new)).map
          (fun state => decide state.Settled) = some true := by
    decide +kernel
  obtain ⟨state, hstate, hsettled⟩ := Option.map_eq_some_iff.mp hrun
  have hsteps := Steps.guarded_of_foldlM hstate
  exact ⟨state, hsteps, (mirrors_of_canFollow .searching .listed mailboxOfAnn .new _ state hsteps
    (of_decide_eq_true hsettled)).1⟩

/-- The same message while it is delivered. -/
def incoming : MessageFile := ⟨.tmp, "m1", by decide⟩

/-- The usual delivery: the message is written to `tmp` and renamed. -/
def deliveredByRename : List MirrorMove :=
  [.serve (.create "ann" "box"), .operate (.create incoming),
    .handle plainMail (emptyFiles ["/mail/ann/box/tmp/m1"]),
    .operate (.rename incoming delivered), .handle plainMail (emptyFiles ["/mail/ann/box/new/m1"]),
    .receive ⟨1⟩]

theorem delivered_message_not_indexed :
    ∃ state, Steps
        (guarded (Granted mailboxOfAnn) fun source move target =>
          mirrorStep .searching .listed mailboxOfAnn source move = some target)
        (.new .new) deliveredByRename state ∧
      state.Settled ∧ ¬ state.Mirrors mailboxOfAnn := by
  have hrun : (deliveredByRename.foldlM (fun source move =>
      if Granted mailboxOfAnn source move then
        mirrorStep .searching .listed mailboxOfAnn source move else none) (.new .new)).map
          (fun state => (decide (state.Settled ∧ delivered ∈ state.files),
            state.indexing.listener.indexer.backend.messages.keys)) = some (true, []) := by
    decide +kernel
  obtain ⟨state, hstate, hsummary⟩ := Option.map_eq_some_iff.mp hrun
  obtain ⟨hfacts, hkeys⟩ := Prod.mk.inj hsummary
  obtain ⟨hsettled, hfile⟩ := of_decide_eq_true hfacts
  refine ⟨state, Steps.guarded_of_foldlM hstate, hsettled, fun hmirrors => ?_⟩
  obtain ⟨parsed, hparsed, -⟩ := (MessageFile.message_eq_some_iff mailboxOfAnn).mp
    (show delivered.message = some ("m1", [.recent]) by decide)
  obtain ⟨id, entry, hentry, -⟩ := hmirrors.one delivered hfile parsed hparsed
  have hmem : id ∈ state.indexing.listener.indexer.backend.messages.keys :=
    AList.mem_keys.mp (AList.lookup_isSome.mp (Option.isSome_of_eq_some hentry))
  rw [hkeys] at hmem
  cases hmem

end Scuttled
