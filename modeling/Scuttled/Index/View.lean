import Mathlib.Data.List.Forall2
import Scuttled.Index.Keys
import Scuttled.MailStore.Operations

/-!
# What the index shows of a mailbox

The events of the watcher tell the index of changes, and each changes what the
index shows: a view, from unique identifiers to flags.
-/

namespace Scuttled

open Rust Foundation

/-! ## The watcher tells of the changes -/

/-- The key of a message of the mailbox. -/
def WatchedMailbox.key (watched : WatchedMailbox) (uniqueId : String) : MessageKey :=
  ⟨watched.username, watched.mailbox, uniqueId⟩

/-- The event tells the index of the change. -/
inductive WatchedMailbox.Tells (watched : WatchedMailbox) : Event → Change → Prop where
  | created {created : CreatedMessage} (hkey : created.key = watched.key created.uniqueId)
      (hpath : created.path = created.key.path) :
      Tells watched (.messageCreated created) (.added (created.uniqueId, created.flags))
  | modified (uniqueId : String) (flags : List MessageFlag) :
      Tells watched (.messageModified watched.username watched.mailbox uniqueId flags)
        (.flagged (uniqueId, flags))
  | deleted (uniqueId : String) (flags : List MessageFlag) :
      Tells watched (.messageDeleted watched.username watched.mailbox uniqueId)
        (.removed (uniqueId, flags))

variable {watched : WatchedMailbox}

theorem tells_of_file {event : Option Event} {change : ShownMessage → Change} (file : MessageFile)
    (hnone : file.message = none → event = none)
    (hsome : ∀ message, file.message = some message → ∃ told, event = some told ∧
      watched.Tells told (change message)) :
    List.Forall₂ watched.Tells event.toList (file.message.toList.map change) := by
  cases hmessage : file.message with
  | none =>
      rw [hnone hmessage]
      exact .nil
  | some message =>
      obtain ⟨told, rfl, htells⟩ := hsome message hmessage
      exact .cons htells .nil

theorem tells_of_created {env : WatcherEnv} {tree : FileTree} {file : MessageFile}
    (hreadable : (FileOperation.create file).Readable watched env tree) :
    List.Forall₂ watched.Tells
      (handleCreateEvent env tree watched.root (file.path watched)).toList
      (file.message.toList.map .added) := by
  refine tells_of_file file (fun hnone => ?_) fun message hmessage => ?_
  · simp only [handleCreateEvent, (MessageFile.message_eq_none_iff watched).mp hnone, Option.bind_eq_bind,
      Option.bind_none]
  · obtain ⟨parsed, hparsed, husername, hmailbox, rfl⟩ :=
      (MessageFile.message_eq_some_iff watched).mp hmessage
    simp only [FileOperation.Readable] at hreadable
    split at hreadable
    · rename_i content hread
      obtain ⟨email, hmail⟩ := Option.isSome_iff_exists.mp hreadable
      refine ⟨_, handleCreateEvent_eq_some_iff.mpr ⟨parsed, content, email, hparsed, hread, hmail,
        rfl⟩, .created ?_ rfl⟩
      simp only [WatchedMailbox.key, ← husername, ← hmailbox]
      rfl
    · cases hreadable

theorem tells_of_modified (watched : WatchedMailbox) (file : MessageFile) :
    List.Forall₂ watched.Tells (handleModifyEvent watched.root (file.path watched)).toList
      (file.message.toList.map .flagged) := by
  refine tells_of_file file (fun hnone => ?_) fun message hmessage => ?_
  · simp only [handleModifyEvent, (MessageFile.message_eq_none_iff watched).mp hnone, Option.bind_eq_bind,
      Option.bind_none]
  · obtain ⟨parsed, hparsed, husername, hmailbox, rfl⟩ :=
      (MessageFile.message_eq_some_iff watched).mp hmessage
    refine ⟨.messageModified watched.username watched.mailbox parsed.uniqueId parsed.eventFlags, ?_,
      .modified _ _⟩
    simp only [handleModifyEvent, hparsed, husername, hmailbox, Option.bind_eq_bind,
      Option.bind_some, Option.pure_def]

theorem tells_of_removed (watched : WatchedMailbox) (file : MessageFile) :
    List.Forall₂ watched.Tells (handleRemoveEvent watched.root (file.path watched)).toList
      (file.message.toList.map .removed) := by
  refine tells_of_file file (fun hnone => ?_) fun message hmessage => ?_
  · simp only [handleRemoveEvent, (MessageFile.message_eq_none_iff watched).mp hnone, Option.bind_eq_bind,
      Option.bind_none]
  · obtain ⟨parsed, hparsed, husername, hmailbox, rfl⟩ :=
      (MessageFile.message_eq_some_iff watched).mp hmessage
    refine ⟨.messageDeleted watched.username watched.mailbox parsed.uniqueId, ?_, .deleted _ _⟩
    simp only [handleRemoveEvent, hparsed, husername, hmailbox, Option.bind_eq_bind,
      Option.bind_some, Option.pure_def]

theorem tells_of_handled {env : WatcherEnv} {tree : FileTree} {operation : FileOperation}
    (hreadable : operation.Readable watched env tree) :
    List.Forall₂ watched.Tells
      (handleFilesystemEvent env tree watched.root (operation.notification watched))
      operation.changes := by
  cases operation with
  | create file =>
      simpa [handleFilesystemEvent, FileOperation.notification, FileOperation.changes,
        List.filterMap_eq_flatMap_toList] using tells_of_created hreadable
  | rename old new =>
      have htold := List.rel_append (tells_of_modified watched old)
        (tells_of_modified watched new)
      simpa [handleFilesystemEvent, FileOperation.notification, FileOperation.changes,
        List.filterMap_eq_flatMap_toList] using htold
  | delete file =>
      simpa [handleFilesystemEvent, FileOperation.notification, FileOperation.changes,
        List.filterMap_eq_flatMap_toList] using tells_of_removed watched file

/-! ## What the index shows -/

/-- The index shows the messages of a view: each is mapped to an entry of its own
with its flags, nothing else is mapped, and there is no other entry. -/
structure Indexing.Shows (watched : WatchedMailbox) (indexing : Indexing) (view : MailboxView) :
    Prop where
  shown : ∀ uniqueId flags, view uniqueId = some flags →
    ∃ id entry, indexing.mapped (watched.key uniqueId).path = some id ∧
      indexing.entry id = some entry ∧ originOf id indexing.log = some (watched.key uniqueId) ∧
      entry.metadata.flags = flags
  hidden : ∀ uniqueId, view uniqueId = none → indexing.mapped (watched.key uniqueId).path = none
  only : ∀ id entry, indexing.entry id = some entry →
    ∃ uniqueId, originOf id indexing.log = some (watched.key uniqueId) ∧
      indexing.mapped (watched.key uniqueId).path = some id

theorem shows_new (registry : InMemoryMailboxes) :
    (Indexing.new registry).Shows watched fun _ => none where
  shown := nofun
  hidden _ _ := rfl
  only := by
    intro id entry hentry
    simp [Indexing.entry, Indexing.new, ListenerState.new, Indexer.new, InMemoryBackend.new] at hentry

theorem key_path_inj {uniqueId uniqueId' : String} :
    (watched.key uniqueId).path = (watched.key uniqueId').path ↔ uniqueId = uniqueId' := by
  simp only [MessageKey.path, WatchedMailbox.key, uniqueIdKey, String.append_right_inj]

theorem key_inj {uniqueId uniqueId' : String} :
    watched.key uniqueId = watched.key uniqueId' ↔ uniqueId = uniqueId' := by
  simp only [WatchedMailbox.key, MessageKey.mk.injEq, true_and]

variable {indexing : Indexing} {view : MailboxView}

theorem Indexing.Shows.logged (hshows : indexing.Shows watched view) (received : Received) :
    Indexing.Shows watched { indexing with log := indexing.log ++ [received] } view := by
  refine ⟨fun uniqueId flags hview => ?_, hshows.hidden, fun id entry hentry => ?_⟩
  · obtain ⟨id, entry, hmapped, hentry, horigin, hflags⟩ := hshows.shown uniqueId flags hview
    exact ⟨id, entry, hmapped, hentry, originOf_concat_of_some _ _ horigin, hflags⟩
  · obtain ⟨uniqueId, horigin, hmapped⟩ := hshows.only id entry hentry
    exact ⟨uniqueId, originOf_concat_of_some _ _ horigin, hmapped⟩

theorem Indexing.Shows.of_indexer (hshows : indexing.Shows watched view)
    {listener : ListenerState InMemoryMailboxes}
    (hindexer : listener.indexer = indexing.listener.indexer) :
    Indexing.Shows watched { indexing with listener } view := by
  have hentries (id : MessageId) :
      Indexing.entry { indexing with listener } id = indexing.entry id := by
    simp only [Indexing.entry, hindexer]
  have hmapping (path : String) :
      Indexing.mapped { indexing with listener } path = indexing.mapped path := by
    simp only [Indexing.mapped, hindexer]
  constructor
  · simp only [hentries, hmapping]
    exact hshows.shown
  · simp only [hmapping]
    exact hshows.hidden
  · simp only [hentries, hmapping]
    exact hshows.only

theorem Indexing.Shows.of_mapped (hshows : indexing.Shows watched view) {uniqueId : String}
    {id : MessageId} (hmapped : indexing.mapped (watched.key uniqueId).path = some id) :
    ∃ flags entry, view uniqueId = some flags ∧ indexing.entry id = some entry ∧
      originOf id indexing.log = some (watched.key uniqueId) := by
  cases hview : view uniqueId with
  | none => exact nomatch (hshows.hidden uniqueId hview).symm.trans hmapped
  | some flags =>
      obtain ⟨other, entry, hother, hentry, horigin, -⟩ := hshows.shown uniqueId flags hview
      obtain rfl := Option.some.inj (hother.symm.trans hmapped)
      exact ⟨flags, entry, rfl, hentry, horigin⟩

theorem Indexing.Shows.isSome_of_mapped (hshows : indexing.Shows watched view) (uniqueId : String) :
    (view uniqueId).isSome = (indexing.mapped (watched.key uniqueId).path).isSome := by
  cases hmapped : indexing.mapped (watched.key uniqueId).path with
  | none =>
      cases hview : view uniqueId with
      | none => rfl
      | some flags =>
          obtain ⟨id, entry, hother, -⟩ := hshows.shown uniqueId flags hview
          exact nomatch hmapped.symm.trans hother
  | some id =>
      obtain ⟨flags, entry, hview, -⟩ := hshows.of_mapped hmapped
      rw [hview]
      rfl

/-- A message that was waited for is added. -/
theorem Indexing.Shows.added (hshows : indexing.Shows watched view) {created : CreatedMessage}
    {message : IndexedMessage} (hpath : created.path = (watched.key created.uniqueId).path)
    (horigin : originOf message.id indexing.log = some (watched.key created.uniqueId))
    (hnew : view created.uniqueId = none) :
    Indexing.Shows watched
      { indexing with
        listener := { indexing.listener with
          indexer := indexing.listener.indexer.messageCreated created message
          phase := .receiving } }
      (Function.update view created.uniqueId (some message.flags)) := by
  obtain ⟨hentries, hmapping⟩ := indexing.listener.indexer.messageCreated_lookup created message
  refine ⟨fun uniqueId flags hview => ?_, fun uniqueId hview => ?_, fun id entry hentry => ?_⟩
  · rw [Function.update_apply] at hview
    split at hview
    · rename_i hsame
      subst hsame
      refine ⟨message.id, _, (hmapping _).trans (if_pos hpath.symm),
        (hentries message.id).trans (if_pos rfl), horigin, Option.some.inj hview⟩
    · rename_i hother
      obtain ⟨id, entry, hmapped, hentry, hown, hflags⟩ := hshows.shown uniqueId flags hview
      have hid : id ≠ message.id := by
        rintro rfl
        exact hother (key_inj.mp (Option.some.inj (hown.symm.trans horigin)))
      refine ⟨id, entry, (hmapping _).trans ?_, (hentries id).trans ?_, hown, hflags⟩
      · rw [if_neg (hpath ▸ fun hsame => hother (key_path_inj.mp hsame))]
        exact hmapped
      · rw [if_neg hid]
        exact hentry
  · rw [Function.update_apply] at hview
    split at hview
    · cases hview
    · rename_i hother
      refine (hmapping _).trans ?_
      rw [if_neg (hpath ▸ fun hsame => hother (key_path_inj.mp hsame))]
      exact hshows.hidden uniqueId hview
  · have hlookup := (hentries id).symm.trans hentry
    split at hlookup
    · rename_i hid
      refine ⟨created.uniqueId, hid ▸ horigin, (hmapping _).trans ?_⟩
      rw [if_pos hpath.symm, hid]
    · obtain ⟨uniqueId, hown, hmapped⟩ := hshows.only id entry hlookup
      refine ⟨uniqueId, hown, (hmapping _).trans ?_⟩
      rw [if_neg ?_]
      · exact hmapped
      · intro hsame
        rw [hsame, hpath, hshows.hidden _ hnew] at hmapped
        cases hmapped

/-- A message is given flags, if it is shown. -/
theorem Indexing.Shows.flagged (hshows : indexing.Shows watched view) (uniqueId : String)
    (flags : List MessageFlag) :
    Indexing.Shows watched
      { indexing with
        listener := { indexing.listener with
          indexer := indexing.listener.indexer.messageModified watched.username watched.mailbox
            uniqueId flags } }
      (view.flag (some (uniqueId, flags))) := by
  have hisSome := hshows.isSome_of_mapped uniqueId
  rcases indexing.listener.indexer.messageModified_cases watched.username watched.mailbox uniqueId
    flags with ⟨hunmapped, hsame⟩ | ⟨mapped, hmapped, hmapping, hentries⟩
  · rw [show indexing.mapped (watched.key uniqueId).path = none from hunmapped] at hisSome
    rw [hsame, MailboxView.flag, hisSome]
    exact hshows
  · obtain ⟨-, mappedEntry, -, hmappedEntry, hmappedOrigin⟩ := hshows.of_mapped hmapped
    rw [show indexing.mapped (watched.key uniqueId).path = some mapped from hmapped] at hisSome
    simp only [MailboxView.flag, hisSome, Option.isSome_some, if_true]
    refine ⟨fun other otherFlags hview => ?_, fun other hview => ?_, fun id entry hentry => ?_⟩
    · rw [Function.update_apply] at hview
      split at hview
      · rename_i hother
        subst hother
        refine ⟨mapped, { mappedEntry with metadata := { mappedEntry.metadata with flags } }, ?_,
          (hentries mapped).trans ?_, hmappedOrigin, Option.some.inj hview⟩
        · simp only [Indexing.mapped, hmapping]
          exact hmapped
        · rw [if_pos rfl, show indexing.listener.indexer.backend.messages.lookup mapped =
            some mappedEntry from hmappedEntry]
          rfl
      · rename_i hother
        obtain ⟨id, entry, hid, hentry, horigin, hflags⟩ := hshows.shown other otherFlags hview
        have hne : id ≠ mapped := by
          rintro rfl
          exact hother (key_inj.mp (Option.some.inj (horigin.symm.trans hmappedOrigin)))
        refine ⟨id, entry, ?_, (hentries id).trans ((if_neg hne).trans hentry), horigin, hflags⟩
        simp only [Indexing.mapped, hmapping]
        exact hid
    · rw [Function.update_apply] at hview
      split at hview
      · cases hview
      · simp only [Indexing.mapped, hmapping]
        exact hshows.hidden other hview
    · have hlookup := (hentries id).symm.trans hentry
      simp only [Indexing.mapped, hmapping]
      split at hlookup
      · rename_i hid
        subst hid
        exact ⟨uniqueId, hmappedOrigin, hmapped⟩
      · exact hshows.only id entry hlookup

/-- A message is removed. -/
theorem Indexing.Shows.removed (hshows : indexing.Shows watched view) (uniqueId : String) :
    Indexing.Shows watched
      { indexing with
        listener := { indexing.listener with
          indexer := indexing.listener.indexer.messageDeleted watched.username watched.mailbox
            uniqueId } }
      (Function.update view uniqueId none) := by
  rcases indexing.listener.indexer.messageDeleted_cases watched.username watched.mailbox uniqueId
    with ⟨hunmapped, hsame⟩ | ⟨mapped, hmapped, hmapping, hentries⟩
  · have hisSome := hshows.isSome_of_mapped uniqueId
    rw [show indexing.mapped (watched.key uniqueId).path = none from hunmapped,
      Option.isSome_none, Option.isSome_eq_false_iff, Option.isNone_iff_eq_none] at hisSome
    rw [hsame, ← hisSome, Function.update_eq_self]
    exact hshows
  · obtain ⟨-, -, -, -, hmappedOrigin⟩ := hshows.of_mapped hmapped
    refine ⟨fun other otherFlags hview => ?_, fun other hview => ?_, fun id entry hentry => ?_⟩
    · rw [Function.update_apply] at hview
      split at hview
      · cases hview
      · rename_i hother
        obtain ⟨id, entry, hid, hentry, horigin, hflags⟩ := hshows.shown other otherFlags hview
        have hne : id ≠ mapped := by
          rintro rfl
          exact hother (key_inj.mp (Option.some.inj (horigin.symm.trans hmappedOrigin)))
        refine ⟨id, entry, (hmapping _).trans ?_, (hentries id).trans ((if_neg hne).trans hentry),
          horigin, hflags⟩
        exact (if_neg fun hpath => hother (key_path_inj.mp hpath)).trans hid
    · refine (hmapping _).trans ?_
      split
      · rfl
      · rename_i hpath
        have hother : other ≠ uniqueId := fun hsame => hpath (hsame ▸ rfl)
        rw [Function.update_of_ne hother] at hview
        exact hshows.hidden other hview
    · have hlookup := (hentries id).symm.trans hentry
      split at hlookup
      · cases hlookup
      · rename_i hid
        obtain ⟨other, horigin, hother⟩ := hshows.only id entry hlookup
        refine ⟨other, horigin, (hmapping _).trans ((if_neg fun hpath => hid ?_).trans hother)⟩
        exact Option.some.inj (hother.symm.trans (hpath ▸ hmapped))

end Scuttled
