import Scuttled.Index.Keys
import Scuttled.MailStore.Containment
import Scuttled.MailStore.Watcher

/-!
# Reading a message at its path

The index makes a path of its own for every message, which leads next to the
directories `new` and `cur` of the mailbox, not into them.  What is read there
is the message exactly when another file with its bytes happens to be there.
-/

namespace Scuttled

open Rust Foundation

/-! ## Where entries are filed -/

def FreshIds (indexing : Indexing) : ListenerAction → Prop
  | .receive _ messageId => ∀ received ∈ indexing.log, received.2 ≠ messageId
  | .add | .serve _ => True

instance (indexing : Indexing) : ∀ action, Decidable (FreshIds indexing action)
  | .receive _ messageId =>
      inferInstanceAs (Decidable (∀ received ∈ indexing.log, received.2 ≠ messageId))
  | .add => instDecidableTrue
  | .serve _ => instDecidableTrue

/-- An entry is the one a `MessageCreated` brought: filed under its mailbox, with
the path the index made. -/
structure MessageEntry.FiledFor (entry : MessageEntry) (messageId : MessageId)
    (created : CreatedMessage) : Prop where
  id : entry.metadata.id = messageId
  username : entry.username = created.username
  mailbox : entry.metadata.mailbox = created.mailbox
  path : entry.path = InMemoryBackend.makeMessagePath created.username created.mailbox messageId

/-- Every identifier was drawn once, and the entry of each is filed for the
message it was drawn for. -/
structure Indexing.Filed (indexing : Indexing) : Prop where
  nodup : (indexing.log.map Prod.snd).Nodup
  live : ∀ id entry, indexing.entry id = some entry →
    ∃ created, (.messageCreated created, id) ∈ indexing.log ∧ entry.FiledFor id created
  adding : ∀ created message, indexing.listener.phase = .adding created message →
    (.messageCreated created, message.id) ∈ indexing.log ∧ message.mailbox = created.mailbox

theorem filed_new (registry : InMemoryMailboxes) : (Indexing.new registry).Filed where
  nodup := List.nodup_nil
  live := by
    intro id entry hentry
    simp [Indexing.entry, Indexing.new, ListenerState.new, Indexer.new, InMemoryBackend.new] at hentry
  adding := by
    intro created message hadding
    cases hadding

variable {indexing : Indexing}

theorem nodup_concat {log : List Received} {received : Received}
    (hnodup : (log.map Prod.snd).Nodup) (hfresh : ∀ other ∈ log, other.2 ≠ received.2) :
    ((log ++ [received]).map Prod.snd).Nodup := by
  rw [List.map_append, List.nodup_append]
  refine ⟨hnodup, List.nodup_singleton _, ?_⟩
  rintro id hid _ hlast rfl
  obtain ⟨other, hmem, hsame⟩ := List.mem_map.mp hid
  exact hfresh other hmem (hsame.trans (List.mem_singleton.mp hlast))

/-- After an event every entry is an older one up to its flags, and only the
message of that event may wait to be added. -/
theorem Indexing.Filed.received (hfiled : indexing.Filed) {event : Event} {messageId : MessageId}
    (hfresh : ∀ received ∈ indexing.log, received.2 ≠ messageId)
    {listener : ListenerState InMemoryMailboxes}
    (hkept : ∀ id entry, listener.indexer.backend.messages.lookup id = some entry →
      ∃ older, indexing.entry id = some older ∧
        ∀ created, older.FiledFor id created → entry.FiledFor id created)
    (hadding : ∀ created message, listener.phase = .adding created message →
      event = .messageCreated created ∧ message.id = messageId ∧
        message.mailbox = created.mailbox) :
    Indexing.Filed { listener, log := indexing.log ++ [(event, messageId)] } where
  nodup := nodup_concat hfiled.nodup hfresh
  live := by
    intro id entry hentry
    obtain ⟨older, holder, hsame⟩ := hkept id entry hentry
    obtain ⟨created, hmem, hfor⟩ := hfiled.live id older holder
    exact ⟨created, List.mem_append_left _ hmem, hsame created hfor⟩
  adding := by
    intro created message hphase
    obtain ⟨rfl, rfl, hmailbox⟩ := hadding created message hphase
    exact ⟨List.mem_append_right _ List.mem_cons_self, hmailbox⟩

/-- Every step keeps entries filed for the messages their identifiers were drawn
for. -/
theorem Indexing.Filed.step {engine : RegexEngine} {order : HashOrder (String × String) MailboxInfo}
    {indexing' : Indexing} {action : ListenerAction} (hfiled : indexing.Filed)
    (hfresh : FreshIds indexing action)
    (hstep : listenerStep engine order indexing action = some indexing') : indexing'.Filed := by
  cases action with
  | receive event messageId =>
      obtain ⟨listener, hlistener, rfl⟩ := Option.map_eq_some_iff.mp hstep
      simp only [ListenerState.receive] at hlistener
      cases hphase : indexing.listener.phase with
      | adding created message =>
          rw [hphase] at hlistener
          cases hlistener
      | receiving =>
          rw [hphase] at hlistener
          cases event with
          | messageCreated created =>
              obtain rfl := Option.some.inj hlistener
              rcases ListenerState.draw_cases engine order created messageId indexing.listener with
                ⟨-, hdraw⟩ | ⟨info, -, hdraw⟩
              · rw [hdraw]
                refine hfiled.received hfresh (fun id entry hentry =>
                  ⟨entry, hentry, fun _ hfor => hfor⟩) fun _ _ hadding => ?_
                cases hphase.symm.trans hadding
              · rw [hdraw]
                refine hfiled.received hfresh (fun id entry hentry =>
                  ⟨entry, hentry, fun _ hfor => hfor⟩) fun other later hadding => ?_
                obtain ⟨rfl, rfl⟩ := ListenerPhase.adding.inj hadding
                exact ⟨rfl, rfl, rfl⟩
          | messageModified username mailbox uniqueId flags =>
              obtain rfl := Option.some.inj hlistener
              refine hfiled.received hfresh (fun id entry hentry => ?_) (by simp)
              rcases indexing.listener.indexer.messageModified_cases username mailbox uniqueId
                flags with ⟨-, hsame⟩ | ⟨mapped, -, -, hlookup⟩
              · rw [hsame] at hentry
                exact ⟨entry, hentry, fun _ hfor => hfor⟩
              · rw [hlookup] at hentry
                split at hentry
                · rename_i hid
                  obtain ⟨older, holder, rfl⟩ := Option.map_eq_some_iff.mp hentry
                  exact ⟨older, hid ▸ holder, fun _ hfor =>
                    ⟨hfor.id, hfor.username, hfor.mailbox, hfor.path⟩⟩
                · exact ⟨entry, hentry, fun _ hfor => hfor⟩
          | messageDeleted username mailbox uniqueId =>
              obtain rfl := Option.some.inj hlistener
              refine hfiled.received hfresh (fun id entry hentry => ?_) (by simp)
              rcases indexing.listener.indexer.messageDeleted_cases username mailbox uniqueId with
                ⟨-, hsame⟩ | ⟨mapped, -, -, hlookup⟩
              · rw [hsame] at hentry
                exact ⟨entry, hentry, fun _ hfor => hfor⟩
              · rw [hlookup] at hentry
                split at hentry
                · cases hentry
                · exact ⟨entry, hentry, fun _ hfor => hfor⟩
          | mailboxDeleted username mailbox =>
              obtain rfl := Option.some.inj hlistener
              refine hfiled.received hfresh (fun id entry hentry => ?_) (by simp)
              exact ⟨entry, (HashMap.lookup_retain_iff.mp hentry).1, fun _ hfor => hfor⟩
          | mailboxCreated | mailboxRenamed =>
              obtain rfl := Option.some.inj hlistener
              refine hfiled.received hfresh (fun id entry hentry =>
                ⟨entry, hentry, fun _ hfor => hfor⟩) fun _ _ hadding => ?_
              cases hphase.symm.trans hadding
  | add =>
      obtain ⟨listener, hlistener, rfl⟩ := Option.map_eq_some_iff.mp hstep
      simp only [ListenerState.add] at hlistener
      cases hphase : indexing.listener.phase with
      | receiving =>
          rw [hphase] at hlistener
          cases hlistener
      | adding created message =>
          rw [hphase] at hlistener
          obtain rfl := Option.some.inj hlistener
          obtain ⟨hmem, hmailbox⟩ := hfiled.adding created message hphase
          obtain ⟨hentries, -⟩ := indexing.listener.indexer.messageCreated_lookup created message
          refine ⟨hfiled.nodup, fun id entry hentry => ?_, (by simp)⟩
          have hlookup := (hentries id).symm.trans hentry
          split at hlookup
          · rename_i hid
            subst hid
            obtain rfl := Option.some.inj hlookup
            exact ⟨created, hmem, ⟨rfl, rfl, hmailbox, rfl⟩⟩
          · exact hfiled.live id entry hlookup
  | serve command =>
      obtain rfl := Option.some.inj hstep
      exact ⟨hfiled.nodup, hfiled.live, hfiled.adding⟩

theorem Indexing.Filed.filedFor (hfiled : indexing.Filed) {id : MessageId} {entry : MessageEntry}
    (hentry : indexing.entry id = some entry) {created : CreatedMessage}
    (hmem : (.messageCreated created, id) ∈ indexing.log) : entry.FiledFor id created := by
  obtain ⟨other, hother, hfor⟩ := hfiled.live id entry hentry
  have hsame := List.inj_on_of_nodup_map hfiled.nodup hother hmem rfl
  simp only [Prod.mk.injEq, Event.messageCreated.injEq, and_true] at hsame
  exact hsame ▸ hfor

/-! ## Where the path leads -/

section Places

variable {username mailbox : String} (root : String) (husername : SingleComponent username)
  (hmailbox : SingleComponent mailbox)

include husername hmailbox

theorem resolve_mailboxPath :
    resolve (mailboxPath root username mailbox) =
      { resolve root with names := (resolve root).names ++ [username, mailbox] } := by
  rw [mailboxPath, resolve_join, hmailbox, resolve_join_username root husername]
  simp [Location.enter]

theorem resolve_makeMessagePath (id : MessageId) :
    resolve (fullPath root (InMemoryBackend.makeMessagePath username mailbox id)) =
      resolve (join (mailboxPath root username mailbox) (id.display ++ ".eml")) := by
  rw [resolve_messagePath root husername, hmailbox.bodyComponents_eq,
    resolve_join_username root husername, resolve_join _ (id.display ++ ".eml"),
    singleComponent_messageFile, resolve_mailboxPath root husername hmailbox]
  simp [Location.enter]

theorem resolve_makeMessagePath_ne {subdir filename : String} (hsubdir : SingleComponent subdir)
    (hfilename : SingleComponent filename) (id : MessageId) :
    resolve (fullPath root (InMemoryBackend.makeMessagePath username mailbox id)) ≠
      resolve (messageFilePath root username mailbox subdir filename) := by
  have hindex : (resolve (fullPath root
      (InMemoryBackend.makeMessagePath username mailbox id))).names.length =
        (resolve root).names.length + 3 := by
    rw [resolve_makeMessagePath root husername hmailbox, resolve_join,
      resolve_mailboxPath root husername hmailbox, singleComponent_messageFile]
    simp [Location.enter]
  have hfile : (resolve (messageFilePath root username mailbox subdir filename)).names.length =
      (resolve root).names.length + 4 := by
    rw [messageFilePath, resolve_join, resolve_join, resolve_mailboxPath root husername hmailbox,
      hsubdir, hfilename]
    simp [Location.enter]
  intro hsame
  rw [hsame, hfile] at hindex
  omega

end Places

/-! ## What the watcher reports -/

/-- The watcher announces a file, as `notify` reports its creation or as it is
scanned. -/
inductive Announces (env : WatcherEnv) (tree : FileTree) (root username mailbox path : String)
    (created : CreatedMessage) : Prop where
  | reported (hevent : .messageCreated created ∈
      handleFilesystemEvent env tree root { kind := .create, paths := [path] })
  | scanned (hevent : scanEntry env tree root username mailbox path =
      .ok (some (.messageCreated created)))

theorem Announces.mailbox {env : WatcherEnv} {tree : FileTree}
    {root username mailbox subdir filename : String} (husername : SingleComponent username)
    (hmailbox : SingleComponent mailbox) (hsubdir : SingleComponent subdir)
    (hfilename : SingleComponent filename) {created : CreatedMessage}
    (hannounces : Announces env tree root username mailbox
      (messageFilePath root username mailbox subdir filename) created) :
    created.username = username ∧ created.mailbox = mailbox := by
  have hparse := parseMessagePath_messageFilePath root husername hmailbox hsubdir hfilename
  cases hannounces with
  | reported hevent =>
      obtain ⟨path, hpath, hhandled⟩ := List.mem_filterMap.mp hevent
      rw [List.mem_singleton.mp hpath, handleCreateEvent_eq_some_iff, hparse] at hhandled
      obtain ⟨parsed, content, email, hparsed, -, -, hcreated⟩ := hhandled
      obtain ⟨isNew, -, rfl⟩ := Option.map_eq_some_iff.mp hparsed
      obtain rfl := Event.messageCreated.inj hcreated
      exact ⟨rfl, rfl⟩
  | scanned hevent =>
      obtain ⟨parsed, content, email, -, -, -, hcreated⟩ := scanEntry_eq_some_iff.mp hevent
      obtain rfl := Event.messageCreated.inj hcreated
      exact ⟨rfl, rfl⟩

/-! ## Reading at the path -/

/-- The bytes are read at a path the index returns. -/
def ReadsBack (tree : FileTree) (root : String) (content : Bytes) (path : String) : Prop :=
  retrieve tree root path = .ok (some content)

/-- Each query that can return the message returns a path at which its bytes are
read. -/
structure Retrievable (order : HashOrder MessageId MessageEntry) (iteration : Nat)
    (tree : FileTree) (root : String) (content : Bytes) (backend : InMemoryBackend)
    (id : MessageId) (entry : MessageEntry) : Prop where
  byId : ∃ path, backend.getMessagePath id = some path ∧ ReadsBack tree root content path
  byUid : ∃ path, backend.getMessagePathByUid order iteration entry.username
      entry.metadata.mailbox entry.metadata.uid = some path ∧ ReadsBack tree root content path
  listed : entry.path ∈ backend.listMessagePaths order iteration entry.username
      entry.metadata.mailbox ∧ ReadsBack tree root content entry.path
  searched : ∀ query, matchesQuery entry.metadata query = true →
    entry.path ∈ backend.search order iteration entry.username entry.metadata.mailbox query ∧
      ReadsBack tree root content entry.path

/-- A file with the bytes is in the directory of the mailbox itself, under the
identifier of the entry. -/
def HasTwin (tree : FileTree) (root : String) (content : Bytes) (entry : MessageEntry) : Prop :=
  tree (resolve (join (mailboxPath root entry.username entry.metadata.mailbox)
    (entry.metadata.id.display ++ ".eml"))) = some (.file content)

section ReadsBack

variable {tree : FileTree} {root : String} {content : Bytes}

theorem readsBack_iff {entry : MessageEntry} {id : MessageId} {created : CreatedMessage}
    (hfor : entry.FiledFor id created) (husername : SingleComponent entry.username)
    (hmailbox : SingleComponent entry.metadata.mailbox) :
    ReadsBack tree root content entry.path ↔ HasTwin tree root content entry := by
  have hpath : entry.path = InMemoryBackend.makeMessagePath entry.username
      entry.metadata.mailbox entry.metadata.id := by
    rw [hfor.path, hfor.id, hfor.username, hfor.mailbox]
  rw [ReadsBack, retrieve_eq_some_iff, hpath, resolve_makeMessagePath root husername hmailbox,
    HasTwin]

theorem retrievable_iff {backend : InMemoryBackend} {id : MessageId} {entry : MessageEntry}
    (hentry : backend.messages.lookup id = some entry) (order : HashOrder MessageId MessageEntry)
    (iteration : Nat) :
    Retrievable order iteration tree root content backend id entry ↔
      ReadsBack tree root content entry.path ∧
        ∃ first, (backend.candidates order iteration entry.username entry.metadata.mailbox
          entry.metadata.uid).head? = some first ∧ ReadsBack tree root content first.path := by
  constructor
  · rintro ⟨-, ⟨path, hpath, hreads⟩, ⟨-, hentryReads⟩, -⟩
    obtain ⟨first, hfirst, rfl⟩ := Option.map_eq_some_iff.mp hpath
    exact ⟨hentryReads, first, hfirst, hreads⟩
  · rintro ⟨hentryReads, first, hfirst, hreads⟩
    have hmem : entry ∈ backend.entriesOf order iteration entry.username entry.metadata.mailbox :=
      InMemoryBackend.mem_entriesOf_iff.mpr ⟨⟨id, hentry⟩, rfl, rfl⟩
    constructor
    · exact ⟨entry.path, Option.map_eq_some_iff.mpr ⟨entry, hentry, rfl⟩, hentryReads⟩
    · exact ⟨first.path, Option.map_eq_some_iff.mpr ⟨first, hfirst, rfl⟩, hreads⟩
    · exact ⟨List.mem_map_of_mem hmem, hentryReads⟩
    · intro query hquery
      exact ⟨List.mem_map_of_mem (List.mem_filter.mpr ⟨hmem, hquery⟩), hentryReads⟩

end ReadsBack

theorem InMemoryBackend.mem_candidates_iff {order : HashOrder MessageId MessageEntry}
    {iteration : Nat} {username mailbox : String} {uid : Uid} {backend : InMemoryBackend}
    {entry : MessageEntry} :
    entry ∈ backend.candidates order iteration username mailbox uid ↔
      (∃ id, backend.messages.lookup id = some entry) ∧ entry.In username mailbox ∧
        entry.metadata.uid = uid := by
  simp only [candidates, List.mem_filter, List.mem_map, Bool.and_eq_true, beq_iff_eq,
    MessageEntry.In]
  rw [and_assoc]
  refine and_congr_left fun _ => ⟨?_, ?_⟩
  · rintro ⟨⟨id, entry⟩, hmem, rfl⟩
    exact ⟨id, HashMap.mem_arrange_iff.mp hmem⟩
  · rintro ⟨id, hlookup⟩
    exact ⟨⟨id, entry⟩, HashMap.mem_arrange_iff.mpr hlookup, rfl⟩

theorem InMemoryBackend.exists_head_candidates {backend : InMemoryBackend} {id : MessageId}
    {entry : MessageEntry} (hentry : backend.messages.lookup id = some entry)
    (order : HashOrder MessageId MessageEntry) (iteration : Nat) :
    ∃ first, (backend.candidates order iteration entry.username entry.metadata.mailbox
        entry.metadata.uid).head? = some first ∧
      (∃ other, backend.messages.lookup other = some first) ∧
        first.In entry.username entry.metadata.mailbox ∧ first.metadata.uid = entry.metadata.uid := by
  have hmem : entry ∈ backend.candidates order iteration entry.username entry.metadata.mailbox
      entry.metadata.uid :=
    mem_candidates_iff.mpr ⟨⟨id, hentry⟩, ⟨rfl, rfl⟩, rfl⟩
  have hsome := List.isSome_head?.mpr (List.ne_nil_of_mem hmem)
  obtain ⟨first, hfirst⟩ := Option.isSome_iff_exists.mp hsome
  exact ⟨first, hfirst, mem_candidates_iff.mp (List.mem_of_head? hfirst)⟩

/--
The paths the index returns for a message file of a mailbox yield its bytes
exactly when a twin of it lies where they lead: the message itself needs one, and
the message that the lookup by UID meets first.  That place is never the place of
the message file, and where UIDs are unique one twin is enough.
-/
theorem retrievable_iff_hasTwin (engine : RegexEngine)
    (order : HashOrder (String × String) MailboxInfo) (iterated : HashOrder MessageId MessageEntry)
    (iteration : Nat) (registry : InMemoryMailboxes) (env : WatcherEnv) (tree later : FileTree)
    (root : String) {username mailbox subdir filename : String}
    (husername : SingleComponent username) (hmailbox : SingleComponent mailbox)
    (hsubdir : subdir ∈ MaildirFormat.watchSubdirectories) (hfilename : SingleComponent filename)
    {created : CreatedMessage}
    (hannounces : Announces env tree root username mailbox
      (messageFilePath root username mailbox subdir filename) created)
    {actions : List ListenerAction} {indexing : Indexing}
    (hrun : Steps (guarded FreshIds fun source action target =>
      listenerStep engine order source action = some target) (.new registry) actions indexing)
    {id : MessageId} (hreceived : (.messageCreated created, id) ∈ indexing.log)
    {entry : MessageEntry} (hentry : indexing.entry id = some entry) (content : Bytes) :
    (Retrievable iterated iteration later root content indexing.listener.indexer.backend id entry ↔
      HasTwin later root content entry ∧
        ∀ first, (indexing.listener.indexer.backend.candidates iterated iteration entry.username
          entry.metadata.mailbox entry.metadata.uid).head? = some first →
            HasTwin later root content first) ∧
    (∀ other : MessageId, resolve (join (mailboxPath root username mailbox)
        (other.display ++ ".eml")) ≠
      resolve (messageFilePath root username mailbox subdir filename)) ∧
    (indexing.listener.indexer.backend.UniqueUids →
      (Retrievable iterated iteration later root content indexing.listener.indexer.backend id
        entry ↔ HasTwin later root content entry)) := by
  have hfiled : indexing.Filed := hrun.invariant_of_guarded
    (fun _ _ _ hsource hfresh hstep => hsource.step hfresh hstep) (filed_new registry)
  have hdirectory : SingleComponent subdir := singleComponent_of_mem_watchSubdirectories hsubdir
  have hfor := hfiled.filedFor hentry hreceived
  obtain ⟨hsameUser, hsameMailbox⟩ := hannounces.mailbox husername hmailbox hdirectory hfilename
  have hentryUser : entry.username = username := hfor.username.trans hsameUser
  have hentryMailbox : entry.metadata.mailbox = mailbox := hfor.mailbox.trans hsameMailbox
  -- every entry of the mailbox yields the bytes of its twin
  have hreads (other : MessageEntry) (hother : ∃ id, indexing.entry id = some other)
      (hin : other.In username mailbox) :
      ReadsBack later root content other.path ↔ HasTwin later root content other := by
    obtain ⟨otherId, hlookup⟩ := hother
    obtain ⟨source, -, hotherFor⟩ := hfiled.live otherId other hlookup
    refine readsBack_iff hotherFor ?_ ?_
    · rwa [hin.1]
    · rwa [hin.2]
  have hown := hreads entry ⟨id, hentry⟩ ⟨hentryUser, hentryMailbox⟩
  have hiff : Retrievable iterated iteration later root content
      indexing.listener.indexer.backend id entry ↔
        HasTwin later root content entry ∧
          ∀ first, (indexing.listener.indexer.backend.candidates iterated iteration entry.username
            entry.metadata.mailbox entry.metadata.uid).head? = some first →
              HasTwin later root content first := by
    obtain ⟨first, hfirst, hlookup, hin, -⟩ :=
      InMemoryBackend.exists_head_candidates hentry iterated iteration
    have hmet := hreads first hlookup (by rwa [hentryUser, hentryMailbox] at hin)
    rw [retrievable_iff hentry, hown, hfirst]
    simp [hmet]
  refine ⟨hiff, fun other => ?_, fun hunique => ?_⟩
  · rw [← resolve_makeMessagePath root husername hmailbox]
    exact resolve_makeMessagePath_ne root husername hmailbox hdirectory hfilename other
  · obtain ⟨first, hfirst, ⟨other, hlookup⟩, hin, huid⟩ :=
      InMemoryBackend.exists_head_candidates hentry iterated iteration
    obtain rfl : other = id := hunique other id first entry _ _ hlookup hentry hin ⟨rfl, rfl⟩ huid
    obtain rfl := Option.some.inj (hlookup.symm.trans hentry)
    rw [hiff, hfirst]
    simp

/-! ## A message that is not there -/

/-- A file of ann, announced with nothing but its name. -/
def announcedForAnn : CreatedMessage where
  username := "ann"
  mailbox := "box"
  uniqueId := "m1"
  path := "ann/box/m1"
  flags := [.recent]
  isNew := true
  fromHeader := ""
  toHeader := ""
  subject := ""
  bodyPreview := ""
  size := 0
  internalDate := 0

/-- The mailbox is registered, and the announced message is indexed. -/
def indexAnnounced : List ListenerAction :=
  [.serve (.create "ann" "box"), .receive (.messageCreated announcedForAnn) ⟨1⟩, .add]

theorem exists_indexAnnounced :
    ∃ indexing entry,
      Steps (guarded FreshIds fun source action target =>
          listenerStep .searching .listed source action = some target)
        (.new .new) indexAnnounced indexing ∧
      (.messageCreated announcedForAnn, ⟨1⟩) ∈ indexing.log ∧
      indexing.entry ⟨1⟩ = some entry ∧
      entry.username = "ann" ∧ entry.metadata.mailbox = "box" ∧ entry.metadata.id = ⟨1⟩ ∧
      indexing.listener.indexer.backend.candidates .listed 0 entry.username
        entry.metadata.mailbox entry.metadata.uid = [entry] := by
  have hsummary : (indexAnnounced.foldlM (fun source action => if FreshIds source action then
      listenerStep .searching .listed source action else none) (.new .new)).map (fun indexing =>
        (indexing.log, indexing.listener.indexer.backend.messages.entries.map fun entry =>
          (entry.1, entry.2.username, entry.2.metadata.mailbox, entry.2.metadata.id))) =
      some ([(.messageCreated announcedForAnn, ⟨1⟩)], [(⟨1⟩, "ann", "box", ⟨1⟩)]) := by
    decide +kernel
  obtain ⟨indexing, hindexing, hpair⟩ := Option.map_eq_some_iff.mp hsummary
  obtain ⟨hlog, hmapped⟩ := Prod.mk.inj hpair
  obtain ⟨⟨id, entry⟩, hentries, hfields⟩ := List.map_eq_singleton_iff.mp hmapped
  simp only [Prod.mk.injEq] at hfields
  obtain ⟨rfl, husername, hmailbox, hid⟩ := hfields
  refine ⟨indexing, entry, Steps.guarded_of_foldlM hindexing, ?_, ?_, husername, hmailbox, hid, ?_⟩
  · rw [hlog]
    exact List.mem_cons_self
  · refine HashMap.lookup_eq_some_iff.mpr ?_
    rw [hentries]
    exact List.mem_cons_self
  · simp [InMemoryBackend.candidates, HashOrder.listed, hentries]

/-- The file of ann is indexed, and a second file lies where the index says. -/
theorem retrievable_iff_hasTwin_box :
    ∃ (indexing : Indexing) (entry : MessageEntry), indexing.entry ⟨1⟩ = some entry ∧
      Retrievable .listed 0
        (emptyFiles ["/mail/ann/box/new/m1",
          "/mail/ann/box/00000000-0000-0000-0000-000000000001.eml"])
        "/mail" [] indexing.listener.indexer.backend ⟨1⟩ entry := by
  obtain ⟨indexing, entry, hrun, hreceived, hentry, husername, hmailbox, hid, hfirst⟩ :=
    exists_indexAnnounced
  have hannounces : Announces plainMail (emptyFiles ["/mail/ann/box/new/m1"]) "/mail" "ann" "box"
      (messageFilePath "/mail" "ann" "box" "new" "m1") announcedForAnn :=
    .reported (by decide +kernel)
  have htwin : HasTwin
      (emptyFiles ["/mail/ann/box/new/m1",
        "/mail/ann/box/00000000-0000-0000-0000-000000000001.eml"]) "/mail" [] entry := by
    rw [HasTwin, husername, hmailbox, hid]
    decide +kernel
  refine ⟨indexing, entry, hentry, (retrievable_iff_hasTwin .searching .listed .listed 0 .new
    plainMail (emptyFiles ["/mail/ann/box/new/m1"]) _ "/mail" (by decide) (by decide) (by decide)
    (by decide) hannounces hrun hreceived hentry []).1.mpr ⟨htwin, fun first hmet => ?_⟩⟩
  rw [hfirst] at hmet
  obtain rfl := Option.some.inj hmet
  exact htwin

/-- The only file is that of the message: nothing is read at the path the index
returns. -/
theorem indexed_file_not_retrievable :
    ∃ indexing entry,
      Steps (guarded FreshIds fun source action target =>
          listenerStep .searching .listed source action = some target)
        (.new .new) indexAnnounced indexing ∧
      Announces plainMail (emptyFiles ["/mail/ann/box/new/m1"]) "/mail" "ann" "box"
        (messageFilePath "/mail" "ann" "box" "new" "m1") announcedForAnn ∧
      (.messageCreated announcedForAnn, ⟨1⟩) ∈ indexing.log ∧
      indexing.entry ⟨1⟩ = some entry ∧
      ¬ Retrievable .listed 0 (emptyFiles ["/mail/ann/box/new/m1"]) "/mail" []
        indexing.listener.indexer.backend ⟨1⟩ entry := by
  obtain ⟨indexing, entry, hrun, hreceived, hentry, husername, hmailbox, hid, -⟩ :=
    exists_indexAnnounced
  refine ⟨indexing, entry, hrun, .reported (by decide +kernel), hreceived, hentry,
    fun hretrievable => ?_⟩
  have hsingle : SingleComponent entry.username ∧ SingleComponent entry.metadata.mailbox := by
    rw [husername, hmailbox]
    decide
  have hfiled : indexing.Filed := hrun.invariant_of_guarded
    (fun _ _ _ hsource hfresh hstep => hsource.step hfresh hstep) (filed_new _)
  have htwin := (readsBack_iff (hfiled.filedFor hentry hreceived) hsingle.1 hsingle.2).mp
    hretrievable.listed.2
  rw [HasTwin, husername, hmailbox, hid] at htwin
  exact absurd htwin (by decide +kernel)

end Scuttled
