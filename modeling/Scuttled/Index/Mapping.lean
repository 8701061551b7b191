import Scuttled.MailStore.Retrieval

/-!
# What the mapping leads to

A `MessageCreated` is noted under the path it carries.  Later events are looked up under
the user, the mailbox and the unique identifier, joined, and a deleted mailbox takes
along the keys that begin with its own.
-/

namespace Scuttled

open Rust Foundation

/-! ## What a step does -/

namespace Indexer

variable (username mailbox uniqueId : String) (flags : List MessageFlag) (indexer : Indexer)

theorem messageModified_lookup :
    (indexer.messageModified username mailbox uniqueId flags).uniqueIdMapping =
        indexer.uniqueIdMapping ∧
      ∀ id, (indexer.messageModified username mailbox uniqueId flags).backend.messages.lookup id =
        if indexer.uniqueIdMapping.lookup (uniqueIdKey username mailbox uniqueId) = some id then
          (indexer.backend.messages.lookup id).map fun entry =>
            { entry with metadata := { entry.metadata with flags } }
        else indexer.backend.messages.lookup id := by
  rcases indexer.messageModified_cases username mailbox uniqueId flags with
    ⟨hnone, hsame⟩ | ⟨mapped, hmapped, hmapping, hentries⟩
  · rw [hsame, hnone]
    exact ⟨rfl, fun id => rfl⟩
  · refine ⟨hmapping, fun id => ?_⟩
    rw [hentries, hmapped]
    by_cases hid : id = mapped
    · rw [hid, if_pos rfl, if_pos rfl]
    · rw [if_neg hid, if_neg fun hsome => hid (Option.some.inj hsome).symm]

theorem messageDeleted_lookup :
    (∀ path, (indexer.messageDeleted username mailbox uniqueId).uniqueIdMapping.lookup path =
        if path = uniqueIdKey username mailbox uniqueId then none
        else indexer.uniqueIdMapping.lookup path) ∧
      ∀ id, (indexer.messageDeleted username mailbox uniqueId).backend.messages.lookup id =
        if indexer.uniqueIdMapping.lookup (uniqueIdKey username mailbox uniqueId) = some id then none
        else indexer.backend.messages.lookup id := by
  rcases indexer.messageDeleted_cases username mailbox uniqueId with
    ⟨hnone, hsame⟩ | ⟨mapped, hmapped, hmapping, hentries⟩
  · rw [hsame, hnone]
    refine ⟨fun path => ?_, fun id => rfl⟩
    split
    · rename_i hpath
      rw [hpath, hnone]
    · rfl
  · refine ⟨hmapping, fun id => ?_⟩
    rw [hentries, hmapped]
    by_cases hid : id = mapped
    · rw [hid, if_pos rfl, if_pos rfl]
    · rw [if_neg hid, if_neg fun hsome => hid (Option.some.inj hsome).symm]

theorem mailboxDeleted_lookup :
    (∀ path id, (indexer.mailboxDeleted username mailbox).uniqueIdMapping.lookup path = some id ↔
      indexer.uniqueIdMapping.lookup path = some id ∧
        startsWith path (username ++ "/" ++ mailbox ++ "/") = false) ∧
    ∀ id entry, (indexer.mailboxDeleted username mailbox).backend.messages.lookup id = some entry ↔
      indexer.backend.messages.lookup id = some entry ∧ ¬ entry.In username mailbox := by
  constructor
  · intro path id
    rw [mailboxDeleted, HashMap.lookup_retain_iff, Bool.not_eq_true']
    rfl
  · intro id entry
    refine (HashMap.lookup_retain_iff).trans ?_
    rw [Bool.not_eq_true', decide_eq_false_iff_not]

end Indexer

/-- What a step does to the entries, the mapping, the log and the phase. -/
inductive Indexing.Effect (indexing indexing' : Indexing) : ListenerAction → Prop where
  | announced {created : CreatedMessage} {messageId : MessageId}
      (entries : ∀ id, indexing'.entry id = indexing.entry id)
      (mapping : ∀ path, indexing'.mapped path = indexing.mapped path)
      (log : indexing'.log = indexing.log ++ [(.messageCreated created, messageId)])
      (phase : ∀ other message, indexing'.listener.phase = .adding other message →
        other = created) :
      Effect indexing indexing' (.receive (.messageCreated created) messageId)
  | modified {username mailbox uniqueId : String} {flags : List MessageFlag} {messageId : MessageId}
      (entries : ∀ id, indexing'.entry id =
        if indexing.mapped (uniqueIdKey username mailbox uniqueId) = some id then
          (indexing.entry id).map fun entry =>
            { entry with metadata := { entry.metadata with flags } }
        else indexing.entry id)
      (mapping : ∀ path, indexing'.mapped path = indexing.mapped path)
      (log : indexing'.log =
        indexing.log ++ [(.messageModified username mailbox uniqueId flags, messageId)])
      (phase : indexing'.listener.phase = .receiving) :
      Effect indexing indexing'
        (.receive (.messageModified username mailbox uniqueId flags) messageId)
  | deleted {username mailbox uniqueId : String} {messageId : MessageId}
      (entries : ∀ id, indexing'.entry id =
        if indexing.mapped (uniqueIdKey username mailbox uniqueId) = some id then none
        else indexing.entry id)
      (mapping : ∀ path, indexing'.mapped path =
        if path = uniqueIdKey username mailbox uniqueId then none else indexing.mapped path)
      (log : indexing'.log =
        indexing.log ++ [(.messageDeleted username mailbox uniqueId, messageId)])
      (phase : indexing'.listener.phase = .receiving) :
      Effect indexing indexing' (.receive (.messageDeleted username mailbox uniqueId) messageId)
  | emptied {username mailbox : String} {messageId : MessageId}
      (entries : ∀ id entry, indexing'.entry id = some entry ↔
        indexing.entry id = some entry ∧ ¬ entry.In username mailbox)
      (mapping : ∀ path id, indexing'.mapped path = some id ↔
        indexing.mapped path = some id ∧
          startsWith path (username ++ "/" ++ mailbox ++ "/") = false)
      (log : indexing'.log = indexing.log ++ [(.mailboxDeleted username mailbox, messageId)])
      (phase : indexing'.listener.phase = .receiving) :
      Effect indexing indexing' (.receive (.mailboxDeleted username mailbox) messageId)
  | passed {event : Event} {messageId : MessageId}
      (kind : event.kind = .mailboxCreated ∨ event.kind = .mailboxRenamed)
      (entries : ∀ id, indexing'.entry id = indexing.entry id)
      (mapping : ∀ path, indexing'.mapped path = indexing.mapped path)
      (log : indexing'.log = indexing.log ++ [(event, messageId)])
      (phase : indexing'.listener.phase = .receiving) :
      Effect indexing indexing' (.receive event messageId)
  | added {created : CreatedMessage} {message : IndexedMessage}
      (waiting : indexing.listener.phase = .adding created message)
      (entries : ∀ id, indexing'.entry id =
        if id = message.id then
          some {
            metadata := message
            path := InMemoryBackend.makeMessagePath created.username created.mailbox message.id
            username := created.username }
        else indexing.entry id)
      (mapping : ∀ path, indexing'.mapped path =
        if path = created.path then some message.id else indexing.mapped path)
      (log : indexing'.log = indexing.log) (phase : indexing'.listener.phase = .receiving) :
      Effect indexing indexing' .add
  | served {command : WriteCommand}
      (entries : ∀ id, indexing'.entry id = indexing.entry id)
      (mapping : ∀ path, indexing'.mapped path = indexing.mapped path)
      (log : indexing'.log = indexing.log)
      (phase : indexing'.listener.phase = indexing.listener.phase) :
      Effect indexing indexing' (.serve command)

variable {engine : RegexEngine} {order : HashOrder (String × String) MailboxInfo}
  {indexing indexing' : Indexing} {action : ListenerAction}

/-- Every step of the listener has the effect of its action. -/
theorem Indexing.effect_of_step (hstep : listenerStep engine order indexing action = some indexing') :
    indexing.Effect indexing' action := by
  cases action with
  | receive event messageId =>
      obtain ⟨listener, hlistener, rfl⟩ := Option.map_eq_some_iff.mp hstep
      simp only [ListenerState.receive] at hlistener
      cases hphase : indexing.listener.phase with
      | adding created message =>
          rw [hphase] at hlistener
          cases hlistener
      | receiving =>
          rw [hphase] at hlistener
          cases event with
          | messageCreated created =>
              obtain rfl := Option.some.inj hlistener
              rcases ListenerState.draw_cases engine order created messageId indexing.listener with
                ⟨-, hdraw⟩ | ⟨info, -, hdraw⟩ <;> rw [hdraw]
              · refine .announced (fun _ => rfl) (fun _ => rfl) rfl fun other message hadding => ?_
                cases hphase.symm.trans hadding
              · refine .announced (fun _ => rfl) (fun _ => rfl) rfl fun other message hadding => ?_
                exact (ListenerPhase.adding.inj hadding).1.symm
          | messageModified username mailbox uniqueId flags =>
              obtain rfl := Option.some.inj hlistener
              obtain ⟨hmapping, hentries⟩ := indexing.listener.indexer.messageModified_lookup
                username mailbox uniqueId flags
              exact .modified hentries (fun path => congrArg (AList.lookup path) hmapping) rfl rfl
          | messageDeleted username mailbox uniqueId =>
              obtain rfl := Option.some.inj hlistener
              obtain ⟨hmapping, hentries⟩ := indexing.listener.indexer.messageDeleted_lookup
                username mailbox uniqueId
              exact .deleted hentries hmapping rfl rfl
          | mailboxDeleted username mailbox =>
              obtain rfl := Option.some.inj hlistener
              obtain ⟨hmapping, hentries⟩ := indexing.listener.indexer.mailboxDeleted_lookup
                username mailbox
              exact .emptied hentries hmapping rfl rfl
          | mailboxCreated =>
              obtain rfl := Option.some.inj hlistener
              exact .passed (.inl rfl) (fun _ => rfl) (fun _ => rfl) rfl hphase
          | mailboxRenamed =>
              obtain rfl := Option.some.inj hlistener
              exact .passed (.inr rfl) (fun _ => rfl) (fun _ => rfl) rfl hphase
  | add =>
      obtain ⟨listener, hlistener, rfl⟩ := Option.map_eq_some_iff.mp hstep
      simp only [ListenerState.add] at hlistener
      cases hphase : indexing.listener.phase with
      | receiving =>
          rw [hphase] at hlistener
          cases hlistener
      | adding created message =>
          rw [hphase] at hlistener
          obtain rfl := Option.some.inj hlistener
          obtain ⟨hentries, hmapping⟩ :=
            indexing.listener.indexer.messageCreated_lookup created message
          exact .added hphase hentries hmapping rfl rfl
  | serve command =>
      obtain rfl := Option.some.inj hstep
      exact .served (fun _ => rfl) (fun _ => rfl) rfl rfl

/-! ## What belongs to a key -/

/-- The key is of the mailbox. -/
def MessageKey.In (key : MessageKey) (username mailbox : String) : Prop :=
  key.username = username ∧ key.mailbox = mailbox

instance (key : MessageKey) (username mailbox : String) : Decidable (key.In username mailbox) :=
  inferInstanceAs (Decidable (_ ∧ _))

/-- What is mapped under a path was drawn for the key, if anything is. -/
def Indexing.OwnedBy (indexing : Indexing) (path : String) (key : MessageKey) : Prop :=
  ∀ id ∈ indexing.mapped path, originOf id indexing.log = some key

instance (indexing : Indexing) (path : String) (key : MessageKey) :
    Decidable (indexing.OwnedBy path key) :=
  decidable_of_iff ((indexing.mapped path).all fun id => originOf id indexing.log = some key)
    (by cases hmapped : indexing.mapped path <;> simp [Indexing.OwnedBy, hmapped])

/-- What is mapped under the paths that begin with a mailbox was drawn for messages of
it. -/
def Indexing.KeysUnder (indexing : Indexing) (username mailbox : String) : Prop :=
  ∀ mapping ∈ indexing.listener.indexer.uniqueIdMapping.entries,
    startsWith mapping.1 (username ++ "/" ++ mailbox ++ "/") = true →
      ∃ key ∈ originOf mapping.2 indexing.log, key.In username mailbox

instance (indexing : Indexing) (username mailbox : String) :
    Decidable (indexing.KeysUnder username mailbox) :=
  decidable_of_iff (∀ mapping ∈ indexing.listener.indexer.uniqueIdMapping.entries,
    startsWith mapping.1 (username ++ "/" ++ mailbox ++ "/") = true →
      (originOf mapping.2 indexing.log).any fun key => key.In username mailbox)
    (by simp [Indexing.KeysUnder, Option.any_eq_true])

/-- A message is announced with the path its key spells. -/
def PathOfKey : ListenerAction → Prop
  | .receive (.messageCreated created) _ => created.path = created.key.path
  | _ => True

instance (action : ListenerAction) : Decidable (PathOfKey action) := by
  refine action.casesOn (fun event messageId => ?_) ?_ ?_
  · refine event.casesOn ?_ ?_ ?_ ?_ ?_ ?_ <;> intros <;> dsimp only [PathOfKey] <;> infer_instance
  · exact instDecidableTrue
  · exact fun _ => instDecidableTrue

/-- An event about a message meets nothing under its path that was drawn for another, and
a deleted mailbox no key that begins with its own. -/
def MeetsItsOwn (indexing : Indexing) : ListenerAction → Prop
  | .receive (.messageCreated created) _ => indexing.OwnedBy created.path created.key
  | .receive (.messageModified username mailbox uniqueId _) _ =>
      indexing.OwnedBy (uniqueIdKey username mailbox uniqueId) ⟨username, mailbox, uniqueId⟩
  | .receive (.messageDeleted username mailbox uniqueId) _ =>
      indexing.OwnedBy (uniqueIdKey username mailbox uniqueId) ⟨username, mailbox, uniqueId⟩
  | .receive (.mailboxDeleted username mailbox) _ => indexing.KeysUnder username mailbox
  | _ => True

instance (indexing : Indexing) (action : ListenerAction) :
    Decidable (MeetsItsOwn indexing action) := by
  refine action.casesOn (fun event messageId => ?_) ?_ ?_
  · refine event.casesOn ?_ ?_ ?_ ?_ ?_ ?_ <;> intros <;> dsimp only [MeetsItsOwn] <;> infer_instance
  · exact instDecidableTrue
  · exact fun _ => instDecidableTrue

/-- The event neither announces nor deletes the message, nor deletes its mailbox. -/
def Spares (key : MessageKey) : ListenerAction → Prop
  | .receive (.messageCreated created) _ => created.key ≠ key
  | .receive (.messageDeleted username mailbox uniqueId) _ => ⟨username, mailbox, uniqueId⟩ ≠ key
  | .receive (.mailboxDeleted username mailbox) _ => ¬ key.In username mailbox
  | _ => True

instance (key : MessageKey) (action : ListenerAction) : Decidable (Spares key action) := by
  refine action.casesOn (fun event messageId => ?_) ?_ ?_
  · refine event.casesOn ?_ ?_ ?_ ?_ ?_ ?_ <;> intros <;> dsimp only [Spares] <;> infer_instance
  · exact instDecidableTrue
  · exact fun _ => instDecidableTrue

/-! ## The invariant -/

/-- What is mapped was drawn for a key that spells the path. -/
structure Indexing.Spelled (indexing : Indexing) : Prop where
  filed : indexing.Filed
  mapping : ∀ path id, indexing.mapped path = some id →
    ∃ key, originOf id indexing.log = some key ∧ path = key.path
  adding : ∀ created message, indexing.listener.phase = .adding created message →
    created.path = created.key.path

theorem originOf_of_mem {log : List Received} (hnodup : (log.map Prod.snd).Nodup)
    {created : CreatedMessage} {id : MessageId} (hmem : (.messageCreated created, id) ∈ log) :
    originOf id log = some created.key := by
  have hsome : (originOf id log).isSome := by
    rw [originOf, List.findSome?_isSome_iff]
    exact ⟨_, hmem, by simp [Received.origin]⟩
  obtain ⟨key, hkey⟩ := Option.isSome_iff_exists.mp hsome
  obtain ⟨⟨event, drawn⟩, hother, horigin⟩ := List.exists_of_findSome?_eq_some hkey
  cases event with
  | messageCreated other =>
      rw [Received.origin] at horigin
      split at horigin
      · rename_i hdrawn
        subst hdrawn
        have hsame := List.inj_on_of_nodup_map hnodup hother hmem rfl
        rw [Event.messageCreated.inj (Prod.mk.inj hsame).1] at horigin
        rw [hkey, horigin]
      · cases horigin
  | _ => cases horigin

theorem spelled_new (registry : InMemoryMailboxes) : (Indexing.new registry).Spelled where
  filed := filed_new registry
  mapping := by
    intro path id hmapped
    simp [Indexing.mapped, Indexing.new, ListenerState.new, Indexer.new] at hmapped
  adding := by
    intro created message hadding
    cases hadding

theorem Indexing.Spelled.in_iff (hspelled : indexing.Spelled) {id : MessageId}
    {entry : MessageEntry} (hentry : indexing.entry id = some entry) :
    ∃ key, originOf id indexing.log = some key ∧
      ∀ username mailbox, entry.In username mailbox ↔ key.In username mailbox := by
  obtain ⟨created, hmem, hfor⟩ := hspelled.filed.live id entry hentry
  refine ⟨created.key, originOf_of_mem hspelled.filed.nodup hmem, fun username mailbox => ?_⟩
  rw [MessageEntry.In, hfor.username, hfor.mailbox]
  rfl

/-- Every step keeps the invariant, if messages are announced with the paths of their
keys. -/
theorem Indexing.Spelled.step (hspelled : indexing.Spelled) (hfresh : FreshIds indexing action)
    (hpath : PathOfKey action) (hstep : listenerStep engine order indexing action = some indexing') :
    indexing'.Spelled := by
  have hfiled := hspelled.filed.step hfresh hstep
  have hlogged {received : Received} {path : String} {id : MessageId}
      (hmapped : indexing.mapped path = some id) :
      ∃ key, originOf id (indexing.log ++ [received]) = some key ∧ path = key.path := by
    obtain ⟨key, horigin, hspells⟩ := hspelled.mapping path id hmapped
    exact ⟨key, originOf_concat_of_some _ _ horigin, hspells⟩
  have hreceiving (hphase : indexing'.listener.phase = .receiving) :
      ∀ created message, indexing'.listener.phase = .adding created message →
        created.path = created.key.path := by
    intro created message hadding
    rw [hphase] at hadding
    cases hadding
  cases indexing.effect_of_step hstep with
  | announced hentries hmapping hlog hphase =>
      refine ⟨hfiled, fun path id hmapped => ?_, fun other message hadding => ?_⟩
      · rw [hmapping] at hmapped
        rw [hlog]
        exact hlogged hmapped
      · rw [hphase other message hadding]
        exact hpath
  | modified hentries hmapping hlog hphase =>
      refine ⟨hfiled, fun path id hmapped => ?_, hreceiving hphase⟩
      rw [hmapping] at hmapped
      rw [hlog]
      exact hlogged hmapped
  | deleted hentries hmapping hlog hphase =>
      refine ⟨hfiled, fun path id hmapped => ?_, hreceiving hphase⟩
      rw [hmapping] at hmapped
      rw [hlog]
      split at hmapped
      · cases hmapped
      · exact hlogged hmapped
  | emptied hentries hmapping hlog hphase =>
      refine ⟨hfiled, fun path id hmapped => ?_, hreceiving hphase⟩
      rw [hlog]
      exact hlogged ((hmapping path id).mp hmapped).1
  | passed hkind hentries hmapping hlog hphase =>
      refine ⟨hfiled, fun path id hmapped => ?_, hreceiving hphase⟩
      rw [hmapping] at hmapped
      rw [hlog]
      exact hlogged hmapped
  | @added created message hwaiting hentries hmapping hlog hphase =>
      refine ⟨hfiled, fun path id hmapped => ?_, hreceiving hphase⟩
      rw [hmapping] at hmapped
      rw [hlog]
      split at hmapped
      · rename_i hsame
        obtain rfl := Option.some.inj hmapped
        refine ⟨created.key, ?_, hsame.trans (hspelled.adding created message hwaiting)⟩
        exact originOf_of_mem hspelled.filed.nodup (hspelled.filed.adding created message hwaiting).1
      · exact hspelled.mapping path id hmapped
  | served hentries hmapping hlog hphase =>
      refine ⟨hfiled, fun path id hmapped => ?_, fun created message hadding => ?_⟩
      · rw [hmapping] at hmapped
        rw [hlog]
        exact hspelled.mapping path id hmapped
      · exact hspelled.adding created message (hphase.symm.trans hadding)

/-! ## What a key leads to -/

/-- Under its key a message is found, and nothing is about to take its place. -/
structure Indexing.Reaches (indexing : Indexing) (key : MessageKey) (id : MessageId) : Prop where
  origin : originOf id indexing.log = some key
  mapped : indexing.mapped key.path = some id
  live : (indexing.entry id).isSome
  aside : ∀ created message, indexing.listener.phase = .adding created message →
    created.path ≠ key.path

variable {key : MessageKey} {id : MessageId}

/-- A message stays within reach of its key, if events meet their own and spare it. -/
theorem Indexing.Reaches.step (hreaches : indexing.Reaches key id) (hspelled : indexing.Spelled)
    (hown : MeetsItsOwn indexing action) (hspares : Spares key action)
    (hstep : listenerStep engine order indexing action = some indexing') :
    indexing'.Reaches key id := by
  have hreceiving (hphase : indexing'.listener.phase = .receiving) :
      ∀ created message, indexing'.listener.phase = .adding created message →
        created.path ≠ key.path := by
    intro created message hadding
    rw [hphase] at hadding
    cases hadding
  have horigin {received : Received} : originOf id (indexing.log ++ [received]) = some key :=
    originOf_concat_of_some _ _ hreaches.origin
  have hmapped := hreaches.mapped
  -- what is mapped to the message is its own path alone
  have hpath {path : String} (hother : indexing.mapped path = some id) : path = key.path := by
    obtain ⟨own, hown, hspells⟩ := hspelled.mapping path id hother
    rw [hspells, Option.some.inj (hown.symm.trans hreaches.origin)]
  cases indexing.effect_of_step hstep with
  | @announced created messageId hentries hmapping hlog hphase =>
      refine ⟨hlog ▸ horigin, (hmapping _).trans hmapped, ?_, fun other message hadding hsame => ?_⟩
      · rw [hentries]
        exact hreaches.live
      · rw [hphase other message hadding] at hsame
        have hcreated := hown id (by rw [hsame]; exact hmapped)
        exact hspares (Option.some.inj (hcreated.symm.trans hreaches.origin))
  | modified hentries hmapping hlog hphase =>
      refine ⟨hlog ▸ horigin, (hmapping _).trans hmapped, ?_, hreceiving hphase⟩
      rw [hentries]
      split
      · rw [Option.isSome_map]
        exact hreaches.live
      · exact hreaches.live
  | @deleted username mailbox uniqueId messageId hentries hmapping hlog hphase =>
      have hne : key.path ≠ uniqueIdKey username mailbox uniqueId := by
        intro hsame
        have howner := hown id (hsame ▸ hmapped)
        exact hspares (Option.some.inj (howner.symm.trans hreaches.origin))
      refine ⟨hlog ▸ horigin, ?_, ?_, hreceiving hphase⟩
      · rw [hmapping, if_neg hne]
        exact hmapped
      · rw [hentries, if_neg fun hother => hne (hpath hother).symm]
        exact hreaches.live
  | @emptied username mailbox messageId hentries hmapping hlog hphase =>
      obtain ⟨entry, hentry⟩ := Option.isSome_iff_exists.mp hreaches.live
      refine ⟨hlog ▸ horigin, (hmapping _ _).mpr ⟨hmapped, ?_⟩, ?_, hreceiving hphase⟩
      · rw [← Bool.not_eq_true]
        intro hunder
        obtain ⟨owner, howner, hin⟩ := hown ⟨key.path, id⟩ (HashMap.lookup_eq_some_iff.mp hmapped)
          hunder
        rw [Option.some.inj (howner.symm.trans hreaches.origin)] at hin
        exact hspares hin
      · obtain ⟨owner, howner, hin⟩ := hspelled.in_iff hentry
        rw [Option.some.inj (howner.symm.trans hreaches.origin)] at hin
        rw [(hentries id entry).mpr ⟨hentry, fun hentryIn => hspares ((hin _ _).mp hentryIn)⟩]
        rfl
  | passed hkind hentries hmapping hlog hphase =>
      refine ⟨hlog ▸ horigin, (hmapping _).trans hmapped, ?_, hreceiving hphase⟩
      rw [hentries]
      exact hreaches.live
  | @added created message hwaiting hentries hmapping hlog hphase =>
      refine ⟨hlog ▸ hreaches.origin, ?_, ?_, hreceiving hphase⟩
      · rw [hmapping, if_neg (hreaches.aside created message hwaiting).symm]
        exact hmapped
      · rw [hentries]
        split
        · rfl
        · exact hreaches.live
  | served hentries hmapping hlog hphase =>
      refine ⟨hlog ▸ hreaches.origin, (hmapping _).trans hmapped, ?_, fun created message hadding =>
        hreaches.aside created message (hphase.symm.trans hadding)⟩
      rw [hentries]
      exact hreaches.live

/-- The next `MessageModified` or `MessageDeleted` for the key acts on the message. -/
def Indexing.TakesEffect (engine : RegexEngine) (order : HashOrder (String × String) MailboxInfo)
    (indexing : Indexing) (key : MessageKey) (id : MessageId) : Prop :=
  (∀ flags messageId after,
    listenerStep engine order indexing
      (.receive (.messageModified key.username key.mailbox key.uniqueId flags) messageId) =
        some after →
    ∃ entry, indexing.entry id = some entry ∧
      after.entry id = some { entry with metadata := { entry.metadata with flags } }) ∧
  ∀ messageId after,
    listenerStep engine order indexing
      (.receive (.messageDeleted key.username key.mailbox key.uniqueId) messageId) = some after →
    (indexing.entry id).isSome ∧ after.entry id = none

theorem Indexing.Reaches.takesEffect (hreaches : indexing.Reaches key id) :
    indexing.TakesEffect engine order key id := by
  constructor
  · intro flags messageId after hstep
    obtain ⟨entry, hentry⟩ := Option.isSome_iff_exists.mp hreaches.live
    cases indexing.effect_of_step hstep with
    | modified hentries =>
        have hmapped : indexing.mapped (uniqueIdKey key.username key.mailbox key.uniqueId) =
            some id := hreaches.mapped
        refine ⟨entry, hentry, ?_⟩
        rw [hentries, if_pos hmapped, hentry]
        rfl
    | passed hkind => rcases hkind with hkind | hkind <;> cases hkind
  · intro messageId after hstep
    cases indexing.effect_of_step hstep with
    | deleted hentries =>
        have hmapped : indexing.mapped (uniqueIdKey key.username key.mailbox key.uniqueId) =
            some id := hreaches.mapped
        exact ⟨hreaches.live, by rw [hentries, if_pos hmapped]⟩
    | passed hkind => rcases hkind with hkind | hkind <;> cases hkind

/-- The runs whose identifiers are fresh and whose steps meet a condition. -/
def ListenerRuns (engine : RegexEngine) (order : HashOrder (String × String) MailboxInfo)
    (condition : Indexing → ListenerAction → Prop) :
    Indexing → List ListenerAction → Indexing → Prop :=
  Steps (guarded (fun source action => FreshIds source action ∧ condition source action)
    fun source action target => listenerStep engine order source action = some target)

/-- Messages are announced under their keys, and no event meets what belongs to another. -/
def KeysAgree (indexing : Indexing) (action : ListenerAction) : Prop :=
  PathOfKey action ∧ MeetsItsOwn indexing action

instance (indexing : Indexing) (action : ListenerAction) : Decidable (KeysAgree indexing action) :=
  inferInstanceAs (Decidable (_ ∧ _))

theorem Indexing.Spelled.run {condition : Indexing → ListenerAction → Prop}
    (hpath : ∀ source action, condition source action → PathOfKey action)
    {actions : List ListenerAction} (hrun : ListenerRuns engine order condition indexing actions
      indexing') (hspelled : indexing.Spelled) : indexing'.Spelled :=
  hrun.invariant_of_guarded (fun _ _ _ hsource hguard hstep =>
    hsource.step hguard.1 (hpath _ _ hguard.2) hstep) hspelled

theorem Indexing.Reaches.run {actions : List ListenerAction}
    (hrun : ListenerRuns engine order (fun source action => KeysAgree source action ∧
      Spares key action) indexing actions indexing')
    (hreaches : indexing.Reaches key id) (hspelled : indexing.Spelled) :
    indexing'.Reaches key id := by
  let Inv (state : Indexing) : Prop := state.Spelled ∧ state.Reaches key id
  have hstep (source : Indexing) (action : ListenerAction) (target : Indexing) (hsource : Inv source)
      (hguard : FreshIds source action ∧ KeysAgree source action ∧ Spares key action)
      (hstep : listenerStep engine order source action = some target) : Inv target := by
    obtain ⟨hfresh, ⟨hpath, hown⟩, hspares⟩ := hguard
    exact ⟨hsource.1.step hfresh hpath hstep, hsource.2.step hsource.1 hown hspares hstep⟩
  have hboth : Inv indexing' := hrun.invariant_of_guarded hstep ⟨hspelled, hreaches⟩
  exact hboth.2

/--
Later events find the message.  In every run whose steps meet the condition: from the
moment a message is added until it is announced again or deleted, or its mailbox is,
the next `MessageModified` or `MessageDeleted` for its key acts on the entry that was
added, and no such event touches an entry of another key.
-/
theorem later_events_find_message (engine : RegexEngine)
    (order : HashOrder (String × String) MailboxInfo) (registry : InMemoryMailboxes)
    (actions : List ListenerAction) (indexing : Indexing)
    (hrun : ListenerRuns engine order KeysAgree (.new registry) actions indexing) :
    (∀ created message, indexing.listener.phase = .adding created message →
      ∀ added, listenerStep engine order indexing .add = some added →
        ∀ between later, ListenerRuns engine order (fun source action =>
            KeysAgree source action ∧ Spares created.key action) added between later →
          later.TakesEffect engine order created.key message.id) ∧
    ∀ key event messageId,
      ((∃ flags, event = .messageModified key.username key.mailbox key.uniqueId flags) ∨
        event = .messageDeleted key.username key.mailbox key.uniqueId) →
      KeysAgree indexing (.receive event messageId) →
      ∀ after, listenerStep engine order indexing (.receive event messageId) = some after →
        ∀ id, originOf id indexing.log ≠ some key → after.entry id = indexing.entry id := by
  have hspelled := (spelled_new registry).run (fun _ _ hagree => hagree.1) hrun
  constructor
  · intro created message hwaiting added hadd between later hlater
    have hadded : added.Spelled :=
      hspelled.step (show FreshIds indexing .add from trivial) trivial hadd
    refine Indexing.Reaches.takesEffect (Indexing.Reaches.run hlater ?_ hadded)
    have horigin := originOf_of_mem hspelled.filed.nodup
      (hspelled.filed.adding created message hwaiting).1
    cases indexing.effect_of_step hadd with
    | @added other later hother hentries hmapping hlog hphase =>
        obtain ⟨rfl, rfl⟩ := ListenerPhase.adding.inj (hwaiting.symm.trans hother)
        refine ⟨hlog ▸ horigin, ?_, ?_, fun other later hadding => ?_⟩
        · rw [hmapping, if_pos (hspelled.adding created message hwaiting).symm]
        · rw [hentries, if_pos rfl]
          rfl
        · rw [hphase] at hadding
          cases hadding
  · intro key event messageId hevent hagree after hstep id hother
    have hunmapped (hown : indexing.OwnedBy
        (uniqueIdKey key.username key.mailbox key.uniqueId) key) :
        indexing.mapped (uniqueIdKey key.username key.mailbox key.uniqueId) ≠ some id :=
      fun hmapped => hother (hown id hmapped)
    rcases hevent with ⟨flags, rfl⟩ | rfl
    · cases indexing.effect_of_step hstep with
      | modified hentries => rw [hentries, if_neg (hunmapped hagree.2)]
      | passed hkind => rcases hkind with hkind | hkind <;> cases hkind
    · cases indexing.effect_of_step hstep with
      | deleted hentries => rw [hentries, if_neg (hunmapped hagree.2)]
      | passed hkind => rcases hkind with hkind | hkind <;> cases hkind

/-- A message that is announced under its key. -/
theorem later_events_find_message_box :
    ∃ indexing created message added,
      ListenerRuns .searching .listed KeysAgree (.new .new)
        [.serve (.create "ann" "box"), .receive (createdForAnn "box" "m1") ⟨1⟩] indexing ∧
      indexing.listener.phase = .adding created message ∧
      listenerStep .searching .listed indexing .add = some added ∧
      added.TakesEffect .searching .listed created.key message.id := by
  obtain ⟨added, hadded⟩ := Option.isSome_iff_exists.mp (show (Option.bind (List.foldlM
      (fun source action => if FreshIds source action ∧ KeysAgree source action then
        listenerStep .searching .listed source action else none)
      (.new .new) [.serve (.create "ann" "box"), .receive (createdForAnn "box" "m1") ⟨1⟩])
        fun indexing => listenerStep .searching .listed indexing .add).isSome from by
    decide +kernel)
  obtain ⟨indexing, hindexing, hadd⟩ := Option.bind_eq_some_iff.mp hadded
  have hrun : ListenerRuns .searching .listed KeysAgree (.new .new)
      [.serve (.create "ann" "box"), .receive (createdForAnn "box" "m1") ⟨1⟩] indexing :=
    Steps.guarded_of_foldlM hindexing
  cases indexing.effect_of_step hadd with
  | @added created message hwaiting =>
      refine ⟨indexing, created, message, added, hrun, hwaiting, hadd, ?_⟩
      exact (later_events_find_message .searching .listed .new _ indexing hrun).1 created message
        hwaiting added hadd [] added (.refl added)

/-- A message of ann's mailbox `box`, with some path. -/
def createdAt (path : String) : CreatedMessage where
  username := "ann"
  mailbox := "box"
  uniqueId := "m1"
  path
  flags := []
  isNew := true
  fromHeader := "bob"
  toHeader := "ann"
  subject := "Hello"
  bodyPreview := ""
  size := 100
  internalDate := 0

/-- The path of a message file with its extension is not the key that later events are
looked up under. -/
theorem path_of_file_is_not_found :
    ∃ actions indexing created message added,
      ListenerRuns .searching .listed (fun _ _ => True) (.new .new) actions indexing ∧
      indexing.listener.phase = .adding created message ∧
      listenerStep .searching .listed indexing .add = some added ∧
      ¬ added.TakesEffect .searching .listed created.key message.id := by
  let created := createdAt "ann/box/m1.eml"
  let message := ListenerState.indexed created ⟨1⟩ 1
  let actions : List ListenerAction :=
    [.serve (.create "ann" "box"), .receive (.messageCreated created) ⟨1⟩]
  let modified : ListenerAction := .receive (.messageModified "ann" "box" "m1" [.seen]) ⟨2⟩
  have hsummary : ((List.foldlM (fun source action => if FreshIds source action ∧ True then
      listenerStep .searching .listed source action else none) (.new .new) actions).bind
        fun indexing => (listenerStep .searching .listed indexing .add).bind
          fun added => (listenerStep .searching .listed added modified).map fun after =>
            (indexing.listener.phase, (after.entry ⟨1⟩).map fun entry => entry.metadata.flags)) =
      some (.adding created message, some []) := by
    decide +kernel
  obtain ⟨indexing, hindexing, hrest⟩ := Option.bind_eq_some_iff.mp hsummary
  obtain ⟨added, hadd, hlast⟩ := Option.bind_eq_some_iff.mp hrest
  obtain ⟨after, hafter, hpair⟩ := Option.map_eq_some_iff.mp hlast
  obtain ⟨hphase, hflags⟩ := Prod.mk.inj hpair
  refine ⟨actions, indexing, created, message, added, Steps.guarded_of_foldlM hindexing, hphase,
    hadd, fun heffect => ?_⟩
  obtain ⟨entry, -, hentry⟩ := heffect.1 [.seen] ⟨2⟩ after hafter
  have hmessage : after.entry ⟨1⟩ = _ := hentry
  rw [hmessage] at hflags
  cases hflags

end Scuttled
