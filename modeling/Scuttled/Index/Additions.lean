import Scuttled.Index.InMemory

/-!
# Where a message is filed

The mailbox of a message is given to `add_message` twice: as an argument, which
makes the path, and as a field of the metadata, which every query and every
removal looks at.  A message is filed where it was added when the two agree.
-/

namespace Scuttled

open Rust Foundation

namespace Indexer

/-- `writer_loop`: the backend serves one command after the other. -/
def writerLoop : Machine InMemoryBackend WriteCommand WriteReply where
  step := writerStep

/-- The arguments of `add_message`. -/
structure Addition where
  username : String
  mailbox : String
  message : IndexedMessage
  deriving DecidableEq

def Addition.path (addition : Addition) : String :=
  InMemoryBackend.makeMessagePath addition.username addition.mailbox addition.message.id

def WriteCommand.addition? : WriteCommand → Option Addition
  | .addMessage username mailbox message => some ⟨username, mailbox, message⟩
  | _ => none

/-- The last addition of a message among the commands. -/
def lastAddition (id : MessageId) (commands : List WriteCommand) : Option Addition :=
  (commands.filterMap WriteCommand.addition?).reverse.find? fun addition =>
    addition.message.id = id

theorem lastAddition_concat (id : MessageId) (commands : List WriteCommand)
    (command : WriteCommand) :
    lastAddition id (commands ++ [command]) =
      (command.addition?.filter fun addition => addition.message.id = id).or
        (lastAddition id commands) := by
  unfold lastAddition
  rw [List.filterMap_append, List.reverse_append, List.find?_append]
  congr 1
  cases hadds : command.addition? with
  | none => simp [hadds]
  | some addition =>
      by_cases hid : addition.message.id = id <;> simp [hadds, hid, Option.filter_some]

theorem addMessage_mem_of_lastAddition {id : MessageId} {commands : List WriteCommand}
    {addition : Addition} (hlast : lastAddition id commands = some addition) :
    addition.message.id = id ∧
      .addMessage addition.username addition.mailbox addition.message ∈ commands := by
  have hid := List.find?_some hlast
  have hmem := List.mem_reverse.mp (List.mem_of_find?_eq_some hlast)
  obtain ⟨command, hcommand, hadds⟩ := List.mem_filterMap.mp hmem
  refine ⟨of_decide_eq_true hid, ?_⟩
  cases command with
  | addMessage username mailbox message => exact Option.some.inj hadds ▸ hcommand
  | updateFlags id flags => cases hadds
  | deleteMessage id => cases hadds
  | removeMessagesForMailbox username mailbox => cases hadds

end Indexer

namespace InMemoryBackend

open Indexer (WriteCommand Addition lastAddition)

theorem makeMessagePath_id_inj {username mailbox username' mailbox' : String} {id id' : MessageId}
    (hpath : makeMessagePath username mailbox id = makeMessagePath username' mailbox' id') :
    id = id' := by
  have hlength : id.display.toList.length = id'.display.toList.length := by
    simp [MessageId.display]
  have hlist := congrArg String.toList hpath
  simp only [makeMessagePath, String.toList_append] at hlist
  have hbefore := List.append_cancel_right hlist
  have hdisplay := List.append_inj_right' hbefore hlength
  exact MessageId.display_injective (String.toList_injective hdisplay)

/-! ## What the entries are -/

/-- The entry is that of the addition, but for its flags. -/
structure EntryOf (addition : Addition) (entry : MessageEntry) : Prop where
  username : entry.username = addition.username
  path : entry.path = addition.path
  metadata : entry.metadata = { addition.message with flags := entry.metadata.flags }

/-- Every entry is that of the last addition of its message. -/
def Traced (commands : List WriteCommand) (backend : InMemoryBackend) : Prop :=
  ∀ id entry, backend.messages.lookup id = some entry →
    ∃ addition, lastAddition id commands = some addition ∧ EntryOf addition entry

theorem Traced.of_within {commands : List WriteCommand} {backend backend' : InMemoryBackend}
    (htraced : Traced commands backend) {command : WriteCommand}
    (hadds : command.addition? = none)
    (hwithin : ∀ id entry', backend'.messages.lookup id = some entry' →
      ∃ entry flags, backend.messages.lookup id = some entry ∧
        entry' = { entry with metadata := { entry.metadata with flags } }) :
    Traced (commands ++ [command]) backend' := by
  intro id entry' hentry'
  obtain ⟨entry, flags, hentry, rfl⟩ := hwithin id entry' hentry'
  obtain ⟨addition, hlast, hof⟩ := htraced id entry hentry
  refine ⟨addition, ?_, hof.username, hof.path, ?_⟩
  · rw [Indexer.lastAddition_concat, hadds]
    exact hlast
  · rw [hof.metadata]

/-- Every command keeps the entries those of the last additions. -/
theorem Traced.step {commands : List WriteCommand} {backend : InMemoryBackend}
    (htraced : Traced commands backend) (command : WriteCommand) :
    Traced (commands ++ [command]) (Indexer.writerStep backend command).1 := by
  cases command with
  | addMessage username mailbox message =>
      intro id entry hentry
      simp only [Indexer.writerStep, addMessage, HashMap.lookup_insert_eq] at hentry
      rw [Indexer.lastAddition_concat, WriteCommand.addition?]
      by_cases hid : id = message.id
      · rw [if_pos hid] at hentry
        obtain rfl := Option.some.inj hentry
        exact ⟨⟨username, mailbox, message⟩, by simp [hid], rfl, rfl, rfl⟩
      · rw [if_neg hid] at hentry
        obtain ⟨addition, hlast, hof⟩ := htraced id entry hentry
        exact ⟨addition, by simp [Ne.symm hid, hlast, Option.filter_some], hof⟩
  | updateFlags updated flags =>
      refine htraced.of_within rfl fun id entry' hentry' => ?_
      simp only [Indexer.writerStep, lookup_updateFlags] at hentry'
      by_cases hid : id = updated
      · rw [if_pos hid] at hentry'
        obtain ⟨entry, hentry, rfl⟩ := Option.map_eq_some_iff.mp hentry'
        exact ⟨entry, flags, hid ▸ hentry, rfl⟩
      · rw [if_neg hid] at hentry'
        exact ⟨entry', entry'.metadata.flags, hentry', rfl⟩
  | deleteMessage deleted =>
      refine htraced.of_within rfl fun id entry' hentry' => ?_
      simp only [Indexer.writerStep, lookup_deleteMessage] at hentry'
      by_cases hid : id = deleted
      · rw [if_pos hid] at hentry'
        cases hentry'
      · rw [if_neg hid] at hentry'
        exact ⟨entry', entry'.metadata.flags, hentry', rfl⟩
  | removeMessagesForMailbox username mailbox =>
      refine htraced.of_within rfl fun id entry' hentry' => ?_
      exact ⟨entry', entry'.metadata.flags, (HashMap.lookup_retain_iff.mp hentry').1, rfl⟩

theorem traced_final (commands : List WriteCommand) :
    Traced commands (Indexer.writerLoop.final new commands) :=
  Machine.inputs_invariant (fun _ _ command htraced => htraced.step command)
    (fun _ _ hentry => nomatch hentry) commands

/-! ## Where an entry is found -/

/-- The message is found where it was added, and nowhere else. -/
structure FiledAt (order : HashOrder MessageId MessageEntry) (backend : InMemoryBackend)
    (addition : Addition) : Prop where
  listed : ∀ iteration, addition.path ∈
    backend.listMessagePaths order iteration addition.username addition.mailbox
  searched : ∀ iteration, addition.path ∈
    backend.search order iteration addition.username addition.mailbox .all
  byUid : ∀ iteration, (backend.getMessagePathByUid order iteration addition.username
    addition.mailbox addition.message.uid).isSome
  nowhereElse : ∀ iteration username mailbox,
    (username, mailbox) ≠ (addition.username, addition.mailbox) →
      addition.path ∉ backend.listMessagePaths order iteration username mailbox ∧
      (∀ query, addition.path ∉ backend.search order iteration username mailbox query) ∧
      ∀ uid, backend.getMessagePathByUid order iteration username mailbox uid ≠ some addition.path
  removed : (backend.removeMessagesForMailbox addition.username
    addition.mailbox).2.messages.lookup addition.message.id = none
  spared : ∀ username mailbox, (username, mailbox) ≠ (addition.username, addition.mailbox) →
    (backend.removeMessagesForMailbox username mailbox).2.messages.lookup addition.message.id =
      backend.messages.lookup addition.message.id

/-- Every message that is indexed is found where it was added. -/
def FiledWhereAdded (order : HashOrder MessageId MessageEntry) (commands : List WriteCommand)
    (backend : InMemoryBackend) : Prop :=
  ∀ id addition, lastAddition id commands = some addition →
    (backend.messages.lookup id).isSome → FiledAt order backend addition

section Found

variable {order : HashOrder MessageId MessageEntry} {commands : List WriteCommand}
  {backend : InMemoryBackend} {id : MessageId} {addition : Addition} {entry : MessageEntry}

theorem Traced.eq_of_path (htraced : Traced commands backend)
    (hentry : backend.messages.lookup addition.message.id = some entry) {id' : MessageId}
    {entry' : MessageEntry} (hentry' : backend.messages.lookup id' = some entry')
    (hpath : entry'.path = addition.path) : entry' = entry := by
  obtain ⟨addition', hlast', hof'⟩ := htraced id' entry' hentry'
  have hid : addition'.message.id = addition.message.id :=
    makeMessagePath_id_inj (hof'.path.symm.trans hpath)
  rw [← (Indexer.addMessage_mem_of_lastAddition hlast').1, hid, hentry] at hentry'
  exact (Option.some.inj hentry').symm

theorem Traced.in_of_mem_entriesOf (htraced : Traced commands backend)
    (hentry : backend.messages.lookup addition.message.id = some entry) {iteration : Nat}
    {username mailbox : String} {found : MessageEntry}
    (hfound : found ∈ backend.entriesOf order iteration username mailbox)
    (hpath : found.path = addition.path) : entry.In username mailbox := by
  obtain ⟨⟨id', hentry'⟩, hin⟩ := mem_entriesOf_iff.mp hfound
  rwa [htraced.eq_of_path hentry hentry' hpath] at hin

theorem mem_entriesOf_of_candidate {iteration : Nat} {username mailbox : String} {uid : Uid}
    {candidate : MessageEntry}
    (hcandidate : candidate ∈ backend.candidates order iteration username mailbox uid) :
    candidate ∈ backend.entriesOf order iteration username mailbox := by
  obtain ⟨hmem, htest⟩ := List.mem_filter.mp hcandidate
  exact List.mem_filter.mpr ⟨hmem, (Bool.and_eq_true_iff.mp htest).1⟩

/-- The entry of an addition whose message names the mailbox it was added to. -/
theorem filedAt_of_same (htraced : Traced commands backend)
    (hlast : lastAddition id commands = some addition)
    (hentry : backend.messages.lookup id = some entry)
    (hsame : addition.message.mailbox = addition.mailbox) : FiledAt order backend addition := by
  obtain ⟨added, hadded, hof⟩ := htraced id entry hentry
  obtain rfl := Option.some.inj (hlast.symm.trans hadded)
  obtain rfl := (Indexer.addMessage_mem_of_lastAddition hlast).1
  have hmailbox : entry.metadata.mailbox = addition.mailbox := by
    rw [hof.metadata]
    exact hsame
  have hin : entry.In addition.username addition.mailbox := ⟨hof.username, hmailbox⟩
  have hmem (iteration : Nat) : entry ∈
      backend.entriesOf order iteration addition.username addition.mailbox :=
    mem_entriesOf_iff.mpr ⟨⟨_, hentry⟩, hin⟩
  have hout {username mailbox : String}
      (hne : (username, mailbox) ≠ (addition.username, addition.mailbox)) :
      ¬ entry.In username mailbox := by
    rintro ⟨husername, hmailbox'⟩
    exact hne (Prod.ext (husername.symm.trans hin.1) (hmailbox'.symm.trans hin.2))
  constructor
  · intro iteration
    exact List.mem_map.mpr ⟨entry, hmem iteration, hof.path⟩
  · intro iteration
    exact List.mem_map.mpr ⟨entry, List.mem_filter.mpr ⟨hmem iteration, rfl⟩, hof.path⟩
  · intro iteration
    have hcandidate : entry ∈ backend.candidates order iteration addition.username
        addition.mailbox addition.message.uid := by
      obtain ⟨hlisted, htest⟩ := List.mem_filter.mp (hmem iteration)
      refine List.mem_filter.mpr ⟨hlisted, Bool.and_eq_true_iff.mpr ⟨htest, ?_⟩⟩
      rw [beq_iff_eq, hof.metadata]
    rw [getMessagePathByUid, Option.isSome_map, List.isSome_head?]
    exact List.ne_nil_of_mem hcandidate
  · intro iteration username mailbox hne
    refine ⟨fun hlisted => ?_, fun query hsearched => ?_, fun uid hfound => ?_⟩
    · obtain ⟨found, hfound, hpath⟩ := List.mem_map.mp hlisted
      exact hout hne (htraced.in_of_mem_entriesOf hentry hfound hpath)
    · obtain ⟨found, hfound, hpath⟩ := List.mem_map.mp hsearched
      exact hout hne (htraced.in_of_mem_entriesOf hentry (List.mem_filter.mp hfound).1 hpath)
    · obtain ⟨found, hhead, hpath⟩ := Option.map_eq_some_iff.mp hfound
      have hcandidate := mem_entriesOf_of_candidate (List.mem_of_mem_head? hhead)
      exact hout hne (htraced.in_of_mem_entriesOf hentry hcandidate hpath)
  · rw [Option.eq_none_iff_forall_ne_some]
    intro kept hkept
    obtain ⟨hstored, hkeep⟩ := HashMap.lookup_retain_iff.mp hkept
    obtain rfl := Option.some.inj (hentry.symm.trans hstored)
    simp [hin] at hkeep
  · intro username mailbox hne
    rw [hentry]
    exact HashMap.lookup_retain_iff.mpr ⟨hentry, by simp [hout hne]⟩

theorem mailbox_eq_of_filedAt (htraced : Traced commands backend)
    (hlast : lastAddition id commands = some addition)
    (hentry : backend.messages.lookup id = some entry) (hfiled : FiledAt order backend addition) :
    addition.message.mailbox = addition.mailbox := by
  obtain ⟨added, hadded, hof⟩ := htraced id entry hentry
  obtain rfl := Option.some.inj (hlast.symm.trans hadded)
  obtain rfl := (Indexer.addMessage_mem_of_lastAddition hlast).1
  obtain ⟨found, hfound, hpath⟩ := List.mem_map.mp (hfiled.listed 0)
  have hmailbox := (htraced.in_of_mem_entriesOf hentry hfound hpath).2
  rw [hof.metadata] at hmailbox
  exact hmailbox

end Found

/--
A message is filed where it was added, in every state of a run of the backend,
exactly if every message that is added names, in its metadata, the mailbox it is
added to.
-/
theorem filedWhereAdded_iff (order : HashOrder MessageId MessageEntry)
    (commands : List WriteCommand) :
    (∀ done rest, commands = done ++ rest →
        FiledWhereAdded order done (Indexer.writerLoop.final new done)) ↔
      ∀ username mailbox message, .addMessage username mailbox message ∈ commands →
        message.mailbox = mailbox := by
  constructor
  · intro halways username mailbox message hmem
    obtain ⟨done, rest, rfl⟩ := List.append_of_mem hmem
    have hlaw := halways (done ++ [.addMessage username mailbox message]) rest
      (by rw [List.append_assoc]; rfl)
    have hlast : lastAddition message.id (done ++ [.addMessage username mailbox message]) =
        some ⟨username, mailbox, message⟩ := by
      rw [Indexer.lastAddition_concat]
      simp [WriteCommand.addition?]
    have htraced := traced_final (done ++ [.addMessage username mailbox message])
    rw [Machine.final_append] at hlaw htraced
    have hentry := AList.lookup_insert (a := message.id)
      (b := { metadata := message
              path := makeMessagePath username mailbox message.id
              username := username : MessageEntry })
      (Indexer.writerLoop.final new done).messages
    exact mailbox_eq_of_filedAt htraced hlast hentry
      (hlaw _ _ hlast (Option.isSome_iff_exists.mpr ⟨_, hentry⟩))
  · intro hsame done rest hcommands id addition hlast hlive
    obtain ⟨entry, hentry⟩ := Option.isSome_iff_exists.mp hlive
    have hmem := (Indexer.addMessage_mem_of_lastAddition hlast).2
    refine filedAt_of_same (traced_final done) hlast hentry (hsame addition.username _ _ ?_)
    rw [hcommands]
    exact List.mem_append_left rest hmem

/-- A message whose metadata names another mailbox is not listed where it was
added. -/
theorem not_filedWhereAdded_misnamed :
    let message : IndexedMessage :=
      { id := ⟨1⟩, uid := 1, mailbox := "archive", flags := [], internalDate := 0, size := 0
        fromHeader := "", toHeader := "", subject := "", bodyPreview := "" }
    let commands : List WriteCommand := [.addMessage "ann" "box" message]
    ¬ FiledWhereAdded .listed commands (Indexer.writerLoop.final new commands) := by
  intro message commands hlaw
  have hlisted := (hlaw ⟨1⟩ ⟨"ann", "box", message⟩ (by decide) (by decide)).listed 0
  have hnone : (Indexer.writerLoop.final new commands).listMessagePaths .listed 0 "ann" "box" =
      [] := by decide
  rw [hnone] at hlisted
  cases hlisted

end InMemoryBackend

end Scuttled
