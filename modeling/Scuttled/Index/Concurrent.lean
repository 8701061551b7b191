import Scuttled.Foundation.Waiting
import Scuttled.Index.Additions

/-!
# The index under concurrent calls

Clones of the `Indexer` share one backend.  Writes go through the writer's channel, one
at a time; reads lock the backend and meet its entries in whatever order the iteration
takes.  What a search finds of a message that was added before is decided by the message
and the flags it was given since, whatever else goes on.
-/

namespace Scuttled

open Rust Foundation

namespace Indexer

/-- A call of some client: a command for the writer, or a read. -/
inductive IndexCall where
  | write (command : WriteCommand)
  | getMessagePath (id : MessageId)
  | getMessagePathByUid (username mailbox : String) (uid : Uid)
  | listMessagePaths (username mailbox : String)
  | getMessageMetadata (id : MessageId)
  | search (username mailbox : String) (query : SearchQuery)

/-- What a call is answered with. -/
inductive IndexReply where
  | written (reply : WriteReply)
  | path (result : Result (Option String))
  | paths (result : Result (List String))
  | metadata (result : Result (Option IndexedMessage))

/-- The backend, and how often its map has been iterated over so far. -/
structure IndexState where
  backend : InMemoryBackend
  iterations : Nat

/-- The index, one call after the other. -/
def indexMachine (order : HashOrder MessageId MessageEntry) :
    Machine IndexState IndexCall IndexReply where
  step state
    | .write command =>
        ({ state with backend := (writerStep state.backend command).1 },
          .written (writerStep state.backend command).2)
    | .getMessagePath id => (state, .path (.ok (state.backend.getMessagePath id)))
    | .getMessagePathByUid username mailbox uid =>
        ({ state with iterations := state.iterations + 1 },
          .path (.ok (state.backend.getMessagePathByUid order state.iterations username mailbox uid)))
    | .listMessagePaths username mailbox =>
        ({ state with iterations := state.iterations + 1 },
          .paths (.ok (state.backend.listMessagePaths order state.iterations username mailbox)))
    | .getMessageMetadata id =>
        (state, .metadata (.ok ((state.backend.messages.lookup id).map MessageEntry.metadata)))
    | .search username mailbox query =>
        ({ state with iterations := state.iterations + 1 },
          .paths (.ok (state.backend.search order state.iterations username mailbox query)))

/-- The `Indexer` among its clones: `channel(100)` leads to `writer_loop`, the reads take the
lock themselves. -/
def indexService (order : HashOrder MessageId MessageEntry) :
    Service IndexState IndexCall IndexReply where
  object := indexMachine order
  direct
    | .write _ => false
    | _ => true
  capacity := 100

/-- The call neither removes the message nor adds another under its identifier. -/
def IndexCall.Leaves (username mailbox : String) (message : IndexedMessage) : IndexCall → Prop
  | .write (.addMessage username' mailbox' message') =>
      message'.id = message.id → username' = username ∧ mailbox' = mailbox ∧ message' = message
  | .write (.deleteMessage id) => id ≠ message.id
  | .write (.removeMessagesForMailbox username' mailbox') =>
      ¬ (username' = username ∧ mailbox' = message.mailbox)
  | _ => True

instance (username mailbox : String) (message : IndexedMessage) (call : IndexCall) :
    Decidable (call.Leaves username mailbox message) := by
  unfold IndexCall.Leaves
  split <;> infer_instance

/-! ## One call after the other -/

section Runs

variable (order : HashOrder MessageId MessageEntry) {state : IndexState} {username mailbox : String}
  {message : IndexedMessage}

/-- What is stored under an identifier lies where the identifier says. -/
def Named (state : IndexState) : Prop :=
  ∀ id entry, state.backend.messages.lookup id = some entry →
    ∃ username mailbox, entry.path = InMemoryBackend.makeMessagePath username mailbox id

/-- The message is stored, with some of these flags. -/
def StoredWith (username mailbox : String) (message : IndexedMessage)
    (flagged : List MessageFlag → Prop) (state : IndexState) : Prop :=
  ∃ flags, flagged flags ∧ state.backend.messages.lookup message.id =
    some { metadata := { message with flags }, username
           path := InMemoryBackend.makeMessagePath username mailbox message.id }

theorem Named.step (hnamed : Named state) (call : IndexCall) :
    Named ((indexMachine order).step state call).1 := by
  intro id entry hentry
  cases call with
  | getMessagePath _ | getMessagePathByUid _ _ _ | listMessagePaths _ _ | getMessageMetadata _
  | search _ _ _ => exact hnamed id entry hentry
  | write command =>
      cases command with
      | addMessage username mailbox message =>
          have hstored := HashMap.lookup_insert_eq.symm.trans hentry
          split at hstored
          · rename_i hid
            obtain rfl := Option.some.inj hstored
            exact ⟨username, mailbox, hid ▸ rfl⟩
          · exact hnamed id entry hstored
      | updateFlags updated flags =>
          have hstored := (InMemoryBackend.lookup_updateFlags updated id flags state.backend).symm.trans
            hentry
          split at hstored
          · rename_i hid
            obtain ⟨before, hbefore, rfl⟩ := Option.map_eq_some_iff.mp hstored
            exact hnamed id before (hid ▸ hbefore)
          · exact hnamed id entry hstored
      | deleteMessage deleted =>
          have hstored := (InMemoryBackend.lookup_deleteMessage deleted id state.backend).symm.trans
            hentry
          split at hstored
          · cases hstored
          · exact hnamed id entry hstored
      | removeMessagesForMailbox username mailbox =>
          exact hnamed id entry (HashMap.lookup_retain_iff.mp hentry).1

theorem named_final (calls : List IndexCall) :
    Named ((indexMachine order).final ⟨.new, 0⟩ calls) := by
  refine Machine.final_invariant (fun state call _ hnamed => hnamed.step order call) ?_
  exact fun id entry hentry => nomatch hentry

/-- A message that is left stays stored; its flags are those of an update, or as they were. -/
theorem StoredWith.step {flagged : List MessageFlag → Prop} {call : IndexCall}
    (hcall : call.Leaves username mailbox message)
    (hflags : ∀ flags, call = .write (.updateFlags message.id flags) → flagged flags)
    (horiginal : flagged message.flags)
    (hstored : StoredWith username mailbox message flagged state) :
    StoredWith username mailbox message flagged ((indexMachine order).step state call).1 := by
  obtain ⟨flags, hflagged, hlookup⟩ := hstored
  cases call with
  | getMessagePath _ | getMessagePathByUid _ _ _ | listMessagePaths _ _ | getMessageMetadata _
  | search _ _ _ => exact ⟨flags, hflagged, hlookup⟩
  | write command =>
      cases command with
      | addMessage username' mailbox' message' =>
          by_cases hid : message.id = message'.id
          · obtain ⟨rfl, rfl, rfl⟩ := hcall hid.symm
            exact ⟨message'.flags, horiginal, HashMap.lookup_insert_eq.trans (if_pos rfl)⟩
          · exact ⟨flags, hflagged, (HashMap.lookup_insert_eq.trans (if_neg hid)).trans hlookup⟩
      | updateFlags updated flags' =>
          have hthen := InMemoryBackend.lookup_updateFlags updated message.id flags' state.backend
          by_cases hid : message.id = updated
          · subst hid
            refine ⟨flags', hflags flags' rfl, (hthen.trans (if_pos rfl)).trans ?_⟩
            rw [hlookup]
            rfl
          · exact ⟨flags, hflagged, (hthen.trans (if_neg hid)).trans hlookup⟩
      | deleteMessage deleted =>
          have hthen := InMemoryBackend.lookup_deleteMessage deleted message.id state.backend
          exact ⟨flags, hflagged, (hthen.trans (if_neg (Ne.symm hcall))).trans hlookup⟩
      | removeMessagesForMailbox username' mailbox' =>
          refine ⟨flags, hflagged, HashMap.lookup_retain_iff.mpr ⟨hlookup, ?_⟩⟩
          rw [Bool.not_eq_true', decide_eq_false_iff_not]
          exact fun hin => hcall ⟨hin.1.symm, hin.2.symm⟩

theorem StoredWith.mem_search_iff {flagged : List MessageFlag → Prop}
    (hstored : StoredWith username mailbox message flagged state) (hnamed : Named state)
    (query : SearchQuery) :
    ∃ flags, flagged flags ∧
      (InMemoryBackend.makeMessagePath username mailbox message.id ∈
          state.backend.search order state.iterations username message.mailbox query ↔
        matchesQuery { message with flags } query = true) := by
  obtain ⟨flags, hflagged, hlookup⟩ := hstored
  refine ⟨flags, hflagged, ?_⟩
  rw [InMemoryBackend.search, List.mem_map]
  constructor
  · rintro ⟨entry, hentry, hpath⟩
    rw [List.mem_filter, InMemoryBackend.mem_entriesOf_iff] at hentry
    obtain ⟨⟨⟨id, hid⟩, -⟩, hmatches⟩ := hentry
    -- the path says under which identifier the entry is stored
    obtain ⟨username', mailbox', hnamedPath⟩ := hnamed id entry hid
    obtain rfl := InMemoryBackend.makeMessagePath_id_inj (hpath.symm.trans hnamedPath)
    obtain rfl := Option.some.inj (hlookup.symm.trans hid)
    exact hmatches
  · intro hmatches
    refine ⟨_, List.mem_filter.mpr ⟨InMemoryBackend.mem_entriesOf_iff.mpr
      ⟨⟨message.id, hlookup⟩, rfl, rfl⟩, hmatches⟩, rfl⟩

end Runs

/-! ## Overlapping calls -/

section Overlapping

variable (order : HashOrder MessageId MessageEntry) {events : List (SharedEvent IndexCall)}
  {username mailbox : String} {message : IndexedMessage} {one other : Nat}

/-- What the clones of the indexer see. -/
abbrev indexHistory (events : List (SharedEvent IndexCall)) :
    List (CallEvent IndexCall IndexReply) :=
  Shared.history (indexService order) ⟨.new, 0⟩ events

/--
A message is added, and nobody removes it or adds another under its identifier.  Every
search of its mailbox that starts when the addition has returned finds its path exactly
if the message matches with the flags it had then: its own, or those of some update.
-/
theorem concurrent_search
    (hleaves : ∀ call ∈ Shared.asked events, call.Leaves username mailbox message)
    {answer reply : IndexReply} {query : SearchQuery}
    (hmade : .invoke one (.write (.addMessage username mailbox message)) ∈
      indexHistory order events)
    (hadded : .respond one (some answer) ∈ indexHistory order events)
    (hbefore : ReturnsBefore (indexHistory order events) one other)
    (hmade' : .invoke other (.search username message.mailbox query) ∈ indexHistory order events)
    (hreply : .respond other (some reply) ∈ indexHistory order events) :
    answer = .written (.path (.ok (InMemoryBackend.makeMessagePath username mailbox message.id))) ∧
      ∃ paths flags, reply = .paths (.ok paths) ∧
        (flags = message.flags ∨
          .write (.updateFlags message.id flags) ∈ Shared.asked events) ∧
        (InMemoryBackend.makeMessagePath username mailbox message.id ∈ paths ↔
          matchesQuery { message with flags } query = true) := by
  obtain ⟨past, between, -, hbetween, -, rfl, rfl⟩ :=
    (Shared.inTurn_of_returnsBefore hmade hadded hmade' hreply hbefore).asked
  refine ⟨rfl, ?_⟩
  have hadd : StoredWith username mailbox message
      (fun flags => flags = message.flags ∨
        .write (.updateFlags message.id flags) ∈ Shared.asked events)
      ((indexMachine order).step ((indexMachine order).final ⟨.new, 0⟩ past)
        (.write (.addMessage username mailbox message))).1 :=
    ⟨message.flags, .inl rfl, HashMap.lookup_insert_eq.trans (if_pos rfl)⟩
  have hstep (state : IndexState) (call : IndexCall) (hcall : call ∈ between)
      (hstored : StoredWith username mailbox message
        (fun flags => flags = message.flags ∨
          .write (.updateFlags message.id flags) ∈ Shared.asked events) state) :=
    hstored.step order (hleaves call (hbetween call hcall))
      (fun flags hsame => .inr (hsame ▸ hbetween call hcall)) (.inl rfl)
  have hstored := Machine.final_invariant hstep hadd
  have hnamed := named_final order (past ++ .write (.addMessage username mailbox message) :: between)
  rw [Machine.final_append] at hnamed
  obtain ⟨flags, hflagged, hiff⟩ := hstored.mem_search_iff order hnamed query
  exact ⟨_, flags, rfl, hflagged, hiff⟩

def parcel : IndexedMessage where
  id := ⟨7⟩
  uid := 1
  mailbox := "box"
  flags := []
  internalDate := 0
  size := 2
  fromHeader := "bob"
  toHeader := "ann"
  subject := "parcel"
  bodyPreview := "it is here"

/-- The message is added; while one client marks it as seen, another searches. -/
def addedAndSeen : List (SharedEvent IndexCall) :=
  [.call (.operation (.write (.addMessage "ann" "box" parcel))), .send 0, .receive, .process,
    .take 0, .call (.operation (.write (.updateFlags ⟨7⟩ [.seen]))), .send 1,
    .call (.operation (.search "ann" "box" .seen)), .receive, .process, .perform 2, .take 2]

theorem concurrent_search_addedAndSeen :
    ∃ paths flags, .respond 2 (some (.paths (.ok paths))) ∈ indexHistory .listed addedAndSeen ∧
      (flags = [] ∨ .write (.updateFlags ⟨7⟩ flags) ∈ Shared.asked addedAndSeen) ∧
      (InMemoryBackend.makeMessagePath "ann" "box" ⟨7⟩ ∈ paths ↔
        matchesQuery { parcel with flags } .seen = true) := by
  have hhistory : ∃ answer reply, indexHistory .listed addedAndSeen =
      [.invoke 0 (.write (.addMessage "ann" "box" parcel)), .respond 0 (some answer),
        .invoke 1 (.write (.updateFlags ⟨7⟩ [.seen])), .invoke 2 (.search "ann" "box" .seen),
        .respond 2 (some reply)] := ⟨_, _, rfl⟩
  obtain ⟨answer, reply, hhistory⟩ := hhistory
  have hleaves : ∀ call ∈ Shared.asked addedAndSeen, call.Leaves "ann" "box" parcel := by decide
  have hmade : .invoke 0 (.write (.addMessage "ann" "box" parcel)) ∈
      indexHistory .listed addedAndSeen := by simp [hhistory]
  have hadded : .respond 0 (some answer) ∈ indexHistory .listed addedAndSeen := by simp [hhistory]
  have hbefore : ReturnsBefore (indexHistory .listed addedAndSeen) 0 2 := by
    rw [hhistory]
    exact ⟨answer, .search "ann" "box" .seen, by simp⟩
  have hmade' : .invoke 2 (.search "ann" parcel.mailbox .seen) ∈
      indexHistory .listed addedAndSeen := by
    rw [hhistory]
    simp [parcel]
  have hreply : .respond 2 (some reply) ∈ indexHistory .listed addedAndSeen := by simp [hhistory]
  obtain ⟨-, paths, flags, rfl, hflags, hiff⟩ :=
    concurrent_search .listed hleaves hmade hadded hbefore hmade' hreply
  exact ⟨paths, flags, hreply, hflags, hiff⟩

end Overlapping

end Indexer

end Scuttled
