import Scuttled.Mailboxes.Setters

/-!
# The two maps of the registry

Six operations reach the mailboxes through two maps.  A command that fails leaves
the state as it is; one that succeeds changes what is stored for its own mailbox,
in both maps, and a creation moves the counter of validities on.
-/

namespace Scuttled

open Rust Foundation

/-- The command was answered with an error. -/
def WriteReply.Failed : WriteReply → Prop
  | .info (.error _) | .unit (.error _) | .uid (.error _) => True
  | _ => False

/-- The commands that find their mailbox by its identity. -/
inductive WriteCommand.Updates (id : MailboxId) : WriteCommand → Prop where
  | nextUid (nextUid : Uid) : WriteCommand.Updates id (.updateNextUid id nextUid)
  | uidValidity (uidValidity : UInt32) :
      WriteCommand.Updates id (.updateUidValidity id uidValidity)
  | counts (messageCount unseenCount recentCount : UInt32) :
      WriteCommand.Updates id (.updateCounts id messageCount unseenCount recentCount)

namespace MailboxState

/-- The maps say the same of every mailbox but one. -/
structure SameBut (key : String × String) (state state' : MailboxState) : Prop where
  mailboxes : ∀ other, other ≠ key → state'.mailboxes.lookup other = state.mailboxes.lookup other
  idToKey : ∀ id : MailboxId, (id.username, id.name) ≠ key →
    state'.idToKey.lookup id = state.idToKey.lookup id

theorem SameBut.refl (key : String × String) (state : MailboxState) : SameBut key state state where
  mailboxes _ _ := rfl
  idToKey _ _ := rfl

theorem sameBut_insert (key : String × String) (info : MailboxInfo) (state : MailboxState) :
    SameBut key state { state with mailboxes := state.mailboxes.insert key info } where
  mailboxes other hother := by rw [HashMap.lookup_insert_eq, if_neg hother]
  idToKey _ _ := rfl

variable {state : MailboxState}

/-! ## Each operation -/

theorem createMailbox_sameBut (username name : String) (state : MailboxState) :
    SameBut (username, name) state (state.createMailbox username name).2 := by
  obtain ⟨info, -, hrefused⟩ | ⟨-, info, -, -, -, hcreated⟩ :=
    createMailbox_cases username name state
  · rw [hrefused]
    exact .refl _ state
  · rw [hcreated]
    constructor
    · intro other hother
      rw [HashMap.lookup_insert_eq, if_neg hother]
    · intro id hid
      rw [HashMap.lookup_insert_eq, if_neg]
      rintro rfl
      exact hid rfl

theorem deleteMailbox_sameBut (hstate : state.WellFormed) (username name : String) :
    SameBut (username, name) state (state.deleteMailbox username name).2 := by
  obtain ⟨-, hrefused⟩ | ⟨-, hgone⟩ := deleteMailbox_cases hstate username name
  · rw [hrefused]
    exact .refl _ state
  · rw [hgone]
    constructor
    · intro other hother
      rw [HashMap.lookup_erase_eq, if_neg hother]
    · intro id hid
      rw [HashMap.lookup_erase_eq, if_neg]
      rintro rfl
      exact hid rfl

theorem getNextUid_sameBut (username name : String) (state : MailboxState) :
    SameBut (username, name) state (state.getNextUid username name).2 := by
  obtain ⟨-, hrefused⟩ | ⟨info, -, hdrawn⟩ := getNextUid_cases username name state
  · rw [hrefused]
    exact .refl _ state
  · rw [hdrawn]
    exact sameBut_insert _ _ state

theorem updateInfo_sameBut (hstate : state.WellFormed) (id : MailboxId)
    (update : MailboxInfo → MailboxInfo) :
    SameBut (id.username, id.name) state (state.updateInfo id update).2 := by
  obtain ⟨-, hrefused⟩ | ⟨info, -, hupdated⟩ := updateInfo_cases hstate id update
  · rw [hrefused]
    exact .refl _ state
  · rw [hupdated]
    exact sameBut_insert _ _ state

/-! ## Each command -/

theorem writerStep_sameBut (hstate : state.WellFormed) (command : WriteCommand) :
    SameBut command.mailbox state (writerStep state command).1 := by
  cases command with
  | create username name => exact createMailbox_sameBut username name state
  | delete username name => exact deleteMailbox_sameBut hstate username name
  | getNextUid username mailbox => exact getNextUid_sameBut username mailbox state
  | updateNextUid id nextUid => exact updateInfo_sameBut hstate id _
  | updateUidValidity id uidValidity => exact updateInfo_sameBut hstate id _
  | updateCounts id messageCount unseenCount recentCount => exact updateInfo_sameBut hstate id _

/-- An update fails exactly if its mailbox is not stored, and then changes
nothing. -/
theorem updateInfo_failed_iff (hstate : state.WellFormed) (id : MailboxId)
    (update : MailboxInfo → MailboxInfo) :
    ((WriteReply.unit (state.updateInfo id update).1).Failed ↔
      state.mailboxes.lookup (id.username, id.name) = none) ∧
    ((WriteReply.unit (state.updateInfo id update).1).Failed →
      (state.updateInfo id update).2 = state) := by
  obtain ⟨hlookup, hrefused⟩ | ⟨info, hlookup, hupdated⟩ := updateInfo_cases hstate id update
  · rw [hrefused, hlookup]
    exact ⟨⟨fun _ => rfl, fun _ => trivial⟩, fun _ => rfl⟩
  · rw [hupdated, hlookup]
    exact ⟨⟨False.elim, fun hnone => nomatch hnone⟩, False.elim⟩

theorem writerStep_of_failed (hstate : state.WellFormed) {command : WriteCommand}
    (hfailed : (writerStep state command).2.Failed) : (writerStep state command).1 = state := by
  cases command with
  | create username name =>
      obtain ⟨info, -, hrefused⟩ | ⟨-, info, -, -, -, hcreated⟩ :=
        createMailbox_cases username name state
      · exact congrArg Prod.snd hrefused
      · simp [writerStep, hcreated, WriteReply.Failed] at hfailed
  | delete username name =>
      obtain ⟨-, hrefused⟩ | ⟨-, hgone⟩ := deleteMailbox_cases hstate username name
      · exact congrArg Prod.snd hrefused
      · simp [writerStep, hgone, WriteReply.Failed] at hfailed
  | getNextUid username mailbox =>
      obtain ⟨-, hrefused⟩ | ⟨info, -, hdrawn⟩ := getNextUid_cases username mailbox state
      · exact congrArg Prod.snd hrefused
      · simp [writerStep, hdrawn, WriteReply.Failed] at hfailed
  | updateNextUid id nextUid => exact (updateInfo_failed_iff hstate id _).2 hfailed
  | updateUidValidity id uidValidity => exact (updateInfo_failed_iff hstate id _).2 hfailed
  | updateCounts id messageCount unseenCount recentCount =>
      exact (updateInfo_failed_iff hstate id _).2 hfailed

theorem failed_iff_of_updates (hstate : state.WellFormed) {id : MailboxId}
    {command : WriteCommand} (hupdates : command.Updates id) :
    (writerStep state command).2.Failed ↔
      state.mailboxes.lookup (id.username, id.name) = none := by
  cases hupdates with
  | nextUid nextUid => exact (updateInfo_failed_iff hstate id _).1
  | uidValidity uidValidity => exact (updateInfo_failed_iff hstate id _).1
  | counts messageCount unseenCount recentCount => exact (updateInfo_failed_iff hstate id _).1

theorem nextUidValidity_updateInfo (id : MailboxId) (update : MailboxInfo → MailboxInfo)
    (state : MailboxState) :
    (state.updateInfo id update).2.nextUidValidity = state.nextUidValidity := by
  unfold updateInfo
  split
  · split <;> rfl
  · rfl

/-- The counter of validities moves with a creation that succeeds, and with
nothing else. -/
theorem nextUidValidity_writerStep (state : MailboxState) (command : WriteCommand) :
    (writerStep state command).1.nextUidValidity = state.nextUidValidity ∨
      (∃ username name, command = .create username name) ∧ ¬ (writerStep state command).2.Failed ∧
        (writerStep state command).1.nextUidValidity = state.nextUidValidity + 1 := by
  cases command with
  | create username name =>
      obtain ⟨info, -, hrefused⟩ | ⟨-, info, -, -, -, hcreated⟩ :=
        createMailbox_cases username name state
      · exact .inl (by simp only [writerStep, hrefused])
      · refine .inr ⟨⟨username, name, rfl⟩, ?_, ?_⟩
        · simp [writerStep, hcreated, WriteReply.Failed]
        · simp only [writerStep, hcreated]
  | delete username name =>
      refine .inl ?_
      simp only [writerStep, deleteMailbox]
      split <;> rfl
  | getNextUid username mailbox =>
      refine .inl ?_
      simp only [writerStep, getNextUid]
      split <;> rfl
  | updateNextUid id nextUid => exact .inl (nextUidValidity_updateInfo id _ state)
  | updateUidValidity id uidValidity => exact .inl (nextUidValidity_updateInfo id _ state)
  | updateCounts id messageCount unseenCount recentCount =>
      exact .inl (nextUidValidity_updateInfo id _ state)

/-! ## Every state -/

/--
Consistency of the registry.  In every state the writer reaches the two maps
describe the same mailboxes.  So the updates by identity succeed exactly when
`get_mailbox` finds the mailbox.  A command that fails leaves the state as it is;
any other changes what is stored for its own mailbox alone, and the counter of
validities only if it is a creation.
-/
theorem maps_consistent (engine : RegexEngine) (order : HashOrder (String × String) MailboxInfo)
    (commands : List WriteCommand) :
    let state := writerLoop.final new commands
    ((∀ id key, state.idToKey.lookup id = some key ↔
        key = (id.username, id.name) ∧ (state.mailboxes.lookup key).isSome) ∧
      ∀ username name info, state.mailboxes.lookup (username, name) = some info →
        info.id = ⟨username, name⟩) ∧
    (∀ iterations id command, command.Updates id →
      (¬ (writerStep state command).2.Failed ↔
        ∃ info, ((inMemoryMailboxes engine order).getMailbox id.username id.name
          ⟨state, iterations⟩).1 = .ok (some info))) ∧
    ∀ command,
      ((writerStep state command).2.Failed → (writerStep state command).1 = state) ∧
      SameBut command.mailbox state (writerStep state command).1 ∧
      ((writerStep state command).1.nextUidValidity = state.nextUidValidity ∨
        (∃ username name, command = .create username name) ∧
          (writerStep state command).1.nextUidValidity = state.nextUidValidity + 1) := by
  intro state
  have hstate : state.WellFormed := wellFormed_final commands
  refine ⟨⟨fun id key => hstate.reverse_iff, fun username name info => hstate.id_of_lookup⟩,
    fun iterations id command hupdates => ?_, fun command => ⟨writerStep_of_failed hstate,
      writerStep_sameBut hstate command, ?_⟩⟩
  · have hfound (info : MailboxInfo) :
        ((inMemoryMailboxes engine order).getMailbox id.username id.name ⟨state, iterations⟩).1 =
            .ok (some info) ↔
          state.mailboxes.lookup (id.username, id.name) = some info :=
      ⟨Except.ok.inj, congrArg Except.ok⟩
    rw [failed_iff_of_updates hstate hupdates, ← ne_eq, Option.ne_none_iff_exists']
    exact exists_congr fun info => (hfound info).symm
  · exact (nextUidValidity_writerStep state command).imp_right fun hcreated =>
      ⟨hcreated.1, hcreated.2.2⟩

end MailboxState

end Scuttled
