import Mathlib.Data.List.Basic
import Scuttled.Index.InMemory

/-!
# The index on Tantivy: its writer loop

The mailboxes of all users are in one map, by a text that joins the name of the
user and that of the mailbox with a colon.  What the library answers when a
document is added or committed comes with the command.
-/

namespace Scuttled.Tantivy

open Rust Foundation

/-! ## The writer loop -/

/-- `types.rs`: `Mailbox`. -/
structure Mailbox where
  name : String
  uidValidity : UInt32
  uidNext : Uid
  flags : List MessageFlag
  permanentFlags : List MessageFlag
  messageCount : Nat
  recentCount : Nat
  unseenCount : Nat

structure MailboxState where
  info : Mailbox
  uidCounter : Uid

/-- The stored and searched fields of a document. -/
structure Document where
  messageId : String
  uid : Uid
  username : String
  mailbox : String
  fromHeader : String
  toHeader : String
  subject : String
  body : String
  path : String
  deriving DecidableEq

/-- The mailboxes, the documents added since the last commit, and those committed. -/
structure Writer where
  mailboxes : HashMap String MailboxState
  added : List Document
  committed : List Document

/-- `WriteCommand`; a message comes with the errors of `add_document` and `commit`. -/
inductive WriteCommand where
  | createMailbox (username name : String)
  | deleteMailbox (username name : String)
  | renameMailbox (username oldName newName : String)
  | addMessage (username mailbox : String) (message : IndexedMessage)
      (addError commitError : Option String)
  | updateFlags (id : MessageId) (flags : List MessageFlag)
  | deleteMessage (id : MessageId)
  | getNextUid (username mailbox : String)

/-- What a command is answered with. -/
inductive WriteReply where
  | unit (result : Result Unit)
  | path (result : Result String)
  | uid (result : Result Uid)

/-- `format!("{}:{}", username, name)`. -/
def mailboxKey (username name : String) : String := username ++ ":" ++ name

/-- The state of a mailbox that is created. -/
def MailboxState.created (name : String) : MailboxState where
  info :=
    { name
      uidValidity := 1
      uidNext := 1
      flags := []
      permanentFlags := [.seen, .answered, .flagged, .deleted, .draft]
      messageCount := 0
      recentCount := 0
      unseenCount := 0 }
  uidCounter := 1

/-- The counts after a message was added. -/
def MailboxState.counted (message : IndexedMessage) (state : MailboxState) : MailboxState :=
  { state with
    info :=
      { state.info with
        messageCount := state.info.messageCount + 1
        unseenCount :=
          if MessageFlag.seen ∈ message.flags then state.info.unseenCount
          else state.info.unseenCount + 1 } }

def Document.of (username mailbox : String) (message : IndexedMessage) : Document where
  messageId := message.id.display
  uid := message.uid
  username
  mailbox
  fromHeader := message.fromHeader
  toHeader := message.toHeader
  subject := message.subject
  body := message.bodyPreview
  path := InMemoryBackend.makeMessagePath username mailbox message.id

namespace Writer

def new : Writer where
  mailboxes := ∅
  added := []
  committed := []

def createMailbox (username name : String) (writer : Writer) : Result Unit × Writer :=
  let key := mailboxKey username name
  match writer.mailboxes.lookup key with
  | some _ => (.error (.alreadyExists ("Mailbox " ++ name ++ " already exists")), writer)
  | none => (.ok (), { writer with mailboxes := writer.mailboxes.insert key (.created name) })

/-- The documents of the mailbox stay in the index. -/
def deleteMailbox (username name : String) (writer : Writer) : Result Unit × Writer :=
  let key := mailboxKey username name
  match writer.mailboxes.lookup key with
  | some _ => (.ok (), { writer with mailboxes := writer.mailboxes.erase key })
  | none => (.error (.notFound ("Mailbox " ++ name ++ " not found")), writer)

/-- What is stored under the new name is replaced. -/
def renameMailbox (username oldName newName : String) (writer : Writer) :
    Result Unit × Writer :=
  let oldKey := mailboxKey username oldName
  let newKey := mailboxKey username newName
  match writer.mailboxes.lookup oldKey with
  | some state =>
      (.ok (), { writer with
        mailboxes := (writer.mailboxes.erase oldKey).insert newKey
          { state with info := { state.info with name := newName } } })
  | none => (.error (.notFound ("Mailbox " ++ oldName ++ " not found")), writer)

def addMessage (username mailbox : String) (message : IndexedMessage)
    (addError commitError : Option String) (writer : Writer) : Result String × Writer :=
  let key := mailboxKey username mailbox
  match writer.mailboxes.lookup key with
  | none => (.error (.notFound ("Mailbox " ++ mailbox ++ " not found")), writer)
  | some state =>
      match addError with
      | some error => (.error (.index ("Failed to add document: " ++ error)), writer)
      | none =>
          let document := Document.of username mailbox message
          match commitError with
          | some error =>
              (.error (.index ("Failed to commit: " ++ error)),
                { writer with added := writer.added ++ [document] })
          | none =>
              (.ok document.path,
                { mailboxes := writer.mailboxes.insert key (state.counted message)
                  added := []
                  committed := writer.committed ++ writer.added ++ [document] })

/-- The counter is a `u32`, and wraps. -/
def getNextUid (username mailbox : String) (writer : Writer) : Result Uid × Writer :=
  let key := mailboxKey username mailbox
  match writer.mailboxes.lookup key with
  | some state =>
      (.ok state.uidCounter, { writer with
        mailboxes := writer.mailboxes.insert key
          { state with uidCounter := state.uidCounter + 1 } })
  | none => (.error (.notFound ("Mailbox " ++ mailbox ++ " not found")), writer)

/-- One turn of `writer_loop`. -/
def step (writer : Writer) : WriteCommand → Writer × WriteReply
  | .createMailbox username name =>
      ((writer.createMailbox username name).2, .unit (writer.createMailbox username name).1)
  | .deleteMailbox username name =>
      ((writer.deleteMailbox username name).2, .unit (writer.deleteMailbox username name).1)
  | .renameMailbox username oldName newName =>
      ((writer.renameMailbox username oldName newName).2,
        .unit (writer.renameMailbox username oldName newName).1)
  | .addMessage username mailbox message addError commitError =>
      ((writer.addMessage username mailbox message addError commitError).2,
        .path (writer.addMessage username mailbox message addError commitError).1)
  | .updateFlags _ _ => (writer, .unit (.ok ()))
  | .deleteMessage _ => (writer, .unit (.ok ()))
  | .getNextUid username mailbox =>
      ((writer.getNextUid username mailbox).2, .uid (writer.getNextUid username mailbox).1)

/-- `writer_loop`: commands are served one at a time. -/
def loop : Machine Writer WriteCommand WriteReply where
  step := step

end Writer

/-- The user a command is issued for. -/
def WriteCommand.username : WriteCommand → Option String
  | .createMailbox username _ => some username
  | .deleteMailbox username _ => some username
  | .renameMailbox username _ _ => some username
  | .addMessage username _ _ _ _ => some username
  | .updateFlags _ _ => none
  | .deleteMessage _ => none
  | .getNextUid username _ => some username

/-! ## Keys -/

/-- One name begins with the other and a colon. -/
def Overlap (username username' : String) : Prop :=
  username.toList ++ [':'] <+: username'.toList ∨ username'.toList ++ [':'] <+: username.toList

theorem toList_mailboxKey (username name : String) :
    (mailboxKey username name).toList = username.toList ++ ':' :: name.toList := by
  simp [mailboxKey]

theorem mailboxKey_of_prefix {username username' : String}
    (hstarts : username.toList ++ [':'] <+: username'.toList) (name' : String) :
    ∃ name, mailboxKey username name = mailboxKey username' name' := by
  obtain ⟨rest, hrest⟩ := hstarts
  refine ⟨String.ofList rest ++ ":" ++ name', String.toList_injective ?_⟩
  rw [toList_mailboxKey, toList_mailboxKey, ← hrest]
  simp

theorem mailboxKey_eq_iff {username username' : String} (hne : username ≠ username') :
    (∃ name name', mailboxKey username name = mailboxKey username' name') ↔
      Overlap username username' := by
  constructor
  · rintro ⟨name, name', hkey⟩
    have hlist := congrArg String.toList hkey
    rw [toList_mailboxKey, toList_mailboxKey, List.append_eq_append_iff] at hlist
    rcases hlist with ⟨rest, huser, hrest⟩ | ⟨rest, huser, hrest⟩
    · cases rest with
      | nil => exact absurd (String.toList_injective (by simpa using huser.symm)) hne
      | cons c rest =>
          obtain ⟨rfl, -⟩ := List.cons.inj hrest
          exact .inl ⟨rest, by rw [huser, List.append_assoc]; rfl⟩
    · cases rest with
      | nil => exact absurd (String.toList_injective (by simpa using huser)) hne
      | cons c rest =>
          obtain ⟨rfl, -⟩ := List.cons.inj hrest
          exact .inr ⟨rest, by rw [huser, List.append_assoc]; rfl⟩
  · rintro (hstarts | hstarts)
    · obtain ⟨name, hkey⟩ := mailboxKey_of_prefix hstarts ""
      exact ⟨name, "", hkey⟩
    · obtain ⟨name, hkey⟩ := mailboxKey_of_prefix hstarts ""
      exact ⟨"", name, hkey.symm⟩

/-! ## What a command reads and writes -/

namespace Writer

/-- The writers hold the same state for every mailbox of the user. -/
def AgreeFor (username : String) (writer writer' : Writer) : Prop :=
  ∀ name, writer.mailboxes.lookup (mailboxKey username name) =
    writer'.mailboxes.lookup (mailboxKey username name)

variable {writer writer' : Writer} {command : WriteCommand} {username : String}

/-- A command leaves alone what is not its user's. -/
theorem lookup_step {key : String} (hcommand : command.username = some username)
    (hkey : ∀ name, key ≠ mailboxKey username name) :
    (writer.step command).1.mailboxes.lookup key = writer.mailboxes.lookup key := by
  cases command with
  | createMailbox user name =>
      obtain rfl := Option.some.inj hcommand
      simp only [step, createMailbox]
      cases writer.mailboxes.lookup (mailboxKey user name) with
      | some state => rfl
      | none => simp only [HashMap.lookup_insert_eq, if_neg (hkey name)]
  | deleteMailbox user name =>
      obtain rfl := Option.some.inj hcommand
      simp only [step, deleteMailbox]
      cases writer.mailboxes.lookup (mailboxKey user name) with
      | some state => simp only [HashMap.lookup_erase_eq, if_neg (hkey name)]
      | none => rfl
  | renameMailbox user oldName newName =>
      obtain rfl := Option.some.inj hcommand
      simp only [step, renameMailbox]
      cases writer.mailboxes.lookup (mailboxKey user oldName) with
      | some state =>
          simp only [HashMap.lookup_insert_eq, HashMap.lookup_erase_eq, if_neg (hkey oldName),
            if_neg (hkey newName)]
      | none => rfl
  | addMessage user mailbox message addError commitError =>
      obtain rfl := Option.some.inj hcommand
      simp only [step, addMessage]
      cases writer.mailboxes.lookup (mailboxKey user mailbox) with
      | none => rfl
      | some state =>
          cases addError with
          | some error => rfl
          | none =>
              cases commitError with
              | some error => rfl
              | none => simp only [HashMap.lookup_insert_eq, if_neg (hkey mailbox)]
  | updateFlags id flags => rfl
  | deleteMessage id => rfl
  | getNextUid user mailbox =>
      obtain rfl := Option.some.inj hcommand
      simp only [step, getNextUid]
      cases writer.mailboxes.lookup (mailboxKey user mailbox) with
      | some state => simp only [HashMap.lookup_insert_eq, if_neg (hkey mailbox)]
      | none => rfl

/-- A command is answered from what is its user's. -/
theorem step_agree (hcommand : command.username = some username)
    (hagree : AgreeFor username writer writer') :
    (writer.step command).2 = (writer'.step command).2 ∧
      AgreeFor username (writer.step command).1 (writer'.step command).1 := by
  cases command with
  | createMailbox user name =>
      obtain rfl := Option.some.inj hcommand
      simp only [step, createMailbox, hagree name]
      cases writer'.mailboxes.lookup (mailboxKey user name) with
      | some state => exact ⟨rfl, hagree⟩
      | none => exact ⟨rfl, fun other => by simp only [HashMap.lookup_insert_eq, hagree other]⟩
  | deleteMailbox user name =>
      obtain rfl := Option.some.inj hcommand
      simp only [step, deleteMailbox, hagree name]
      cases writer'.mailboxes.lookup (mailboxKey user name) with
      | some state => exact ⟨rfl, fun other => by simp only [HashMap.lookup_erase_eq, hagree other]⟩
      | none => exact ⟨rfl, hagree⟩
  | renameMailbox user oldName newName =>
      obtain rfl := Option.some.inj hcommand
      simp only [step, renameMailbox, hagree oldName]
      cases writer'.mailboxes.lookup (mailboxKey user oldName) with
      | some state =>
          exact ⟨rfl, fun other => by
            simp only [HashMap.lookup_insert_eq, HashMap.lookup_erase_eq, hagree other]⟩
      | none => exact ⟨rfl, hagree⟩
  | addMessage user mailbox message addError commitError =>
      obtain rfl := Option.some.inj hcommand
      simp only [step, addMessage, hagree mailbox]
      cases writer'.mailboxes.lookup (mailboxKey user mailbox) with
      | none => exact ⟨rfl, hagree⟩
      | some state =>
          cases addError with
          | some error => exact ⟨rfl, hagree⟩
          | none =>
              cases commitError with
              | some error => exact ⟨rfl, hagree⟩
              | none =>
                  exact ⟨rfl, fun other => by simp only [HashMap.lookup_insert_eq, hagree other]⟩
  | updateFlags id flags => cases hcommand
  | deleteMessage id => cases hcommand
  | getNextUid user mailbox =>
      obtain rfl := Option.some.inj hcommand
      simp only [step, getNextUid, hagree mailbox]
      cases writer'.mailboxes.lookup (mailboxKey user mailbox) with
      | some state =>
          exact ⟨rfl, fun other => by simp only [HashMap.lookup_insert_eq, hagree other]⟩
      | none => exact ⟨rfl, hagree⟩

/-! ## Runs -/

theorem agreeFor_final {username' : String} (hne : username ≠ username')
    (hapart : ¬ Overlap username username') {commands : List WriteCommand}
    (hcommands : ∀ command ∈ commands, command.username = some username) (writer : Writer) :
    AgreeFor username' (loop.final writer commands) writer := by
  have hkey (name name' : String) : mailboxKey username' name' ≠ mailboxKey username name :=
    fun hsame => hapart ((mailboxKey_eq_iff hne).mp ⟨name, name', hsame.symm⟩)
  have hstep (current : Writer) (command : WriteCommand) (hcommand : command ∈ commands)
      (hagree : AgreeFor username' current writer) :
      AgreeFor username' (loop.step current command).1 writer := by
    intro name'
    rw [← hagree name']
    exact lookup_step (hcommands command hcommand) fun name => hkey name name'
  exact Machine.final_invariant hstep fun _ => rfl

end Writer

/--
Isolation of the users of the index.  From every state of the writer loop, the
commands of one user leave every reply to later commands of another unchanged,
exactly if neither of the two names begins with the other and a colon.
-/
theorem users_isolated_iff {username username' : String} (hne : username ≠ username') :
    (∀ (writer : Writer) (first second : List WriteCommand),
      (∀ command ∈ first, command.username = some username) →
      (∀ command ∈ second, command.username = some username') →
      Writer.loop.transcript (Writer.loop.final writer first) second =
        Writer.loop.transcript writer second) ↔
      ¬ Overlap username username' := by
  constructor
  · intro hisolated hoverlap
    obtain ⟨name, name', hkey⟩ := (mailboxKey_eq_iff hne).mpr hoverlap
    have hsame := hisolated .new [.createMailbox username name] [.createMailbox username' name']
      (by simp [WriteCommand.username]) (by simp [WriteCommand.username])
    simp only [Machine.final_cons, Machine.final_nil, Machine.transcript, Writer.loop, Writer.step,
      Writer.createMailbox, Writer.new, AList.lookup_empty, hkey, HashMap.lookup_insert_eq,
      if_true] at hsame
    simp at hsame
  · intro hapart writer first second hfirst hsecond
    have hstep (current current' : Writer) (command : WriteCommand) (hcommand : command ∈ second)
        (hagree : Writer.AgreeFor username' current current') :
        (Writer.loop.step current command).2 = (Writer.loop.step current' command).2 ∧
          Writer.AgreeFor username' (Writer.loop.step current command).1
            (Writer.loop.step current' command).1 :=
      Writer.step_agree (hsecond command hcommand) hagree
    exact (Machine.bisimulation hstep (Writer.agreeFor_final hne hapart hfirst writer)).1

/-- The law for a user and another. -/
theorem users_isolated_iff_ann :
    Writer.loop.transcript (Writer.loop.final .new [.createMailbox "ann" "box"])
        [.createMailbox "bob" "box", .getNextUid "bob" "box"] =
      Writer.loop.transcript .new [.createMailbox "bob" "box", .getNextUid "bob" "box"] := by
  have hapart : ¬ Overlap "ann" "bob" := by unfold Overlap; decide
  exact (users_isolated_iff (by decide)).mpr hapart _ _ _ (by simp [WriteCommand.username])
    (by simp [WriteCommand.username])

/-- The mailbox `b:c` of user `a` keeps user `a:b` from creating `c`. -/
theorem joined_names_collide :
    "a" ≠ "a:b" ∧
      (Writer.loop.step .new (.createMailbox "a:b" "c")).2 = .unit (.ok ()) ∧
      (Writer.loop.step (Writer.loop.final .new [.createMailbox "a" "b:c"])
          (.createMailbox "a:b" "c")).2 =
        .unit (.error (.alreadyExists "Mailbox c already exists")) := by
  exact ⟨by decide, rfl, rfl⟩

end Scuttled.Tantivy
