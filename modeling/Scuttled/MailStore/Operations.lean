import Mathlib.Data.Finset.Basic
import Scuttled.MailStore.Watcher

/-!
# File operations in a watched mailbox

Delivery agents and clients create, rename and delete message files.  Each
operation reaches the index as changes to the messages it shows.  The index
follows the files only as long as a new unique identifier comes with a creation
and goes with a deletion; a rename changes flags and nothing else.
-/

namespace Scuttled

open Rust

/-! ## The files of a watched mailbox -/

inductive MaildirDirectory where
  | tmp
  | new
  | cur
  deriving DecidableEq, Repr

def MaildirDirectory.name : MaildirDirectory → String
  | .tmp => "tmp"
  | .new => "new"
  | .cur => "cur"

/-- A mailbox that is watched.  Its names are directory names. -/
structure WatchedMailbox where
  root : String
  username : String
  mailbox : String
  username_single : SingleComponent username
  mailbox_single : SingleComponent mailbox

/-- A message file, by its directory and its name there. -/
structure MessageFile where
  directory : MaildirDirectory
  filename : String
  filename_single : SingleComponent filename
  deriving DecidableEq

/-- A message as the index shows it: its unique identifier and its flags. -/
abbrev ShownMessage := String × List MessageFlag

namespace MessageFile

def path (watched : WatchedMailbox) (file : MessageFile) : String :=
  messageFilePath watched.root watched.username watched.mailbox file.directory.name file.filename

/-- The message the index has to show for the file; none for one in `tmp`. -/
def message (file : MessageFile) : Option ShownMessage :=
  let (uniqueId, flags) := MaildirFormat.splitFilename file.filename
  match file.directory with
  | .tmp => none
  | .new => some (uniqueId, flags ++ [.recent])
  | .cur => some (uniqueId, flags)

/-- The unique identifier of the message. -/
def uniqueId (file : MessageFile) : Option String := file.message.map Prod.fst

theorem parse_path (watched : WatchedMailbox) (file : MessageFile) :
    MaildirFormat.parseMessagePath (file.path watched) watched.root =
      (MaildirFormat.subdirIsNew file.directory.name).map fun isNew =>
        { uniqueId := (MaildirFormat.splitFilename file.filename).1
          flags := (MaildirFormat.splitFilename file.filename).2
          isNew
          username := watched.username
          mailbox := watched.mailbox } := by
  refine parseMessagePath_messageFilePath watched.root watched.username_single
    watched.mailbox_single ?_ file.filename_single
  cases file.directory <;> decide

theorem message_eq_some_iff (watched : WatchedMailbox) {file : MessageFile}
    {message : ShownMessage} :
    file.message = some message ↔ ∃ parsed,
      MaildirFormat.parseMessagePath (file.path watched) watched.root = some parsed ∧
        parsed.username = watched.username ∧ parsed.mailbox = watched.mailbox ∧
        (parsed.uniqueId, parsed.eventFlags) = message := by
  rw [parse_path, MessageFile.message]
  cases file.directory <;>
    simp [MaildirDirectory.name, MaildirFormat.subdirIsNew, ParsedMessage.eventFlags]

theorem message_eq_none_iff (watched : WatchedMailbox) {file : MessageFile} :
    file.message = none ↔
      MaildirFormat.parseMessagePath (file.path watched) watched.root = none := by
  rw [parse_path, message]
  cases file.directory <;> simp [MaildirDirectory.name, MaildirFormat.subdirIsNew]

theorem message_of_parse {watched : WatchedMailbox} {file : MessageFile} {parsed : ParsedMessage}
    (hparsed : MaildirFormat.parseMessagePath (file.path watched) watched.root = some parsed) :
    file.message = some (parsed.uniqueId, parsed.eventFlags) ∧
      parsed.username = watched.username ∧ parsed.mailbox = watched.mailbox := by
  cases hmessage : file.message with
  | none => exact nomatch ((message_eq_none_iff watched).mp hmessage).symm.trans hparsed
  | some message =>
      obtain ⟨other, hother, husername, hmailbox, rfl⟩ := (message_eq_some_iff watched).mp hmessage
      obtain rfl := Option.some.inj (hother.symm.trans hparsed)
      exact ⟨rfl, husername, hmailbox⟩

end MessageFile

/-! ## Operations and what they change -/

/-- What happens to a message file.  A rename replaces what is at the new name. -/
inductive FileOperation where
  | create (file : MessageFile)
  | rename (old new : MessageFile)
  | delete (file : MessageFile)
  deriving DecidableEq

/-- A change to the messages the index shows. -/
inductive Change where
  | added (message : ShownMessage)
  | flagged (message : ShownMessage)
  | removed (message : ShownMessage)

namespace FileOperation

/-- The operation can be performed on these files. -/
def Possible (files : Finset MessageFile) : FileOperation → Prop
  | .create file => file ∉ files
  | .rename old _ => old ∈ files
  | .delete file => file ∈ files

instance (files : Finset MessageFile) (operation : FileOperation) :
    Decidable (operation.Possible files) := by
  unfold Possible
  split <;> infer_instance

def apply (files : Finset MessageFile) : FileOperation → Finset MessageFile
  | .create file => insert file files
  | .rename old new => insert new (files.erase old)
  | .delete file => files.erase file

/-- What `notify` reports. -/
def notification (watched : WatchedMailbox) : FileOperation → Notification
  | .create file => { kind := .create, paths := [file.path watched] }
  | .rename old new => { kind := .modify, paths := [old.path watched, new.path watched] }
  | .delete file => { kind := .remove, paths := [file.path watched] }

/-- The changes the index is told of. -/
def changes : FileOperation → List Change
  | .create file => file.message.toList.map .added
  | .rename old new => (old.message.toList ++ new.message.toList).map .flagged
  | .delete file => file.message.toList.map .removed

/-- The index can follow: what is created in `new` or `cur` is a new message; what
leaves them by a rename leaves a file of its message there, and what enters them
joins a message that is there and agrees with its other files; what is deleted is
the last file of its message. -/
def Followed (files : Finset MessageFile) : FileOperation → Prop
  | .create file => ∀ message ∈ file.message, ∀ other ∈ files, other.uniqueId ≠ some message.1
  | .rename old new =>
      (∀ message ∈ old.message, ∃ other ∈ apply files (.rename old new),
        other.uniqueId = some message.1) ∧
      ∀ message ∈ new.message, (∃ other ∈ files, other.uniqueId = some message.1) ∧
        ∀ other ∈ apply files (.rename old new), other.uniqueId = some message.1 →
          other.message = some message
  | .delete file =>
      ∀ message ∈ file.message, ∀ other ∈ files.erase file, other.uniqueId ≠ some message.1

instance (files : Finset MessageFile) (operation : FileOperation) :
    Decidable (operation.Followed files) := by
  unfold Followed
  split <;> infer_instance

/-- A file is still there when its creation is handled, and is mail. -/
def Readable (watched : WatchedMailbox) (env : WatcherEnv) (tree : FileTree) :
    FileOperation → Prop
  | .create file =>
      match tree.read (file.path watched) with
      | .ok content => (env.parseMail content).isSome
      | .error _ => False
  | .rename _ _ | .delete _ => True

instance (watched : WatchedMailbox) (env : WatcherEnv) (tree : FileTree)
    (operation : FileOperation) : Decidable (operation.Readable watched env tree) := by
  unfold Readable
  split
  · split <;> infer_instance
  · infer_instance
  · infer_instance

end FileOperation

/-! ## What the index shows -/

/-- The flags of the messages the index shows, by unique identifier. -/
abbrev MailboxView := String → Option (List MessageFlag)

/-- A change is applied; a message is not added a second time. -/
def Change.apply (view : MailboxView) : Change → Option MailboxView
  | .added message =>
      if (view message.1).isSome then none
      else some (Function.update view message.1 (some message.2))
  | .flagged message =>
      some (if (view message.1).isSome then Function.update view message.1 (some message.2) else view)
  | .removed message => some (Function.update view message.1 none)

/-- The view shows the message of every file, and no other. -/
structure MailboxView.Mirrors (view : MailboxView) (files : Finset MessageFile) : Prop where
  shown : ∀ file ∈ files, ∀ message ∈ file.message, view message.1 = some message.2
  only : ∀ uniqueId, (view uniqueId).isSome → ∃ file ∈ files, file.uniqueId = some uniqueId

namespace MailboxView

theorem mirrors_empty : Mirrors (fun _ => none) ∅ where
  shown := nofun
  only := nofun

variable {view : MailboxView} {files : Finset MessageFile}

theorem exists_message {file : MessageFile} {uniqueId : String}
    (huniqueId : file.uniqueId = some uniqueId) : ∃ flags, file.message = some (uniqueId, flags) := by
  obtain ⟨⟨_, flags⟩, hmessage, rfl⟩ := Option.map_eq_some_iff.mp huniqueId
  exact ⟨flags, hmessage⟩

theorem uniqueId_of_message {file : MessageFile} {message : ShownMessage}
    (hmessage : file.message = some message) : file.uniqueId = some message.1 := by
  rw [MessageFile.uniqueId, hmessage]
  rfl

theorem Mirrors.isSome_iff (hmirrors : view.Mirrors files) (uniqueId : String) :
    (view uniqueId).isSome ↔ ∃ file ∈ files, file.uniqueId = some uniqueId := by
  refine ⟨hmirrors.only uniqueId, ?_⟩
  rintro ⟨file, hfile, huniqueId⟩
  obtain ⟨flags, hmessage⟩ := exists_message huniqueId
  rw [hmirrors.shown file hfile _ hmessage]
  rfl

/-- A creation is followed by a view that did not show the message. -/
theorem Mirrors.create_iff (hmirrors : view.Mirrors files) (file : MessageFile) :
    (∃ view', (FileOperation.create file).changes.foldlM Change.apply view = some view' ∧
      view'.Mirrors (insert file files)) ↔ (FileOperation.create file).Followed files := by
  cases hmessage : file.message with
  | none =>
      have hmirrors' : view.Mirrors (insert file files) := by
        refine ⟨fun other hother message hmem => ?_, fun uniqueId hshown => ?_⟩
        · rcases Finset.mem_insert.mp hother with rfl | hold
          · exact nomatch hmessage.symm.trans hmem
          · exact hmirrors.shown other hold message hmem
        · obtain ⟨other, hother, huniqueId⟩ := hmirrors.only uniqueId hshown
          exact ⟨other, Finset.mem_insert_of_mem hother, huniqueId⟩
      simp only [FileOperation.changes, FileOperation.Followed, hmessage, Option.toList_none,
        List.map_nil, List.foldlM_nil, Option.pure_def, Option.some.injEq, exists_eq_left']
      exact ⟨fun _ => nofun, fun _ => hmirrors'⟩
  | some message =>
      have hfollowed : (FileOperation.create file).Followed files ↔ view message.1 = none := by
        rw [← Option.not_isSome_iff_eq_none, hmirrors.isSome_iff]
        simp [FileOperation.Followed, hmessage]
      rw [hfollowed]
      simp only [FileOperation.changes, hmessage, Option.toList_some, List.map_cons, List.map_nil,
        List.foldlM_cons, List.foldlM_nil, Change.apply]
      constructor
      · rintro ⟨view', hview', -⟩
        split at hview'
        · cases hview'
        · exact Option.not_isSome_iff_eq_none.mp ‹_›
      · intro hnew
        simp only [hnew, Option.isSome_none, Bool.false_eq_true, if_false, Option.bind_eq_bind,
          Option.bind_some, Option.pure_def, Option.some.injEq, exists_eq_left']
        refine ⟨fun other hother shown hshown => ?_, fun uniqueId hshown => ?_⟩
        · rcases Finset.mem_insert.mp hother with rfl | hold
          · obtain rfl := Option.some.inj (hmessage.symm.trans hshown)
            exact Function.update_self _ _ _
          · have hbefore := hmirrors.shown other hold shown hshown
            have hne : shown.1 ≠ message.1 := by
              intro hsame
              rw [hsame, hnew] at hbefore
              cases hbefore
            rw [Function.update_of_ne hne, hbefore]
        · by_cases hsame : uniqueId = message.1
          · exact ⟨file, Finset.mem_insert_self _ _, hsame ▸ uniqueId_of_message hmessage⟩
          · rw [Function.update_of_ne hsame] at hshown
            obtain ⟨other, hother, huniqueId⟩ := hmirrors.only uniqueId hshown
            exact ⟨other, Finset.mem_insert_of_mem hother, huniqueId⟩

/-- A deletion is followed if no other file has the message. -/
theorem Mirrors.delete_iff (hmirrors : view.Mirrors files) (file : MessageFile) :
    (∃ view', (FileOperation.delete file).changes.foldlM Change.apply view = some view' ∧
      view'.Mirrors (files.erase file)) ↔ (FileOperation.delete file).Followed files := by
  cases hmessage : file.message with
  | none =>
      have hmirrors' : view.Mirrors (files.erase file) := by
        refine ⟨fun other hother => hmirrors.shown other (Finset.mem_of_mem_erase hother),
          fun uniqueId hshown => ?_⟩
        obtain ⟨other, hother, huniqueId⟩ := hmirrors.only uniqueId hshown
        refine ⟨other, Finset.mem_erase.mpr ⟨?_, hother⟩, huniqueId⟩
        rintro rfl
        rw [MessageFile.uniqueId, hmessage] at huniqueId
        cases huniqueId
      simp only [FileOperation.changes, FileOperation.Followed, hmessage, Option.toList_none,
        List.map_nil, List.foldlM_nil, Option.pure_def, Option.some.injEq, exists_eq_left']
      exact ⟨fun _ => nofun, fun _ => hmirrors'⟩
  | some message =>
      simp only [FileOperation.changes, FileOperation.Followed, hmessage, Option.toList_some,
        List.map_cons, List.map_nil, List.foldlM_cons, List.foldlM_nil, Change.apply,
        Option.bind_eq_bind, Option.bind_some, Option.pure_def, Option.some.injEq,
        exists_eq_left', Option.mem_def, forall_eq']
      constructor
      · intro hmirrors' other hother huniqueId
        obtain ⟨flags, hshown⟩ := exists_message huniqueId
        have hgone := hmirrors'.shown other hother _ hshown
        rw [Function.update_self] at hgone
        cases hgone
      · intro hlast
        refine ⟨fun other hother shown hshown => ?_, fun uniqueId hshown => ?_⟩
        · have hne : shown.1 ≠ message.1 := fun hsame =>
            hlast other hother (hsame ▸ uniqueId_of_message hshown)
          rw [Function.update_of_ne hne]
          exact hmirrors.shown other (Finset.mem_of_mem_erase hother) shown hshown
        · by_cases hsame : uniqueId = message.1
          · rw [hsame, Function.update_self] at hshown
            cases hshown
          · rw [Function.update_of_ne hsame] at hshown
            obtain ⟨other, hother, huniqueId⟩ := hmirrors.only uniqueId hshown
            refine ⟨other, Finset.mem_erase.mpr ⟨?_, hother⟩, huniqueId⟩
            rintro rfl
            exact hsame (Option.some.inj (huniqueId.symm.trans (uniqueId_of_message hmessage)))

/-- The view after a message was given flags, if it is shown. -/
def flag (view : MailboxView) (message : Option ShownMessage) : MailboxView :=
  match message with
  | none => view
  | some message =>
      if (view message.1).isSome then Function.update view message.1 (some message.2) else view

theorem isSome_flag (message : Option ShownMessage) (uniqueId : String) :
    (view.flag message uniqueId).isSome = (view uniqueId).isSome := by
  unfold flag
  split
  · rfl
  · split
    · rename_i hshown
      rw [Function.update_apply]
      split
      · rename_i hsame
        rw [hsame, hshown]
        rfl
      · rfl
    · rfl

theorem Mirrors.changes_rename (hmirrors : view.Mirrors files) {old new : MessageFile}
    (hold : old ∈ files) : (FileOperation.rename old new).changes.foldlM Change.apply view =
      some (view.flag new.message) := by
  have hsame : view.flag old.message = view := by
    unfold flag
    split
    · rfl
    · rename_i message hmessage
      split
      · rw [← hmirrors.shown old hold message hmessage]
        exact Function.update_eq_self _ _
      · rfl
  have hflagged (view' : MailboxView) (message : Option ShownMessage) :
      (message.toList.map Change.flagged).foldlM Change.apply view' = some (view'.flag message) := by
    cases message <;> rfl
  simp only [FileOperation.changes, List.map_append, List.foldlM_append, hflagged, hsame,
    Option.bind_eq_bind, Option.bind_some]

/-- A rename is followed if it leaves a file for the message it takes one from, and
gives its new name to a message that is there and has no file with other flags. -/
theorem Mirrors.rename_iff (hmirrors : view.Mirrors files) {old : MessageFile} (new : MessageFile)
    (hold : old ∈ files) :
    (∃ view', (FileOperation.rename old new).changes.foldlM Change.apply view = some view' ∧
      view'.Mirrors (insert new (files.erase old))) ↔
        (FileOperation.rename old new).Followed files := by
  rw [hmirrors.changes_rename hold]
  simp only [Option.some.injEq, exists_eq_left']
  constructor
  · intro hmirrors'
    refine ⟨fun message hmessage => hmirrors'.only message.1 ?_, fun message hmessage => ⟨?_,
      fun other hother huniqueId => ?_⟩⟩
    · rw [isSome_flag, hmirrors.shown old hold message hmessage]
      rfl
    · refine hmirrors.only message.1 ?_
      rw [← isSome_flag new.message, hmirrors'.shown new (Finset.mem_insert_self _ _) _ hmessage]
      rfl
    · obtain ⟨flags, hshown⟩ := exists_message huniqueId
      have hhere := hmirrors'.shown new (Finset.mem_insert_self _ _) message hmessage
      have hthere := hmirrors'.shown other hother _ hshown
      obtain rfl : flags = message.2 := Option.some.inj (hthere.symm.trans hhere)
      exact hshown
  · rintro ⟨hleft, hjoined⟩
    have hnew (message : ShownMessage) (hmessage : new.message = some message) :
        view.flag new.message = Function.update view message.1 (some message.2) := by
      obtain ⟨other, hother, huniqueId⟩ := (hjoined message hmessage).1
      simp only [flag, hmessage]
      exact if_pos ((hmirrors.isSome_iff message.1).mpr ⟨other, hother, huniqueId⟩)
    refine ⟨fun other hother shown hshown => ?_, fun uniqueId hshown => ?_⟩
    · cases hmessage : new.message with
      | none =>
          rcases Finset.mem_insert.mp hother with rfl | hbefore
          · exact nomatch hmessage.symm.trans hshown
          · exact hmirrors.shown other (Finset.mem_of_mem_erase hbefore) shown hshown
      | some message =>
          rw [← hmessage, hnew message hmessage]
          by_cases hsame : shown.1 = message.1
          · have hagrees := (hjoined message hmessage).2 other hother
              (hsame ▸ uniqueId_of_message hshown)
            obtain rfl := Option.some.inj (hshown.symm.trans hagrees)
            exact Function.update_self _ _ _
          · rw [Function.update_of_ne hsame]
            rcases Finset.mem_insert.mp hother with rfl | hbefore
            · obtain rfl := Option.some.inj (hmessage.symm.trans hshown)
              exact absurd rfl hsame
            · exact hmirrors.shown other (Finset.mem_of_mem_erase hbefore) shown hshown
    · rw [isSome_flag] at hshown
      obtain ⟨other, hother, huniqueId⟩ := hmirrors.only uniqueId hshown
      by_cases hsame : other = old
      · subst hsame
        obtain ⟨flags, hmessage⟩ := exists_message huniqueId
        exact hleft _ hmessage
      · exact ⟨other, Finset.mem_insert_of_mem (Finset.mem_erase.mpr ⟨hsame, hother⟩), huniqueId⟩

theorem Mirrors.operate_iff (hmirrors : view.Mirrors files) {operation : FileOperation}
    (hpossible : operation.Possible files) :
    (∃ view', operation.changes.foldlM Change.apply view = some view' ∧
      view'.Mirrors (operation.apply files)) ↔ operation.Followed files := by
  cases operation with
  | create file => exact hmirrors.create_iff file
  | rename old new => exact hmirrors.rename_iff new hpossible
  | delete file => exact hmirrors.delete_iff file

theorem Mirrors.create_of_foldlM_eq_none (hmirrors : view.Mirrors files)
    {operation : FileOperation} (hpossible : operation.Possible files)
    (hnone : operation.changes.foldlM Change.apply view = none) :
    ∃ file message, operation = .create file ∧ file.message = some message ∧
      (view message.1).isSome := by
  cases operation with
  | create file =>
      cases hmessage : file.message with
      | none =>
          rw [FileOperation.changes, hmessage] at hnone
          cases hnone
      | some message =>
          refine ⟨file, message, rfl, hmessage, ?_⟩
          simp only [FileOperation.changes, hmessage, Option.toList_some, List.map_cons,
            List.map_nil, List.foldlM_cons, Change.apply] at hnone
          split at hnone
          · assumption
          · cases hnone
  | rename old new =>
      rw [hmirrors.changes_rename hpossible] at hnone
      cases hnone
  | delete file =>
      cases hmessage : file.message <;> rw [FileOperation.changes, hmessage] at hnone <;>
        cases hnone

end MailboxView

end Scuttled
