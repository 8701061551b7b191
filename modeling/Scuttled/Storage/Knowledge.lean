import Scuttled.Foundation.Ledger
import Scuttled.Storage.Messages

/-!
# What is known of stored messages

A ledger is told of every answer of the storage, and says what it may answer next.  It is
right as long as callers take care: no message is stored under the name of another, and no
path leads to a directory.
-/

namespace Scuttled

open Rust Foundation

/-! ## The ledger of messages -/

/-- What the callers know of the messages. -/
abbrev MessageLedger := Ledger Location Location Bytes

/-- What the callers know, also of the files that reads have opened: what those of kept
messages held then. -/
structure Knowledge where
  messages : MessageLedger
  opened : Nat → Option Bytes

def Knowledge.nothing : Knowledge where
  messages _ := .absent
  opened _ := none

/-- Names with one separator between them, which the file system takes as they are
written. -/
def PlainPath (path : String) : Prop :=
  ∀ piece ∈ pieces path, SingleComponent (String.ofList piece)

/-- A path leads to the place of a file, with directories above it. -/
structure Placed (root : String) (directories : Set Location) (path : String) : Prop where
  plain : PlainPath path ∧ .parentDir ∉ components root
  file : resolve (fullPath root path) ∉ directories
  above : ∀ location ∈ ancestors (resolve (fullPath root path)), location ∈ directories

section Ledgers

variable (format : FlagFormat) (root : String)

/-- What is known of the message at a path. -/
def Knowledge.finds (known : Knowledge) (path : String) : Option (Option Bytes) :=
  known.messages.finds messageOf (resolve (fullPath root path))

/-- What an answer says of the messages.  A write is in doubt from its beginning; it stays
so if it fails, or if the background has failed and nobody is told. -/
def MessageLedger.after (ledger : MessageLedger) :
    StorageEvent → Option StorageOutput → MessageLedger
  | .store path _ _, some .taken => Function.update ledger (messageAt root path) .unsettled
  | .proceed _, some (.stored path content (.ok ()) none) =>
      Function.update ledger (messageAt root path) (.kept (resolve (fullPath root path)) content)
  | .updateFlags path flags _ _, some (.updated (.ok ())) =>
      match flagPath format.component path flags with
      | .ok target =>
          ledger.moved messageOf (resolve (fullPath root path)) (resolve (fullPath root target))
      | .error _ => ledger
  | .delete path _, some (.deleted (.ok ())) =>
      Function.update ledger (messageAt root path) .absent
  | _, _ => ledger

/-- What is known after an answer. -/
def Knowledge.after (known : Knowledge) (event : StorageEvent) (output : Option StorageOutput) :
    Knowledge where
  messages := known.messages.after format root event output
  opened :=
    match output with
    | some (.opened id path) => Function.update known.opened id (known.finds root path).join
    | _ => known.opened

/-- No step of the move fails. -/
structure MoveOutcome.GoesThrough (check : Option String) (outcome : MoveOutcome) : Prop where
  serving : outcome.serving = .served
  check : check = none
  directories : outcome.directories = none
  rename : outcome.rename = none

/-- No step of the removal fails. -/
structure RemoveOutcome.GoesThrough (outcome : RemoveOutcome) : Prop where
  serving : outcome.serving = .served
  check : outcome.check = none
  remove : outcome.remove = none

/-- What a write may answer: that it is through, or the error of the step that failed. -/
def Writing.Answers (writing : Writing) (event : SaveEvent) (output : Option StorageOutput) :
    Prop :=
  ∀ path content result unreported, output = some (.stored path content result unreported) →
    path = writing.path ∧ content = writing.content ∧
      (result = .ok () ∧ unreported = writing.error ∨
        ∃ failure, result = .error (.io failure) ∧
          (event.error = some failure ∨ writing.error = some failure))

/-- What a call of `retrieve` may do in its next step, as far as its message is known. -/
def Knowledge.Reads (known : Knowledge) (id : Nat) (call : Retrieve)
    (outcome : Except String Nat) (output : Option StorageOutput) : Prop :=
  match call.phase, outcome with
  | .checking, .error _ => output = some (.retrieved id (.ok none))
  | .checking, .ok _ => ∀ found, known.finds root call.path = some found →
      output = if found.isSome then none else some (.retrieved id (.ok none))
  | .opening, .ok _ => ∀ found, known.finds root call.path = some found →
      output = if found.isSome then some (.opened id call.path)
        else some (.retrieved id (.error (.io "No such file or directory (os error 2)")))
  -- the file of a message stays the one it was when it was opened
  | .reading _ content, .ok _ => ∀ held, known.opened id = some held →
      output = if content = held then some (.retrieved id (.ok (some held))) else none
  | _, .error failure => output = some (.retrieved id (.error (.io failure)))

/-- What may be answered as far as the messages are known. -/
def Knowledge.Answers (known : Knowledge) (storage : Storage) :
    StorageEvent → Option StorageOutput → Prop
  | .store path content serving, output =>
      output = match serving.refusal with
        | some failure => some (.stored path content (.error failure) none)
        | none => if storage.writing.isSome then none else some .taken
  | .proceed event, output =>
      ∀ writing, storage.writing = some writing → writing.Answers event output
  | .updateFlags path _ check outcome, output =>
      if storage.writing.isSome ∧ outcome.serving = .served then output = none
      else ∃ result, output = some (.updated result) ∧
        (¬ outcome.GoesThrough check → ∃ failure, result = .error failure) ∧
        (outcome.GoesThrough check → ∀ found, known.finds root path = some found →
          result = if found.isSome then .ok ()
            else .error (.notFound ("Source file not found: " ++ path)))
  | .delete path outcome, output =>
      if storage.writing.isSome ∧ outcome.serving = .served then output = none
      else ∃ result, output = some (.deleted result) ∧
        (¬ outcome.GoesThrough → ∃ failure, result = .error failure) ∧
        (outcome.GoesThrough → ∀ found, known.finds root path = some found →
          result = if found.isSome then .ok ()
            else .error (.notFound ("File not found: " ++ path)))
  | .retrieve _, output => output = some (.asked storage.nextCall)
  | .advance id outcome, output =>
      ∀ call, storage.retrieving id = some call → known.Reads root id call outcome output
  | .doesExist path error, output =>
      ∀ found, known.finds root path = some found →
        output = some (.existed (error = none ∧ found.isSome))

/-- What callers take care of: their paths lead to places of files, what they store is a
new message, and the messages have names. -/
def StorageEvent.Fits (directories : Set Location) (known : Knowledge) : StorageEvent → Prop
  | .store path _ _ => Placed root directories path ∧
      known.messages (messageAt root path) = .absent
  | .updateFlags path flags _ _ => Placed root directories path ∧
      ∃ filename target, fileName path = some filename ∧ SingleComponent (uniqueIdPart filename) ∧
        flagPath format.component path flags = .ok target ∧ Placed root directories target
  | .delete path _ => Placed root directories path
  | .retrieve path => Placed root directories path
  | .doesExist path _ => Placed root directories path
  | .proceed _ | .advance _ _ => True

/-- The storage, and beside it what is known, which every answer is added to. -/
def Storage.tracked :
    Machine (Storage × Knowledge) StorageEvent (Option StorageOutput) where
  step current event :=
    let (storage, output) := Storage.step format root current.1 event
    ((storage, current.2.after format root event output), output)

end Ledgers

/-! ## What is known is true -/

section Agreement

variable {format : FlagFormat} {root : String} {directories : Set Location}
  {known : Knowledge} {tree : FileTree} {storage : Storage}

/-- What the file holds that is being written. -/
def Writing.Holds (root : String) (tree : FileTree) (writing : Writing) : Prop :=
  match writing.phase with
  | .writing taken written _ =>
      written ≤ taken ∧ taken ≤ writing.content.length ∧
        tree.files (resolve (fullPath root writing.path)) = some (writing.content.take written)
  | _ => True

/-- The write of a message that is in doubt, and has no other file. -/
structure Underway (root : String) (directories : Set Location) (ledger : MessageLedger)
    (tree : FileTree) (writing : Writing) : Prop where
  placed : Placed root directories writing.path
  unsettled : ledger (messageAt root writing.path) = .unsettled
  alone : AloneAt messageOf tree.files (resolve (fullPath root writing.path))
  holds : writing.Holds root tree

/-- An open file holds what it held, and is not being written. -/
structure Storage.Keeps (root : String) (storage : Storage) (handle : FileHandle) (held : Bytes) :
    Prop where
  holds : handle.Holds storage.tree held
  apart : ∀ writing, storage.writing = some writing →
    handle ≠ .linked (resolve (fullPath root writing.path))

/-- A call of `retrieve` is at a file, and what it has read is the beginning of what that is
known to hold. -/
structure Storage.Serves (root : String) (directories : Set Location) (storage : Storage)
    (opened : Option Bytes) (call : Retrieve) : Prop where
  placed : Placed root directories call.path
  reading : ∀ handle content held, call.phase = .reading handle content → opened = some held →
    storage.Keeps root handle held ∧ content <+: held

/-- The ledger describes the files, the loop is at a write of which nothing is known, and
open files hold what they are known to. -/
structure Storage.Agrees (root : String) (directories : Set Location) (known : Knowledge)
    (storage : Storage) : Prop where
  tidy : storage.tree.Tidy directories
  describes : known.messages.Describes messageOf storage.tree.files
  writing : ∀ writing, storage.writing = some writing →
    Underway root directories known.messages storage.tree writing
  retrieving : ∀ id call, storage.retrieving id = some call →
    storage.Serves root directories (known.opened id) call

theorem Storage.agrees_new (htidy : tree.Tidy directories) (hfiles : tree.files = fun _ => none)
    (hroot : ∀ location ∈ ancestors (resolve root) ++ [resolve root], location ∈ directories) :
    (Storage.new root tree).Agrees root directories .nothing where
  tidy := by
    rw [Storage.new]
    exact htidy.makeDirectories hroot
  describes := by
    rw [Storage.new, FileTree.files_makeDirectories, hfiles]
    exact Ledger.describes_nothing
  writing _ hwriting := by cases hwriting
  retrieving _ _ hcall := by cases hcall

theorem Storage.Agrees.finds_eq (hagrees : storage.Agrees root directories known) {path : String}
    {found : Option Bytes} (hfinds : known.finds root path = some found) :
    storage.tree.files (resolve (fullPath root path)) = found :=
  hagrees.describes.eq_of_finds hfinds

theorem Storage.Agrees.tryExists_eq (hagrees : storage.Agrees root directories known)
    {path : String} (hplaced : Placed root directories path) :
    storage.tree.tryExists (fullPath root path) =
      (storage.tree.files (resolve (fullPath root path))).isSome := by
  rw [FileTree.tryExists,
    FileTree.files_of_ne_directory (hagrees.tidy.ne_directory hplaced.file), Option.isSome_map]

theorem Storage.Serves.relink {storage' : Storage} {opened : Option Bytes} {call : Retrieve}
    (hserves : storage.Serves root directories opened call) {relink : FileHandle → FileHandle}
    (hkeeps : ∀ handle held, storage.Keeps root handle held →
      storage'.Keeps root (relink handle) held) :
    storage'.Serves root directories opened (call.relink relink) := by
  obtain ⟨path, phase⟩ := call
  cases phase with
  | checking => exact ⟨hserves.placed, by rintro _ _ _ ⟨⟩⟩
  | opening => exact ⟨hserves.placed, by rintro _ _ _ ⟨⟩⟩
  | reading handle content =>
      refine ⟨hserves.placed, ?_⟩
      rintro _ _ held ⟨⟩ hopened
      obtain ⟨hkept, hread⟩ := hserves.reading handle content held rfl hopened
      exact ⟨hkeeps handle held hkept, hread⟩

theorem Storage.Serves.of_keeps {storage' : Storage} {opened : Option Bytes} {call : Retrieve}
    (hserves : storage.Serves root directories opened call)
    (hkeeps : ∀ handle held, storage.Keeps root handle held → storage'.Keeps root handle held) :
    storage'.Serves root directories opened call where
  placed := hserves.placed
  reading handle content held hphase hopened :=
    (hserves.reading handle content held hphase hopened).imp_left (hkeeps handle held)

end Agreement

end Scuttled
