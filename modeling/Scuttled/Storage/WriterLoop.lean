import Scuttled.Storage.MoveFile

/-!
# The storage and its writer loop

`Storage` sends what it writes, moves and removes to a writer loop, which serves one
command after the other.  What it reads it reads from the file system itself, in several
steps, also while the loop is in the middle of a write.  A write to a file of tokio takes
the bytes and writes them in the background; `sync_all` waits for the last of it, but does
not report its error.
-/

namespace Scuttled

open Rust Foundation

/-! ## Removing a message -/

/-- What becomes of a command for the loop, as the caller is told who is not served. -/
def Serving.refusal : Serving → Option Error
  | .served => none
  | .stopped => some (.internal "Storage writer loop stopped")
  | .dropped => some (.internal "Storage writer loop dropped reply")

/-- What fails of a deletion: the writer loop does not serve it, or `try_exists` does, or
the removal ends with an error. -/
structure RemoveOutcome where
  serving : Serving
  check : Option String
  remove : Option String

/-- `fs::remove_file`, which may fail: a directory is not removed. -/
def FileTree.tryRemove (location : Location) (failure : Option String) (tree : FileTree) :
    Result Unit × FileTree :=
  match tree location with
  | some .directory => (.error (.io "Is a directory (os error 21)"), tree)
  | _ =>
      match failure with
      | some failure => (.error (.io failure), tree)
      | none => (.ok (), Function.update tree location none)

def FilesystemStore.remove (root path : String) (outcome : RemoveOutcome) (tree : FileTree) :
    Result Unit × FileTree :=
  -- `try_exists().unwrap_or(false)`
  if outcome.check.isSome || !tree.tryExists (fullPath root path) then
    (.error (.notFound ("File not found: " ++ path)), tree)
  else tree.tryRemove (resolve (fullPath root path)) outcome.remove

/-! ## Files that are open -/

/-- A file that was opened: by its place, or by what it holds since it has none. -/
inductive FileHandle where
  | linked (location : Location)
  | unlinked (held : Result Bytes)

namespace FileHandle

def read (tree : FileTree) : FileHandle → Result Bytes
  | .unlinked held => held
  | .linked location =>
      match tree location with
      | some (.file content) => .ok content
      | some .directory => .error (.io "Is a directory (os error 21)")
      | none => .ok []

/-- A rename takes along an open file, or replaces it. -/
def renamed (source target : Location) (tree : FileTree) : FileHandle → FileHandle
  | .unlinked held => .unlinked held
  | .linked location =>
      match tree source with
      | some .directory =>
          match FileTree.below source location with
          | some rest => .linked { target with names := target.names ++ rest }
          | none =>
              if (FileTree.below target location).isSome then
                .unlinked ((linked location).read tree)
              else .linked location
      | _ =>
          if location = source then .linked target
          else if location = target then .unlinked ((linked location).read tree)
          else .linked location

/-- An open file that is removed can still be read. -/
def removed (location : Location) (tree : FileTree) : FileHandle → FileHandle
  | .unlinked held => .unlinked held
  | .linked place =>
      if place = location then .unlinked ((linked place).read tree) else .linked place

end FileHandle

/-! ## The loop and its readers -/

/-- How the files of a format spell flags: not at all, or behind `:2,`, and so that a file
name stays one. -/
structure FlagFormat where
  component : List MessageFlag → String
  spells : ∀ flags, component flags = "" ∨ ∃ rest, component flags = ":2," ++ rest
  single : ∀ name flags, SingleComponent name → SingleComponent (name ++ component flags)

/-- `flags_to_filename_component` of the Maildir format. -/
def MaildirFormat.flagFormat : FlagFormat where
  component := flagsToFilenameComponent
  spells := flagsToFilenameComponent_cases
  single _ flags hname := singleComponent_append hname flags

/-- How far the loop has come with a write. -/
inductive SavePhase where
  | creatingDirectories
  | creatingFile
  /-- `write_all` has handed over some bytes, and so many of them are in the file; the
  error is that of the background, not reported so far. -/
  | writing (taken written : Nat) (error : Option String)

/-- A write the loop is in the middle of. -/
structure Writing where
  path : String
  content : Bytes
  phase : SavePhase

/-- The error of the background that is not reported so far. -/
def Writing.error (writing : Writing) : Option String :=
  match writing.phase with
  | .writing _ _ error => error
  | _ => none

/-- What happens next in a write. -/
inductive SaveEvent where
  /-- `create_dir_all`: how many directories it got to, and its error. -/
  | createDirectories (outcome : Option (Nat × String))
  | createFile (error : Option String)
  /-- A write of `write_all` takes at most so many bytes, or reports the error of the one
  before it. -/
  | take (count : Nat)
  /-- Some bytes get to the file in the background. -/
  | progress (count : Nat)
  /-- A write in the background ends with an error. -/
  | fail (error : String)
  | sync (error : Option String)

/-- The error a step of a write ends with. -/
def SaveEvent.error : SaveEvent → Option String
  | .createDirectories outcome => outcome.map Prod.snd
  | .createFile error => error
  | .sync error => error
  | _ => none

/-- How far a call of `retrieve` has come. -/
inductive RetrievePhase where
  | checking
  | opening
  | reading (handle : FileHandle) (content : Bytes)

/-- A call of `retrieve`. -/
structure Retrieve where
  path : String
  phase : RetrievePhase

/-- The call goes on with a file that has another place. -/
def Retrieve.relink (relink : FileHandle → FileHandle) (call : Retrieve) : Retrieve :=
  match call.phase with
  | .reading handle content => { call with phase := .reading (relink handle) content }
  | _ => call

/-- The files, what the loop is doing, and the calls of `retrieve` that are not through. -/
structure Storage where
  tree : FileTree
  writing : Option Writing
  retrieving : Nat → Option Retrieve
  nextCall : Nat

/-- What happens next: the loop takes a command, or goes on with a write, or somebody
reads. -/
inductive StorageEvent where
  | store (path : String) (content : Bytes) (serving : Serving)
  | proceed (step : SaveEvent)
  /-- The check is the error of `try_exists`. -/
  | updateFlags (path : String) (flags : List MessageFlag) (check : Option String)
      (outcome : MoveOutcome)
  | delete (path : String) (outcome : RemoveOutcome)
  | retrieve (path : String)
  /-- The next step of a call of `retrieve`, which may fail: a read of `read_to_end` yields
  at most so many bytes. -/
  | advance (id : Nat) (outcome : Except String Nat)
  | doesExist (path : String) (error : Option String)

/-- What a caller is told, or what the loop or a call begins with. -/
inductive StorageOutput where
  | taken
  /-- The error of the background that the caller is not told of stands beside the answer. -/
  | stored (path : String) (content : Bytes) (result : Result Unit) (unreported : Option String)
  | updated (result : Result Unit)
  | deleted (result : Result Unit)
  | asked (id : Nat)
  | opened (id : Nat) (path : String)
  | retrieved (id : Nat) (result : Result (Option Bytes))
  | existed (answer : Bool)
  deriving DecidableEq

namespace Storage

variable (format : FlagFormat) (root : String)

/-- The storage over a store that `FilesystemStore::new` has made. -/
def new (tree : FileTree) : Storage where
  tree := tree.makeDirectories (ancestors (resolve root) ++ [resolve root])
  writing := none
  retrieving _ := none
  nextCall := 0

/-! ### Writes -/

def goOn (writing : Writing) (phase : SavePhase) (storage : Storage) : Storage :=
  { storage with writing := some { writing with phase } }

/-- `write` returns, and the caller is answered. -/
def answerStore (writing : Writing) (result : Result Unit) (unreported : Option String)
    (storage : Storage) : Storage × Option StorageOutput :=
  ({ storage with writing := none },
    some (.stored writing.path writing.content result unreported))

/-- The next step of `FilesystemStore::write`.  What is not due does not happen. -/
def proceed (writing : Writing) (storage : Storage) : SaveEvent → Storage × Option StorageOutput
  | .createDirectories outcome =>
      match writing.phase with
      | .creatingDirectories =>
          let above := ancestors (resolve (fullPath root writing.path))
          match storage.tree.createDirAll above outcome with
          | (.error failure, tree) =>
              { storage with tree }.answerStore writing (.error failure) none
          | (.ok (), tree) => ({ storage with tree }.goOn writing .creatingFile, none)
      | _ => (storage, none)
  | .createFile error =>
      let target := resolve (fullPath root writing.path)
      match writing.phase with
      | .creatingFile =>
          match error with
          | some error => storage.answerStore writing (.error (.io error)) none
          | none =>
              if storage.tree target = some .directory then
                storage.answerStore writing (.error (.io "Is a directory (os error 21)")) none
              else
                ({ storage with tree := storage.tree.put target (.file []) }.goOn writing
                  (.writing 0 0 none), none)
      | _ => (storage, none)
  | .take count =>
      match writing.phase with
      | .writing taken written none =>
          if 0 < count ∧ taken < writing.content.length ∧ written = taken then
            (storage.goOn writing
              (.writing (min (taken + count) writing.content.length) written none), none)
          else (storage, none)
      | .writing taken _ (some error) =>
          if taken < writing.content.length then
            storage.answerStore writing (.error (.io error)) none
          else (storage, none)
      | _ => (storage, none)
  | .progress count =>
      match writing.phase with
      | .writing taken written none =>
          let written := min (written + count) taken
          let target := resolve (fullPath root writing.path)
          let tree := storage.tree.put target (.file (writing.content.take written))
          ({ storage with tree }.goOn writing (.writing taken written none), none)
      | _ => (storage, none)
  | .fail error =>
      match writing.phase with
      | .writing taken written none =>
          if written < taken then
            (storage.goOn writing (.writing taken written (some error)), none)
          else (storage, none)
      | _ => (storage, none)
  | .sync failure =>
      match writing.phase with
      | .writing taken written error =>
          if taken = writing.content.length ∧ (error = none → written = taken) then
            match failure with
            | some failure => storage.answerStore writing (.error (.io failure)) error
            -- `sync_all` keeps the error of the background for a next write
            | none => storage.answerStore writing (.ok ()) error
          else (storage, none)
      | _ => (storage, none)

/-! ### Reads -/

/-- A call of `retrieve` goes on. -/
def resume (id : Nat) (call : Retrieve) (phase : RetrievePhase) (storage : Storage) : Storage :=
  { storage with retrieving := Function.update storage.retrieving id (some { call with phase }) }

/-- A call of `retrieve` returns. -/
def answer (id : Nat) (result : Result (Option Bytes)) (storage : Storage) :
    Storage × Option StorageOutput :=
  ({ storage with retrieving := Function.update storage.retrieving id none },
    some (.retrieved id result))

/-- The next step of `FilesystemStore::read`. -/
def advance (id : Nat) (call : Retrieve) (outcome : Except String Nat) (storage : Storage) :
    Storage × Option StorageOutput :=
  match call.phase with
  | .checking =>
      match outcome with
      -- `try_exists().unwrap_or(false)`
      | .error _ => storage.answer id (.ok none)
      | .ok _ =>
          if storage.tree.tryExists (fullPath root call.path) then
            (storage.resume id call .opening, none)
          else storage.answer id (.ok none)
  | .opening =>
      match outcome with
      | .error error => storage.answer id (.error (.io error))
      | .ok _ =>
          if storage.tree.tryExists (fullPath root call.path) then
            (storage.resume id call
              (.reading (.linked (resolve (fullPath root call.path))) []),
              some (.opened id call.path))
          else storage.answer id (.error (.io "No such file or directory (os error 2)"))
  | .reading handle content =>
      match outcome with
      | .error error => storage.answer id (.error (.io error))
      | .ok count =>
          match handle.read storage.tree with
          | .error failure => storage.answer id (.error failure)
          | .ok held =>
              let left := held.drop content.length
              if left = [] then storage.answer id (.ok (some content))
              else (storage.resume id call (.reading handle (content ++ left.take count)), none)

/-- Files that are open are followed. -/
def relink (relink : FileHandle → FileHandle) (storage : Storage) : Storage :=
  { storage with retrieving := fun id => (storage.retrieving id).map (·.relink relink) }

/-! ### The system -/

/-- One event.  A step that is not due does not happen: the loop takes no command while it
is in the middle of a write. -/
def step (storage : Storage) : StorageEvent → Storage × Option StorageOutput
  | .store path content serving =>
      match serving.refusal with
      | some failure => (storage, some (.stored path content (.error failure) none))
      | none =>
          match storage.writing with
          | none =>
              ({ storage with writing := some ⟨path, content, .creatingDirectories⟩ }, some .taken)
          | some _ => (storage, none)
  | .proceed event =>
      match storage.writing with
      | none => (storage, none)
      | some writing => storage.proceed root writing event
  | .updateFlags path flags check outcome =>
      match flagPath format.component path flags with
      | .error failure => (storage, some (.updated (.error failure)))
      | .ok target =>
          match outcome.serving.refusal with
          | some failure => (storage, some (.updated (.error failure)))
          | none =>
              if storage.writing.isSome then (storage, none)
              else if check.isSome then
                (storage, some (.updated (.error (.notFound ("Source file not found: " ++ path)))))
              else
                match moveFile root path target outcome storage.tree with
                | (.error failure, tree) =>
                    ({ storage with tree }, some (.updated (.error failure)))
                | (.ok (), tree) =>
                    let source := resolve (fullPath root path)
                    let target := resolve (fullPath root target)
                    ({ storage.relink (.renamed source target storage.tree) with tree },
                      some (.updated (.ok ())))
  | .delete path outcome =>
      match outcome.serving.refusal with
      | some failure => (storage, some (.deleted (.error failure)))
      | none =>
          if storage.writing.isSome then (storage, none)
          else
            match FilesystemStore.remove root path outcome storage.tree with
            | (.error failure, tree) => ({ storage with tree }, some (.deleted (.error failure)))
            | (.ok (), tree) =>
                let location := resolve (fullPath root path)
                ({ storage.relink (.removed location storage.tree) with tree },
                  some (.deleted (.ok ())))
  | .retrieve path =>
      ({ storage with
          retrieving := Function.update storage.retrieving storage.nextCall (some ⟨path, .checking⟩)
          nextCall := storage.nextCall + 1 }, some (.asked storage.nextCall))
  | .advance id outcome =>
      match storage.retrieving id with
      | none => (storage, none)
      | some call => storage.advance root id call outcome
  | .doesExist path error =>
      (storage, some (.existed (error = none ∧ storage.tree.tryExists (fullPath root path))))

/-- The storage, its callers and its writer loop. -/
def machine : Machine Storage StorageEvent (Option StorageOutput) where
  step := step format root

end Storage

end Scuttled
