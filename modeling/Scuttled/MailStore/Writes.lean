import Scuttled.Foundation.Machine
import Scuttled.MailStore.Filesystem

/-!
# Writes of the mail store

`FilesystemMailStore` serves its writes one at a time; its reads go to the file
system directly.  A write to a file of tokio takes the bytes and writes them in
the background; the next write to it waits for that and reports its error, but
after the last one nothing does.
-/

namespace Scuttled

open Rust Foundation

/-! ## The store -/

/-- `WriteCommand`. -/
inductive MailCommand where
  | store (path : String) (content : Bytes)
  | delete (path : String)
  deriving DecidableEq

def MailCommand.path : MailCommand → String
  | .store path _ => path
  | .delete path => path

/-- Bytes of a store that are written in the background: to which file, where the
next one goes, and what is left. -/
structure Background where
  owner : Nat
  inode : Nat
  offset : Nat
  rest : Bytes

/-- How far the writer loop has come with a command. -/
inductive WriterStage where
  | idle
  | creatingDirectories (id : Nat) (path : String) (content : Bytes)
  | creatingFile (id : Nat) (path : String) (content : Bytes)
  /-- `write_all` has handed over some of the bytes; the error is that of the
  background, not reported so far. -/
  | writing (id : Nat) (path : String) (content : Bytes) (inode taken : Nat)
      (error : Option String)
  /-- `store_file` has returned, the file it wrote to with its result. -/
  | stored (id : Nat) (path : String) (content : Bytes) (result : Except Error Nat)
  | checking (id : Nat) (path : String)
  | removing (id : Nat) (path : String)
  | deleted (id : Nat) (path : String) (result : Result Unit)

/-- A file that is still open is told of the error of a write in the background. -/
def WriterStage.told (owner : Nat) (error : String) : WriterStage → WriterStage
  | .writing id path content inode taken none =>
      if owner = id then .writing id path content inode taken (some error)
      else .writing id path content inode taken none
  | stage => stage

/-- The files before the store is used: each has a number, and one name. -/
structure Disk where
  files : Location → Option Nat
  contents : Nat → Bytes
  nextInode : Nat
  apart : ∀ {location location' inode}, files location = some inode →
    files location' = some inode → location = location'
  fresh : ∀ {location inode}, files location = some inode → inode < nextInode

def Disk.empty : Disk where
  files _ := none
  contents _ := []
  nextInode := 0
  apart hfile _ := by cases hfile
  fresh hfile := by cases hfile

/-- The files under the root, the writes in the background, the channel and the
writer loop.  What a store failed to write is remembered for the statements
only. -/
structure MailStoreRun where
  files : Location → Option Nat
  contents : Nat → Bytes
  nextInode : Nat
  background : List Background
  failed : List Nat
  queue : List (Nat × MailCommand)
  nextId : Nat
  stage : WriterStage

/-- What may happen to the writer loop and to the files. -/
inductive WriterEvent where
  /-- A client's command gets into the channel. -/
  | send (command : MailCommand)
  /-- The writer loop takes the next command. -/
  | receive
  | createDirectories (error : Option String)
  | createFile (error : Option String)
  /-- A write of `write_all` takes at most so many bytes. -/
  | take (count : Nat)
  /-- A write of `write_all` reports the error of the one before it. -/
  | report
  /-- `write_all` has no bytes left to write. -/
  | writeAllDone
  | checkExists (error : Option String)
  | removeFile (error : Option String)
  | reply
  /-- Some bytes of a write in the background get to the file. -/
  | progress (index count : Nat)
  | fail (index : Nat) (error : String)

/-- What the clients see, and what a file holds when a store is answered. -/
inductive Happening where
  | sent (id : Nat) (command : MailCommand)
  | stored (id : Nat) (path : String) (content : Bytes) (result : Result Unit) (held : Bytes)
  | deleted (id : Nat) (path : String) (result : Result Unit)
  | asked (id : Nat) (path : String)
  | retrieved (id : Nat) (path : String) (answer : Result (Option Bytes))
  | existed (path : String) (answer : Bool)

/-- Bytes written at an offset; a gap before it is filled with zeros. -/
def writeAt (content : Bytes) (offset : Nat) (bytes : Bytes) : Bytes :=
  (content ++ List.replicate (offset - content.length) 0).take offset ++ bytes ++
    content.drop (offset + bytes.length)

theorem writeAt_end {content : Bytes} {offset : Nat} (hend : content.length = offset)
    (bytes : Bytes) : writeAt content offset bytes = content ++ bytes := by
  unfold writeAt
  rw [hend, Nat.sub_self, List.replicate_zero, List.append_nil, ← hend, List.take_length,
    List.drop_eq_nil_of_le (Nat.le_add_right _ _), List.append_nil]

theorem writeAt_take {content : Bytes} {offset taken : Nat} (hle : taken ≤ content.length)
    (hoffset : offset < taken) (count : Nat) :
    writeAt (content.take offset) offset (((content.take taken).drop offset).take count) =
      content.take (min (offset + count) taken) := by
  have hend : (content.take offset).length = offset := by
    rw [List.length_take]
    omega
  have hpart : content.take offset = (content.take taken).take offset := by
    rw [List.take_take, Nat.min_eq_left hoffset.le]
  rw [writeAt_end hend, hpart, ← List.take_add, List.take_take]

/-- `channel(100)`. -/
def mailChannelCapacity : Nat := 100

namespace MailStoreRun

/-- A new store over some files. -/
def new (disk : Disk) : MailStoreRun where
  files := disk.files
  contents := disk.contents
  nextInode := disk.nextInode
  background := []
  failed := []
  queue := []
  nextId := 0
  stage := .idle

/-- The writer loop takes a command. -/
def receive (run : MailStoreRun) : MailStoreRun :=
  match run.stage with
  | .idle =>
      match run.queue with
      | (id, .store path content) :: rest =>
          { run with queue := rest, stage := .creatingDirectories id path content }
      | (id, .delete path) :: rest => { run with queue := rest, stage := .checking id path }
      | [] => run
  | _ => run

/-- `create_dir_all`; no file is touched. -/
def createDirectories (error : Option String) (run : MailStoreRun) : MailStoreRun :=
  match run.stage with
  | .creatingDirectories id path content =>
      match error with
      | none => { run with stage := .creatingFile id path content }
      | some error => { run with stage := .stored id path content (.error (.io error)) }
  | _ => run

/-- `File::create`: a file that is there is truncated. -/
def createFile (root : String) (error : Option String) (run : MailStoreRun) : MailStoreRun :=
  match run.stage with
  | .creatingFile id path content =>
      match error with
      | some error => { run with stage := .stored id path content (.error (.io error)) }
      | none =>
          match run.files (resolve (fullPath root path)) with
          | some inode =>
              { run with
                contents := Function.update run.contents inode []
                stage := .writing id path content inode 0 none }
          | none =>
              { run with
                files :=
                  Function.update run.files (resolve (fullPath root path)) (some run.nextInode)
                contents := Function.update run.contents run.nextInode []
                nextInode := run.nextInode + 1
                stage := .writing id path content run.nextInode 0 none }
  | _ => run

/-- A write takes bytes, once the one before it is through. -/
def take (count : Nat) (run : MailStoreRun) : MailStoreRun :=
  match run.stage with
  | .writing id path content inode taken none =>
      if 0 < count ∧ taken < content.length ∧ ∀ write ∈ run.background, write.owner ≠ id then
        let bytes := (content.drop taken).take count
        { run with
          background := run.background ++ [{ owner := id, inode, offset := taken, rest := bytes }]
          stage := .writing id path content inode (taken + bytes.length) none }
      else run
  | _ => run

/-- A write that still has bytes to take reports the error of the one before it. -/
def report (run : MailStoreRun) : MailStoreRun :=
  match run.stage with
  | .writing id path content _ taken (some error) =>
      if taken < content.length then
        { run with stage := .stored id path content (.error (.io error)) }
      else run
  | _ => run

/-- `write_all` returns once all bytes are taken, and `store_file` with it. -/
def writeAllDone (run : MailStoreRun) : MailStoreRun :=
  match run.stage with
  | .writing id path content inode taken _ =>
      if taken = content.length then { run with stage := .stored id path content (.ok inode) }
      else run
  | _ => run

/-- `try_exists(..).unwrap_or(false)` of `delete_file`. -/
def checkExists (root : String) (error : Option String) (run : MailStoreRun) : MailStoreRun :=
  match run.stage with
  | .checking id path =>
      if error = none ∧ (run.files (resolve (fullPath root path))).isSome then
        { run with stage := .removing id path }
      else
        { run with stage := .deleted id path (.error (.notFound ("File not found: " ++ path))) }
  | _ => run

def removeFile (root : String) (error : Option String) (run : MailStoreRun) : MailStoreRun :=
  match run.stage with
  | .removing id path =>
      match error with
      | some error => { run with stage := .deleted id path (.error (.io error)) }
      | none =>
          { run with
            files := Function.update run.files (resolve (fullPath root path)) none
            stage := .deleted id path (.ok ()) }
  | _ => run

/-- The reply of the writer loop. -/
def reply (run : MailStoreRun) : MailStoreRun × List Happening :=
  match run.stage with
  | .stored id path content (.ok inode) =>
      ({ run with stage := .idle }, [.stored id path content (.ok ()) (run.contents inode)])
  | .stored id path content (.error error) =>
      ({ run with stage := .idle }, [.stored id path content (.error error) []])
  | .deleted id path result => ({ run with stage := .idle }, [.deleted id path result])
  | _ => (run, [])

/-- Bytes of a write in the background get to its file. -/
def progress (index count : Nat) (run : MailStoreRun) : MailStoreRun :=
  match run.background[index]? with
  | none => run
  | some write =>
      let bytes := write.rest.take count
      let contents := Function.update run.contents write.inode
        (writeAt (run.contents write.inode) write.offset bytes)
      if write.rest.length ≤ count then
        { run with contents, background := run.background.eraseIdx index }
      else
        { run with
          contents
          background := run.background.set index
            { write with offset := write.offset + bytes.length, rest := write.rest.drop count } }

/-- A write in the background fails; its file is told if it is still open. -/
def fail (index : Nat) (error : String) (run : MailStoreRun) : MailStoreRun :=
  match run.background[index]? with
  | none => run
  | some write =>
      { run with
        background := run.background.eraseIdx index
        failed := write.owner :: run.failed
        stage := run.stage.told write.owner error }

/-- One step of the writer loop and the files.  What is not due does not happen. -/
def step (root : String) (run : MailStoreRun) : WriterEvent → MailStoreRun × List Happening
  | .send command =>
      if run.queue.length < mailChannelCapacity then
        ({ run with
            queue := run.queue ++ [(run.nextId, command)]
            nextId := run.nextId + 1 }, [.sent run.nextId command])
      else (run, [])
  | .receive => (run.receive, [])
  | .createDirectories error => (run.createDirectories error, [])
  | .createFile error => (run.createFile root error, [])
  | .take count => (run.take count, [])
  | .report => (run.report, [])
  | .writeAllDone => (run.writeAllDone, [])
  | .checkExists error => (run.checkExists root error, [])
  | .removeFile error => (run.removeFile root error, [])
  | .reply => run.reply
  | .progress index count => (run.progress index count, [])
  | .fail index error => (run.fail index error, [])

end MailStoreRun

/-! ## Its readers -/

/-- How far a call of `retrieve` has come. -/
inductive ReadPhase where
  | checking
  | opening
  | reading (inode : Nat) (content : Bytes)

/-- A call of `retrieve`. -/
structure Reading where
  path : String
  phase : ReadPhase

/-- The store and the calls of `retrieve` that are not through. -/
structure MailStoreSystem where
  store : MailStoreRun
  reading : Nat → Option Reading
  nextRead : Nat

/-- What may happen to the store and its readers. -/
inductive MailStoreEvent where
  | writer (event : WriterEvent)
  /-- A client calls `retrieve`. -/
  | retrieve (path : String)
  /-- Its next step: a read of `read_to_end` yields at most so many bytes. -/
  | advance (id count : Nat)
  | failRead (id : Nat) (error : String)
  | doesExist (path : String) (error : Option String)

namespace MailStoreSystem

/-- A new store over some files. -/
def new (disk : Disk) : MailStoreSystem where
  store := .new disk
  reading _ := none
  nextRead := 0

/-- A call of `retrieve` goes on. -/
def resume (id : Nat) (reading : Reading) (phase : ReadPhase) (system : MailStoreSystem) :
    MailStoreSystem :=
  { system with reading := Function.update system.reading id (some { reading with phase }) }

/-- A call of `retrieve` returns. -/
def answer (id : Nat) (reading : Reading) (answer : Result (Option Bytes))
    (system : MailStoreSystem) : MailStoreSystem × List Happening :=
  ({ system with reading := Function.update system.reading id none },
    [.retrieved id reading.path answer])

/-- The next step of a call of `retrieve`. -/
def advance (root : String) (id count : Nat) (reading : Reading) (system : MailStoreSystem) :
    MailStoreSystem × List Happening :=
  match reading.phase with
  | .checking =>
      if (system.store.files (resolve (fullPath root reading.path))).isSome then
        (system.resume id reading .opening, [])
      else system.answer id reading (.ok none)
  | .opening =>
      match system.store.files (resolve (fullPath root reading.path)) with
      | some inode => (system.resume id reading (.reading inode []), [])
      | none =>
          system.answer id reading (.error (.io "No such file or directory (os error 2)"))
  | .reading inode content =>
      let left := (system.store.contents inode).drop content.length
      if left = [] then system.answer id reading (.ok (some content))
      else (system.resume id reading (.reading inode (content ++ left.take count)), [])

def step (root : String) (system : MailStoreSystem) :
    MailStoreEvent → MailStoreSystem × List Happening
  | .writer event =>
      ({ system with store := (system.store.step root event).1 }, (system.store.step root event).2)
  | .retrieve path =>
      ({ system with
          reading := Function.update system.reading system.nextRead (some ⟨path, .checking⟩)
          nextRead := system.nextRead + 1 }, [.asked system.nextRead path])
  | .advance id count =>
      match system.reading id with
      | some reading => system.advance root id count reading
      | none => (system, [])
  | .failRead id error =>
      match system.reading id with
      | some reading =>
          match reading.phase with
          -- `try_exists(..).unwrap_or(false)`
          | .checking => system.answer id reading (.ok none)
          | _ => system.answer id reading (.error (.io error))
      | none => (system, [])
  | .doesExist path error =>
      (system, [.existed path (error = none ∧
        (system.store.files (resolve (fullPath root path))).isSome)])

/-- The store under a root, its clients and the file system. -/
def machine (root : String) : Machine MailStoreSystem MailStoreEvent (List Happening) where
  step := step root

end MailStoreSystem

/-! ## What is promised -/

/-- The command is on the file at the path. -/
def MailCommand.On (root path : String) (command : MailCommand) : Prop :=
  resolve (fullPath root command.path) = resolve (fullPath root path)

/-- A store was answered with Ok before the call of `retrieve`, and no command on its
file was sent after it. -/
def LastStored (root : String) (history : List Happening) (id : Nat) (path : String)
    (content : Bytes) : Prop :=
  ∃ past since, history = past ++ .asked id path :: since ∧
    ∃ stored held, .stored stored path content (.ok ()) held ∈ past ∧
      ∀ later command, .sent later command ∈ history → stored < later → ¬ command.On root path

/-- Reads see the last store, and a store is answered with Ok only if all of it is
in its file. -/
structure ReadsItsWrites (root : String) (history : List Happening) : Prop where
  retrieved : ∀ past id path answer rest,
    history = past ++ .retrieved id path answer :: rest →
      ∀ content, LastStored root past id path content → answer = .ok (some content)
  stored : ∀ id path content held, .stored id path content (.ok ()) held ∈ history →
    held = content

/-- The background has written all of a store, without an error, before it is
answered with Ok. -/
def MailStoreRun.Awaited (run : MailStoreRun) : WriterEvent → Prop
  | .reply => ∀ id path content inode, run.stage = .stored id path content (.ok inode) →
      (∀ write ∈ run.background, write.owner ≠ id) ∧ id ∉ run.failed
  | _ => True

/-- Stores are awaited, and no read fails that has to find one. -/
def MailStoreSystem.Awaited (root : String) (history : List Happening)
    (system : MailStoreSystem) : MailStoreEvent → Prop
  | .writer event => system.store.Awaited event
  | .failRead id _ => ∀ reading, system.reading id = some reading →
      ∀ content, ¬ LastStored root history id reading.path content
  | _ => True

end Scuttled
