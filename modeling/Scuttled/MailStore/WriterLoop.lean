import Scuttled.MailStore.Writes

/-!
# The writer loop of the mail store

What a step of the writer loop and of the background can do, and what holds in
between: commands are served in the order they were sent in, and only the file of
the command at hand is touched.
-/

namespace Scuttled

open Rust Foundation

/-! ## What a step can do -/

/-- The command the writer loop is at. -/
def WriterStage.active : WriterStage → Option (Nat × String)
  | .idle => none
  | .creatingDirectories id path _ => some (id, path)
  | .creatingFile id path _ => some (id, path)
  | .writing id path _ _ _ _ => some (id, path)
  | .stored id path _ _ => some (id, path)
  | .checking id path => some (id, path)
  | .removing id path => some (id, path)
  | .deleted id path _ => some (id, path)

namespace MailStoreRun

/-- The steps of the writer loop, the channel and the background. -/
inductive Moves (root : String) (run : MailStoreRun) :
    WriterEvent → MailStoreRun → List Happening → Prop where
  | stays {event} : Moves root run event run []
  | sends {command} : Moves root run (.send command)
      { run with queue := run.queue ++ [(run.nextId, command)], nextId := run.nextId + 1 }
      [.sent run.nextId command]
  | receives {id command rest stage} : run.stage = .idle → run.queue = (id, command) :: rest →
      (stage = .checking id command.path ∨
        ∃ content, stage = .creatingDirectories id command.path content) →
      Moves root run .receive { run with queue := rest, stage } []
  | makesDirectories {id path content} : run.stage = .creatingDirectories id path content →
      Moves root run (.createDirectories none)
        { run with stage := .creatingFile id path content } []
  | storeFails {id path content error event} :
      (run.stage = .creatingDirectories id path content ∨
        run.stage = .creatingFile id path content ∨
          ∃ inode taken, taken < content.length ∧
            run.stage = .writing id path content inode taken (some error)) →
      Moves root run event { run with stage := .stored id path content (.error (.io error)) } []
  | truncates {id path content inode} : run.stage = .creatingFile id path content →
      run.files (resolve (fullPath root path)) = some inode →
      Moves root run (.createFile none)
        { run with
          contents := Function.update run.contents inode []
          stage := .writing id path content inode 0 none } []
  | creates {id path content} : run.stage = .creatingFile id path content →
      run.files (resolve (fullPath root path)) = none →
      Moves root run (.createFile none)
        { run with
          files := Function.update run.files (resolve (fullPath root path)) (some run.nextInode)
          contents := Function.update run.contents run.nextInode []
          nextInode := run.nextInode + 1
          stage := .writing id path content run.nextInode 0 none } []
  | takes {id path content inode taken count} :
      run.stage = .writing id path content inode taken none →
      0 < count → taken < content.length → (∀ write ∈ run.background, write.owner ≠ id) →
      Moves root run (.take count)
        { run with
          background := run.background ++
            [{ owner := id, inode, offset := taken, rest := (content.drop taken).take count }]
          stage := .writing id path content inode
            (taken + ((content.drop taken).take count).length) none } []
  | handsOver {id path content inode error} :
      run.stage = .writing id path content inode content.length error →
      Moves root run .writeAllDone { run with stage := .stored id path content (.ok inode) } []
  | checks {id path error stage} : run.stage = .checking id path →
      (stage = .removing id path ∨ ∃ result, stage = .deleted id path result) →
      Moves root run (.checkExists error) { run with stage } []
  | removes {id path} : run.stage = .removing id path →
      Moves root run (.removeFile none)
        { run with
          files := Function.update run.files (resolve (fullPath root path)) none
          stage := .deleted id path (.ok ()) } []
  | keepsFile {id path error} : run.stage = .removing id path →
      Moves root run (.removeFile (some error))
        { run with stage := .deleted id path (.error (.io error)) } []
  | repliesStored {id path content inode} : run.stage = .stored id path content (.ok inode) →
      Moves root run .reply { run with stage := .idle }
        [.stored id path content (.ok ()) (run.contents inode)]
  | repliesFailed {id path content error} : run.stage = .stored id path content (.error error) →
      Moves root run .reply { run with stage := .idle } [.stored id path content (.error error) []]
  | repliesDeleted {id path result} : run.stage = .deleted id path result →
      Moves root run .reply { run with stage := .idle } [.deleted id path result]
  | finishes {index count write} : run.background[index]? = some write →
      write.rest.length ≤ count →
      Moves root run (.progress index count)
        { run with
          contents := Function.update run.contents write.inode
            (writeAt (run.contents write.inode) write.offset (write.rest.take count))
          background := run.background.eraseIdx index } []
  | progresses {index count write} : run.background[index]? = some write →
      count < write.rest.length →
      Moves root run (.progress index count)
        { run with
          contents := Function.update run.contents write.inode
            (writeAt (run.contents write.inode) write.offset (write.rest.take count))
          background := run.background.set index
            { write with
              offset := write.offset + (write.rest.take count).length
              rest := write.rest.drop count } } []
  | fails {index error write} : run.background[index]? = some write →
      Moves root run (.fail index error)
        { run with
          background := run.background.eraseIdx index
          failed := write.owner :: run.failed
          stage := run.stage.told write.owner error } []

theorem receive_moves (root : String) (run : MailStoreRun) :
    Moves root run .receive run.receive [] := by
  unfold receive
  split
  case h_1 hstage =>
    split
    case h_1 hqueue => exact .receives hstage hqueue (.inr ⟨_, rfl⟩)
    case h_2 hqueue => exact .receives hstage hqueue (.inl rfl)
    case h_3 => exact .stays
  case h_2 => exact .stays

theorem createFile_moves (root : String) (run : MailStoreRun) (error : Option String) :
    Moves root run (.createFile error) (run.createFile root error) [] := by
  unfold createFile
  split
  case h_1 hstage =>
    cases error with
    | some error => exact .storeFails (.inr (.inl hstage))
    | none =>
        dsimp only
        split
        case h_1 hfile => exact .truncates hstage hfile
        case h_2 hfile => exact .creates hstage hfile
  case h_2 => exact .stays

theorem reply_moves (root : String) (run : MailStoreRun) :
    Moves root run .reply run.reply.1 run.reply.2 := by
  unfold reply
  split
  case h_1 hstage => exact .repliesStored hstage
  case h_2 hstage => exact .repliesFailed hstage
  case h_3 hstage => exact .repliesDeleted hstage
  case h_4 => exact .stays

/-- Every step is one of them. -/
theorem step_moves (root : String) (run : MailStoreRun) (event : WriterEvent) :
    Moves root run event (run.step root event).1 (run.step root event).2 := by
  cases event with
  | send command =>
      by_cases hroom : run.queue.length < mailChannelCapacity
      · simp only [step, if_pos hroom]
        exact .sends
      · simp only [step, if_neg hroom]
        exact .stays
  | receive => exact receive_moves root run
  | createDirectories error =>
      change Moves root run _ (run.createDirectories error) []
      unfold createDirectories
      split
      case h_1 hstage =>
        cases error with
        | none => exact .makesDirectories hstage
        | some error => exact .storeFails (.inl hstage)
      case h_2 => exact .stays
  | createFile error => exact createFile_moves root run error
  | take count =>
      change Moves root run _ (run.take count) []
      unfold take
      split
      case h_1 hstage =>
        split
        case isTrue hdue => exact .takes hstage hdue.1 hdue.2.1 hdue.2.2
        case isFalse => exact .stays
      case h_2 => exact .stays
  | report =>
      change Moves root run _ run.report []
      unfold report
      split
      case h_1 hstage =>
        split
        case isTrue hleft => exact .storeFails (.inr (.inr ⟨_, _, hleft, hstage⟩))
        case isFalse => exact .stays
      case h_2 => exact .stays
  | writeAllDone =>
      change Moves root run _ run.writeAllDone []
      unfold writeAllDone
      split
      case h_1 hstage =>
        split
        case isTrue hall => exact .handsOver (hall ▸ hstage)
        case isFalse => exact .stays
      case h_2 => exact .stays
  | checkExists error =>
      change Moves root run _ (run.checkExists root error) []
      unfold checkExists
      split
      case h_1 hstage =>
        split
        case isTrue => exact .checks hstage (.inl rfl)
        case isFalse => exact .checks hstage (.inr ⟨_, rfl⟩)
      case h_2 => exact .stays
  | removeFile error =>
      change Moves root run _ (run.removeFile root error) []
      unfold removeFile
      split
      case h_1 hstage =>
        cases error with
        | none => exact .removes hstage
        | some error => exact .keepsFile hstage
      case h_2 => exact .stays
  | reply => exact reply_moves root run
  | progress index count =>
      change Moves root run _ (run.progress index count) []
      unfold progress
      split
      case h_1 => exact .stays
      case h_2 hwrite =>
        dsimp only
        split
        case isTrue hlast => exact .finishes hwrite hlast
        case isFalse hmore => exact .progresses hwrite (Nat.lt_of_not_le hmore)
  | fail index error =>
      change Moves root run _ (run.fail index error) []
      unfold fail
      split
      case h_1 => exact .stays
      case h_2 hwrite => exact .fails hwrite

/-! ## What holds in between -/

structure Linked (run : MailStoreRun) : Prop where
  apart : ∀ {location location' inode}, run.files location = some inode →
    run.files location' = some inode → location = location'
  fresh : ∀ {location inode}, run.files location = some inode → inode < run.nextInode

/-- The number is lower than those of the commands to come. -/
def Before (run : MailStoreRun) (id : Nat) : Prop :=
  id < run.nextId ∧ ∀ entry ∈ run.queue, id < entry.1

/-- Commands are sent, taken and answered in the order of their numbers. -/
structure Ordered (history : List Happening) (run : MailStoreRun) : Prop where
  sorted : (run.queue.map Prod.fst).Pairwise (· < ·)
  below : ∀ entry ∈ run.queue, entry.1 < run.nextId
  queued : ∀ entry ∈ run.queue, .sent entry.1 entry.2 ∈ history
  active : ∀ id path, run.stage.active = some (id, path) →
    run.Before id ∧ ∃ command, .sent id command ∈ history ∧ command.path = path
  answered : ∀ id path content result held, .stored id path content result held ∈ history →
    run.Before id ∧ ∀ id' path', run.stage.active = some (id', path') → id < id'
  failed : ∀ id ∈ run.failed, run.Before id

/-- What became of the bytes of a store that `write_all` has taken. -/
inductive Written (run : MailStoreRun) (id : Nat) (content : Bytes) (inode taken : Nat) : Prop where
  | complete : run.background = [] → id ∉ run.failed →
      run.contents inode = content.take taken → Written run id content inode taken
  | underway (offset : Nat) : offset < taken → id ∉ run.failed →
      run.background =
        [{ owner := id, inode, offset, rest := (content.take taken).drop offset }] →
      run.contents inode = content.take offset → Written run id content inode taken
  | broken : run.background = [] → id ∈ run.failed →
      (run.contents inode).length < content.length → Written run id content inode taken

/-- What a stage of the writer loop says about the files and the background. -/
def Fits (root : String) (run : MailStoreRun) : WriterStage → Prop
  | .creatingDirectories id _ _ => run.background = [] ∧ id ∉ run.failed
  | .creatingFile id _ _ => run.background = [] ∧ id ∉ run.failed
  | .writing id path content inode taken error =>
      run.files (resolve (fullPath root path)) = some inode ∧ taken ≤ content.length ∧
        run.Written id content inode taken ∧ (error = none ↔ id ∉ run.failed)
  | .stored id path content (.ok inode) =>
      run.files (resolve (fullPath root path)) = some inode ∧
        run.Written id content inode content.length
  | _ => run.background = []

/-- In each stage the file of a store holds what was written to it; between
commands nothing is written in the background. -/
def Working (root : String) (run : MailStoreRun) : Prop := Fits root run run.stage

theorem Linked.of_files {run target : MailStoreRun} (hlinked : run.Linked)
    (hfiles : ∀ location inode, target.files location = some inode →
      run.files location = some inode)
    (hnext : run.nextInode ≤ target.nextInode) : target.Linked where
  apart hfirst hsecond := hlinked.apart (hfiles _ _ hfirst) (hfiles _ _ hsecond)
  fresh hfound := (hlinked.fresh (hfiles _ _ hfound)).trans_le hnext

theorem Linked.of_created {run target : MailStoreRun} (hlinked : run.Linked) (created : Location)
    (hcases : ∀ location inode, target.files location = some inode →
      location = created ∧ inode = run.nextInode ∨ run.files location = some inode)
    (hnext : target.nextInode = run.nextInode + 1) : target.Linked := by
  constructor
  · intro location location' inode hfirst hsecond
    rcases hcases location inode hfirst with ⟨hname, hnew⟩ | hfirst
    · rcases hcases location' inode hsecond with ⟨hname', -⟩ | hsecond
      · exact hname.trans hname'.symm
      · have hlt := hlinked.fresh hsecond
        omega
    · rcases hcases location' inode hsecond with ⟨-, hnew⟩ | hsecond
      · have hlt := hlinked.fresh hfirst
        omega
      · exact hlinked.apart hfirst hsecond
  · intro location inode hfound
    rcases hcases location inode hfound with ⟨-, hnew⟩ | hfound
    · omega
    · have hlt := hlinked.fresh hfound
      omega

theorem Linked.moves {root : String} {run target : MailStoreRun} {event : WriterEvent}
    {out : List Happening} (hmoves : Moves root run event target out) (hlinked : run.Linked) :
    target.Linked := by
  cases hmoves with
  | @creates id path content hstage hfile =>
      refine hlinked.of_created (resolve (fullPath root path)) (fun location inode hfound => ?_) rfl
      dsimp only at hfound
      rw [Function.update_apply] at hfound
      split at hfound
      · rename_i hcreated
        exact .inl ⟨hcreated, (Option.some.inj hfound).symm⟩
      · exact .inr hfound
  | removes hstage =>
      refine hlinked.of_files (fun location inode hfound => ?_) (Nat.le_refl run.nextInode)
      dsimp only at hfound
      rw [Function.update_apply] at hfound
      split at hfound
      · cases hfound
      · exact hfound
  | _ => exact hlinked.of_files (fun _ _ hfound => hfound) (Nat.le_refl run.nextInode)

/-- The background is busy only while a file is written, and after its last bytes were
taken. -/
theorem Working.busy {root : String} {run : MailStoreRun} (hworking : run.Working root)
    {write : Background} (hwrite : write ∈ run.background) :
    (∃ id path content inode taken, run.stage = .writing id path content inode taken none ∧
      run.files (resolve (fullPath root path)) = some inode ∧ taken ≤ content.length ∧
        run.Written id content inode taken) ∨
      ∃ id path content inode, run.stage = .stored id path content (.ok inode) ∧
        run.files (resolve (fullPath root path)) = some inode ∧
          run.Written id content inode content.length := by
  have hnone (hempty : run.background = []) : False := by
    rw [hempty] at hwrite
    cases hwrite
  unfold Working at hworking
  generalize run.stage = stage at hworking
  cases stage with
  | writing id path content inode taken error =>
      obtain ⟨hfile, hle, hwritten, herror⟩ := hworking
      have hsafe : id ∉ run.failed := by
        cases hwritten with
        | complete hempty hsafe => exact hsafe
        | underway offset hoffset hsafe => exact hsafe
        | broken hempty => exact (hnone hempty).elim
      exact .inl ⟨id, path, content, inode, taken, by rw [herror.mpr hsafe], hfile, hle, hwritten⟩
  | stored id path content result =>
      cases result with
      | ok inode => exact .inr ⟨id, path, content, inode, rfl, hworking⟩
      | error error => exact (hnone hworking).elim
  | creatingDirectories => exact (hnone hworking.1).elim
  | creatingFile => exact (hnone hworking.1).elim
  | _ => exact (hnone hworking).elim

theorem Working.owner_active {root : String} {run : MailStoreRun} (hworking : run.Working root)
    {write : Background} (hwrite : write ∈ run.background) :
    ∃ path, run.stage.active = some (write.owner, path) ∧
      run.files (resolve (fullPath root path)) = some write.inode := by
  have hunderway {id : Nat} {content : Bytes} {inode taken : Nat}
      (hwritten : run.Written id content inode taken) : write.owner = id ∧ write.inode = inode := by
    cases hwritten with
    | complete hempty => simp [hempty] at hwrite
    | broken hempty => simp [hempty] at hwrite
    | underway offset hlt hsafe hone =>
        rw [hone] at hwrite
        obtain rfl := List.mem_singleton.mp hwrite
        exact ⟨rfl, rfl⟩
  rcases hworking.busy hwrite with
    ⟨id, path, content, inode, taken, hstage, hfile, -, hwritten⟩ |
    ⟨id, path, content, inode, hstage, hfile, hwritten⟩ <;>
  · obtain ⟨howner, hinode⟩ := hunderway hwritten
    exact ⟨path, by rw [hstage, howner]; rfl, hinode ▸ hfile⟩

/-- A step leaves the files alone that the active command is not on. -/
theorem Moves.frame {root : String} {run target : MailStoreRun} {event : WriterEvent}
    {out : List Happening} (hmoves : Moves root run event target out) (hlinked : run.Linked)
    (hworking : run.Working root) {location : Location}
    (hfree : ∀ id path, run.stage.active = some (id, path) →
      resolve (fullPath root path) ≠ location) :
    target.files location = run.files location ∧
      ∀ inode, run.files location = some inode → target.contents inode = run.contents inode := by
  have hother {path : String} {inode inode' : Nat} (hpath : resolve (fullPath root path) ≠ location)
      (hfile : run.files (resolve (fullPath root path)) = some inode)
      (hfound : run.files location = some inode') : inode' ≠ inode :=
    fun hsame => hpath (hlinked.apart hfile (hsame ▸ hfound))
  have hbackground {write : Background} {index : Nat}
      (hwrite : run.background[index]? = some write) {inode : Nat}
      (hfound : run.files location = some inode) : inode ≠ write.inode := by
    obtain ⟨path, hactive, hfile⟩ := hworking.owner_active (List.mem_of_getElem? hwrite)
    exact hother (hfree _ _ hactive) hfile hfound
  cases hmoves with
  | truncates hstage hfile =>
      have hpath := hfree _ _ (congrArg WriterStage.active hstage)
      exact ⟨rfl, fun inode hfound => Function.update_of_ne (hother hpath hfile hfound) _ _⟩
  | creates hstage hfile =>
      have hpath := hfree _ _ (congrArg WriterStage.active hstage)
      refine ⟨?_, fun inode hfound => Function.update_of_ne (hlinked.fresh hfound).ne _ _⟩
      dsimp only
      rw [Function.update_of_ne hpath.symm]
  | removes hstage =>
      have hpath := hfree _ _ (congrArg WriterStage.active hstage)
      refine ⟨?_, fun inode hfound => rfl⟩
      dsimp only
      rw [Function.update_of_ne hpath.symm]
  | finishes hwrite =>
      exact ⟨rfl, fun inode hfound => Function.update_of_ne (hbackground hwrite hfound) _ _⟩
  | progresses hwrite =>
      exact ⟨rfl, fun inode hfound => Function.update_of_ne (hbackground hwrite hfound) _ _⟩
  | _ => exact ⟨rfl, fun inode hfound => rfl⟩

theorem told_active (owner : Nat) (error : String) (stage : WriterStage) :
    (stage.told owner error).active = stage.active := by
  unfold WriterStage.told
  split
  · split <;> rfl
  · rfl

theorem Before.weaken {run target : MailStoreRun} {id : Nat} (hbefore : run.Before id)
    (hnext : run.nextId ≤ target.nextId)
    (hqueue : ∀ entry ∈ target.queue, entry ∈ run.queue ∨ run.nextId ≤ entry.1) :
    target.Before id := by
  refine ⟨hbefore.1.trans_le hnext, fun entry hentry => ?_⟩
  rcases hqueue entry hentry with hold | hnew
  · exact hbefore.2 entry hold
  · exact hbefore.1.trans_le hnew

/-- Queue, numbers and active command may stay, or the command may be answered. -/
theorem Ordered.restage {history out : List Happening} {run target : MailStoreRun}
    (hordered : run.Ordered history) (hqueue : target.queue = run.queue)
    (hnext : target.nextId = run.nextId) (hfailed : ∀ id ∈ target.failed, run.Before id)
    (hactive : target.stage.active = run.stage.active ∨ target.stage.active = none)
    (hout : ∀ id path content result held, .stored id path content result held ∈ out →
      run.Before id ∧ target.stage.active = none) :
    target.Ordered (history ++ out) := by
  have hbefore {id : Nat} (hbefore : run.Before id) : target.Before id :=
    hbefore.weaken hnext.ge fun entry hentry => .inl (hqueue ▸ hentry)
  have hstage {id : Nat} {path : String} (hsome : target.stage.active = some (id, path)) :
      run.stage.active = some (id, path) := by
    rcases hactive with hsame | hnone
    · exact hsame ▸ hsome
    · rw [hnone] at hsome
      cases hsome
  constructor
  case sorted => exact hqueue ▸ hordered.sorted
  case below => exact hqueue ▸ hnext ▸ hordered.below
  case queued =>
    intro entry hentry
    exact List.mem_append_left _ (hordered.queued entry (hqueue ▸ hentry))
  case active =>
    intro id path hsome
    obtain ⟨hid, command, hsent, hpath⟩ := hordered.active id path (hstage hsome)
    exact ⟨hbefore hid, command, List.mem_append_left _ hsent, hpath⟩
  case answered =>
    intro id path content result held hstored
    rcases List.mem_append.mp hstored with hold | hnew
    · obtain ⟨hid, hlater⟩ := hordered.answered id path content result held hold
      exact ⟨hbefore hid, fun id' path' hsome => hlater id' path' (hstage hsome)⟩
    · obtain ⟨hid, hnone⟩ := hout id path content result held hnew
      exact ⟨hbefore hid, fun id' path' hsome => by rw [hnone] at hsome; cases hsome⟩
  case failed => exact fun id hid => hbefore (hfailed id hid)

theorem Ordered.moves {root : String} {history : List Happening} {run target : MailStoreRun}
    {event : WriterEvent} {out : List Happening} (hmoves : Moves root run event target out)
    (hworking : run.Working root) (hordered : run.Ordered history) :
    target.Ordered (history ++ out) := by
  have hstay {target : MailStoreRun} (hqueue : target.queue = run.queue)
      (hnext : target.nextId = run.nextId) (hfailed : target.failed = run.failed)
      (hactive : target.stage.active = run.stage.active) : target.Ordered (history ++ []) :=
    hordered.restage hqueue hnext (hfailed ▸ hordered.failed) (.inl hactive) (by simp)
  cases hmoves with
  | @sends command =>
      have hbefore {id : Nat} (hbefore : run.Before id) :
          Before { run with
            queue := run.queue ++ [(run.nextId, command)], nextId := run.nextId + 1 } id := by
        refine hbefore.weaken (Nat.le_succ _) fun entry hentry => ?_
        rcases List.mem_append.mp hentry with hold | hnew
        · exact .inl hold
        · exact .inr (List.mem_singleton.mp hnew ▸ le_rfl)
      constructor
      case sorted =>
        rw [List.map_append, List.pairwise_append]
        refine ⟨hordered.sorted, by simp, ?_⟩
        rintro id hid next hnext
        obtain ⟨entry, hentry, rfl⟩ := List.mem_map.mp hid
        obtain rfl : next = run.nextId := by simpa using hnext
        exact hordered.below entry hentry
      case below =>
        intro entry hentry
        change entry.1 < run.nextId + 1
        rcases List.mem_append.mp hentry with hold | hnew
        · exact (hordered.below entry hold).trans (Nat.lt_succ_self _)
        · exact List.mem_singleton.mp hnew ▸ Nat.lt_succ_self _
      case queued =>
        intro entry hentry
        rcases List.mem_append.mp hentry with hold | hnew
        · exact List.mem_append_left _ (hordered.queued entry hold)
        · obtain rfl := List.mem_singleton.mp hnew
          exact List.mem_append_right _ (List.mem_singleton_self _)
      case active =>
        intro id path hsome
        obtain ⟨hid, other, hsent, hpath⟩ := hordered.active id path hsome
        exact ⟨hbefore hid, other, List.mem_append_left _ hsent, hpath⟩
      case answered =>
        intro id path content result held hstored
        obtain hold : .stored id path content result held ∈ history := by simpa using hstored
        obtain ⟨hid, hlater⟩ := hordered.answered id path content result held hold
        exact ⟨hbefore hid, hlater⟩
      case failed => exact fun id hid => hbefore (hordered.failed id hid)
  | @receives id command rest stage hstage hqueue hnew =>
      have hactive : stage.active = some (id, command.path) := by
        rcases hnew with rfl | ⟨content, rfl⟩ <;> rfl
      have hfirst : (id, command) ∈ run.queue := hqueue ▸ List.mem_cons_self
      have hsorted := hordered.sorted
      rw [hqueue, List.map_cons, List.pairwise_cons] at hsorted
      have hbefore {id : Nat} (hbefore : run.Before id) :
          Before { run with queue := rest, stage } id :=
        hbefore.weaken le_rfl fun entry hentry => .inl (hqueue ▸ List.mem_cons_of_mem _ hentry)
      rw [List.append_nil]
      constructor
      case sorted => exact hsorted.2
      case below =>
        exact fun entry hentry => hordered.below entry (hqueue ▸ List.mem_cons_of_mem _ hentry)
      case queued =>
        exact fun entry hentry => hordered.queued entry (hqueue ▸ List.mem_cons_of_mem _ hentry)
      case active =>
        intro id' path' hsome
        obtain ⟨rfl, rfl⟩ : id = id' ∧ command.path = path' := by
          simpa using hactive.symm.trans hsome
        refine ⟨⟨hordered.below _ hfirst, fun entry hentry => ?_⟩, command,
          hordered.queued _ hfirst, rfl⟩
        exact hsorted.1 entry.1 (List.mem_map_of_mem hentry)
      case answered =>
        intro id' path' content result held hstored
        obtain ⟨hid, -⟩ := hordered.answered id' path' content result held hstored
        refine ⟨hbefore hid, fun id'' path'' hsome => ?_⟩
        obtain ⟨rfl, rfl⟩ : id = id'' ∧ command.path = path'' := by
          simpa using hactive.symm.trans hsome
        exact hid.2 _ hfirst
      case failed => exact fun id' hid => hbefore (hordered.failed id' hid)
  | storeFails hstage =>
      refine hstay rfl rfl rfl ?_
      rcases hstage with hstage | hstage | ⟨inode, taken, -, hstage⟩ <;> rw [hstage] <;> rfl
  | checks hstage hnew =>
      refine hstay rfl rfl rfl ?_
      rcases hnew with rfl | ⟨result, rfl⟩ <;> rw [hstage] <;> rfl
  | repliesStored hstage =>
      refine hordered.restage rfl rfl hordered.failed (.inr rfl) fun id' path' content' result held
        hstored => ⟨?_, rfl⟩
      obtain ⟨rfl, -⟩ := Happening.stored.inj (List.mem_singleton.mp hstored)
      exact (hordered.active _ _ (congrArg WriterStage.active hstage)).1
  | repliesFailed hstage =>
      refine hordered.restage rfl rfl hordered.failed (.inr rfl) fun id' path' content' result held
        hstored => ⟨?_, rfl⟩
      obtain ⟨rfl, -⟩ := Happening.stored.inj (List.mem_singleton.mp hstored)
      exact (hordered.active _ _ (congrArg WriterStage.active hstage)).1
  | repliesDeleted => exact hordered.restage rfl rfl hordered.failed (.inr rfl) (by simp)
  | fails hwrite =>
      refine hordered.restage rfl rfl ?_ (.inl (told_active _ _ _)) (by simp)
      rw [List.forall_mem_cons]
      obtain ⟨path, hactive, -⟩ := hworking.owner_active (List.mem_of_getElem? hwrite)
      exact ⟨(hordered.active _ _ hactive).1, hordered.failed⟩
  | stays => exact hstay rfl rfl rfl rfl
  | finishes => exact hstay rfl rfl rfl rfl
  | progresses => exact hstay rfl rfl rfl rfl
  | makesDirectories hstage => exact hstay rfl rfl rfl (congrArg WriterStage.active hstage).symm
  | truncates hstage => exact hstay rfl rfl rfl (congrArg WriterStage.active hstage).symm
  | creates hstage => exact hstay rfl rfl rfl (congrArg WriterStage.active hstage).symm
  | takes hstage => exact hstay rfl rfl rfl (congrArg WriterStage.active hstage).symm
  | handsOver hstage => exact hstay rfl rfl rfl (congrArg WriterStage.active hstage).symm
  | removes hstage => exact hstay rfl rfl rfl (congrArg WriterStage.active hstage).symm
  | keepsFile hstage => exact hstay rfl rfl rfl (congrArg WriterStage.active hstage).symm

theorem Written.congr {run target : MailStoreRun} {id inode taken : Nat} {content : Bytes}
    (hwritten : run.Written id content inode taken)
    (hbackground : target.background = run.background) (hfailed : target.failed = run.failed)
    (hcontents : target.contents = run.contents) : target.Written id content inode taken := by
  cases hwritten with
  | complete hempty hsafe hheld =>
      exact .complete (hbackground ▸ hempty) (hfailed ▸ hsafe) (hcontents ▸ hheld)
  | underway offset hoffset hsafe hone hheld =>
      exact .underway offset hoffset (hfailed ▸ hsafe) (hbackground ▸ hone) (hcontents ▸ hheld)
  | broken hempty hbroken hshort =>
      exact .broken (hbackground ▸ hempty) (hfailed ▸ hbroken) (hcontents ▸ hshort)

/-- The background goes on. -/
theorem Written.progress {run : MailStoreRun} {id inode taken : Nat} {content : Bytes}
    (hle : taken ≤ content.length) (hwritten : run.Written id content inode taken)
    {index count : Nat} {write : Background} (hwrite : run.background[index]? = some write) :
    write.inode = inode ∧
      (write.rest.length ≤ count →
        run.background.eraseIdx index = [] ∧ id ∉ run.failed ∧
          writeAt (run.contents inode) write.offset (write.rest.take count) =
            content.take taken) ∧
      (count < write.rest.length →
        ∃ offset, offset < taken ∧ id ∉ run.failed ∧
          run.background.set index
              { write with
                offset := write.offset + (write.rest.take count).length
                rest := write.rest.drop count } =
            [{ owner := id, inode, offset, rest := (content.take taken).drop offset }] ∧
          writeAt (run.contents inode) write.offset (write.rest.take count) =
            content.take offset) := by
  cases hwritten with
  | complete hempty => simp [hempty] at hwrite
  | broken hempty => simp [hempty] at hwrite
  | underway offset hoffset hsafe hone hheld =>
      rw [hone] at hwrite ⊢
      obtain ⟨rfl, rfl⟩ : index = 0 ∧ write = _ := by
        rcases index with _ | index
        · exact ⟨rfl, (Option.some.inj hwrite).symm⟩
        · simp at hwrite
      have hlength : ((content.take taken).drop offset).length = taken - offset := by
        rw [List.length_drop, List.length_take, Nat.min_eq_left hle]
      refine ⟨rfl, fun hlast => ⟨rfl, hsafe, ?_⟩, fun hmore => ?_⟩
      · rw [hheld, writeAt_take hle hoffset]
        simp only [hlength] at hlast
        congr 1
        omega
      · simp only [hlength] at hmore
        refine ⟨offset + count, by omega, hsafe, ?_, ?_⟩
        · have htaken : (((content.take taken).drop offset).take count).length = count := by
            rw [List.length_take, hlength]
            omega
          simp only [List.set_cons_zero, htaken, List.drop_drop]
        · rw [hheld, writeAt_take hle hoffset]
          congr 1
          omega

theorem Written.fail {run : MailStoreRun} {id inode taken : Nat} {content : Bytes}
    (hle : taken ≤ content.length) (hwritten : run.Written id content inode taken)
    {index : Nat} {write : Background} (hwrite : run.background[index]? = some write) :
    write.owner = id ∧ run.background.eraseIdx index = [] ∧
      (run.contents inode).length < content.length := by
  cases hwritten with
  | complete hempty => simp [hempty] at hwrite
  | broken hempty => simp [hempty] at hwrite
  | underway offset hoffset hsafe hone hheld =>
      rw [hone] at hwrite ⊢
      obtain ⟨rfl, rfl⟩ : index = 0 ∧ write = _ := by
        rcases index with _ | index
        · exact ⟨rfl, (Option.some.inj hwrite).symm⟩
        · simp at hwrite
      refine ⟨rfl, rfl, ?_⟩
      rw [hheld, List.length_take]
      omega

theorem Working.moves {root : String} {history : List Happening} {run target : MailStoreRun}
    {event : WriterEvent} {out : List Happening} (hmoves : Moves root run event target out)
    (hordered : run.Ordered history) (hawaited : run.Awaited event)
    (hworking : run.Working root) : target.Working root := by
  have hat {stage : WriterStage} (hstage : run.stage = stage) : Fits root run stage := by
    unfold Working at hworking
    rwa [hstage] at hworking
  cases hmoves with
  | stays => exact hworking
  | sends =>
      unfold Working at hworking ⊢
      change Fits root _ run.stage
      generalize run.stage = stage at hworking ⊢
      cases stage with
      | writing id path content inode taken error =>
          obtain ⟨hfile, hle, hwritten, herror⟩ := hworking
          exact ⟨hfile, hle, hwritten.congr rfl rfl rfl, herror⟩
      | stored id path content result =>
          cases result with
          | ok inode => exact ⟨hworking.1, hworking.2.congr rfl rfl rfl⟩
          | error error => exact hworking
      | _ => exact hworking
  | @receives id command rest stage hstage hqueue hnew =>
      have hempty : run.background = [] := hat hstage
      have hsafe : id ∉ run.failed := fun hfailed =>
        absurd ((hordered.failed id hfailed).2 (id, command) (hqueue ▸ List.mem_cons_self))
          (Nat.lt_irrefl id)
      rcases hnew with rfl | ⟨content, rfl⟩
      · exact hempty
      · exact ⟨hempty, hsafe⟩
  | makesDirectories hstage => exact hat hstage
  | storeFails hstage =>
      change run.background = []
      rcases hstage with hstage | hstage | ⟨inode, taken, -, hstage⟩
      · exact (hat hstage).1
      · exact (hat hstage).1
      · obtain ⟨-, -, hwritten, herror⟩ := hat hstage
        cases hwritten with
        | complete hempty => exact hempty
        | broken hempty => exact hempty
        | underway offset hoffset hsafe => cases herror.mpr hsafe
  | truncates hstage hfile =>
      obtain ⟨hempty, hsafe⟩ := hat hstage
      refine ⟨hfile, Nat.zero_le _, .complete hempty hsafe ?_, iff_of_true rfl hsafe⟩
      rw [List.take_zero]
      exact Function.update_self _ _ _
  | creates hstage hfile =>
      obtain ⟨hempty, hsafe⟩ := hat hstage
      refine ⟨?_, Nat.zero_le _, .complete hempty hsafe ?_, iff_of_true rfl hsafe⟩
      · dsimp only
        rw [Function.update_self]
      · dsimp only
        rw [List.take_zero, Function.update_self]
  | @takes id path content inode taken count hstage hcount htaken hfree =>
      obtain ⟨hfile, hle, hwritten, herror⟩ := hat hstage
      have hlength : ((content.drop taken).take count).length =
          min count (content.length - taken) := by
        rw [List.length_take, List.length_drop]
      refine ⟨hfile, by omega, ?_, herror⟩
      cases hwritten with
      | complete hempty hsafe hheld =>
          refine .underway taken (by omega) hsafe ?_ hheld
          have hrest :
              (content.take (taken + ((content.drop taken).take count).length)).drop taken =
                (content.drop taken).take count := by
            rw [List.drop_take, Nat.add_sub_cancel_left, List.length_take, List.take_eq_take_iff]
            omega
          simp only [hempty, List.nil_append, hrest]
      | underway offset hoffset hsafe hone =>
          exact absurd rfl (hfree _ (hone ▸ List.mem_singleton_self _))
      | broken hempty hfailed => exact absurd hfailed (herror.mp rfl)
  | handsOver hstage =>
      obtain ⟨hfile, -, hwritten, -⟩ := hat hstage
      exact ⟨hfile, hwritten.congr rfl rfl rfl⟩
  | checks hstage hnew =>
      have hempty : run.background = [] := hat hstage
      rcases hnew with rfl | ⟨result, rfl⟩ <;> exact hempty
  | removes hstage =>
      have hempty : run.background = [] := hat hstage
      exact hempty
  | keepsFile hstage => exact hat hstage
  | repliesStored hstage =>
      obtain ⟨-, hwritten⟩ := hat hstage
      obtain ⟨hfree, hsafe⟩ := hawaited _ _ _ _ hstage
      cases hwritten with
      | complete hempty => exact hempty
      | broken hempty => exact hempty
      | underway offset hoffset _ hone =>
          exact absurd rfl (hfree _ (hone ▸ List.mem_singleton_self _))
  | repliesFailed hstage => exact hat hstage
  | repliesDeleted hstage => exact hat hstage
  | @finishes index count write hwrite hlast =>
      have hnext {id inode taken : Nat} {content : Bytes} {stage : WriterStage}
          (hle : taken ≤ content.length) (hwritten : run.Written id content inode taken) :
          Written { run with
            contents := Function.update run.contents write.inode
              (writeAt (run.contents write.inode) write.offset (write.rest.take count))
            background := run.background.eraseIdx index
            stage } id content inode taken := by
        obtain ⟨hinode, hfinish, -⟩ := hwritten.progress hle hwrite
        obtain ⟨hempty, hsafe, hheld⟩ := hfinish hlast
        refine .complete hempty hsafe ?_
        rw [hinode]
        exact (Function.update_self _ _ _).trans hheld
      change Fits root _ run.stage
      rcases hworking.busy (List.mem_of_getElem? hwrite) with
        ⟨id, path, content, inode, taken, hstage, hfile, hle, hwritten⟩ |
        ⟨id, path, content, inode, hstage, hfile, hwritten⟩
      · rw [hstage]
        exact ⟨hfile, hle, hnext hle hwritten, (hat hstage).2.2.2⟩
      · rw [hstage]
        exact ⟨hfile, hnext le_rfl hwritten⟩
  | @progresses index count write hwrite hmore =>
      have hnext {id inode taken : Nat} {content : Bytes} {stage : WriterStage}
          (hle : taken ≤ content.length) (hwritten : run.Written id content inode taken) :
          Written { run with
            contents := Function.update run.contents write.inode
              (writeAt (run.contents write.inode) write.offset (write.rest.take count))
            background := run.background.set index
              { write with
                offset := write.offset + (write.rest.take count).length
                rest := write.rest.drop count }
            stage } id content inode taken := by
        obtain ⟨hinode, -, hgoOn⟩ := hwritten.progress hle hwrite
        obtain ⟨offset, hoffset, hsafe, hone, hheld⟩ := hgoOn hmore
        refine .underway offset hoffset hsafe hone ?_
        rw [hinode]
        exact (Function.update_self _ _ _).trans hheld
      change Fits root _ run.stage
      rcases hworking.busy (List.mem_of_getElem? hwrite) with
        ⟨id, path, content, inode, taken, hstage, hfile, hle, hwritten⟩ |
        ⟨id, path, content, inode, hstage, hfile, hwritten⟩
      · rw [hstage]
        exact ⟨hfile, hle, hnext hle hwritten, (hat hstage).2.2.2⟩
      · rw [hstage]
        exact ⟨hfile, hnext le_rfl hwritten⟩
  | @fails index error write hwrite =>
      have hnext {id inode taken : Nat} {content : Bytes} {stage : WriterStage}
          (hle : taken ≤ content.length) (hwritten : run.Written id content inode taken) :
          write.owner = id ∧
            Written { run with
              background := run.background.eraseIdx index
              failed := write.owner :: run.failed
              stage } id content inode taken := by
        obtain ⟨howner, hempty, hshort⟩ := hwritten.fail hle hwrite
        exact ⟨howner, .broken hempty (howner ▸ List.mem_cons_self) hshort⟩
      change Fits root _ (run.stage.told write.owner error)
      rcases hworking.busy (List.mem_of_getElem? hwrite) with
        ⟨id, path, content, inode, taken, hstage, hfile, hle, hwritten⟩ |
        ⟨id, path, content, inode, hstage, hfile, hwritten⟩
      · obtain ⟨rfl, hbroken⟩ := hnext hle hwritten
        simp only [hstage, WriterStage.told, if_pos]
        refine ⟨hfile, hle, hbroken, iff_of_false (by simp) ?_⟩
        exact fun hsafe => hsafe List.mem_cons_self
      · rw [hstage]
        exact ⟨hfile, (hnext le_rfl hwritten).2⟩

end MailStoreRun

end Scuttled
