import Scuttled.MailStore.WriterLoop

/-!
# The mail store reads its writes

A store that is answered with Ok once the background is through with it is found
by every read until the next command on its file.  The writer loop does not wait
for the background.
-/

namespace Scuttled

open Rust Foundation

/-- A store was answered with Ok, and no command on its file was sent after it. -/
def Lasting (root : String) (history : List Happening) (path : String) (content : Bytes) : Prop :=
  ∃ stored held, .stored stored path content (.ok ()) held ∈ history ∧
    ∀ later command, .sent later command ∈ history → stored < later → ¬ command.On root path

theorem LastStored.lasting {root : String} {history : List Happening} {id : Nat} {path : String}
    {content : Bytes} (hlast : LastStored root history id path content) :
    Lasting root history path content := by
  obtain ⟨past, since, rfl, stored, held, hstored, hlater⟩ := hlast
  exact ⟨stored, held, List.mem_append_left _ hstored, hlater⟩

theorem LastStored.of_append {root : String} {history out : List Happening} {id : Nat}
    {path : String} {content : Bytes} (hnew : .asked id path ∉ out)
    (hlast : LastStored root (history ++ out) id path content) :
    LastStored root history id path content := by
  obtain ⟨past, since, hsplit, stored, held, hstored, hlater⟩ := hlast
  have hnone (later : Nat) (command : MailCommand) (hsent : .sent later command ∈ history) :
      stored < later → ¬ command.On root path :=
    hlater later command (List.mem_append_left _ hsent)
  rcases append_eq_append_cons hsplit with ⟨since', rfl, -⟩ | ⟨before, -, rfl⟩
  · exact ⟨past, since', rfl, stored, held, hstored, hnone⟩
  · exact absurd (List.mem_append_right _ List.mem_cons_self) hnew

theorem ReadsItsWrites.append {root : String} {history out : List Happening}
    (hlaw : ReadsItsWrites root history)
    (hretrieved : ∀ before id path answer rest, out = before ++ .retrieved id path answer :: rest →
      ∀ content, LastStored root (history ++ before) id path content →
        answer = .ok (some content))
    (hstored : ∀ id path content held, .stored id path content (.ok ()) held ∈ out →
      held = content) : ReadsItsWrites root (history ++ out) := by
  constructor
  case retrieved =>
    intro past id path answer rest hsplit
    rcases append_eq_append_cons hsplit with ⟨rest', hhistory, -⟩ | ⟨before, rfl, hout⟩
    · exact hlaw.retrieved past id path answer rest' hhistory
    · exact hretrieved before id path answer rest hout
  case stored =>
    intro id path content held hmem
    rcases List.mem_append.mp hmem with hold | hnew
    · exact hlaw.stored id path content held hold
    · exact hstored id path content held hnew

namespace MailStoreRun

/-- The last store on a file is in it. -/
def Settled (root : String) (history : List Happening) (run : MailStoreRun) : Prop :=
  ∀ path content, Lasting root history path content →
    ∃ inode, run.files (resolve (fullPath root path)) = some inode ∧ run.contents inode = content

theorem Ordered.free {root : String} {history : List Happening} {run : MailStoreRun}
    (hordered : run.Ordered history) {path : String} {content : Bytes}
    (hlasting : Lasting root history path content) (id' : Nat) (path' : String)
    (hactive : run.stage.active = some (id', path')) :
    resolve (fullPath root path') ≠ resolve (fullPath root path) := by
  obtain ⟨stored, held, hstored, hlater⟩ := hlasting
  obtain ⟨-, command, hsent, rfl⟩ := hordered.active id' path' hactive
  have hlt := (hordered.answered _ _ _ _ _ hstored).2 id' _ hactive
  exact hlater id' command hsent hlt

theorem Moves.stored {root : String} {run target : MailStoreRun} {event : WriterEvent}
    {out : List Happening} (hmoves : Moves root run event target out) {id : Nat} {path : String}
    {content held : Bytes} (hstored : .stored id path content (.ok ()) held ∈ out) :
    event = .reply ∧ target.files = run.files ∧ target.contents = run.contents ∧
      ∃ inode, run.stage = .stored id path content (.ok inode) ∧ held = run.contents inode := by
  cases hmoves with
  | @repliesStored id' path' content' inode hstage =>
      obtain ⟨rfl, rfl, rfl, -, rfl⟩ := Happening.stored.inj (List.mem_singleton.mp hstored)
      exact ⟨rfl, rfl, rfl, inode, hstage, rfl⟩
  | _ => simp at hstored

theorem Working.stored {root : String} {run : MailStoreRun} (hworking : run.Working root)
    {id : Nat} {path : String} {content : Bytes} {inode : Nat}
    (hstage : run.stage = .stored id path content (.ok inode)) :
    run.files (resolve (fullPath root path)) = some inode ∧
      (run.contents inode = content ↔
        (∀ write ∈ run.background, write.owner ≠ id) ∧ id ∉ run.failed) := by
  unfold Working at hworking
  rw [hstage] at hworking
  obtain ⟨hfile, hwritten⟩ := hworking
  refine ⟨hfile, ?_⟩
  cases hwritten with
  | complete hempty hsafe hheld =>
      rw [hheld, List.take_length, hempty]
      exact iff_of_true rfl ⟨by simp, hsafe⟩
  | underway offset hoffset hsafe hone hheld =>
      refine iff_of_false (fun hall => ?_) fun hfree =>
        hfree.1 _ (hone ▸ List.mem_singleton_self _) rfl
      have hlength := congrArg List.length hall
      rw [hheld, List.length_take] at hlength
      omega
  | broken hempty hfailed hshort =>
      refine iff_of_false (fun hall => ?_) fun hfree => hfree.2 hfailed
      rw [hall] at hshort
      exact Nat.lt_irrefl _ hshort

theorem Settled.moves {root : String} {history : List Happening} {run target : MailStoreRun}
    {event : WriterEvent} {out : List Happening} (hmoves : Moves root run event target out)
    (hlinked : run.Linked) (hordered : run.Ordered history) (hworking : run.Working root)
    (hawaited : run.Awaited event) (hsettled : run.Settled root history) :
    target.Settled root (history ++ out) := by
  rintro path content ⟨stored, held, hstored, hlater⟩
  have hnone (later : Nat) (command : MailCommand) (hsent : .sent later command ∈ history) :
      stored < later → ¬ command.On root path :=
    hlater later command (List.mem_append_left _ hsent)
  rcases List.mem_append.mp hstored with hold | hnew
  · have hlasting : Lasting root history path content := ⟨stored, held, hold, hnone⟩
    obtain ⟨inode, hfile, hheld⟩ := hsettled path content hlasting
    obtain ⟨hfiles, hcontents⟩ := hmoves.frame hlinked hworking (hordered.free hlasting)
    exact ⟨inode, hfiles.trans hfile, (hcontents inode hfile).trans hheld⟩
  · obtain ⟨rfl, hfiles, hcontents, inode, hstage, -⟩ := hmoves.stored hnew
    obtain ⟨hfile, hheld⟩ := hworking.stored hstage
    refine ⟨inode, hfiles ▸ hfile, ?_⟩
    rw [hcontents]
    exact hheld.mpr (hawaited _ _ _ _ hstage)

theorem Moves.quiet {root : String} {run target : MailStoreRun} {event : WriterEvent}
    {out : List Happening} (hmoves : Moves root run event target out) :
    (∀ id path, .asked id path ∉ out) ∧ ∀ id path answer, .retrieved id path answer ∉ out := by
  cases hmoves <;> simp

end MailStoreRun

namespace MailStoreSystem

/-- The invariant of the runs that await their writes.  A call of `retrieve` that was
made after a store has opened the file that holds it. -/
structure Sound (root : String) (history : List Happening) (system : MailStoreSystem) : Prop where
  linked : system.store.Linked
  ordered : system.store.Ordered history
  working : system.store.Working root
  settled : system.store.Settled root history
  numbered : ∀ id reading, system.reading id = some reading → id < system.nextRead
  reads : ∀ id reading, system.reading id = some reading →
    ∀ inode got, reading.phase = .reading inode got →
      ∀ content, LastStored root history id reading.path content →
        system.store.files (resolve (fullPath root reading.path)) = some inode ∧ got <+: content
  law : ReadsItsWrites root history

theorem sound_new (root : String) (disk : Disk) : Sound root [] (new disk) where
  linked := ⟨disk.apart, disk.fresh⟩
  ordered := by
    constructor <;> simp [new, MailStoreRun.new, WriterStage.active]
  working := by
    change ([] : List Background) = []
    rfl
  settled := by
    rintro path content ⟨stored, held, hstored, -⟩
    cases hstored
  numbered id reading hreading := by cases hreading
  reads id reading hreading := by cases hreading
  law := by
    constructor
    · intro past id path answer rest hsplit
      simp at hsplit
    · intro id path content held hstored
      cases hstored

theorem Sound.writer {root : String} {history : List Happening} {system : MailStoreSystem}
    (hsound : Sound root history system) {event : WriterEvent}
    (hawaited : system.store.Awaited event) :
    Sound root (history ++ (system.store.step root event).2)
      { system with store := (system.store.step root event).1 } := by
  have hmoves := MailStoreRun.step_moves root system.store event
  obtain ⟨hasked, hretrieved⟩ := hmoves.quiet
  constructor
  case linked => exact hsound.linked.moves hmoves
  case ordered => exact hsound.ordered.moves hmoves hsound.working
  case working => exact hsound.working.moves hmoves hsound.ordered hawaited
  case settled =>
    exact hsound.settled.moves hmoves hsound.linked hsound.ordered hsound.working hawaited
  case numbered => exact hsound.numbered
  case reads =>
    intro id reading hreading inode got hphase content hlast
    have hbefore := hlast.of_append (hasked id reading.path)
    obtain ⟨hfile, hgot⟩ := hsound.reads id reading hreading inode got hphase content hbefore
    obtain ⟨hfiles, -⟩ :=
      hmoves.frame hsound.linked hsound.working (hsound.ordered.free hbefore.lasting)
    exact ⟨hfiles.trans hfile, hgot⟩
  case law =>
    refine hsound.law.append (fun before id path answer rest hout => ?_)
      fun id path content held hstored => ?_
    · exact absurd (hout ▸ List.mem_append_right _ List.mem_cons_self) (hretrieved id path answer)
    · obtain ⟨rfl, -, -, inode, hstage, rfl⟩ := hmoves.stored hstored
      exact (hsound.working.stored hstage).2.mpr (hawaited _ _ _ _ hstage)

theorem Sound.reader {root : String} {history out : List Happening}
    {system target : MailStoreSystem} (hsound : Sound root history system)
    (hstore : target.store = system.store)
    (hout : ∀ id path content result held, .stored id path content result held ∉ out)
    (hnumbered : ∀ id reading, target.reading id = some reading → id < target.nextRead)
    (hreads : ∀ id reading, target.reading id = some reading →
      ∀ inode got, reading.phase = .reading inode got →
        ∀ content, LastStored root (history ++ out) id reading.path content →
          system.store.files (resolve (fullPath root reading.path)) = some inode ∧
            got <+: content)
    (hretrieved : ∀ before id path answer rest, out = before ++ .retrieved id path answer :: rest →
      ∀ content, LastStored root (history ++ before) id path content →
        answer = .ok (some content)) : Sound root (history ++ out) target where
  linked := hstore ▸ hsound.linked
  ordered := by
    refine hsound.ordered.restage (by rw [hstore]) (by rw [hstore]) ?_ (.inl (by rw [hstore])) ?_
    · exact hstore ▸ hsound.ordered.failed
    · exact fun id path content result held hstored =>
        absurd hstored (hout id path content result held)
  working := hstore ▸ hsound.working
  settled := by
    rintro path content ⟨stored, held, hstored, hlater⟩
    rw [hstore]
    refine hsound.settled path content ⟨stored, held, ?_, fun later command hsent =>
      hlater later command (List.mem_append_left _ hsent)⟩
    exact (List.mem_append.mp hstored).resolve_right (hout _ _ _ _ _)
  numbered := hnumbered
  reads := hstore ▸ hreads
  law := hsound.law.append hretrieved fun id path content held hstored =>
    absurd hstored (hout _ _ _ _ _)

theorem Sound.resume {root : String} {history : List Happening} {system : MailStoreSystem}
    (hsound : Sound root history system) {id : Nat} {reading : Reading}
    (hreading : system.reading id = some reading) {phase : ReadPhase}
    (hphase : ∀ inode got, phase = .reading inode got →
      ∀ content, LastStored root history id reading.path content →
        system.store.files (resolve (fullPath root reading.path)) = some inode ∧
          got <+: content) :
    Sound root (history ++ []) (system.resume id reading phase) := by
  have hcases {id' : Nat} {reading' : Reading}
      (hreading' : (system.resume id reading phase).reading id' = some reading') :
      (id' = id ∧ reading' = { reading with phase }) ∨ system.reading id' = some reading' := by
    unfold MailStoreSystem.resume at hreading'
    simp only [Function.update_apply] at hreading'
    split at hreading'
    case isTrue hid => exact .inl ⟨hid, (Option.some.inj hreading').symm⟩
    case isFalse => exact .inr hreading'
  refine hsound.reader rfl (by simp) (fun id' reading' hreading' => ?_)
    (fun id' reading' hreading' => ?_) (by simp)
  · rcases hcases hreading' with ⟨rfl, -⟩ | hold
    · exact hsound.numbered _ _ hreading
    · exact hsound.numbered _ _ hold
  · rw [List.append_nil]
    rcases hcases hreading' with ⟨rfl, rfl⟩ | hold
    · exact hphase
    · exact hsound.reads _ _ hold

theorem Sound.answer {root : String} {history : List Happening} {system : MailStoreSystem}
    (hsound : Sound root history system) {id : Nat} {reading : Reading}
    {answer : Result (Option Bytes)}
    (hanswer : ∀ content, LastStored root history id reading.path content →
      answer = .ok (some content)) :
    Sound root (history ++ (system.answer id reading answer).2)
      (system.answer id reading answer).1 := by
  have hother {id' : Nat} {reading' : Reading}
      (hreading' : Function.update system.reading id none id' = some reading') :
      system.reading id' = some reading' := by
    rw [Function.update_apply] at hreading'
    split at hreading'
    · cases hreading'
    · exact hreading'
  refine hsound.reader rfl (by simp [MailStoreSystem.answer])
    (fun id' reading' hreading' => hsound.numbered _ _ (hother hreading'))
    (fun id' reading' hreading' inode got hphase content hlast => ?_)
    fun before id' path answer' rest hout content hlast => ?_
  · exact hsound.reads _ _ (hother hreading') inode got hphase content
      (hlast.of_append (by simp [MailStoreSystem.answer]))
  · rcases List.cons_eq_append_iff.mp hout with ⟨rfl, hone⟩ | ⟨before', rfl, hnone⟩
    · obtain ⟨hsame, -⟩ := List.cons.inj hone
      obtain ⟨rfl, rfl, rfl⟩ := Happening.retrieved.inj hsame
      exact hanswer content (by simpa using hlast)
    · simp at hnone

theorem Sound.advance {root : String} {history : List Happening} {system : MailStoreSystem}
    (hsound : Sound root history system) {id : Nat} (count : Nat) {reading : Reading}
    (hreading : system.reading id = some reading) :
    Sound root (history ++ (system.advance root id count reading).2)
      (system.advance root id count reading).1 := by
  -- the file of a store that lasts is there, and holds it
  have hfound {content : Bytes} (hlast : LastStored root history id reading.path content) :=
    hsound.settled reading.path content hlast.lasting
  unfold MailStoreSystem.advance
  split
  case h_1 hphase =>
    split
    case isTrue => exact hsound.resume hreading (by simp)
    case isFalse hmissing =>
      refine hsound.answer fun content hlast => ?_
      obtain ⟨inode, hfile, -⟩ := hfound hlast
      simp [hfile] at hmissing
  case h_2 hphase =>
    split
    case h_1 inode hfile =>
      refine hsound.resume hreading fun inode' got hreads content hlast => ?_
      obtain ⟨rfl, rfl⟩ := ReadPhase.reading.inj hreads
      exact ⟨hfile, List.nil_prefix⟩
    case h_2 hmissing =>
      refine hsound.answer fun content hlast => ?_
      obtain ⟨inode, hfile, -⟩ := hfound hlast
      rw [hfile] at hmissing
      cases hmissing
  case h_3 inode got hphase =>
    have hheld {content : Bytes} (hlast : LastStored root history id reading.path content) :
        system.store.files (resolve (fullPath root reading.path)) = some inode ∧
          got ++ (system.store.contents inode).drop got.length = content := by
      obtain ⟨hfile, rest, rfl⟩ := hsound.reads id reading hreading inode got hphase content hlast
      obtain ⟨inode', hfile', hcontents⟩ := hfound hlast
      obtain rfl := Option.some.inj (hfile.symm.trans hfile')
      rw [hcontents, List.drop_left]
      exact ⟨hfile, rfl⟩
    dsimp only
    split
    case isTrue hend =>
      refine hsound.answer fun content hlast => ?_
      obtain ⟨-, hcontent⟩ := hheld hlast
      rw [← hcontent, hend, List.append_nil]
    case isFalse =>
      refine hsound.resume hreading fun inode' got' hreads content hlast => ?_
      obtain ⟨rfl, rfl⟩ := ReadPhase.reading.inj hreads
      obtain ⟨hfile, hcontent⟩ := hheld hlast
      refine ⟨hfile, ?_⟩
      rw [← hcontent, List.prefix_append_right_inj]
      exact List.take_prefix _ _

theorem Sound.retrieve {root : String} {history : List Happening} {system : MailStoreSystem}
    (hsound : Sound root history system) (path : String) :
    Sound root (history ++ (system.step root (.retrieve path)).2)
      (system.step root (.retrieve path)).1 := by
  have hcases {id : Nat} {reading : Reading}
      (hreading : Function.update system.reading system.nextRead (some ⟨path, .checking⟩) id =
        some reading) : (id = system.nextRead ∧ reading = ⟨path, .checking⟩) ∨
          id ≠ system.nextRead ∧ system.reading id = some reading := by
    rw [Function.update_apply] at hreading
    split at hreading
    case isTrue hid => exact .inl ⟨hid, (Option.some.inj hreading).symm⟩
    case isFalse hid => exact .inr ⟨hid, hreading⟩
  refine hsound.reader rfl (by simp [step]) (fun id reading hreading => ?_)
    (fun id reading hreading inode got hphase content hlast => ?_)
    fun before id path' answer rest hout => ?_
  · change id < system.nextRead + 1
    rcases hcases hreading with ⟨rfl, -⟩ | ⟨-, hold⟩
    · exact Nat.lt_succ_self _
    · exact (hsound.numbered _ _ hold).trans (Nat.lt_succ_self _)
  · rcases hcases hreading with ⟨rfl, rfl⟩ | ⟨hid, hold⟩
    · cases hphase
    · refine hsound.reads id reading hold inode got hphase content (hlast.of_append ?_)
      simpa [step] using fun hsame => absurd hsame hid
  · rcases List.cons_eq_append_iff.mp hout with ⟨rfl, hone⟩ | ⟨before', rfl, hnone⟩
    · simp at hone
    · simp at hnone

/-- Every step that is awaited keeps the invariant. -/
theorem Sound.step {root : String} {history : List Happening} {system : MailStoreSystem}
    (hsound : Sound root history system) {event : MailStoreEvent}
    (hawaited : system.Awaited root history event) :
    Sound root (history ++ (system.step root event).2) (system.step root event).1 := by
  have hstays : Sound root (history ++ []) system := by
    rw [List.append_nil]
    exact hsound
  cases event with
  | writer event => exact hsound.writer hawaited
  | retrieve path => exact hsound.retrieve path
  | advance id count =>
      unfold MailStoreSystem.step
      dsimp only
      split
      case h_1 reading hreading => exact hsound.advance count hreading
      case h_2 => exact hstays
  | failRead id error =>
      unfold MailStoreSystem.step
      dsimp only
      split
      case h_1 reading hreading =>
        have hnone (answer : Result (Option Bytes)) (content : Bytes)
            (hlast : LastStored root history id reading.path content) :
            answer = .ok (some content) := absurd hlast (hawaited reading hreading content)
        split
        · exact hsound.answer (hnone _)
        · exact hsound.answer (hnone _)
      case h_2 => exact hstays
  | doesExist path error =>
      refine hsound.reader rfl (by simp [MailStoreSystem.step]) hsound.numbered
        (fun id reading hreading inode got hphase content hlast => ?_)
        fun before id path' answer rest hout => ?_
      · exact hsound.reads id reading hreading inode got hphase content
          (hlast.of_append (by simp [MailStoreSystem.step]))
      · rcases List.cons_eq_append_iff.mp hout with ⟨rfl, hone⟩ | ⟨before', rfl, hnone⟩
        · simp at hone
        · simp at hnone

theorem Sound.awaited {root : String} {history : List Happening} {system : MailStoreSystem}
    (hsound : Sound root history system) {event : MailStoreEvent}
    (hlaw : ReadsItsWrites root (history ++ (system.step root event).2)) :
    system.Awaited root history event := by
  cases event with
  | writer event =>
      cases event with
      | reply =>
          intro id path content inode hstage
          refine (hsound.working.stored hstage).2.mp (hlaw.stored id path content _ ?_)
          refine List.mem_append_right _ ?_
          simp [MailStoreSystem.step, MailStoreRun.step, MailStoreRun.reply, hstage]
      | _ => trivial
  | failRead id error =>
      intro reading hreading content hlast
      simp only [MailStoreSystem.step, hreading] at hlaw
      have hanswer (answer : Result (Option Bytes))
          (hlaw : ReadsItsWrites root (history ++ [.retrieved id reading.path answer])) :
          answer = .ok (some content) :=
        hlaw.retrieved history id reading.path answer [] rfl content hlast
      split at hlaw
      · cases hanswer _ hlaw
      · cases hanswer _ hlaw
  | _ => trivial

end MailStoreSystem

/--
A store and its clients, whatever the file system does and in whatever order:
all along the run the reads see the last store, and a store is answered with Ok
only when all of it is in its file, exactly if every such answer waits for the
background and no read fails that has to find a store.
-/
theorem reads_its_writes_iff (root : String) (disk : Disk) (events : List MailStoreEvent) :
    let machine := MailStoreSystem.machine root
    let start := MailStoreSystem.new disk
    let happened := machine.observed (fun system event => (machine.step system event).2) start
    (∀ done rest, events = done ++ rest → ReadsItsWrites root (happened done)) ↔
      ∀ done event rest, events = done ++ event :: rest →
        (machine.final start done).Awaited root (happened done) event := by
  intro machine start happened
  have hlaw (history : List Happening) (system : MailStoreSystem)
      (hsound : system.Sound root history) : ReadsItsWrites root history := hsound.law
  have hnecessary (history : List Happening) (system : MailStoreSystem) (event : MailStoreEvent)
      (hsound : system.Sound root history)
      (hnext : ReadsItsWrites root (history ++ (machine.step system event).2)) :
      system.Awaited root history event := hsound.awaited hnext
  have hsufficient (history : List Happening) (system : MailStoreSystem) (event : MailStoreEvent)
      (hsound : system.Sound root history) (hawaited : system.Awaited root history event) :
      (machine.step system event).1.Sound root (history ++ (machine.step system event).2) :=
    hsound.step hawaited
  exact Machine.observed_always_iff_of_guard hlaw hnecessary hsufficient
    (MailStoreSystem.sound_new root disk) events

/-- A store is answered while its only byte is in the background: a read that follows
finds the file empty. -/
theorem stored_reads_back_empty :
    let machine := MailStoreSystem.machine "mail"
    let happened := machine.observed (fun system event => (machine.step system event).2)
      (.new .empty) [.writer (.send (.store "box/1" [1])), .writer .receive,
        .writer (.createDirectories none), .writer (.createFile none), .writer (.take 1),
        .writer .writeAllDone, .writer .reply, .retrieve "box/1", .advance 0 1, .advance 0 1,
        .advance 0 1]
    happened = [.sent 0 (.store "box/1" [1]), .stored 0 "box/1" [1] (.ok ()) [],
        .asked 0 "box/1", .retrieved 0 "box/1" (.ok (some []))] ∧
      ¬ ReadsItsWrites "mail" happened := by
  intro machine happened
  have hhappened : happened = [.sent 0 (.store "box/1" [1]), .stored 0 "box/1" [1] (.ok ()) [],
      .asked 0 "box/1", .retrieved 0 "box/1" (.ok (some []))] := by
    rfl
  refine ⟨hhappened, fun hlaw => ?_⟩
  have hheld := hlaw.stored 0 "box/1" [1] [] (by simp [hhappened])
  cases hheld

end Scuttled
