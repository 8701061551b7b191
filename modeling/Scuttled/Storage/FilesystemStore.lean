import Scuttled.Foundation.Machine
import Scuttled.MailStore.Filesystem

/-!
# Replacing a message on the file system

`FilesystemStore::write` creates the directories, truncates the file, writes its
bytes and syncs.  Each of these steps may fail, and `read` does not go through
the writer loop: it runs between any two of them.
-/

namespace Scuttled

open Rust Foundation

/-! ## The steps of `write` -/

/-- The directories above a location, outermost first. -/
def ancestors (location : Location) : List Location :=
  (List.range location.names.length).map fun depth =>
    { location with names := location.names.take depth }

/-- Creates the directories that are missing. -/
def FileTree.makeDirectories (directories : List Location) (tree : FileTree) : FileTree :=
  fun location =>
    if location ∈ directories ∧ tree location = none then some .directory else tree location

/-- The error of `create_dir_all` where a file is in the way. -/
def FileTree.blocked (tree : FileTree) (directories : List Location) : Option String :=
  let isFile (location : Location) : Bool :=
    match tree location with
    | some (.file _) => true
    | _ => false
  if (directories.getLast?.map isFile).getD false then some "File exists (os error 17)"
  else if directories.any isFile then some "Not a directory (os error 20)"
  else none

/-- `create_dir_all` of some directories, outermost first: it may end with an error
after some of them. -/
def FileTree.createDirAll (directories : List Location) (outcome : Option (Nat × String))
    (tree : FileTree) : Result Unit × FileTree :=
  match tree.blocked directories with
  | some failure => (.error (.io failure), tree)
  | none =>
      match outcome with
      | some (reached, failure) =>
          (.error (.io failure), tree.makeDirectories (directories.take reached))
      | none => (.ok (), tree.makeDirectories directories)

theorem FileTree.createDirAll_cases (directories : List Location)
    (outcome : Option (Nat × String)) (tree : FileTree) :
    (∃ failure made, tree.createDirAll directories outcome = (.error failure, made) ∧
      (∃ reached, made = tree.makeDirectories reached) ∧
        (tree.blocked directories ≠ none ∨ outcome ≠ none)) ∨
    tree.createDirAll directories outcome = (.ok (), tree.makeDirectories directories) ∧
      tree.blocked directories = none ∧ outcome = none := by
  unfold FileTree.createDirAll
  cases hblocked : tree.blocked directories with
  | some failure =>
      refine .inl ⟨_, _, rfl, ⟨[], ?_⟩, .inl (by simp)⟩
      funext location
      simp [FileTree.makeDirectories]
  | none =>
      cases outcome with
      | some outcome => exact .inl ⟨_, _, rfl, ⟨_, rfl⟩, .inr (by simp)⟩
      | none => exact .inr ⟨rfl, rfl, rfl⟩

/-- Replaces what is at a location. -/
def FileTree.put (location : Location) (node : Node) (tree : FileTree) : FileTree :=
  Function.update tree location (some node)

/-- How far a call of `write` has come. -/
inductive WritePhase where
  | starting
  | directoriesMade
  /-- The file was truncated, and this many bytes were written to it. -/
  | writing (written : Nat)
  | finished (result : Result Unit)
  deriving DecidableEq

/-- What happens next: a step of the write ends, or somebody reads. -/
inductive StoreEvent where
  /-- `create_dir_all`: how many directories it got to, and its error. -/
  | directories (reached : Nat) (error : Option String)
  | create (error : Option String)
  /-- One write of `write_all`: how many bytes it took, or its error. -/
  | chunk (outcome : Except String Nat)
  | sync (error : Option String)
  | read
  deriving DecidableEq

/-- The files, and one call of `write`. -/
structure WriteRun where
  tree : FileTree
  phase : WritePhase

namespace WriteRun

/-- `write(path, content)`, step by step, and `read(path)` at any moment.  A step
that is not due does not happen. -/
def step (root path : String) (content : Bytes) (run : WriteRun) :
    StoreEvent → WriteRun × Option (Result (Option Bytes))
  | .read => (run, some (retrieve run.tree root path))
  | .directories reached error =>
      let target := resolve (fullPath root path)
      match run.phase with
      | .starting =>
          match error with
          | none =>
              ({ tree := run.tree.makeDirectories (ancestors target)
                 phase := .directoriesMade }, none)
          | some error =>
              ({ tree := run.tree.makeDirectories ((ancestors target).take reached)
                 phase := .finished (.error (.io error)) }, none)
      | _ => (run, none)
  | .create error =>
      let target := resolve (fullPath root path)
      match run.phase with
      | .directoriesMade =>
          match error with
          | none => ({ tree := run.tree.put target (.file []), phase := .writing 0 }, none)
          | some error => ({ run with phase := .finished (.error (.io error)) }, none)
      | _ => (run, none)
  | .chunk outcome =>
      let target := resolve (fullPath root path)
      match run.phase with
      | .writing written =>
          if written = content.length then (run, none)
          else
            match outcome with
            | .ok 0 =>
                ({ run with phase := .finished (.error (.io "failed to write whole buffer")) },
                  none)
            | .ok taken =>
                let written := min (written + taken) content.length
                ({ tree := run.tree.put target (.file (content.take written))
                   phase := .writing written }, none)
            | .error error => ({ run with phase := .finished (.error (.io error)) }, none)
      | _ => (run, none)
  | .sync error =>
      match run.phase with
      | .writing written =>
          if written = content.length then
            match error with
            | none => ({ run with phase := .finished (.ok ()) }, none)
            | some error => ({ run with phase := .finished (.error (.io error)) }, none)
          else (run, none)
      | _ => (run, none)

/-- A call of `write`, and the reads made meanwhile and afterwards. -/
def machine (root path : String) (content : Bytes) :
    Machine WriteRun StoreEvent (Option (Result (Option Bytes))) where
  step := step root path content

end WriteRun

/-! ## All or nothing -/

/-- The reads saw nothing, the old content or the new; a write that failed left the
old. -/
structure AllOrNothing (target : Location) (old : Option Bytes) (content : Bytes)
    (answers : List (Result (Option Bytes))) (run : WriteRun) : Prop where
  answers : ∀ answer ∈ answers, answer = .ok none ∨ answer = .ok old ∨ answer = .ok (some content)
  failed : ∀ error, run.phase = .finished (.error error) → run.tree target = old.map .file

/-- Nobody sees the file while it holds a part of the new content, and no step after
the truncation fails; unless what the file holds then is the old content. -/
def StoreEvent.Harmless (old : Option Bytes) (content : Bytes) (phase : WritePhase) :
    StoreEvent → Prop
  | .read => ∀ written, phase = .writing written → written < content.length →
      old = some (content.take written)
  | .chunk (.error _) => ∀ written, phase = .writing written → written < content.length →
      old = some (content.take written)
  | .chunk (.ok 0) => ∀ written, phase = .writing written → written < content.length →
      old = some (content.take written)
  | .sync (some _) => phase = .writing content.length → old = some content
  | _ => True

/-- What the file holds in each phase of the write. -/
def WriteRun.Holds (target : Location) (old : Option Bytes) (content : Bytes) (run : WriteRun) :
    Prop :=
  match run.phase with
  | .starting => run.tree target = old.map .file
  | .directoriesMade => run.tree target = old.map .file
  | .writing written =>
      written ≤ content.length ∧ run.tree target = some (.file (content.take written))
  | .finished (.ok ()) => run.tree target = some (.file content)
  | .finished (.error _) => True

section Holds

variable {target : Location} {old : Option Bytes} {content : Bytes} {tree : FileTree}

@[simp] theorem holds_starting : WriteRun.Holds target old content ⟨tree, .starting⟩ ↔
    tree target = old.map .file := Iff.rfl

@[simp] theorem holds_directoriesMade : WriteRun.Holds target old content ⟨tree, .directoriesMade⟩ ↔
    tree target = old.map .file := Iff.rfl

@[simp] theorem holds_writing {written : Nat} :
    WriteRun.Holds target old content ⟨tree, .writing written⟩ ↔
      written ≤ content.length ∧ tree target = some (.file (content.take written)) := Iff.rfl

@[simp] theorem holds_ok : WriteRun.Holds target old content ⟨tree, .finished (.ok ())⟩ ↔
    tree target = some (.file content) := Iff.rfl

@[simp] theorem holds_error {error : Error} :
    WriteRun.Holds target old content ⟨tree, .finished (.error error)⟩ := trivial

end Holds

section Steps

variable {root path : String} {target : Location} {old : Option Bytes} {content : Bytes}
  {run : WriteRun} {answers : List (Result (Option Bytes))}

theorem not_mem_ancestors (location : Location) : location ∉ ancestors location := by
  intro hmem
  obtain ⟨depth, hdepth, hsame⟩ := List.mem_map.mp hmem
  have hnames := congrArg (fun other => other.names.length) hsame
  simp only [List.length_take, List.mem_range] at hnames hdepth
  omega

theorem makeDirectories_target (location : Location) (reached : Nat) (tree : FileTree) :
    tree.makeDirectories ((ancestors location).take reached) location = tree location := by
  rw [FileTree.makeDirectories, if_neg]
  exact fun hmem => not_mem_ancestors location (List.mem_of_mem_take hmem.1)

theorem put_target (location : Location) (node : Node) (tree : FileTree) :
    tree.put location node location = some node :=
  Function.update_self ..

theorem retrieve_of_holds {tree : FileTree} {held : Option Bytes}
    (htree : tree (resolve (fullPath root path)) = held.map .file) :
    retrieve tree root path = .ok held := by
  unfold retrieve FileTree.tryExists FileTree.read
  rw [htree]
  cases held <;> rfl

/-- In every phase the file holds what the phase says. -/
theorem WriteRun.Holds.step (hholds : run.Holds (resolve (fullPath root path)) old content)
    (event : StoreEvent) :
    (WriteRun.step root path content run event).1.Holds (resolve (fullPath root path)) old
      content := by
  obtain ⟨tree, phase⟩ := run
  cases event with
  | read => exact hholds
  | directories reached error =>
      cases phase with
      | starting =>
          cases error with
          | none =>
              have htarget := makeDirectories_target (resolve (fullPath root path))
                (ancestors (resolve (fullPath root path))).length tree
              rw [List.take_length] at htarget
              exact holds_directoriesMade.mpr (htarget.trans (holds_starting.mp hholds))
          | some error => exact holds_error
      | _ => exact hholds
  | create error =>
      cases phase with
      | directoriesMade =>
          cases error with
          | none => simp [WriteRun.step, put_target]
          | some error => exact holds_error
      | _ => exact hholds
  | chunk outcome =>
      cases phase with
      | writing written =>
          by_cases hall : written = content.length
          · simpa only [WriteRun.step, if_pos hall] using hholds
          · simp only [WriteRun.step, if_neg hall]
            rcases outcome with error | _ | taken
            · exact holds_error
            · exact holds_error
            · exact holds_writing.mpr ⟨Nat.min_le_right _ _, put_target _ _ _⟩
      | _ => exact hholds
  | sync error =>
      cases phase with
      | writing written =>
          by_cases hall : written = content.length
          · simp only [WriteRun.step, if_pos hall]
            cases error with
            | none =>
                have htree := hholds.2
                rw [hall, List.take_length] at htree
                exact holds_ok.mpr htree
            | some error => exact holds_error
          · simpa only [WriteRun.step, if_neg hall] using hholds
      | _ => exact hholds

theorem AllOrNothing.kept (hlaw : AllOrNothing target old content answers run) {run' : WriteRun}
    (hphase : ∀ error, run'.phase ≠ .finished (.error error)) :
    AllOrNothing target old content (answers ++ []) run' := by
  rw [List.append_nil]
  exact ⟨hlaw.answers, fun error hfailed => absurd hfailed (hphase error)⟩

theorem AllOrNothing.failed_iff (hlaw : AllOrNothing target old content answers run)
    {tree : FileTree} {error : Error} :
    AllOrNothing target old content (answers ++ []) ⟨tree, .finished (.error error)⟩ ↔
      tree target = old.map .file := by
  rw [List.append_nil]
  constructor
  · intro hnext
    exact hnext.failed error rfl
  · intro htree
    exact ⟨hlaw.answers, fun _ _ => htree⟩

theorem AllOrNothing.answered_iff (hlaw : AllOrNothing target old content answers run)
    {answer : Result (Option Bytes)} :
    AllOrNothing target old content (answers ++ [answer]) run ↔
      answer = .ok none ∨ answer = .ok old ∨ answer = .ok (some content) := by
  constructor
  · intro hnext
    exact hnext.answers answer (List.mem_append_right _ (List.mem_singleton_self _))
  · intro hanswer
    refine ⟨fun other hother => ?_, hlaw.failed⟩
    rcases List.mem_append.mp hother with hmem | hmem
    · exact hlaw.answers other hmem
    · exact List.mem_singleton.mp hmem ▸ hanswer

theorem take_iff {written : Nat} {tree : FileTree}
    (htree : tree target = some (.file (content.take written))) :
    tree target = old.map .file ↔ old = some (content.take written) := by
  rw [htree]
  cases old with
  | none => simp
  | some bytes => simp [eq_comm]

/-- A step keeps the law exactly if it is harmless. -/
theorem allOrNothing_step_iff (hholds : run.Holds (resolve (fullPath root path)) old content)
    (hlaw : AllOrNothing (resolve (fullPath root path)) old content answers run)
    (event : StoreEvent) :
    AllOrNothing (resolve (fullPath root path)) old content
        (answers ++ (WriteRun.step root path content run event).2.toList)
        (WriteRun.step root path content run event).1 ↔
      event.Harmless old content run.phase := by
  obtain ⟨tree, phase⟩ := run
  cases event with
  | read =>
      refine hlaw.answered_iff.trans ?_
      cases phase with
      | writing written =>
          obtain ⟨hle, htree⟩ := holds_writing.mp hholds
          have hread : retrieve tree root path = .ok (some (content.take written)) :=
            retrieve_of_holds htree
          simp only [hread, StoreEvent.Harmless, WritePhase.writing.injEq, forall_eq']
          by_cases hpart : written < content.length
          · simp [hpart, eq_comm]
          · have hall : content.take written = content :=
              List.take_of_length_le (Nat.le_of_not_lt hpart)
            simp [hpart, hall]
      | starting =>
          refine iff_of_true (.inr (.inl ?_)) (by simp [StoreEvent.Harmless])
          exact retrieve_of_holds (holds_starting.mp hholds)
      | directoriesMade =>
          refine iff_of_true (.inr (.inl ?_)) (by simp [StoreEvent.Harmless])
          exact retrieve_of_holds (holds_directoriesMade.mp hholds)
      | finished result =>
          cases result with
          | ok done =>
              refine iff_of_true (.inr (.inr ?_)) (by simp [StoreEvent.Harmless])
              exact retrieve_of_holds (holds_ok.mp hholds)
          | error error =>
              refine iff_of_true (.inr (.inl ?_)) (by simp [StoreEvent.Harmless])
              exact retrieve_of_holds (hlaw.failed error rfl)
  | directories reached error =>
      refine iff_of_true ?_ trivial
      cases phase with
      | starting =>
          cases error with
          | none => exact hlaw.kept (by simp [WriteRun.step])
          | some error =>
              refine hlaw.failed_iff.mpr ?_
              rw [makeDirectories_target]
              exact holds_starting.mp hholds
      | finished result => exact (List.append_nil answers).symm ▸ hlaw
      | _ => exact hlaw.kept (by simp [WriteRun.step])
  | create error =>
      refine iff_of_true ?_ trivial
      cases phase with
      | directoriesMade =>
          cases error with
          | none => exact hlaw.kept (by simp [WriteRun.step])
          | some error => exact hlaw.failed_iff.mpr (holds_directoriesMade.mp hholds)
      | finished result => exact (List.append_nil answers).symm ▸ hlaw
      | _ => exact hlaw.kept (by simp [WriteRun.step])
  | chunk outcome =>
      cases phase with
      | writing written =>
          obtain ⟨hle, htree⟩ := holds_writing.mp hholds
          by_cases hall : written = content.length
          · have hnone : ¬ written < content.length := by omega
            simp only [WriteRun.step, if_pos hall]
            refine iff_of_true (hlaw.kept (by simp)) ?_
            rcases outcome with error | _ | taken <;> simp [StoreEvent.Harmless, hnone]
          · have hpart : written < content.length := by omega
            simp only [WriteRun.step, if_neg hall]
            rcases outcome with error | _ | taken
            · refine hlaw.failed_iff.trans ((take_iff htree).trans ?_)
              simp [StoreEvent.Harmless, hpart]
            · refine hlaw.failed_iff.trans ((take_iff htree).trans ?_)
              simp [StoreEvent.Harmless, hpart]
            · exact iff_of_true (hlaw.kept (by simp)) trivial
      | finished result =>
          refine iff_of_true ((List.append_nil answers).symm ▸ hlaw) ?_
          rcases outcome with error | _ | taken <;> simp [StoreEvent.Harmless]
      | _ =>
          refine iff_of_true (hlaw.kept (by simp [WriteRun.step])) ?_
          rcases outcome with error | _ | taken <;> simp [StoreEvent.Harmless]
  | sync error =>
      cases phase with
      | writing written =>
          obtain ⟨hle, htree⟩ := holds_writing.mp hholds
          by_cases hall : written = content.length
          · simp only [WriteRun.step, if_pos hall]
            cases error with
            | none => exact iff_of_true (hlaw.kept (by simp)) trivial
            | some error =>
                refine hlaw.failed_iff.trans ((take_iff htree).trans ?_)
                simp [StoreEvent.Harmless, hall]
          · simp only [WriteRun.step, if_neg hall]
            refine iff_of_true (hlaw.kept (by simp)) ?_
            cases error <;> simp [StoreEvent.Harmless, hall]
      | finished result =>
          refine iff_of_true ((List.append_nil answers).symm ▸ hlaw) ?_
          cases error <;> simp [StoreEvent.Harmless]
      | _ =>
          refine iff_of_true (hlaw.kept (by simp [WriteRun.step])) ?_
          cases error <;> simp [StoreEvent.Harmless]

end Steps

/-! ## Runs -/

def WriteRun.answered (root path : String) (content : Bytes) (run : WriteRun) (event : StoreEvent) :
    List (Result (Option Bytes)) :=
  ((WriteRun.machine root path content).step run event).2.toList

/--
Replacing a message.  Whatever the file held, if anything, and whatever fails
and is read in whatever order: all along the run the reads see nothing, the old
content or the new, and a write that failed has left the old, exactly if every
event is harmless when it happens.
-/
theorem write_allOrNothing_iff (root path : String) (tree : FileTree) (old : Option Bytes)
    (content : Bytes) (htree : tree (resolve (fullPath root path)) = old.map .file)
    (events : List StoreEvent) :
    let machine := WriteRun.machine root path content
    let start : WriteRun := ⟨tree, .starting⟩
    (∀ done rest, events = done ++ rest →
        AllOrNothing (resolve (fullPath root path)) old content
          (machine.observed (WriteRun.answered root path content) start done)
          (machine.final start done)) ↔
      ∀ done event rest, events = done ++ event :: rest →
        event.Harmless old content (machine.final start done).phase := by
  intro machine start
  let target := resolve (fullPath root path)
  let Inv (answers : List (Result (Option Bytes))) (run : WriteRun) : Prop :=
    run.Holds target old content ∧ AllOrNothing target old content answers run
  have hstart : Inv [] start := by
    refine ⟨holds_starting.mpr htree, ⟨by simp, fun error hfailed => ?_⟩⟩
    cases hfailed
  have hstep (answers : List (Result (Option Bytes))) (run : WriteRun) (event : StoreEvent)
      (hinv : Inv answers run) :
      AllOrNothing target old content (answers ++ WriteRun.answered root path content run event)
          (machine.step run event).1 ↔ event.Harmless old content run.phase :=
    allOrNothing_step_iff hinv.1 hinv.2 event
  have hkept (answers : List (Result (Option Bytes))) (run : WriteRun) (event : StoreEvent)
      (hinv : Inv answers run) (hharmless : event.Harmless old content run.phase) :
      Inv (answers ++ WriteRun.answered root path content run event) (machine.step run event).1 :=
    ⟨hinv.1.step event, (hstep answers run event hinv).mpr hharmless⟩
  exact Machine.observed_always_iff_of_guard (fun answers run hinv => hinv.2)
    (fun answers run event hinv => (hstep answers run event hinv).mp) hkept hstart events

/-- The law for a write nothing disturbs. -/
theorem write_allOrNothing_iff_undisturbed :
    let machine := WriteRun.machine "mail" "box/1" [3, 4]
    let tree : FileTree := FileTree.put (resolve (fullPath "mail" "box/1")) (.file [1, 2])
      fun _ => none
    let events := [StoreEvent.directories 1 none, .create none, .chunk (.ok 2), .sync none, .read]
    AllOrNothing (resolve (fullPath "mail" "box/1")) (some [1, 2]) [3, 4]
      (machine.observed (WriteRun.answered "mail" "box/1" [3, 4]) ⟨tree, .starting⟩ events)
      (machine.final ⟨tree, .starting⟩ events) := by
  intro machine tree events
  refine (write_allOrNothing_iff "mail" "box/1" tree (some [1, 2]) [3, 4] (put_target _ _ _)
    events).mpr ?_ events [] (List.append_nil _).symm
  intro done event rest hevents
  rcases done with _ | ⟨_, _ | ⟨_, _ | ⟨_, _ | ⟨_, _ | ⟨_, done⟩⟩⟩⟩⟩ <;>
    simp only [events, List.nil_append, List.cons_append, List.cons.injEq] at hevents
  · exact hevents.1 ▸ trivial
  · exact hevents.2.1 ▸ trivial
  · exact hevents.2.2.1 ▸ trivial
  · exact hevents.2.2.2.1 ▸ trivial
  · obtain ⟨rfl, rfl, rfl, rfl, rfl, -⟩ := hevents
    have hfinished : (machine.final ⟨tree, .starting⟩
        [.directories 1 none, .create none, .chunk (.ok 2), .sync none]).phase =
          .finished (.ok ()) := by decide +kernel
    intro written hphase
    rw [hfinished] at hphase
    cases hphase
  · simp at hevents

/-- A read between truncation and writing sees an empty file, and a write that fails
there leaves one. -/
theorem write_leaves_empty_file :
    let machine := WriteRun.machine "mail" "box/1" [3, 4]
    let tree : FileTree := FileTree.put (resolve (fullPath "mail" "box/1")) (.file [1, 2])
      fun _ => none
    let events := [StoreEvent.directories 1 none, .create none, .read,
      .chunk (.error "No space left on device (os error 28)")]
    let reached := machine.final ⟨tree, .starting⟩ events
    machine.observed (WriteRun.answered "mail" "box/1" [3, 4]) ⟨tree, .starting⟩ events =
        [.ok (some [])] ∧
      reached.phase = .finished (.error (.io "No space left on device (os error 28)")) ∧
      reached.tree (resolve (fullPath "mail" "box/1")) = some (.file []) ∧
      ¬ AllOrNothing (resolve (fullPath "mail" "box/1")) (some [1, 2]) [3, 4]
        (machine.observed (WriteRun.answered "mail" "box/1" [3, 4]) ⟨tree, .starting⟩ events)
        reached := by
  intro machine tree events reached
  have hread : machine.observed (WriteRun.answered "mail" "box/1" [3, 4]) ⟨tree, .starting⟩ events =
      [.ok (some [])] := by decide +kernel
  refine ⟨hread, by decide +kernel, by decide +kernel, fun hlaw => ?_⟩
  have hanswer := hlaw.answers (.ok (some [])) (by rw [hread]; exact List.mem_singleton_self _)
  simp at hanswer

end Scuttled
