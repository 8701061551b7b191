import Scuttled.Storage.Knowledge

/-!
# The storage keeps what it is given

The storage follows a ledger of messages: what was stored is there, where the last change
of flags has put it, until it is deleted.  Each step of a write, of a read, of a move and
of a removal keeps to what is known, and so does every run of them.
-/

namespace Scuttled

open Rust Foundation

section Agreement

variable {format : FlagFormat} {root : String} {directories : Set Location}
  {ledger : MessageLedger} {known : Knowledge} {tree tree' : FileTree} {storage : Storage}

/-! ## A write -/

section Write

variable {writing : Writing}

theorem Storage.Agrees.write (hagrees : storage.Agrees root directories known)
    (hwriting : storage.writing = some writing)
    (hfiles : tree'.files = storage.tree.files ∨ ∃ bytes, tree'.files =
      Function.update storage.tree.files (resolve (fullPath root writing.path)) (some bytes)) :
    known.messages.Describes messageOf tree'.files ∧
      AloneAt messageOf tree'.files (resolve (fullPath root writing.path)) ∧
      ∀ handle held, storage.Keeps root handle held → handle.Holds tree' held := by
  obtain ⟨hplaced, hunsettled, halone, -⟩ := hagrees.writing writing hwriting
  rcases hfiles with hsame | ⟨bytes, hfiles⟩
  · rw [hsame]
    refine ⟨hagrees.describes, halone, fun handle held hkeeps => hkeeps.holds.of_files ?_⟩
    exact fun location _ => congrFun hsame location
  · rw [hfiles]
    refine ⟨hagrees.describes.put hunsettled halone bytes, fun other hkey hsome => ?_,
      fun handle held hkeeps => hkeeps.holds.of_files ?_⟩
    · rw [Function.update_apply] at hsome
      split at hsome
      · assumption
      · exact halone other hkey hsome
    · rintro location rfl
      rw [hfiles, Function.update_of_ne]
      rintro rfl
      exact hkeeps.apart writing hwriting rfl

theorem Storage.Agrees.goOn (hagrees : storage.Agrees root directories known)
    (hwriting : storage.writing = some writing) (htidy : tree'.Tidy directories)
    (hfiles : tree'.files = storage.tree.files ∨ ∃ bytes, tree'.files =
      Function.update storage.tree.files (resolve (fullPath root writing.path)) (some bytes))
    {phase : SavePhase} (hholds : { writing with phase }.Holds root tree') :
    ({ storage with tree := tree' }.goOn writing phase).Agrees root directories known := by
  obtain ⟨hplaced, hunsettled, -, -⟩ := hagrees.writing writing hwriting
  obtain ⟨hdescribes, halone, hkept⟩ := hagrees.write hwriting hfiles
  refine ⟨htidy, hdescribes, ?_, fun id call hcall => ?_⟩
  · rintro _ ⟨⟩
    exact ⟨hplaced, hunsettled, halone, hholds⟩
  · refine (hagrees.retrieving id call hcall).of_keeps fun handle held hkeeps => ?_
    refine ⟨hkept handle held hkeeps, ?_⟩
    rintro _ ⟨⟩
    exact hkeeps.apart writing hwriting

theorem Storage.Agrees.answerStore (hagrees : storage.Agrees root directories known)
    (hwriting : storage.writing = some writing) (htidy : tree'.Tidy directories)
    (hfiles : tree'.files = storage.tree.files) (event : SaveEvent) {result : Result Unit}
    {unreported : Option String}
    (hthrough : result = .ok () → unreported = none →
      tree'.files (resolve (fullPath root writing.path)) = some writing.content) :
    let next := { storage with tree := tree' }.answerStore writing result unreported
    next.1.Agrees root directories (known.after format root (.proceed event) next.2) := by
  intro next
  obtain ⟨hdescribes, -, hkept⟩ := hagrees.write hwriting (.inl hfiles)
  have hretrieving (id : Nat) (call : Retrieve) (hcall : storage.retrieving id = some call) :
      next.1.Serves root directories (known.opened id) call := by
    refine (hagrees.retrieving id call hcall).of_keeps fun handle held hkeeps => ?_
    exact ⟨hkept handle held hkeeps, by rintro _ ⟨⟩⟩
  refine ⟨htidy, ?_, by rintro _ ⟨⟩, hretrieving⟩
  rcases result with failure | done
  · exact hdescribes
  · cases unreported with
    | some error => exact hdescribes
    | none => exact hdescribes.settle (hthrough rfl rfl)

theorem Writing.answers_none (writing : Writing) (event : SaveEvent) :
    writing.Answers event none := by
  rintro path content result unreported ⟨⟩

theorem Storage.answers_error (storage : Storage) (event : SaveEvent) {failure : String}
    (hfailure : event.error = some failure ∨ writing.error = some failure)
    (unreported : Option String) :
    writing.Answers event
      (storage.answerStore writing (.error (.io failure)) unreported).2 := by
  rintro path content result unreported ⟨⟩
  exact ⟨rfl, rfl, .inr ⟨failure, rfl, hfailure⟩⟩

theorem Storage.Agrees.notDue (hagrees : storage.Agrees root directories known)
    {event : SaveEvent} (hnext : storage.proceed root writing event = (storage, none)) :
    let next := storage.proceed root writing event
    next.1.Agrees root directories (known.after format root (.proceed event) next.2) ∧
      writing.Answers event next.2 := by
  intro next
  have hnext : next = (storage, none) := hnext
  rw [hnext]
  exact ⟨hagrees, writing.answers_none event⟩

theorem Storage.Agrees.createDirectories (hagrees : storage.Agrees root directories known)
    (hwriting : storage.writing = some writing) (outcome : Option (Nat × String)) :
    let next := storage.proceed root writing (.createDirectories outcome)
    next.1.Agrees root directories
        (known.after format root (.proceed (.createDirectories outcome)) next.2) ∧
      writing.Answers (.createDirectories outcome) next.2 := by
  intro next
  have hplaced := (hagrees.writing writing hwriting).placed
  cases hphase : writing.phase with
  | creatingDirectories =>
      rcases hagrees.tidy.createDirAll_cases hplaced.above outcome with
        ⟨failure, tree', hmade, htidy, hfiles, hfailed⟩ | ⟨tree', hmade, htidy, hfiles, -⟩
      · have hnext : next =
            { storage with tree := tree' }.answerStore writing (.error (.io failure)) none := by
          simp only [next, Storage.proceed, hphase, hmade]
        rw [hnext]
        refine ⟨hagrees.answerStore hwriting htidy hfiles _ ?_, ?_⟩
        · rintro ⟨⟩
        · exact Storage.answers_error _ (.createDirectories outcome) (.inl hfailed) none
      · have hnext : next = ({ storage with tree := tree' }.goOn writing .creatingFile, none) := by
          simp only [next, Storage.proceed, hphase, hmade]
        rw [hnext]
        exact ⟨hagrees.goOn hwriting htidy (.inl hfiles) trivial, writing.answers_none _⟩
  | _ => exact hagrees.notDue (by simp only [Storage.proceed, hphase])

theorem Storage.Agrees.createFile (hagrees : storage.Agrees root directories known)
    (hwriting : storage.writing = some writing) (error : Option String) :
    let next := storage.proceed root writing (.createFile error)
    next.1.Agrees root directories
        (known.after format root (.proceed (.createFile error)) next.2) ∧
      writing.Answers (.createFile error) next.2 := by
  intro next
  have hplaced := (hagrees.writing writing hwriting).placed
  cases hphase : writing.phase with
  | creatingFile =>
      cases error with
      | some error =>
          have hnext : next = storage.answerStore writing (.error (.io error)) none := by
            simp only [next, Storage.proceed, hphase]
          rw [hnext]
          refine ⟨hagrees.answerStore hwriting hagrees.tidy rfl _ ?_, ?_⟩
          · rintro ⟨⟩
          · exact Storage.answers_error _ (.createFile (some error)) (.inl rfl) none
      | none =>
          have hnext : next = ({ storage with
              tree := storage.tree.put (resolve (fullPath root writing.path)) (.file []) }.goOn
                writing (.writing 0 0 none), none) := by
            simp only [next, Storage.proceed, hphase,
              if_neg (hagrees.tidy.ne_directory hplaced.file)]
          rw [hnext]
          have hfiles := FileTree.files_update storage.tree
            (resolve (fullPath root writing.path)) (some (.file []))
          refine ⟨hagrees.goOn hwriting (hagrees.tidy.update hplaced.file ?_) (.inr ⟨_, hfiles⟩) ?_,
            writing.answers_none _⟩
          · rintro ⟨⟩
          · exact ⟨le_rfl, Nat.zero_le _, FileTree.files_eq_some_iff.mpr (put_target _ _ _)⟩
  | _ => exact hagrees.notDue (by simp only [Storage.proceed, hphase])

/-- Bytes that are handed over are not in the file so far. -/
theorem Storage.Agrees.take (hagrees : storage.Agrees root directories known)
    (hwriting : storage.writing = some writing) (count : Nat) :
    let next := storage.proceed root writing (.take count)
    next.1.Agrees root directories (known.after format root (.proceed (.take count)) next.2) ∧
      writing.Answers (.take count) next.2 := by
  intro next
  have hholds := (hagrees.writing writing hwriting).holds
  cases hphase : writing.phase with
  | writing taken written error =>
      rw [Writing.Holds, hphase] at hholds
      obtain ⟨hwritten, htaken, hfile⟩ := hholds
      cases error with
      | none =>
          by_cases hdue : 0 < count ∧ taken < writing.content.length ∧ written = taken
          · have hnext : next = (storage.goOn writing
                (.writing (min (taken + count) writing.content.length) written none), none) := by
              simp only [next, Storage.proceed, hphase, if_pos hdue]
            rw [hnext]
            refine ⟨hagrees.goOn hwriting hagrees.tidy (.inl rfl) ⟨?_, Nat.min_le_right _ _, hfile⟩,
              writing.answers_none _⟩
            omega
          · exact hagrees.notDue (by simp only [Storage.proceed, hphase, if_neg hdue])
      | some error =>
          by_cases hdue : taken < writing.content.length
          · have hnext : next = storage.answerStore writing (.error (.io error)) none := by
              simp only [next, Storage.proceed, hphase, if_pos hdue]
            rw [hnext]
            refine ⟨hagrees.answerStore hwriting hagrees.tidy rfl _ ?_, ?_⟩
            · rintro ⟨⟩
            · refine Storage.answers_error _ (.take count) (.inr ?_) none
              rw [Writing.error, hphase]
          · exact hagrees.notDue (by simp only [Storage.proceed, hphase, if_neg hdue])
  | _ => exact hagrees.notDue (by simp only [Storage.proceed, hphase])

theorem Storage.Agrees.progress (hagrees : storage.Agrees root directories known)
    (hwriting : storage.writing = some writing) (count : Nat) :
    let next := storage.proceed root writing (.progress count)
    next.1.Agrees root directories (known.after format root (.proceed (.progress count)) next.2) ∧
      writing.Answers (.progress count) next.2 := by
  intro next
  obtain ⟨hplaced, -, -, hholds⟩ := hagrees.writing writing hwriting
  cases hphase : writing.phase with
  | writing taken written error =>
      cases error with
      | none =>
          rw [Writing.Holds, hphase] at hholds
          have hnext : next = ({ storage with
              tree := storage.tree.put (resolve (fullPath root writing.path))
                (.file (writing.content.take (min (written + count) taken))) }.goOn writing
                  (.writing taken (min (written + count) taken) none), none) := by
            simp only [next, Storage.proceed, hphase]
          rw [hnext]
          have hfiles := FileTree.files_update storage.tree
            (resolve (fullPath root writing.path))
            (some (.file (writing.content.take (min (written + count) taken))))
          refine ⟨hagrees.goOn hwriting (hagrees.tidy.update hplaced.file ?_) (.inr ⟨_, hfiles⟩) ?_,
            writing.answers_none _⟩
          · rintro ⟨⟩
          · exact ⟨Nat.min_le_right _ _, hholds.2.1,
              FileTree.files_eq_some_iff.mpr (put_target _ _ _)⟩
      | some error => exact hagrees.notDue (by simp only [Storage.proceed, hphase])
  | _ => exact hagrees.notDue (by simp only [Storage.proceed, hphase])

theorem Storage.Agrees.fail (hagrees : storage.Agrees root directories known)
    (hwriting : storage.writing = some writing) (failure : String) :
    let next := storage.proceed root writing (.fail failure)
    next.1.Agrees root directories (known.after format root (.proceed (.fail failure)) next.2) ∧
      writing.Answers (.fail failure) next.2 := by
  intro next
  have hholds := (hagrees.writing writing hwriting).holds
  cases hphase : writing.phase with
  | writing taken written error =>
      rw [Writing.Holds, hphase] at hholds
      cases error with
      | none =>
          by_cases hdue : written < taken
          · have hnext : next =
                (storage.goOn writing (.writing taken written (some failure)), none) := by
              simp only [next, Storage.proceed, hphase, if_pos hdue]
            rw [hnext]
            exact ⟨hagrees.goOn hwriting hagrees.tidy (.inl rfl) hholds, writing.answers_none _⟩
          · exact hagrees.notDue (by simp only [Storage.proceed, hphase, if_neg hdue])
      | some error => exact hagrees.notDue (by simp only [Storage.proceed, hphase])
  | _ => exact hagrees.notDue (by simp only [Storage.proceed, hphase])

/-- A write is through when all of it was handed over; then the file holds it, unless the
background has failed. -/
theorem Storage.Agrees.sync (hagrees : storage.Agrees root directories known)
    (hwriting : storage.writing = some writing) (failure : Option String) :
    let next := storage.proceed root writing (.sync failure)
    next.1.Agrees root directories (known.after format root (.proceed (.sync failure)) next.2) ∧
      writing.Answers (.sync failure) next.2 := by
  intro next
  have hholds := (hagrees.writing writing hwriting).holds
  cases hphase : writing.phase with
  | writing taken written error =>
      rw [Writing.Holds, hphase] at hholds
      obtain ⟨hwritten, htaken, hfile⟩ := hholds
      by_cases hdue : taken = writing.content.length ∧ (error = none → written = taken)
      · cases failure with
        | some failure =>
            have hnext : next = storage.answerStore writing (.error (.io failure)) error := by
              simp only [next, Storage.proceed, hphase, if_pos hdue]
            rw [hnext]
            refine ⟨hagrees.answerStore hwriting hagrees.tidy rfl _ ?_, ?_⟩
            · rintro ⟨⟩
            · exact Storage.answers_error _ (.sync (some failure)) (.inl rfl) error
        | none =>
            have hnext : next = storage.answerStore writing (.ok ()) error := by
              simp only [next, Storage.proceed, hphase, if_pos hdue]
            rw [hnext]
            refine ⟨hagrees.answerStore hwriting hagrees.tidy rfl _ fun _ hnone => ?_, ?_⟩
            · rw [hfile, hdue.2 hnone, hdue.1, List.take_length]
            · rintro path content result unreported ⟨⟩
              exact ⟨rfl, rfl, .inl ⟨rfl, by rw [Writing.error, hphase]⟩⟩
      · exact hagrees.notDue (by simp only [Storage.proceed, hphase, if_neg hdue])
  | _ => exact hagrees.notDue (by simp only [Storage.proceed, hphase])

theorem Storage.Agrees.proceed (hagrees : storage.Agrees root directories known)
    (hwriting : storage.writing = some writing) (event : SaveEvent) :
    let next := storage.proceed root writing event
    next.1.Agrees root directories (known.after format root (.proceed event) next.2) ∧
      writing.Answers event next.2 := by
  cases event with
  | createDirectories outcome => exact hagrees.createDirectories hwriting outcome
  | createFile error => exact hagrees.createFile hwriting error
  | take count => exact hagrees.take hwriting count
  | progress count => exact hagrees.progress hwriting count
  | fail failure => exact hagrees.fail hwriting failure
  | sync failure => exact hagrees.sync hwriting failure

end Write

/-! ## A move and a removal -/

/-- What a move does to the files. -/
theorem moveFile_of_tidy {path target : String} (htidy : tree.Tidy directories)
    (hsource : Placed root directories path) (htarget : Placed root directories target)
    (outcome : MoveOutcome) :
    (∃ failure tree', moveFile root path target outcome tree = (.error failure, tree') ∧
      tree'.Tidy directories ∧ tree'.files = tree.files ∧
        (outcome.directories = none → outcome.rename = none →
          tree.files (resolve (fullPath root path)) = none ∧
            failure = .notFound ("Source file not found: " ++ path))) ∨
    ∃ content tree', moveFile root path target outcome tree = (.ok (), tree') ∧
      tree'.Tidy directories ∧
        tree.files (resolve (fullPath root path)) = some content ∧
        tree'.files = Function.update
          (Function.update tree.files (resolve (fullPath root path)) none)
          (resolve (fullPath root target)) (some content) ∧
        outcome.directories = none ∧ outcome.rename = none := by
  unfold moveFile FileTree.tryExists
  rw [FileTree.files_of_ne_directory (htidy.ne_directory hsource.file)]
  cases hfile : tree.files (resolve (fullPath root path)) with
  | none => exact .inl ⟨_, _, rfl, htidy, rfl, fun _ _ => ⟨rfl, rfl⟩⟩
  | some content =>
      simp only [Option.map_some, Option.isSome_some, Bool.not_true, Bool.false_eq_true, if_false]
      rcases htidy.createDirAll_cases htarget.above outcome.directories with
        ⟨failure, made, hmade, htidy', hfiles, hfailed⟩ | ⟨made, hmade, htidy', hfiles, hdirectories⟩
      · rw [hmade]
        refine .inl ⟨_, _, rfl, htidy', hfiles, fun hdirectories => ?_⟩
        rw [hdirectories] at hfailed
        cases hfailed
      · rw [hmade]
        have hthere : made (resolve (fullPath root path)) = some (.file content) := by
          rw [← FileTree.files_eq_some_iff, hfiles, hfile]
        rcases tryRename_cases hthere (resolve (fullPath root target)) outcome.rename with
          ⟨failure, hrename, hwhy⟩ | ⟨hrename, hnone⟩
        · refine .inl ⟨failure, _, hrename, htidy', hfiles, fun _ hnone => ?_⟩
          rcases hwhy with hsome | hdirectory
          · exact absurd hnone hsome
          · exact absurd hdirectory (htidy'.ne_directory htarget.file)
        · refine .inr ⟨content, _, hrename, ?_, rfl, ?_, hdirectories, hnone⟩
          · unfold FileTree.rename
            rw [hthere]
            exact (htidy'.update hsource.file (by simp)).update htarget.file (by simp)
          · rw [FileTree.files_rename hthere, hfiles]

theorem remove_of_tidy {path : String} (htidy : tree.Tidy directories)
    (hplaced : Placed root directories path) (outcome : RemoveOutcome) :
    (∃ failed, FilesystemStore.remove root path outcome tree = (.error failed, tree) ∧
      (outcome.check = none → outcome.remove = none →
        tree.files (resolve (fullPath root path)) = none ∧
          failed = .notFound ("File not found: " ++ path))) ∨
    ∃ tree', FilesystemStore.remove root path outcome tree = (.ok (), tree') ∧
      tree'.Tidy directories ∧ (tree.files (resolve (fullPath root path))).isSome ∧
      tree'.files = Function.update tree.files (resolve (fullPath root path)) none ∧
      outcome.check = none ∧ outcome.remove = none := by
  unfold FilesystemStore.remove FileTree.tryExists FileTree.tryRemove
  rw [FileTree.files_of_ne_directory (htidy.ne_directory hplaced.file)]
  cases hcheck : outcome.check with
  | some error => exact .inl ⟨_, rfl, by rintro ⟨⟩⟩
  | none =>
      cases hfile : tree.files (resolve (fullPath root path)) with
      | none => exact .inl ⟨_, rfl, fun _ _ => ⟨rfl, rfl⟩⟩
      | some content =>
          simp only [Option.map_some, Option.isSome_some, Option.isSome_none, Bool.not_true,
            Bool.or_self, Bool.false_eq_true, if_false]
          cases outcome.remove with
          | some failed => exact .inl ⟨_, rfl, by rintro _ ⟨⟩⟩
          | none =>
              refine .inr ⟨_, rfl, htidy.update hplaced.file ?_, trivial, ?_, trivial, rfl⟩
              · rintro ⟨⟩
              · exact FileTree.files_update _ _ _

theorem Storage.Agrees.relink (hagrees : storage.Agrees root directories known)
    (hidle : storage.writing = none) (htidy : tree'.Tidy directories)
    (hdescribes : ledger.Describes messageOf tree'.files) {relink : FileHandle → FileHandle}
    (hholds : ∀ handle held, FileHandle.Holds storage.tree held handle →
      (relink handle).Holds tree' held) :
    { storage.relink relink with tree := tree' }.Agrees root directories
      { known with messages := ledger } := by
  refine ⟨htidy, hdescribes, ?_, fun id call hcall => ?_⟩
  · rintro writing hwriting
    cases hidle.symm.trans hwriting
  · obtain ⟨call, hbefore, rfl⟩ := Option.map_eq_some_iff.mp hcall
    refine (hagrees.retrieving id call hbefore).relink fun handle held hkeeps => ?_
    refine ⟨hholds handle held hkeeps.holds, fun writing hwriting => ?_⟩
    cases hidle.symm.trans hwriting

theorem Storage.Agrees.of_files (hagrees : storage.Agrees root directories known)
    (hidle : storage.writing = none) (htidy : tree'.Tidy directories)
    (hfiles : tree'.files = storage.tree.files) :
    { storage with tree := tree' }.Agrees root directories known := by
  refine ⟨htidy, hfiles ▸ hagrees.describes, ?_, fun id call hcall => ?_⟩
  · rintro writing hwriting
    cases hidle.symm.trans hwriting
  · refine (hagrees.retrieving id call hcall).of_keeps fun handle held hkeeps => ?_
    exact ⟨hkeeps.holds.of_files fun location _ => congrFun hfiles location, hkeeps.apart⟩

theorem Serving.refusal_eq_none_iff {serving : Serving} :
    serving.refusal = none ↔ serving = .served := by
  cases serving <;> simp [Serving.refusal]

theorem Serving.ne_served_of_refusal {serving : Serving} {failure : Error}
    (hrefusal : serving.refusal = some failure) : serving ≠ .served := by
  rintro rfl
  cases hrefusal

theorem Storage.Agrees.updateFlags (hagrees : storage.Agrees root directories known)
    {path : String} {flags : List MessageFlag} {check : Option String} {outcome : MoveOutcome}
    (hfits : StorageEvent.Fits format root directories known
      (.updateFlags path flags check outcome)) :
    let next := Storage.step format root storage (.updateFlags path flags check outcome)
    next.1.Agrees root directories
        (known.after format root (.updateFlags path flags check outcome) next.2) ∧
      known.Answers root storage (.updateFlags path flags check outcome) next.2 := by
  intro next
  obtain ⟨hplaced, filename, target, hname, hsingle, htarget, hplaced'⟩ := hfits
  have hrefused (failure : Error) (hnext : next = (storage, some (.updated (.error failure))))
      (hnot : ¬ (storage.writing.isSome ∧ outcome.serving = .served))
      (hgoes : ¬ outcome.GoesThrough check) :
      next.1.Agrees root directories
          (known.after format root (.updateFlags path flags check outcome) next.2) ∧
        known.Answers root storage (.updateFlags path flags check outcome) next.2 := by
    rw [hnext, Knowledge.Answers, if_neg hnot]
    exact ⟨hagrees, _, rfl, fun _ => ⟨failure, rfl⟩, fun hthrough => absurd hthrough hgoes⟩
  cases hrefusal : outcome.serving.refusal with
  | some failure =>
      have hserving := Serving.ne_served_of_refusal hrefusal
      refine hrefused failure ?_ (fun hwaits => hserving hwaits.2) fun hgoes => hserving hgoes.serving
      simp only [next, Storage.step, htarget, hrefusal]
  | none =>
      have hserving := Serving.refusal_eq_none_iff.mp hrefusal
      cases hwriting : storage.writing with
      | some writing =>
          have hnext : next = (storage, none) := by
            simp only [next, Storage.step, htarget, hrefusal, hwriting, Option.isSome_some, if_true]
          rw [hnext, Knowledge.Answers, if_pos ⟨by rw [hwriting]; rfl, hserving⟩]
          exact ⟨hagrees, rfl⟩
      | none =>
          have hfree : storage.writing.isSome = false := by rw [hwriting]; rfl
          have hidle : ¬ (storage.writing.isSome ∧ outcome.serving = .served) := by simp [hfree]
          cases check with
          | some error =>
              refine hrefused (.notFound ("Source file not found: " ++ path)) ?_ hidle
                fun hgoes => nomatch hgoes.check
              simp only [next, Storage.step, htarget, hrefusal, hfree, Option.isSome_some,
                Bool.false_eq_true, if_false, if_true]
          | none =>
              rcases moveFile_of_tidy hagrees.tidy hplaced hplaced' outcome with
                ⟨failure, tree', hmove, htidy, hfiles, hwhy⟩ |
                ⟨content, tree', hmove, htidy, hsource, hfiles, hdirectories, hrename⟩
              · have hnext : next =
                    ({ storage with tree := tree' }, some (.updated (.error failure))) := by
                  simp only [next, Storage.step, htarget, hrefusal, hfree, Option.isSome_none,
                    Bool.false_eq_true, if_false, hmove]
                rw [hnext, Knowledge.Answers, if_neg hidle]
                refine ⟨hagrees.of_files hwriting htidy hfiles, _, rfl, fun _ => ⟨failure, rfl⟩,
                  fun hgoes found hfinds => ?_⟩
                obtain ⟨hnone, rfl⟩ := hwhy hgoes.directories hgoes.rename
                rw [← hagrees.finds_eq hfinds, hnone]
                rfl
              · have hnext : next = ({ storage.relink (.renamed (resolve (fullPath root path))
                    (resolve (fullPath root target)) storage.tree) with tree := tree' },
                      some (.updated (.ok ()))) := by
                  simp only [next, Storage.step, htarget, hrefusal, hfree, Option.isSome_none,
                    Bool.false_eq_true, if_false, hmove]
                rw [hnext, Knowledge.Answers, if_neg hidle]
                have hmessage : messageOf (resolve (fullPath root target)) =
                    messageOf (resolve (fullPath root path)) :=
                  messageAt_flagPath format root hname hsingle htarget
                have hmoved := hagrees.describes.move hsource hmessage
                rw [← hfiles] at hmoved
                refine ⟨?_, _, rfl, fun hfails => ?_, fun _ found hfinds => ?_⟩
                · simp only [Knowledge.after, MessageLedger.after, htarget]
                  exact hagrees.relink hwriting htidy hmoved fun handle held hholds =>
                    hholds.renamed hsource hfiles
                · exact absurd ⟨hserving, rfl, hdirectories, hrename⟩ hfails
                · rw [← hagrees.finds_eq hfinds, hsource]
                  rfl

theorem Storage.Agrees.delete (hagrees : storage.Agrees root directories known) {path : String}
    {outcome : RemoveOutcome} (hplaced : Placed root directories path) :
    let next := Storage.step format root storage (.delete path outcome)
    next.1.Agrees root directories (known.after format root (.delete path outcome) next.2) ∧
      known.Answers root storage (.delete path outcome) next.2 := by
  intro next
  cases hrefusal : outcome.serving.refusal with
  | some failure =>
      have hserving := Serving.ne_served_of_refusal hrefusal
      have hnext : next = (storage, some (.deleted (.error failure))) := by
        simp only [next, Storage.step, hrefusal]
      rw [hnext, Knowledge.Answers, if_neg fun hwaits => hserving hwaits.2]
      exact ⟨hagrees, _, rfl, fun _ => ⟨failure, rfl⟩, fun hgoes => absurd hgoes.serving hserving⟩
  | none =>
      have hserving := Serving.refusal_eq_none_iff.mp hrefusal
      cases hwriting : storage.writing with
      | some writing =>
          have hnext : next = (storage, none) := by
            simp only [next, Storage.step, hrefusal, hwriting, Option.isSome_some, if_true]
          rw [hnext, Knowledge.Answers, if_pos ⟨by rw [hwriting]; rfl, hserving⟩]
          exact ⟨hagrees, rfl⟩
      | none =>
          have hfree : storage.writing.isSome = false := by rw [hwriting]; rfl
          have hidle : ¬ (storage.writing.isSome ∧ outcome.serving = .served) := by simp [hfree]
          rcases remove_of_tidy hagrees.tidy hplaced outcome with
            ⟨failed, hremove, hwhy⟩ | ⟨tree', hremove, htidy, hsome, hfiles, hcheck, hnone⟩
          · have hnext : next = (storage, some (.deleted (.error failed))) := by
              simp only [next, Storage.step, hrefusal, hfree, Bool.false_eq_true, if_false,
                hremove]
            rw [hnext, Knowledge.Answers, if_neg hidle]
            refine ⟨hagrees, _, rfl, fun _ => ⟨failed, rfl⟩, fun hgoes found hfinds => ?_⟩
            obtain ⟨hnone, rfl⟩ := hwhy hgoes.check hgoes.remove
            rw [← hagrees.finds_eq hfinds, hnone]
            rfl
          · have hnext : next = ({ storage.relink (.removed (resolve (fullPath root path))
                storage.tree) with tree := tree' }, some (.deleted (.ok ()))) := by
              simp only [next, Storage.step, hrefusal, hfree, Bool.false_eq_true, if_false,
                hremove]
            rw [hnext, Knowledge.Answers, if_neg hidle]
            have herased := hagrees.describes.erase hsome
            rw [← hfiles] at herased
            refine ⟨?_, _, rfl, fun hfails => ?_, fun _ found hfinds => ?_⟩
            · exact hagrees.relink hwriting htidy herased fun handle held hholds =>
                hholds.removed hfiles
            · exact absurd ⟨hserving, hcheck, hnone⟩ hfails
            · rw [← hagrees.finds_eq hfinds, if_pos hsome]

theorem Storage.Agrees.store (hagrees : storage.Agrees root directories known) {path : String}
    {content : Bytes} {serving : Serving}
    (hfits : StorageEvent.Fits format root directories known (.store path content serving)) :
    let next := Storage.step format root storage (.store path content serving)
    next.1.Agrees root directories (known.after format root (.store path content serving) next.2) ∧
      known.Answers root storage (.store path content serving) next.2 := by
  intro next
  obtain ⟨hplaced, habsent⟩ := hfits
  cases hrefusal : serving.refusal with
  | some failure =>
      have hnext : next = (storage, some (.stored path content (.error failure) none)) := by
        simp only [next, Storage.step, hrefusal]
      rw [hnext]
      exact ⟨hagrees, by rw [Knowledge.Answers, hrefusal]⟩
  | none =>
      cases hwriting : storage.writing with
      | some writing =>
          have hnext : next = (storage, none) := by
            simp only [next, Storage.step, hrefusal, hwriting]
          rw [hnext]
          refine ⟨hagrees, ?_⟩
          simp only [Knowledge.Answers, hrefusal, hwriting, Option.isSome_some, if_true]
      | none =>
          have hnext : next = ({ storage with
              writing := some ⟨path, content, .creatingDirectories⟩ }, some .taken) := by
            simp only [next, Storage.step, hrefusal, hwriting]
          rw [hnext]
          have hnofile := hagrees.describes.absent _ habsent
          refine ⟨⟨hagrees.tidy, hagrees.describes.unsettle _, ?_, fun id call hcall => ?_⟩, ?_⟩
          · rintro _ ⟨⟩
            exact ⟨hplaced, Function.update_self .., hagrees.describes.aloneAt_of_absent habsent,
              trivial⟩
          · refine (hagrees.retrieving id call hcall).of_keeps fun handle held hkeeps => ?_
            refine ⟨hkeeps.holds, ?_⟩
            -- where the new message goes there is no file that could be open
            rintro _ ⟨⟩ rfl
            cases hnofile.symm.trans hkeeps.holds
          · simp only [Knowledge.Answers, hrefusal, hwriting, Option.isSome_none,
              Bool.false_eq_true, if_false]

/-! ## A read -/

section Read

variable {id : Nat} {call : Retrieve}

theorem Storage.Serves.of_phase {opened : Option Bytes}
    (hserves : storage.Serves root directories opened call) {phase : RetrievePhase}
    (hphase : ∀ handle content, phase ≠ .reading handle content) (opened' : Option Bytes) :
    storage.Serves root directories opened' { call with phase } where
  placed := hserves.placed
  reading handle content _ hreading _ := absurd hreading (hphase handle content)

theorem Storage.Agrees.resume (hagrees : storage.Agrees root directories known)
    {opened : Nat → Option Bytes} (hother : ∀ other, other ≠ id → opened other = known.opened other)
    (hserves : storage.Serves root directories (opened id) call) :
    { storage with retrieving := Function.update storage.retrieving id (some call) }.Agrees root
      directories { known with opened } := by
  refine ⟨hagrees.tidy, hagrees.describes, hagrees.writing, fun other call' hcall => ?_⟩
  dsimp only at hcall ⊢
  rw [Function.update_apply] at hcall
  split at hcall
  · rename_i hsame
    subst hsame
    cases hcall
    exact hserves.of_keeps fun _ _ hkeeps => ⟨hkeeps.holds, hkeeps.apart⟩
  · rename_i hdiffers
    rw [hother other hdiffers]
    exact (hagrees.retrieving other call' hcall).of_keeps fun _ _ hkeeps =>
      ⟨hkeeps.holds, hkeeps.apart⟩

theorem Storage.Agrees.answer (hagrees : storage.Agrees root directories known)
    (result : Result (Option Bytes)) :
    (storage.answer id result).1.Agrees root directories known := by
  refine ⟨hagrees.tidy, hagrees.describes, hagrees.writing, fun other call' hcall => ?_⟩
  unfold Storage.answer at hcall
  dsimp only at hcall
  rw [Function.update_apply] at hcall
  split at hcall
  · cases hcall
  · exact (hagrees.retrieving other call' hcall).of_keeps fun _ _ hkeeps =>
      ⟨hkeeps.holds, hkeeps.apart⟩

theorem Knowledge.after_advance (outcome : Except String Nat) (output : Option StorageOutput)
    (hopened : ∀ id path, output ≠ some (.opened id path)) :
    known.after format root (.advance id outcome) output = known := by
  unfold Knowledge.after
  split
  · exact absurd rfl (hopened _ _)
  · rfl

theorem Storage.Agrees.answers (hagrees : storage.Agrees root directories known)
    (outcome : Except String Nat) (result : Result (Option Bytes)) :
    (storage.answer id result).1.Agrees root directories
      (known.after format root (.advance id outcome) (storage.answer id result).2) := by
  rw [Knowledge.after_advance _ _ (by rintro _ _ ⟨⟩)]
  exact hagrees.answer result

theorem Storage.Agrees.goesOn (hagrees : storage.Agrees root directories known)
    (outcome : Except String Nat) {phase : RetrievePhase}
    (hserves : storage.Serves root directories (known.opened id) { call with phase }) :
    (storage.resume id call phase).Agrees root directories
      (known.after format root (.advance id outcome) none) := by
  rw [Knowledge.after_advance _ _ (by rintro _ _ ⟨⟩)]
  exact hagrees.resume (fun _ _ => rfl) hserves

theorem Storage.Agrees.failRead (hagrees : storage.Agrees root directories known)
    (call : Retrieve) (failure : String) :
    let next := storage.advance root id call (.error failure)
    next.1.Agrees root directories (known.after format root (.advance id (.error failure)) next.2) ∧
      known.Reads root id call (.error failure) next.2 := by
  intro next
  cases hphase : call.phase with
  | checking =>
      have hnext : next = storage.answer id (.ok none) := by
        simp only [next, Storage.advance, hphase]
      rw [hnext]
      refine ⟨hagrees.answers _ _, ?_⟩
      simp only [Knowledge.Reads, hphase, Storage.answer]
  | opening =>
      have hnext : next = storage.answer id (.error (.io failure)) := by
        simp only [next, Storage.advance, hphase]
      rw [hnext]
      refine ⟨hagrees.answers _ _, ?_⟩
      simp only [Knowledge.Reads, hphase, Storage.answer]
  | reading handle content =>
      have hnext : next = storage.answer id (.error (.io failure)) := by
        simp only [next, Storage.advance, hphase]
      rw [hnext]
      refine ⟨hagrees.answers _ _, ?_⟩
      simp only [Knowledge.Reads, hphase, Storage.answer]

theorem Storage.Agrees.check (hagrees : storage.Agrees root directories known)
    (hserves : storage.Serves root directories (known.opened id) call)
    (hphase : call.phase = .checking) (count : Nat) :
    let next := storage.advance root id call (.ok count)
    next.1.Agrees root directories (known.after format root (.advance id (.ok count)) next.2) ∧
      known.Reads root id call (.ok count) next.2 := by
  intro next
  have hexists := hagrees.tryExists_eq hserves.placed
  cases hfile : storage.tree.files (resolve (fullPath root call.path)) with
  | none =>
      have hnext : next = storage.answer id (.ok none) := by
        simp only [next, Storage.advance, hphase, hexists, hfile, Option.isSome_none,
          Bool.false_eq_true, if_false]
      rw [hnext]
      refine ⟨hagrees.answers _ _, ?_⟩
      simp only [Knowledge.Reads, hphase]
      intro found hfinds
      rw [← hagrees.finds_eq hfinds, hfile]
      rfl
  | some content =>
      have hnext : next = (storage.resume id call .opening, none) := by
        simp only [next, Storage.advance, hphase, hexists, hfile, Option.isSome_some, if_true]
      rw [hnext]
      refine ⟨hagrees.goesOn _ (hserves.of_phase (by rintro _ _ ⟨⟩) _), ?_⟩
      simp only [Knowledge.Reads, hphase]
      intro found hfinds
      rw [← hagrees.finds_eq hfinds, hfile]
      rfl

/-- `File::open` opens what is known to be there, and what that holds is noted. -/
theorem Storage.Agrees.openFile (hagrees : storage.Agrees root directories known)
    (hserves : storage.Serves root directories (known.opened id) call)
    (hphase : call.phase = .opening) (count : Nat) :
    let next := storage.advance root id call (.ok count)
    next.1.Agrees root directories (known.after format root (.advance id (.ok count)) next.2) ∧
      known.Reads root id call (.ok count) next.2 := by
  intro next
  have hexists := hagrees.tryExists_eq hserves.placed
  cases hfile : storage.tree.files (resolve (fullPath root call.path)) with
  | none =>
      have hnext : next = storage.answer id
          (.error (.io "No such file or directory (os error 2)")) := by
        simp only [next, Storage.advance, hphase, hexists, hfile, Option.isSome_none,
          Bool.false_eq_true, if_false]
      rw [hnext]
      refine ⟨hagrees.answers _ _, ?_⟩
      simp only [Knowledge.Reads, hphase]
      intro found hfinds
      rw [← hagrees.finds_eq hfinds, hfile]
      rfl
  | some content =>
      have hnext : next = (storage.resume id call
          (.reading (.linked (resolve (fullPath root call.path))) []),
            some (.opened id call.path)) := by
        simp only [next, Storage.advance, hphase, hexists, hfile, Option.isSome_some, if_true]
      rw [hnext]
      refine ⟨hagrees.resume (fun other hother => Function.update_of_ne hother _ _)
        ⟨hserves.placed, ?_⟩, ?_⟩
      · rintro _ _ held ⟨⟩ hopened
        have hjoin : (known.finds root call.path).join = some held :=
          (Function.update_self id _ known.opened).symm.trans hopened
        have hfinds : known.finds root call.path = some (some held) := Option.join_eq_some_iff.mp hjoin
        refine ⟨⟨hagrees.finds_eq hfinds, fun writing hwriting hsame => ?_⟩, List.nil_prefix⟩
        -- nothing is known of the message that is being written
        have hunsettled := (hagrees.writing writing hwriting).unsettled
        rw [FileHandle.linked.injEq] at hsame
        rw [Knowledge.finds, Ledger.finds, hsame, ← messageAt, hunsettled] at hfinds
        cases hfinds
      · simp only [Knowledge.Reads, hphase]
        intro found hfinds
        rw [← hagrees.finds_eq hfinds, hfile]
        rfl

/-- `read_to_end` yields what the file held when it was opened. -/
theorem Storage.Agrees.readOn (hagrees : storage.Agrees root directories known)
    (hserves : storage.Serves root directories (known.opened id) call) {handle : FileHandle}
    {content : Bytes} (hphase : call.phase = .reading handle content) (count : Nat) :
    let next := storage.advance root id call (.ok count)
    next.1.Agrees root directories (known.after format root (.advance id (.ok count)) next.2) ∧
      known.Reads root id call (.ok count) next.2 := by
  intro next
  have hkept (held : Bytes) (hopened : known.opened id = some held) :
      storage.Keeps root handle held ∧ content <+: held :=
    hserves.reading handle content held hphase hopened
  cases hread : handle.read storage.tree with
  | error failure =>
      have hnext : next = storage.answer id (.error failure) := by
        simp only [next, Storage.advance, hphase, hread]
      rw [hnext]
      refine ⟨hagrees.answers _ _, ?_⟩
      simp only [Knowledge.Reads, hphase]
      intro held hopened
      cases (hkept held hopened).1.holds.read_eq.symm.trans hread
  | ok held =>
      have hheld (held' : Bytes) (hopened : known.opened id = some held') : held' = held :=
        Except.ok.inj ((hkept held' hopened).1.holds.read_eq.symm.trans hread)
      by_cases hleft : held.drop content.length = []
      · have hnext : next = storage.answer id (.ok (some content)) := by
          simp only [next, Storage.advance, hphase, hread, if_pos hleft]
        rw [hnext]
        refine ⟨hagrees.answers _ _, ?_⟩
        simp only [Knowledge.Reads, hphase]
        intro held' hopened
        obtain rfl := hheld held' hopened
        have hall : content = held' :=
          (hkept held' hopened).2.eq_of_length_le (List.drop_eq_nil_iff.mp hleft)
        rw [if_pos hall, hall]
        rfl
      · have hnext : next = (storage.resume id call
            (.reading handle (content ++ (held.drop content.length).take count)), none) := by
          simp only [next, Storage.advance, hphase, hread, if_neg hleft]
        rw [hnext]
        refine ⟨hagrees.goesOn _ ⟨hserves.placed, ?_⟩, ?_⟩
        · rintro _ _ held' ⟨⟩ hopened
          obtain rfl := hheld held' hopened
          obtain ⟨hkeeps, rest, rfl⟩ := hkept held' hopened
          refine ⟨hkeeps, ?_⟩
          rw [List.drop_left, List.prefix_append_right_inj]
          exact List.take_prefix _ _
        · simp only [Knowledge.Reads, hphase]
          intro held' hopened
          obtain rfl := hheld held' hopened
          rw [if_neg]
          rintro rfl
          exact hleft List.drop_length

theorem Storage.Agrees.advance (hagrees : storage.Agrees root directories known)
    (hcall : storage.retrieving id = some call) (outcome : Except String Nat) :
    let next := storage.advance root id call outcome
    next.1.Agrees root directories (known.after format root (.advance id outcome) next.2) ∧
      known.Reads root id call outcome next.2 := by
  have hserves := hagrees.retrieving id call hcall
  cases outcome with
  | error failure => exact hagrees.failRead call failure
  | ok count =>
      cases hphase : call.phase with
      | checking => exact hagrees.check hserves hphase count
      | opening => exact hagrees.openFile hserves hphase count
      | reading handle content => exact hagrees.readOn hserves hphase count

end Read

/-! ## Runs -/

/-- One event: the ledger stays true, and the answer is what it allows. -/
theorem Storage.Agrees.step (hagrees : storage.Agrees root directories known)
    {event : StorageEvent} (hfits : event.Fits format root directories known) :
    let next := Storage.step format root storage event
    next.1.Agrees root directories (known.after format root event next.2) ∧
      known.Answers root storage event next.2 := by
  cases event with
  | store path content serving => exact hagrees.store hfits
  | proceed event =>
      intro next
      cases hwriting : storage.writing with
      | none =>
          have hnext : next = (storage, none) := by simp only [next, Storage.step, hwriting]
          rw [hnext]
          refine ⟨hagrees, fun writing hsome => ?_⟩
          cases hwriting.symm.trans hsome
      | some writing =>
          have hnext : next = storage.proceed root writing event := by
            simp only [next, Storage.step, hwriting]
          rw [hnext]
          obtain ⟨hagrees', hanswers⟩ := hagrees.proceed hwriting event
          refine ⟨hagrees', fun other hother => ?_⟩
          obtain rfl := Option.some.inj (hwriting.symm.trans hother)
          exact hanswers
  | updateFlags path flags check outcome => exact hagrees.updateFlags hfits
  | delete path outcome => exact hagrees.delete hfits
  | retrieve path =>
      have hserves : storage.Serves root directories (known.opened storage.nextCall)
          ⟨path, .checking⟩ := ⟨hfits, by rintro _ _ _ ⟨⟩⟩
      have hagrees' := hagrees.resume (fun _ _ => rfl) hserves
      refine ⟨⟨hagrees'.tidy, hagrees'.describes, hagrees'.writing, fun id call hcall => ?_⟩, rfl⟩
      exact (hagrees'.retrieving id call hcall).of_keeps fun _ _ hkeeps =>
        ⟨hkeeps.holds, hkeeps.apart⟩
  | advance id outcome =>
      intro next
      cases hcall : storage.retrieving id with
      | none =>
          have hnext : next = (storage, none) := by simp only [next, Storage.step, hcall]
          rw [hnext]
          refine ⟨hagrees, fun call hsome => ?_⟩
          cases hcall.symm.trans hsome
      | some call =>
          have hnext : next = storage.advance root id call outcome := by
            simp only [next, Storage.step, hcall]
          rw [hnext]
          obtain ⟨hagrees', hreads⟩ := hagrees.advance hcall outcome
          refine ⟨hagrees', fun other hother => ?_⟩
          obtain rfl := Option.some.inj (hcall.symm.trans hother)
          exact hreads
  | doesExist path error =>
      refine ⟨hagrees, fun found hfinds => ?_⟩
      dsimp only [Storage.step]
      rw [hagrees.tryExists_eq hfits, hagrees.finds_eq hfinds]

theorem Storage.Agrees.final (hagrees : storage.Agrees root directories known)
    {events : List StorageEvent}
    (hfits : (Storage.tracked format root).Meets
      (fun current event => event.Fits format root directories current.2) (storage, known)
      events) :
    let reached := (Storage.tracked format root).final (storage, known) events
    reached.1.Agrees root directories reached.2 := by
  induction events generalizing storage known with
  | nil => exact hagrees
  | cons event events ih => exact ih (hagrees.step hfits.1).1 hfits.2

end Agreement

/-- A message is stored, and marked as seen and deleted while it is read. -/
def oneMessage : List StorageEvent :=
  [.store "ann/box/new/m1" [1, 2] .served, .proceed (.createDirectories none),
    .proceed (.createFile none), .retrieve "ann/box/new/m1", .proceed (.take 2),
    .proceed (.progress 1), .proceed (.progress 1), .proceed (.sync none), .advance 0 (.ok 0),
    .advance 0 (.ok 0), .advance 0 (.ok 1),
    .updateFlags "ann/box/new/m1" [.seen] none ⟨.served, none, none⟩,
    .delete "ann/box/cur/m1:2,S" ⟨.served, none, none⟩, .advance 0 (.ok 1), .advance 0 (.ok 1),
    .doesExist "ann/box/cur/m1:2,S" none]

/-- A store may be answered with Ok although nothing of the message is in its file. -/
example :
    let write : List StorageEvent := [.store "box/m1" [1, 2] .served,
      .proceed (.createDirectories none), .proceed (.createFile none), .proceed (.take 2),
      .proceed (.fail "No space left on device (os error 28)")]
    let machine := Storage.machine MaildirFormat.flagFormat "mail"
    let (storage, output) := machine.step (machine.final (Storage.new "mail" fun _ => none) write)
      (.proceed (.sync none))
    output = some (.stored "box/m1" [1, 2] (.ok ()) "No space left on device (os error 28)") ∧
      storage.tree (resolve (fullPath "mail" "box/m1")) = some (.file []) := by
  decide +kernel

end Scuttled
