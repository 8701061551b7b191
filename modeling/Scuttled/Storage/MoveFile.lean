import Scuttled.Storage.UpdateFlags

/-!
# Moving a message

`move_file` makes the directories of the target and renames the file.  A file at the
target is replaced: two messages that have one identifier and differ in their flags
alone may become one.
-/

namespace Scuttled

open Rust

/-! ## The move -/

/-- What becomes of a command for the writer loop. -/
inductive Serving where
  | served
  /-- The loop is gone. -/
  | stopped
  /-- The loop takes a shutdown first. -/
  | dropped
  deriving DecidableEq

/-- What fails of an update of flags: the writer loop does not serve it, or creating the
directories ends with an error after some of them, or renaming does. -/
structure MoveOutcome where
  serving : Serving
  directories : Option (Nat × String)
  rename : Option String

namespace FileTree

/-- The names that lead from a location to another below it. -/
def below (base location : Location) : Option (List String) :=
  if location.absolute = base.absolute ∧ location.up = base.up ∧
      base.names <+: location.names then
    some (location.names.drop base.names.length)
  else none

/-- `rename`: a file replaces what is at the target; a directory takes along what is in
it. -/
def rename (source target : Location) (tree : FileTree) : FileTree :=
  match tree source with
  | some .directory => fun location =>
      match below target location with
      | some rest => tree { source with names := source.names ++ rest }
      | none => if (below source location).isSome then none else tree location
  | node => Function.update (Function.update tree source none) target node

/-- `fs::rename`, which may fail: a file does not replace a directory. -/
def tryRename (source target : Location) (failure : Option String) (tree : FileTree) :
    Result Unit × FileTree :=
  match tree source, tree target with
  | some (.file _), some .directory => (.error (.io "Is a directory (os error 21)"), tree)
  | _, _ =>
      match failure with
      | some failure => (.error (.io failure), tree)
      | none => (.ok (), tree.rename source target)

end FileTree

def moveFile (root source target : String) (outcome : MoveOutcome) (tree : FileTree) :
    Result Unit × FileTree :=
  let sourceAt := resolve (fullPath root source)
  let targetAt := resolve (fullPath root target)
  if !tree.tryExists (fullPath root source) then
    (.error (.notFound ("Source file not found: " ++ source)), tree)
  else
    match tree.createDirAll (ancestors targetAt) outcome.directories with
    | (.error failure, tree) => (.error failure, tree)
    | (.ok (), tree) => tree.tryRename sourceAt targetAt outcome.rename

/-- `update_flags`: the move goes through the writer loop. -/
def updateFlags (component : List MessageFlag → String) (root path : String)
    (flags : List MessageFlag) (outcome : MoveOutcome) (tree : FileTree) :
    Result Unit × FileTree :=
  match flagPath component path flags with
  | .error failure => (.error failure, tree)
  | .ok target =>
      match outcome.serving with
      | .stopped => (.error (.internal "Storage writer loop stopped"), tree)
      | .dropped => (.error (.internal "Storage writer loop dropped reply"), tree)
      | .served => moveFile root path target outcome tree

/-! ## What becomes of the files -/

/-- The files of both trees are the same. -/
def SameFiles (tree tree' : FileTree) : Prop :=
  ∀ location bytes, tree' location = some (.file bytes) ↔ tree location = some (.file bytes)

/-- One file has moved and no other was touched: the contents are those of before, with
two locations exchanged. -/
structure MovesAlone (source target : Location) (content : Bytes) (tree tree' : FileTree) :
    Prop where
  moved : tree' target = some (.file content)
  others : ∀ location bytes, location ≠ source → tree location = some (.file bytes) →
    location ≠ target ∧ tree' location = some (.file bytes)
  contents : ∀ location bytes, tree' location = some (.file bytes) ↔
    tree (Equiv.swap source target location) = some (.file bytes)

/-- A failed update leaves every file as it was; one that is answered with Ok moves the
file to the computed path and no other. -/
structure DestroysNothing (component : List MessageFlag → String) (root path : String)
    (flags : List MessageFlag) (outcome : MoveOutcome) (tree : FileTree) (content : Bytes) :
    Prop where
  failed : ∀ failure tree', updateFlags component root path flags outcome tree =
    (.error failure, tree') → SameFiles tree tree'
  moved : ∀ tree', updateFlags component root path flags outcome tree = (.ok (), tree') →
    ∃ target, flagPath component path flags = .ok target ∧
      MovesAlone (resolve (fullPath root path)) (resolve (fullPath root target)) content tree tree'

/-- The update fails before the file is renamed. -/
def MoveOutcome.Refuses (outcome : MoveOutcome) (tree : FileTree) (target : Location) : Prop :=
  outcome.serving ≠ .served ∨ tree.blocked (ancestors target) ≠ none ∨ outcome.directories ≠ none ∨
    outcome.rename ≠ none

theorem sameFiles_makeDirectories (directories : List Location) (tree : FileTree) :
    SameFiles tree (tree.makeDirectories directories) := by
  intro location bytes
  unfold FileTree.makeDirectories
  split
  · rename_i hmissing
    rw [hmissing.2]
    exact iff_of_false (by rintro ⟨⟩) (by rintro ⟨⟩)
  · rfl

theorem tryRename_cases {tree : FileTree} {source : Location} {content : Bytes}
    (hfile : tree source = some (.file content)) (target : Location) (failure : Option String) :
    (∃ failed, tree.tryRename source target failure = (.error failed, tree) ∧
      (failure ≠ none ∨ tree target = some .directory)) ∨
    tree.tryRename source target failure = (.ok (), tree.rename source target) ∧ failure = none := by
  unfold FileTree.tryRename
  rw [hfile]
  split
  · exact .inl ⟨_, rfl, .inr ‹_›⟩
  · cases failure with
    | some failed => exact .inl ⟨_, rfl, .inl (by simp)⟩
    | none => exact .inr ⟨rfl, rfl⟩

/-- Renaming a file moves it alone, if no other is at the target. -/
theorem movesAlone_rename_iff {tree made : FileTree} {source target : Location} {content : Bytes}
    (hsame : SameFiles tree made) (hfile : tree source = some (.file content)) :
    MovesAlone source target content tree (made.rename source target) ↔
      target = source ∨ ∀ bytes, tree target ≠ some (.file bytes) := by
  have hmade : made source = some (.file content) := (hsame source content).mpr hfile
  have hrename : made.rename source target =
      Function.update (Function.update made source none) target (some (.file content)) := by
    unfold FileTree.rename
    rw [hmade]
  constructor
  · intro hmoves
    by_cases htarget : target = source
    · exact .inl htarget
    · exact .inr fun bytes hother => (hmoves.others target bytes htarget hother).1 rfl
  · intro hfree
    have hother {location : Location} (hne : location ≠ source) {bytes : Bytes}
        (hlocation : tree location = some (.file bytes)) : location ≠ target := by
      rintro rfl
      exact hfree.elim hne fun hnone => hnone bytes hlocation
    have hkept {location : Location} (hne : location ≠ source) (hne' : location ≠ target) :
        made.rename source target location = made location := by
      rw [hrename, Function.update_of_ne hne', Function.update_of_ne hne]
    have hmoved : made.rename source target target = some (.file content) := by
      rw [hrename, Function.update_self]
    refine ⟨hmoved, fun location bytes hne hlocation => ?_, fun location bytes => ?_⟩
    · have hne' := hother hne hlocation
      exact ⟨hne', (hkept hne hne').trans ((hsame location bytes).mpr hlocation)⟩
    · by_cases htarget : location = target
      · rw [htarget, Equiv.swap_apply_right, hmoved, hfile]
      · by_cases hsource : location = source
        · -- what is left at the source was at the target
          have hgone : made.rename source target location = none := by
            rw [hrename, Function.update_of_ne htarget, hsource, Function.update_self]
          rw [hgone, hsource, Equiv.swap_apply_left]
          refine iff_of_false (by rintro ⟨⟩) fun hthere => ?_
          rcases hfree with hsame' | hnone
          · exact htarget (hsource.trans hsame'.symm)
          · exact hnone bytes hthere
        · rw [Equiv.swap_apply_of_ne_of_ne hsource htarget, hkept hsource htarget]
          exact hsame location bytes

/-- A move fails and leaves the files alone, for a reason, or renames the file. -/
theorem moveFile_cases (root source target : String) (outcome : MoveOutcome) {tree : FileTree}
    {content : Bytes} (hfile : tree (resolve (fullPath root source)) = some (.file content)) :
    (∃ failure tree', moveFile root source target outcome tree = (.error failure, tree') ∧
      SameFiles tree tree' ∧
        (outcome.Refuses tree (resolve (fullPath root target)) ∨
          tree (resolve (fullPath root target)) = some .directory)) ∨
    (∃ made, moveFile root source target outcome tree =
        (.ok (), made.rename (resolve (fullPath root source)) (resolve (fullPath root target))) ∧
      SameFiles tree made ∧ tree.blocked (ancestors (resolve (fullPath root target))) = none ∧
      outcome.directories = none ∧ outcome.rename = none) := by
  have hexists : tree.tryExists (fullPath root source) = true := by
    rw [FileTree.tryExists, hfile]
    rfl
  unfold moveFile
  simp only [hexists, Bool.not_true, Bool.false_eq_true, if_false]
  rcases tree.createDirAll_cases (ancestors (resolve (fullPath root target)))
    outcome.directories with ⟨failure, made, hfailed, hmade, hwhy⟩ | ⟨hmade, hblocked, hnone⟩
  · rw [hfailed]
    refine .inl ⟨_, _, rfl, ?_, .inl (.inr (hwhy.imp_right .inl))⟩
    obtain ⟨directories, rfl⟩ := hmade
    exact sameFiles_makeDirectories directories tree
  · rw [hmade]
    have hsame := sameFiles_makeDirectories (ancestors (resolve (fullPath root target))) tree
    have htarget := makeDirectories_target (resolve (fullPath root target))
      (ancestors (resolve (fullPath root target))).length tree
    rw [List.take_length] at htarget
    rcases tryRename_cases ((hsame _ _).mpr hfile) (resolve (fullPath root target))
      outcome.rename with ⟨failed, hfailed, hwhy⟩ | ⟨hrenamed, hrename⟩
    · refine .inl ⟨_, _, hfailed, hsame, hwhy.imp (fun hrename => ?_) htarget.symm.trans⟩
      exact .inr (.inr (.inr hrename))
    · exact .inr ⟨_, hrenamed, hsame, hblocked, hnone, hrename⟩

section DestroysNothing

variable {component : List MessageFlag → String} {root path target : String}
  {flags : List MessageFlag} {outcome : MoveOutcome} {tree tree' : FileTree} {content : Bytes}

theorem destroysNothing_of_error {failure : Error}
    (hupdate : updateFlags component root path flags outcome tree = (.error failure, tree'))
    (hsame : SameFiles tree tree') :
    DestroysNothing component root path flags outcome tree content := by
  constructor
  · intro failure' after hafter
    rw [hupdate] at hafter
    rwa [← (Prod.mk.inj hafter).2]
  · intro after hafter
    rw [hupdate] at hafter
    cases hafter

theorem destroysNothing_iff_of_ok
    (hupdate : updateFlags component root path flags outcome tree = (.ok (), tree'))
    (htarget : flagPath component path flags = .ok target) :
    DestroysNothing component root path flags outcome tree content ↔
      MovesAlone (resolve (fullPath root path)) (resolve (fullPath root target)) content tree
        tree' := by
  constructor
  · intro hnothing
    obtain ⟨target', htarget', halone⟩ := hnothing.moved _ hupdate
    rw [htarget] at htarget'
    rwa [← Except.ok.inj htarget'] at halone
  · intro halone
    constructor
    · intro failure after hafter
      rw [hupdate] at hafter
      cases hafter
    · intro after hafter
      rw [hupdate] at hafter
      rw [← (Prod.mk.inj hafter).2]
      exact ⟨target, htarget, halone⟩

end DestroysNothing

/--
Changing flags destroys no message, whatever the format writes for flags, whatever the
store holds and whatever fails, exactly if the computed path leads to the file itself,
or to no other, or the update fails before the file is renamed.
-/
theorem destroysNothing_iff (component : List MessageFlag → String) (root path : String)
    (flags : List MessageFlag) (outcome : MoveOutcome) (tree : FileTree) (content : Bytes)
    (hfile : tree (resolve (fullPath root path)) = some (.file content)) :
    DestroysNothing component root path flags outcome tree content ↔
      ∀ target, flagPath component path flags = .ok target →
        resolve (fullPath root target) = resolve (fullPath root path) ∨
          (∀ bytes, tree (resolve (fullPath root target)) ≠ some (.file bytes)) ∨
            outcome.Refuses tree (resolve (fullPath root target)) := by
  cases hpath : flagPath component path flags with
  | error failure =>
      have hupdate : updateFlags component root path flags outcome tree = (.error failure, tree) := by
        unfold updateFlags
        rw [hpath]
      exact iff_of_true (destroysNothing_of_error hupdate fun _ _ => Iff.rfl) (by rintro _ ⟨⟩)
  | ok target =>
      have hforall {P : String → Prop} :
          (∀ target', (Except.ok target : Result String) = .ok target' → P target') ↔ P target :=
        ⟨fun hall => hall target rfl, fun htarget target' hsame => Except.ok.inj hsame ▸ htarget⟩
      rw [hforall]
      have hupdate : updateFlags component root path flags outcome tree =
          match outcome.serving with
          | .stopped => (.error (.internal "Storage writer loop stopped"), tree)
          | .dropped => (.error (.internal "Storage writer loop dropped reply"), tree)
          | .served => moveFile root path target outcome tree := by
        unfold updateFlags
        rw [hpath]
      cases hserving : outcome.serving with
      | stopped =>
          rw [hserving] at hupdate
          refine iff_of_true (destroysNothing_of_error hupdate fun _ _ => Iff.rfl) ?_
          exact .inr (.inr (.inl (by simp [hserving])))
      | dropped =>
          rw [hserving] at hupdate
          refine iff_of_true (destroysNothing_of_error hupdate fun _ _ => Iff.rfl) ?_
          exact .inr (.inr (.inl (by simp [hserving])))
      | served =>
          rw [hserving] at hupdate
          rcases moveFile_cases root path target outcome hfile with
            ⟨failure, tree', hmove, hsame, hwhy⟩ | ⟨made, hmove, hsame, hblocked, hmade, hrenamed⟩
          · refine iff_of_true (destroysNothing_of_error (hupdate.trans hmove) hsame) (.inr ?_)
            rcases hwhy with hrefuses | hdirectory
            · exact .inr hrefuses
            · exact .inl fun bytes hother => by simp [hdirectory] at hother
          · have hgoes : ¬ outcome.Refuses tree (resolve (fullPath root target)) := by
              simp [MoveOutcome.Refuses, hserving, hblocked, hmade, hrenamed]
            rw [destroysNothing_iff_of_ok (hupdate.trans hmove) hpath,
              movesAlone_rename_iff hsame hfile]
            exact or_congr_right (or_iff_left hgoes).symm

/-- Two messages with one identifier, one of them seen. -/
def twoMessages : FileTree :=
  let new := resolve (fullPath "mail" "ann/box/new/x")
  let cur := resolve (fullPath "mail" "ann/box/cur/x:2,S")
  ((FileTree.makeDirectories (ancestors new ++ ancestors cur) fun _ => none).put new
    (.file [1])).put cur (.file [2])

/-- Nothing is in the way of the flag `Flagged`. -/
theorem destroysNothing_iff_flagged :
    DestroysNothing MaildirFormat.flagsToFilenameComponent "mail" "ann/box/new/x" [.flagged]
      ⟨.served, none, none⟩ twoMessages [1] := by
  have hfile : twoMessages (resolve (fullPath "mail" "ann/box/new/x")) = some (.file [1]) := by
    decide +kernel
  refine (destroysNothing_iff MaildirFormat.flagsToFilenameComponent "mail" "ann/box/new/x"
    [.flagged] ⟨.served, none, none⟩ twoMessages [1] hfile).mpr ?_
  intro target htarget
  have hgoes : flagPath MaildirFormat.flagsToFilenameComponent "ann/box/new/x" [.flagged] =
      .ok "ann/box/new/x:2,F" := by decide +kernel
  obtain rfl := Except.ok.inj (hgoes.symm.trans htarget)
  have hnothing : twoMessages (resolve (fullPath "mail" "ann/box/new/x:2,F")) = none := by
    decide +kernel
  refine .inr (.inl fun bytes hother => ?_)
  rw [hnothing] at hother
  cases hother

/-- Marking one of the messages as seen is answered with Ok and destroys the other. -/
theorem update_flags_overwrites_message :
    let update := updateFlags MaildirFormat.flagsToFilenameComponent "mail" "ann/box/new/x" [.seen]
      ⟨.served, none, none⟩ twoMessages
    update.1 = .ok () ∧
      twoMessages (resolve (fullPath "mail" "ann/box/new/x")) = some (.file [1]) ∧
      twoMessages (resolve (fullPath "mail" "ann/box/cur/x:2,S")) = some (.file [2]) ∧
      update.2 (resolve (fullPath "mail" "ann/box/cur/x:2,S")) = some (.file [1]) ∧
      ¬ DestroysNothing MaildirFormat.flagsToFilenameComponent "mail" "ann/box/new/x" [.seen]
        ⟨.served, none, none⟩ twoMessages [1] := by
  intro update
  have hother : twoMessages (resolve (fullPath "mail" "ann/box/cur/x:2,S")) = some (.file [2]) := by
    decide +kernel
  have hfile : twoMessages (resolve (fullPath "mail" "ann/box/new/x")) = some (.file [1]) := by
    decide +kernel
  have hok : update.1 = .ok () := by decide +kernel
  have hlost : update.2 (resolve (fullPath "mail" "ann/box/cur/x:2,S")) = some (.file [1]) := by
    decide +kernel
  refine ⟨hok, hfile, hother, hlost, fun hlaw => ?_⟩
  have hupdate : updateFlags MaildirFormat.flagsToFilenameComponent "mail" "ann/box/new/x" [.seen]
      ⟨.served, none, none⟩ twoMessages = (.ok (), update.2) := by
    rw [← hok]
  have hgoes : flagPath MaildirFormat.flagsToFilenameComponent "ann/box/new/x" [.seen] =
      .ok "ann/box/cur/x:2,S" := by decide +kernel
  have halone := (destroysNothing_iff_of_ok hupdate hgoes).mp hlaw
  have hne : resolve (fullPath "mail" "ann/box/cur/x:2,S") ≠
      resolve (fullPath "mail" "ann/box/new/x") := by decide +kernel
  exact (halone.others _ [2] hne hother).1 rfl

end Scuttled
