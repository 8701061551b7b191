import Scuttled.Storage.WriterLoop

/-!
# Messages and their files

A message is one file, whose name and directory change with its flags.  Files are where
files belong, and directories where directories do.
-/

namespace Scuttled

open Rust Foundation

/-! ## The message of a file -/

/-- The names of a directory, `cur` for `new`. -/
def inCur (names : List String) : List String :=
  if names.getLast? = some "new" then names.dropLast ++ ["cur"] else names

/-- The message a file holds: where it would be in `cur`, without flags. -/
def messageOf (location : Location) : Location :=
  match location.names.getLast? with
  | none => location
  | some filename =>
      { location with names := inCur location.names.dropLast ++ [uniqueIdPart filename] }

def messageAt (root path : String) : Location := messageOf (resolve (fullPath root path))

theorem messageOf_concat (directory : Location) (filename : String) :
    messageOf (directory.enter (.normal filename)) =
      { directory with names := inCur directory.names ++ [uniqueIdPart filename] } := by
  simp [messageOf, Location.enter]

theorem inCur_enter (directory : Location) {old new : String}
    (hnames : old = "new" ∧ new = "cur" ∨ old = "cur" ∧ new = "new") :
    inCur (directory.enter (.normal new)).names = inCur (directory.enter (.normal old)).names := by
  rcases hnames with ⟨rfl, rfl⟩ | ⟨rfl, rfl⟩ <;> simp [inCur, Location.enter]

theorem messageAt_flagPath (format : FlagFormat) (root : String) {path filename target : String}
    {flags : List MessageFlag} (hname : fileName path = some filename)
    (hsingle : SingleComponent (uniqueIdPart filename))
    (htarget : flagPath format.component path flags = .ok target) :
    messageAt root target = messageAt root path := by
  obtain ⟨up, -, hpath⟩ := parent_of_fileName hname
  obtain ⟨target', htarget', hmoved⟩ :=
    components_flagPath hpath (format.single _ flags hsingle)
  obtain rfl := Except.ok.inj (htarget.symm.trans htarget')
  have huniqueId : uniqueIdPart (uniqueIdPart filename ++ format.component flags) =
      uniqueIdPart filename :=
    uniqueIdPart_append (uniqueIdPart_spec filename).2 (format.spells flags)
  unfold messageAt fullPath
  rw [resolve_join, resolve_join, hpath, hmoved, List.foldl_append, List.foldl_append,
    List.foldl_cons, List.foldl_cons, List.foldl_nil, List.foldl_nil, messageOf_concat,
    messageOf_concat, huniqueId]
  rcases switched_cases (flags.contains .seen) (components up) with
    hsame | ⟨above, old, new, hold, hnew, hnames⟩
  · rw [hsame]
  · rw [hnew, hold, List.foldl_append, List.foldl_append, List.foldl_cons, List.foldl_cons,
      List.foldl_nil, List.foldl_nil, inCur_enter _ hnames]
    rfl

/-! ## The files of a tree -/

namespace FileTree

def files (tree : FileTree) (location : Location) : Option Bytes :=
  match tree location with
  | some (.file content) => some content
  | _ => none

theorem files_eq_some_iff {tree : FileTree} {location : Location} {content : Bytes} :
    tree.files location = some content ↔ tree location = some (.file content) := by
  unfold files
  split <;> simp_all

theorem files_of_ne_directory {tree : FileTree} {location : Location}
    (hnot : tree location ≠ some .directory) :
    tree location = (tree.files location).map .file := by
  unfold files
  split
  · assumption
  · rename_i hfile
    cases hnode : tree location with
    | none => rfl
    | some node =>
        cases node with
        | file content => exact absurd hnode (hfile content)
        | directory => exact absurd hnode hnot

theorem files_makeDirectories (directories : List Location) (tree : FileTree) :
    (tree.makeDirectories directories).files = tree.files := by
  funext location
  unfold files makeDirectories
  by_cases hmissing : location ∈ directories ∧ tree location = none
  · rw [if_pos hmissing, hmissing.2]
  · rw [if_neg hmissing]

theorem files_update (tree : FileTree) (location : Location) (node : Option Node) :
    files (Function.update tree location node) =
      Function.update tree.files location
        (match node with
          | some (.file content) => some content
          | _ => none) := by
  funext other
  by_cases hsame : other = location
  · subst hsame
    simp [files]
  · rw [Function.update_of_ne hsame, files, Function.update_of_ne hsame]
    rfl

theorem files_rename {tree : FileTree} {source : Location} {content : Bytes}
    (hfile : tree source = some (.file content)) (target : Location) :
    (tree.rename source target).files =
      Function.update (Function.update tree.files source none) target (some content) := by
  unfold rename
  rw [hfile]
  simp only [files_update]

/-- Directories are where directories may be, and files are elsewhere. -/
structure Tidy (directories : Set Location) (tree : FileTree) : Prop where
  directory : ∀ location, tree location = some .directory → location ∈ directories
  file : ∀ location, (tree.files location).isSome → location ∉ directories

section Tidy

variable {directories : Set Location} {tree : FileTree}

theorem Tidy.makeDirectories (htidy : tree.Tidy directories) {made : List Location}
    (hmade : ∀ location ∈ made, location ∈ directories) :
    (tree.makeDirectories made).Tidy directories where
  directory location hdirectory := by
    unfold FileTree.makeDirectories at hdirectory
    split at hdirectory
    · rename_i hmissing
      exact hmade location hmissing.1
    · exact htidy.directory location hdirectory
  file location hfile := by
    rw [files_makeDirectories] at hfile
    exact htidy.file location hfile

theorem Tidy.update (htidy : tree.Tidy directories) {location : Location} {node : Option Node}
    (hplace : location ∉ directories) (hnode : node ≠ some .directory) :
    Tidy directories (Function.update tree location node) where
  directory other hdirectory := by
    rw [Function.update_apply] at hdirectory
    split at hdirectory
    · exact absurd hdirectory hnode
    · exact htidy.directory other hdirectory
  file other hfile := by
    rw [files_update, Function.update_apply] at hfile
    split at hfile
    · rename_i hsame
      rwa [hsame]
    · exact htidy.file other hfile

theorem Tidy.ne_directory (htidy : tree.Tidy directories) {location : Location}
    (hplace : location ∉ directories) : tree location ≠ some .directory :=
  fun hdirectory => hplace (htidy.directory location hdirectory)

theorem Tidy.blocked_eq (htidy : tree.Tidy directories) {made : List Location}
    (hmade : ∀ location ∈ made, location ∈ directories) : tree.blocked made = none := by
  have hfile (location : Location) (hmem : location ∈ made) (content : Bytes) :
      tree location ≠ some (.file content) := by
    intro hthere
    refine htidy.file location ?_ (hmade location hmem)
    rw [files_eq_some_iff.mpr hthere]
    rfl
  unfold blocked
  rw [if_neg, if_neg]
  · rw [Bool.not_eq_true, List.any_eq_false]
    intro location hmem
    split
    · rename_i content hthere
      exact absurd hthere (hfile location hmem content)
    · exact Bool.false_ne_true
  · cases hlast : made.getLast? with
    | none => exact Bool.false_ne_true
    | some location =>
        rw [Option.map_some, Option.getD_some]
        split
        · rename_i content hthere
          exact absurd hthere (hfile location (List.mem_of_getLast? hlast) content)
        · exact Bool.false_ne_true

/-- The directories of a file are made, or the error is the one that happened. -/
theorem Tidy.createDirAll_cases (htidy : tree.Tidy directories) {made : List Location}
    (hmade : ∀ location ∈ made, location ∈ directories) (outcome : Option (Nat × String)) :
    (∃ failure tree', tree.createDirAll made outcome = (.error (.io failure), tree') ∧
      tree'.Tidy directories ∧ tree'.files = tree.files ∧ outcome.map Prod.snd = some failure) ∨
    ∃ tree', tree.createDirAll made outcome = (.ok (), tree') ∧ tree'.Tidy directories ∧
      tree'.files = tree.files ∧ outcome = none := by
  unfold FileTree.createDirAll
  rw [htidy.blocked_eq hmade]
  cases outcome with
  | some outcome =>
      refine .inl ⟨outcome.2, _, rfl, htidy.makeDirectories fun location hmem => ?_,
        files_makeDirectories _ _, rfl⟩
      exact hmade location (List.mem_of_mem_take hmem)
  | none => exact .inr ⟨_, rfl, htidy.makeDirectories hmade, files_makeDirectories _ _, rfl⟩

end Tidy

end FileTree

/-! ## Open files -/

/-- The file that is open is at its place, or was there last, with this content. -/
def FileHandle.Holds (tree : FileTree) (held : Bytes) : FileHandle → Prop
  | .linked location => tree.files location = some held
  | .unlinked result => result = .ok held

section Holds

variable {tree tree' : FileTree} {handle : FileHandle} {held : Bytes}

theorem FileHandle.Holds.read_eq (hholds : handle.Holds tree held) : handle.read tree = .ok held := by
  cases handle with
  | linked location =>
      simp only [FileHandle.read, FileTree.files_eq_some_iff.mp hholds]
  | unlinked result => exact hholds

theorem FileHandle.Holds.of_files (hholds : handle.Holds tree held)
    (hfiles : ∀ location, handle = .linked location →
      tree'.files location = tree.files location) : handle.Holds tree' held := by
  cases handle with
  | linked location => exact (hfiles location rfl).trans hholds
  | unlinked result => exact hholds

theorem FileHandle.Holds.renamed (hholds : handle.Holds tree held) {source target : Location}
    {content : Bytes} (hsource : tree.files source = some content)
    (hfiles : tree'.files =
      Function.update (Function.update tree.files source none) target (some content)) :
    (handle.renamed source target tree).Holds tree' held := by
  cases handle with
  | unlinked result => exact hholds
  | linked location =>
      have hread := hholds.read_eq
      simp only [FileHandle.renamed, FileTree.files_eq_some_iff.mp hsource]
      split
      · rename_i hmoved
        subst hmoved
        have hsame : tree'.files target = tree.files location := by
          rw [hfiles, Function.update_self, hsource]
        exact hsame.trans hholds
      · rename_i hother
        split
        · exact hread
        · rename_i hkept
          have hsame : tree'.files location = tree.files location := by
            rw [hfiles, Function.update_of_ne hkept, Function.update_of_ne hother]
          exact hsame.trans hholds

theorem FileHandle.Holds.removed (hholds : handle.Holds tree held) {location : Location}
    (hfiles : tree'.files = Function.update tree.files location none) :
    (handle.removed location tree).Holds tree' held := by
  cases handle with
  | unlinked result => exact hholds
  | linked place =>
      have hread := hholds.read_eq
      simp only [FileHandle.removed]
      split
      · exact hread
      · rename_i hkept
        have hsame : tree'.files place = tree.files place := by
          rw [hfiles, Function.update_of_ne hkept]
        exact hsame.trans hholds

end Holds

end Scuttled
