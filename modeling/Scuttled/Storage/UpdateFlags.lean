import Mathlib.Logic.Equiv.Basic
import Scuttled.MailStore.Flags
import Scuttled.Storage.FilesystemStore

/-!
# Changing the flags of a message

`update_flags` computes where a message goes from its path alone: the part of the
file name before `:2,` stays, the flags are written behind it, and a message that is
seen goes from `new` to `cur`, any other from `cur` to `new`.  The file is moved
there by the writer loop, whatever is there.
-/

namespace Scuttled

open Rust

/-! ## Where a message goes -/

/-- What the flags in a file name begin with. -/
def flagSeparator : List Char := [':', '2', ',']

/-- The unique identifier of a file name: what stands before `:2,`, if that occurs. -/
def uniqueIdPart (filename : String) : String :=
  match before flagSeparator filename.toList with
  | some start => String.ofList start
  | none => filename

/-- The directory for a message in some directory. -/
def flagDirectory (seen : Bool) (directory : String) : String :=
  let name := (fileName directory).getD ""
  let above := (parent directory).getD directory
  if seen then
    if name == "new" then join above "cur" else directory
  else
    if name == "cur" then join above "new" else directory

/-- The path `update_flags` moves a message to; `component` is what the format
writes for flags. -/
def flagPath (component : List MessageFlag → String) (path : String) (flags : List MessageFlag) :
    Result String :=
  match fileName path with
  | none => .error (.internal ("Invalid path: " ++ path))
  | some filename =>
      let uniqueId := uniqueIdPart filename
      let newFilename :=
        if (component flags).isEmpty then uniqueId else uniqueId ++ component flags
      .ok (join (flagDirectory (flags.contains .seen) ((parent path).getD "")) newFilename)

/-! ## What is computed -/

/-- The directories of a message that is seen, or is not. -/
def switched (seen : Bool) (directories : List Component) : List Component :=
  if seen then
    if directories.getLast? = some (.normal "new") then directories.dropLast ++ [.normal "cur"]
    else directories
  else
    if directories.getLast? = some (.normal "cur") then directories.dropLast ++ [.normal "new"]
    else directories

theorem switched_switched (first second : Bool) (directories : List Component) :
    switched second (switched first directories) = switched second directories := by
  rcases List.eq_nil_or_concat directories with rfl | ⟨above, last, rfl⟩
  · cases first <;> cases second <;> rfl
  · by_cases hnew : last = .normal "new"
    · subst hnew
      cases first <;> cases second <;> simp [switched]
    · by_cases hcur : last = .normal "cur"
      · subst hcur
        cases first <;> cases second <;> simp [switched]
      · cases first <;> cases second <;> simp [switched, hnew, hcur]

theorem switched_cases (seen : Bool) (directories : List Component) :
    switched seen directories = directories ∨
      ∃ above old new, directories = above ++ [.normal old] ∧
        switched seen directories = above ++ [.normal new] ∧
        (old = "new" ∧ new = "cur" ∨ old = "cur" ∧ new = "new") := by
  rcases List.eq_nil_or_concat directories with rfl | ⟨above, last, rfl⟩
  · cases seen <;> exact .inl rfl
  · cases seen with
    | false =>
        by_cases hcur : last = .normal "cur"
        · subst hcur
          exact .inr ⟨above, "cur", "new", by simp, by simp [switched], .inr ⟨rfl, rfl⟩⟩
        · exact .inl (by simp [switched, hcur])
    | true =>
        by_cases hnew : last = .normal "new"
        · subst hnew
          exact .inr ⟨above, "new", "cur", by simp, by simp [switched], .inl ⟨rfl, rfl⟩⟩
        · exact .inl (by simp [switched, hnew])

theorem components_flagDirectory (seen : Bool) (directory : String) :
    components (flagDirectory seen directory) = switched seen (components directory) := by
  have hjoin {old new : String} (hold : fileName directory = some old)
      (hnew : SingleComponent new) :
      components (join ((parent directory).getD directory) new) =
        (components directory).dropLast ++ [.normal new] := by
    obtain ⟨above, habove, hcomponents⟩ := parent_of_fileName hold
    rw [habove, Option.getD_some, components_join _ hnew, hcomponents, List.dropLast_concat]
  unfold flagDirectory switched
  cases hname : fileName directory with
  | none =>
      have hother (name : String) : (components directory).getLast? ≠ some (.normal name) :=
        fun hlast => by
          rw [fileName_eq_some_iff.mpr hlast] at hname
          cases hname
      simp [hother]
  | some name =>
      rw [fileName_eq_some_iff.mp hname]
      simp only [Option.getD_some, beq_iff_eq, Option.some.injEq, Component.normal.injEq]
      cases seen <;> simp only [Bool.false_eq_true, if_false, if_true] <;> split
      · exact hjoin hname (by decide)
      · rfl
      · exact hjoin hname (by decide)
      · rfl

theorem uniqueIdPart_spec (filename : String) :
    (∃ suffix, filename = uniqueIdPart filename ++ suffix ∧
      (suffix = "" ∨ ∃ rest, suffix = ":2," ++ rest)) ∧
    ¬ flagSeparator <:+: (uniqueIdPart filename).toList := by
  have hpattern : flagSeparator ≠ [] := by decide
  unfold uniqueIdPart
  cases hbefore : before flagSeparator filename.toList with
  | none =>
      exact ⟨⟨"", by simp, .inl rfl⟩, (before_eq_none_iff hpattern).mp hbefore⟩
  | some start =>
      obtain ⟨rest, hrest⟩ := append_of_before hbefore
      refine ⟨⟨":2," ++ String.ofList rest, ?_, .inr ⟨_, rfl⟩⟩, ?_⟩
      · rw [← String.toList_inj, hrest]
        simp [flagSeparator, String.toList_append]
      · rw [String.toList_ofList]
        exact (before_eq_none_iff hpattern).mp (before_of_before hpattern hbefore)

theorem before_flagSeparator_append {start : List Char} (hstart : ¬ flagSeparator <:+: start)
    (rest : List Char) : before flagSeparator (start ++ flagSeparator ++ rest) = some start := by
  induction start with
  | nil => rfl
  | cons c start ih =>
      rw [List.infix_cons_iff, not_or] at hstart
      obtain ⟨hbegins, hinside⟩ := hstart
      have hnot : ¬ flagSeparator.isPrefixOf (c :: start ++ flagSeparator ++ rest) = true := by
        -- the separator does not overlap with itself
        unfold flagSeparator at hbegins ⊢
        match start with
        | [] => simp
        | [d] => simp
        | d :: e :: others => simpa using hbegins
      rw [List.cons_append, List.cons_append] at hnot ⊢
      rw [before, if_neg hnot, ih hinside]
      rfl

theorem uniqueIdPart_append {uniqueId suffix : String}
    (hinside : ¬ flagSeparator <:+: uniqueId.toList)
    (hsuffix : suffix = "" ∨ ∃ rest, suffix = ":2," ++ rest) :
    uniqueIdPart (uniqueId ++ suffix) = uniqueId := by
  unfold uniqueIdPart
  rcases hsuffix with rfl | ⟨rest, rfl⟩
  · rw [String.append_empty, (before_eq_none_iff (by decide)).mpr hinside]
  · have hchars : (uniqueId ++ (":2," ++ rest)).toList =
        uniqueId.toList ++ flagSeparator ++ rest.toList := by
      simp [String.toList_append, flagSeparator]
    rw [hchars, before_flagSeparator_append hinside]
    exact String.ofList_toList

theorem flagPath_eq {path filename : String} {directories : List Component}
    (hpath : components path = directories ++ [.normal filename])
    (component : List MessageFlag → String) (flags : List MessageFlag) :
    ∃ directory, components directory = switched (flags.contains .seen) directories ∧
      flagPath component path flags =
        .ok (join directory (uniqueIdPart filename ++ component flags)) := by
  have hname : fileName path = some filename :=
    fileName_eq_some_iff.mpr (by rw [hpath, List.getLast?_concat])
  obtain ⟨up, hup, hcomponents⟩ := parent_of_fileName hname
  obtain ⟨hdirectories, -⟩ := List.append_inj' (hcomponents.symm.trans hpath) rfl
  refine ⟨flagDirectory (flags.contains .seen) up, ?_, ?_⟩
  · rw [components_flagDirectory, hdirectories]
  · have hfilename : (if (component flags).isEmpty then uniqueIdPart filename
        else uniqueIdPart filename ++ component flags) =
          uniqueIdPart filename ++ component flags := by
      split
      · rename_i hempty
        rw [String.isEmpty_iff.mp hempty, String.append_empty]
      · rfl
    unfold flagPath
    rw [hname, hup]
    exact congrArg (fun name => Except.ok (join _ name)) hfilename

theorem components_flagPath {path filename : String} {directories : List Component}
    (hpath : components path = directories ++ [.normal filename])
    {component : List MessageFlag → String} {flags : List MessageFlag}
    (hsingle : SingleComponent (uniqueIdPart filename ++ component flags)) :
    ∃ target, flagPath component path flags = .ok target ∧
      components target = switched (flags.contains .seen) directories ++
        [.normal (uniqueIdPart filename ++ component flags)] := by
  obtain ⟨directory, hdirectory, htarget⟩ := flagPath_eq hpath component flags
  exact ⟨_, htarget, by rw [components_join _ hsingle, hdirectory]⟩

theorem slash_notMem_uniqueIdPart {filename : String} (hslash : '/' ∉ filename.toList) :
    '/' ∉ (uniqueIdPart filename).toList := by
  obtain ⟨⟨suffix, hsuffix, -⟩, -⟩ := uniqueIdPart_spec filename
  rw [hsuffix, String.toList_append, List.mem_append, not_or] at hslash
  exact hslash.1

/-! ## The last update wins -/

/-- Two texts spell one path, as `Path` compares them. -/
def SamePath (path path' : String) : Prop := components path = components path'

/-- At most the flags in the file name differ, and the directory `new` or `cur` directly
above it. -/
def SameMessage (path path' : String) : Prop :=
  ∃ directories directories' uniqueId suffix suffix',
    components path = directories ++ [.normal (uniqueId ++ suffix)] ∧
    components path' = directories' ++ [.normal (uniqueId ++ suffix')] ∧
    (suffix = "" ∨ ∃ rest, suffix = ":2," ++ rest) ∧
    (suffix' = "" ∨ ∃ rest, suffix' = ":2," ++ rest) ∧
    (directories' = directories ∨
      ∃ above old new, directories = above ++ [.normal old] ∧
        directories' = above ++ [.normal new] ∧
        (old = "new" ∧ new = "cur" ∨ old = "cur" ∧ new = "new"))

/--
The last flag update wins.  For every path with a file name whose unique identifier
can be a file name, changing flags twice leads where the second change alone leads,
and changes nothing but the flags in the file name and a directory `new` or `cur`.
-/
theorem flagPath_flagPath (path filename : String) (hname : fileName path = some filename)
    (hempty : uniqueIdPart filename ≠ "") (hdot : uniqueIdPart filename ≠ ".")
    (hdots : uniqueIdPart filename ≠ "..") (first second : List MessageFlag) :
    ∃ moved again direct,
      flagPath MaildirFormat.flagsToFilenameComponent path first = .ok moved ∧
      flagPath MaildirFormat.flagsToFilenameComponent moved second = .ok again ∧
      flagPath MaildirFormat.flagsToFilenameComponent path second = .ok direct ∧
      SamePath again direct ∧ SameMessage path moved := by
  have huniqueId : SingleComponent (uniqueIdPart filename) :=
    singleComponent_of_slash_notMem
      (slash_notMem_uniqueIdPart (slash_notMem_of_fileName hname)) hempty hdot hdots
  obtain ⟨⟨suffix, hsuffix, hform⟩, hinside⟩ := uniqueIdPart_spec filename
  obtain ⟨up, -, hpath⟩ := parent_of_fileName hname
  have hsingle (flags : List MessageFlag) := MaildirFormat.singleComponent_append huniqueId flags
  obtain ⟨moved, hmoved, hmovedPath⟩ := components_flagPath hpath (hsingle first)
  obtain ⟨direct, hdirect, hdirectPath⟩ := components_flagPath hpath (hsingle second)
  have hsame : uniqueIdPart
      (uniqueIdPart filename ++ MaildirFormat.flagsToFilenameComponent first) =
        uniqueIdPart filename :=
    uniqueIdPart_append hinside (MaildirFormat.flagsToFilenameComponent_cases first)
  obtain ⟨again, hagain, hagainPath⟩ := @components_flagPath _ _ _ hmovedPath
    MaildirFormat.flagsToFilenameComponent second (by rw [hsame]; exact hsingle second)
  refine ⟨moved, again, direct, hmoved, hagain, hdirect, ?_, ?_⟩
  · rw [SamePath, hagainPath, hdirectPath, hsame, switched_switched]
  · refine ⟨components up, _, uniqueIdPart filename, suffix, _, ?_, hmovedPath, hform,
      MaildirFormat.flagsToFilenameComponent_cases first, switched_cases _ _⟩
    rw [← hsuffix]
    exact hpath

/-- The law for a message that is marked as seen and as flagged. -/
theorem flagPath_flagPath_seen :
    ∃ moved again direct,
      flagPath MaildirFormat.flagsToFilenameComponent "ann/box/new/m1" [.seen] = .ok moved ∧
      flagPath MaildirFormat.flagsToFilenameComponent moved [.flagged] = .ok again ∧
      flagPath MaildirFormat.flagsToFilenameComponent "ann/box/new/m1" [.flagged] = .ok direct ∧
      SamePath again direct ∧ SameMessage "ann/box/new/m1" moved :=
  flagPath_flagPath "ann/box/new/m1" "m1" (by decide) (by decide) (by decide) (by decide) [.seen]
    [.flagged]

end Scuttled
