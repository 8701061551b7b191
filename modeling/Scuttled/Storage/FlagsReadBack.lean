import Scuttled.Storage.UpdateFlags

/-!
# Reading a flag update back

`update_flags` cuts a file name at the first `:2,`, `parse_message_path` at the first
colon.  A name with another colon before the flags keeps it in front of what is
written, where the parser does not look any further.
-/

namespace Scuttled

open Rust

open MaildirFormat (storedFlags letters parseFlags splitFilename flagsToFilenameComponent)

/-- What was parsed, with other flags: the message is the same, the flags are those that
are stored, and it is new unless it is seen. -/
structure ReadsAs (parsed again : ParsedMessage) (given : List MessageFlag) : Prop where
  username : again.username = parsed.username
  mailbox : again.mailbox = parsed.mailbox
  uniqueId : again.uniqueId = parsed.uniqueId
  flags : ∀ flag, flag ∈ again.flags ↔ flag ∈ given ∧ flag ∈ storedFlags
  isNew : again.isNew = true ↔ MessageFlag.seen ∉ given

/-- Where a message goes with its flags, the parser reads them. -/
def FlagsReadBack (root path : String) (parsed : ParsedMessage) (flags : List MessageFlag) : Prop :=
  ∃ target again, flagPath flagsToFilenameComponent path flags = .ok target ∧
    MaildirFormat.parseMessagePath (join root target) root = some again ∧
    ReadsAs parsed again flags

/-! ## What the parser reads of a new name -/

theorem splitFilename_fst {start suffix : String}
    (hsuffix : suffix = "" ∨ ∃ rest, suffix = ":2," ++ rest) :
    (splitFilename (start ++ suffix)).1 =
      String.ofList (start.toList.takeWhile (· != ':')) := by
  have hfirst (filename : String) :
      (splitFilename filename).1 = String.ofList (filename.toList.takeWhile (· != ':')) := by
    unfold splitFilename
    split <;> rfl
  rw [hfirst, String.toList_append]
  congr 1
  rcases hsuffix with rfl | ⟨rest, rfl⟩
  · rw [String.toList_empty, List.append_nil]
  · by_cases hcolon : ∀ c ∈ start.toList, (c != ':') = true
    · rw [List.takeWhile_append_of_pos hcolon, List.takeWhile_eq_self_iff.mpr hcolon]
      simp [String.toList_append]
    · rw [List.takeWhile_append, if_neg]
      intro hlength
      have hself := (List.takeWhile_prefix _).eq_of_length hlength
      exact hcolon (List.takeWhile_eq_self_iff.mp hself)

/-- Behind another colon the parser finds no flags. -/
theorem splitFilename_snd {start suffix : String} (hcolon : ':' ∈ start.toList)
    (hinside : ¬ flagSeparator <:+: start.toList)
    (hsuffix : suffix = "" ∨ ∃ rest, suffix = ":2," ++ rest) :
    (splitFilename (start ++ suffix)).2 = [] := by
  obtain ⟨tail, htail⟩ : ∃ tail, start.toList.dropWhile (· != ':') = ':' :: tail := by
    cases hdrop : start.toList.dropWhile (· != ':') with
    | nil =>
        have hnone := List.dropWhile_eq_nil_iff.mp hdrop ':' hcolon
        simp at hnone
    | cons c tail =>
        have hhead := @List.head_dropWhile_not _ (· != ':') start.toList (by simp [hdrop])
        simp only [hdrop, List.head_cons, bne_eq_false_iff_eq] at hhead
        exact ⟨tail, by rw [hhead]⟩
  have hdrop : (start ++ suffix).toList.dropWhile (· != ':') = ':' :: (tail ++ suffix.toList) := by
    rw [String.toList_append, List.dropWhile_append, htail]
    rfl
  have hnot (rest : List Char) : tail ++ suffix.toList ≠ '2' :: ',' :: rest := by
    intro hsame
    have hlast : (':' :: tail) <:+ start.toList := htail ▸ List.dropWhile_suffix _
    match tail with
    | [] => rcases hsuffix with rfl | ⟨other, rfl⟩ <;> simp [String.toList_append] at hsame
    | [c] => rcases hsuffix with rfl | ⟨other, rfl⟩ <;> simp [String.toList_append] at hsame
    | c :: d :: others =>
        simp only [List.cons_append, List.cons.injEq] at hsame
        obtain ⟨rfl, rfl, -⟩ := hsame
        refine hinside (List.IsInfix.trans ?_ hlast.isInfix)
        exact (List.prefix_append flagSeparator others).isInfix
  unfold splitFilename
  rw [hdrop]
  split
  · rename_i rest hsame
    exact absurd (List.cons.inj hsame).2 (hnot rest)
  · rfl

/-! ## When a flag update is read back -/

theorem switched_subdir {subdir : String} (hsubdir : subdir = "new" ∨ subdir = "cur") (seen : Bool)
    (username mailbox : String) :
    switched seen [.normal username, .normal mailbox, .normal subdir] =
      [.normal username, .normal mailbox, .normal (if seen then "cur" else "new")] := by
  rcases hsubdir with rfl | rfl <;> cases seen <;> rfl

theorem subdirIsNew_eq_some {subdir : String} {isNew : Bool}
    (hsubdir : MaildirFormat.subdirIsNew subdir = some isNew) : subdir = "new" ∨ subdir = "cur" := by
  unfold MaildirFormat.subdirIsNew at hsubdir
  split at hsubdir
  · exact .inl (beq_iff_eq.mp ‹_›)
  · split at hsubdir
    · exact .inr (beq_iff_eq.mp ‹_›)
    · cases hsubdir

section FlagsReadBack

variable {root path username mailbox subdir filename : String} {parsed : ParsedMessage}
  {flags : List MessageFlag}

/-- What the parser reads where a message with a usable name goes. -/
theorem flagsReadBack_iff_of_single
    (hpath : components path = [.normal username, .normal mailbox, .normal subdir,
      .normal filename])
    (hparsed : MaildirFormat.parseMessagePath (join root path) root = some parsed)
    (hsingle : SingleComponent (uniqueIdPart filename ++ flagsToFilenameComponent flags)) :
    FlagsReadBack root path parsed flags ↔
      (':' ∈ (uniqueIdPart filename).toList → ∀ flag ∈ flags, flag ∉ storedFlags) := by
  obtain ⟨⟨suffix, hsuffix, hform⟩, hinside⟩ := uniqueIdPart_spec filename
  have hjoined : components (join root path) = components root ++
      [.normal username, .normal mailbox, .normal subdir, .normal filename] := by
    rw [components_join_of_relative root (components_eq_of_normal hpath), hpath]
  rw [parseMessagePath_of_components hjoined, Option.map_eq_some_iff] at hparsed
  obtain ⟨wasNew, hsubdir, hfields⟩ := hparsed
  obtain ⟨target, htarget, hcomponents⟩ := @components_flagPath path filename
    [.normal username, .normal mailbox, .normal subdir] hpath flagsToFilenameComponent flags hsingle
  rw [switched_subdir (subdirIsNew_eq_some hsubdir), List.cons_append, List.cons_append,
    List.cons_append, List.nil_append] at hcomponents
  have hagain : components (join root target) = components root ++
      [.normal username, .normal mailbox, .normal (if flags.contains .seen then "cur" else "new"),
        .normal (uniqueIdPart filename ++ flagsToFilenameComponent flags)] := by
    rw [components_join_of_relative root (components_eq_of_normal hcomponents), hcomponents]
  have hread := parseMessagePath_of_components hagain
  rw [splitFilename_fst (MaildirFormat.flagsToFilenameComponent_cases flags)] at hread
  have hfirst : (splitFilename filename).1 =
      String.ofList ((uniqueIdPart filename).toList.takeWhile (· != ':')) := by
    have hname := @splitFilename_fst (uniqueIdPart filename) suffix hform
    rwa [← hsuffix] at hname
  obtain ⟨again, hparse, husername, hmailbox, huniqueId, hflags, hnew⟩ :
      ∃ again, MaildirFormat.parseMessagePath (join root target) root = some again ∧
        again.username = parsed.username ∧ again.mailbox = parsed.mailbox ∧
        again.uniqueId = parsed.uniqueId ∧
        again.flags = (splitFilename
          (uniqueIdPart filename ++ flagsToFilenameComponent flags)).2 ∧
        again.isNew = !flags.contains .seen := by
    rw [← hfields]
    cases hseen : flags.contains .seen <;> rw [hseen] at hread <;>
      exact ⟨_, hread, rfl, rfl, hfirst.symm, rfl, rfl⟩
  have hisNew : again.isNew = true ↔ MessageFlag.seen ∉ flags := by
    rw [hnew, Bool.not_eq_true', ← Bool.not_eq_true, List.contains_iff_mem]
  -- the identifier is always read back; the flags are, unless they stand behind another colon
  have hreads : FlagsReadBack root path parsed flags ↔
      ∀ flag, flag ∈ again.flags ↔ flag ∈ flags ∧ flag ∈ storedFlags := by
    constructor
    · rintro ⟨target', again', htarget', hparse', hreads⟩
      obtain rfl := Except.ok.inj (htarget.symm.trans htarget')
      obtain rfl := Option.some.inj (hparse.symm.trans hparse')
      exact hreads.flags
    · intro hall
      exact ⟨target, again, htarget, hparse, husername, hmailbox, huniqueId, hall, hisNew⟩
  rw [hreads, hflags]
  by_cases hcolon : ':' ∈ (uniqueIdPart filename).toList
  · rw [splitFilename_snd hcolon hinside (MaildirFormat.flagsToFilenameComponent_cases flags)]
    simp [hcolon]
  · rw [MaildirFormat.splitFilename_append hcolon]
    refine iff_of_true (fun flag => ?_) fun hother => absurd hother hcolon
    rw [(MaildirFormat.parseFlags_letters_perm flags).mem_iff]
    simp

/-- Without a usable name the message is lost to the parser. -/
theorem not_flagsReadBack_of_dots
    (hpath : components path = [.normal username, .normal mailbox, .normal subdir,
      .normal filename])
    (hparsed : MaildirFormat.parseMessagePath (join root path) root = some parsed)
    (hdots : uniqueIdPart filename ∈ ["", ".", ".."])
    (hnone : ∀ flag ∈ flags, flag ∉ storedFlags) : ¬ FlagsReadBack root path parsed flags := by
  rintro ⟨target, again, htarget, hparse, -⟩
  have hempty : flagsToFilenameComponent flags = "" := by
    unfold flagsToFilenameComponent
    rw [MaildirFormat.letters_eq_nil_iff.mpr hnone]
    rfl
  have hjoined : components (join root path) = components root ++
      [.normal username, .normal mailbox, .normal subdir, .normal filename] := by
    rw [components_join_of_relative root (components_eq_of_normal hpath), hpath]
  rw [parseMessagePath_of_components hjoined, Option.map_eq_some_iff] at hparsed
  obtain ⟨wasNew, hsubdir, -⟩ := hparsed
  obtain ⟨directory, hdirectory, hgoes⟩ := @flagPath_eq path filename
    [.normal username, .normal mailbox, .normal subdir] hpath flagsToFilenameComponent flags
  rw [hempty, String.append_empty] at hgoes
  obtain rfl := Except.ok.inj (hgoes.symm.trans htarget)
  rw [switched_subdir (subdirIsNew_eq_some hsubdir)] at hdirectory
  have hdirectoryNe : directory ≠ "" := by
    rintro rfl
    cases hdirectory
  have hrelative : isAbsolute (uniqueIdPart filename) = false := by
    rcases List.mem_cons.mp hdots with hsame | hdots
    · rw [hsame]
      decide
    · rcases List.mem_pair.mp hdots with hsame | hsame <;> rw [hsame] <;> decide
  have htarget := components_join_of_ne_empty hdirectoryNe hrelative
  rw [hdirectory, List.cons_append] at htarget
  have hagain := components_join_of_relative root (components_eq_of_normal htarget)
  rw [htarget] at hagain
  have hstrip := stripPrefix_append hagain
  simp only [MaildirFormat.parseMessagePath, hstrip, fileName, hagain, List.mem_cons,
    List.not_mem_nil, or_false] at hparse hdots
  rcases hdots with hsame | hsame | hsame
  · rw [hsame, show bodyComponents "" = [] from by decide] at hparse
    cases hparse
  · rw [hsame, show bodyComponents "." = [] from by decide] at hparse
    cases hparse
  · rw [hsame, show bodyComponents ".." = [.parentDir] from by decide] at hparse
    simp at hparse

end FlagsReadBack

/--
Reading a flag update back.  For every file in `new` or `cur` of a mailbox that the
parser accepts, and all flags, the parser reads them where the message goes exactly
if no colon stands before them, or there is nothing to be stored, and if what stands
before them can be a file name, or something is written behind it.
-/
theorem flags_readBack_iff (root path username mailbox subdir filename : String)
    (hpath : components path = [.normal username, .normal mailbox, .normal subdir,
      .normal filename])
    (parsed : ParsedMessage)
    (hparsed : MaildirFormat.parseMessagePath (join root path) root = some parsed)
    (flags : List MessageFlag) :
    FlagsReadBack root path parsed flags ↔
      (':' ∈ (uniqueIdPart filename).toList → ∀ flag ∈ flags, flag ∉ storedFlags) ∧
        (uniqueIdPart filename ∈ ["", ".", ".."] → ∃ flag ∈ flags, flag ∈ storedFlags) := by
  have hslash : '/' ∉ (uniqueIdPart filename).toList := by
    refine slash_notMem_uniqueIdPart (@slash_notMem_of_fileName path _ ?_)
    rw [fileName_eq_some_iff, hpath]
    rfl
  by_cases hstored : ∀ flag ∈ flags, flag ∉ storedFlags
  · by_cases hdots : uniqueIdPart filename ∈ ["", ".", ".."]
    · refine iff_of_false (not_flagsReadBack_of_dots hpath hparsed hdots hstored) fun hboth => ?_
      obtain ⟨flag, hflag, hletter⟩ := hboth.2 hdots
      exact hstored flag hflag hletter
    · have hname : SingleComponent (uniqueIdPart filename) := by
        simp only [List.mem_cons, List.not_mem_nil, or_false, not_or] at hdots
        exact singleComponent_of_slash_notMem hslash hdots.1 hdots.2.1 hdots.2.2
      rw [flagsReadBack_iff_of_single hpath hparsed (MaildirFormat.singleComponent_append hname flags)]
      exact ⟨fun hcolon => ⟨hcolon, fun hnone => absurd hnone hdots⟩, And.left⟩
  · have hletters : letters flags ≠ [] := fun hnil =>
      hstored (MaildirFormat.letters_eq_nil_iff.mp hnil)
    rw [flagsReadBack_iff_of_single hpath hparsed
      (MaildirFormat.singleComponent_append_letters hslash hletters)]
    simp only [not_forall, not_not] at hstored
    obtain ⟨flag, hflag, hletter⟩ := hstored
    exact ⟨fun hcolon => ⟨hcolon, fun _ => ⟨flag, hflag, hletter⟩⟩, And.left⟩

/-- The flags of a message with a plain name. -/
theorem flags_readBack_iff_plain :
    FlagsReadBack "/mail" "ann/box/new/m1"
      { uniqueId := "m1", flags := [], isNew := true, username := "ann", mailbox := "box" }
      [.seen, .recent] :=
  (flags_readBack_iff "/mail" "ann/box/new/m1" "ann" "box" "new" "m1" (by decide)
    { uniqueId := "m1", flags := [], isNew := true, username := "ann", mailbox := "box" }
    (by decide) [.seen, .recent]).mpr (by decide)

/-- The parser accepts a name with a colon, and does not find the flags that are written
behind it. -/
theorem flags_after_colon_are_lost :
    ∃ path parsed flags,
      components path = [.normal "ann", .normal "box", .normal "new", .normal "a:b"] ∧
      MaildirFormat.parseMessagePath (join "/mail" path) "/mail" = some parsed ∧
      ¬ FlagsReadBack "/mail" path parsed flags := by
  refine ⟨"ann/box/new/a:b",
    { uniqueId := "a", flags := [], isNew := true, username := "ann", mailbox := "box" }, [.seen],
    by decide, by decide, ?_⟩
  rintro ⟨target, again, htarget, hparse, hreads⟩
  have hgoes : flagPath flagsToFilenameComponent "ann/box/new/a:b" [.seen] =
      .ok "ann/box/cur/a:b:2,S" := by decide +kernel
  obtain rfl := Except.ok.inj (hgoes.symm.trans htarget)
  have hread : MaildirFormat.parseMessagePath (join "/mail" "ann/box/cur/a:b:2,S") "/mail" =
      some { uniqueId := "a", flags := [], isNew := false, username := "ann", mailbox := "box" } := by
    decide +kernel
  obtain rfl := Option.some.inj (hread.symm.trans hparse)
  have hseen := (hreads.flags .seen).mpr ⟨by decide, by decide⟩
  cases hseen

end Scuttled
