import Scuttled.MailStore.Watcher

/-!
# Flags in file names

What `flags_to_filename_component` writes behind the unique identifier of a message,
`parse_message_path` reads from there: the flags that are stored, in the order of
their letters.
-/

namespace Scuttled

open Rust

namespace MaildirFormat

/-- The flags Maildir has a letter for. -/
def storedFlags : List MessageFlag := [.draft, .flagged, .answered, .seen, .deleted]

theorem flagOf_of_letterOf {flag : MessageFlag} {letter : Char}
    (hletter : letterOf flag = some letter) : flagOf letter = some flag := by
  cases flag <;> cases hletter <;> rfl

theorem letterOf_eq_none_iff {flag : MessageFlag} :
    letterOf flag = none ↔ flag ∉ storedFlags := by
  cases flag <;> simp [letterOf, storedFlags]

theorem parseFlags_letters (flags : List MessageFlag) :
    parseFlags (flags.filterMap letterOf) = flags.filter (· ∈ storedFlags) := by
  induction flags with
  | nil => rfl
  | cons flag rest ih =>
      cases hletter : letterOf flag with
      | none =>
          have hnot : flag ∉ storedFlags := letterOf_eq_none_iff.mp hletter
          rw [List.filterMap_cons_none hletter, ih, List.filter_cons, if_neg (by simpa using hnot)]
      | some letter =>
          have hstored : flag ∈ storedFlags := by
            by_contra hnot
            rw [letterOf_eq_none_iff.mpr hnot] at hletter
            cases hletter
          rw [List.filterMap_cons_some hletter, List.filter_cons, if_pos (by simpa using hstored),
            ← ih, parseFlags, List.filterMap_cons_some (flagOf_of_letterOf hletter)]
          rfl

theorem parseFlags_letters_perm (flags : List MessageFlag) :
    (parseFlags (letters flags)).Perm (flags.filter (· ∈ storedFlags)) := by
  rw [← parseFlags_letters]
  exact (List.perm_insertionSort _ _).filterMap _

theorem letters_congr {flags flags' : List MessageFlag}
    (hperm : (flags.filter (· ∈ storedFlags)).Perm (flags'.filter (· ∈ storedFlags))) :
    letters flags = letters flags' := by
  have hletters (given : List MessageFlag) :
      (given.filter (· ∈ storedFlags)).filterMap letterOf = given.filterMap letterOf := by
    rw [List.filterMap_filter]
    refine List.filterMap_congr fun flag _ => ?_
    split
    · rfl
    · rename_i hnot
      exact (letterOf_eq_none_iff.mpr (by simpa using hnot)).symm
  have hsorted (given : List MessageFlag) : (letters given).Pairwise (· ≤ ·) :=
    List.pairwise_insertionSort _ _
  refine List.Perm.eq_of_pairwise' (hsorted flags) (hsorted flags') ?_
  refine (List.perm_insertionSort _ _).trans (.trans ?_ (List.perm_insertionSort _ _).symm)
  rw [← hletters flags, ← hletters flags']
  exact hperm.filterMap _

theorem letters_eq_nil_iff {flags : List MessageFlag} :
    letters flags = [] ↔ ∀ flag ∈ flags, flag ∉ storedFlags := by
  have hperm : (letters flags).Perm (flags.filterMap letterOf) := List.perm_insertionSort _ _
  rw [← List.isEmpty_iff, hperm.isEmpty_eq, List.isEmpty_iff, List.filterMap_eq_nil_iff]
  exact forall₂_congr fun flag _ => letterOf_eq_none_iff

theorem slash_notMem_letters (flags : List MessageFlag) : '/' ∉ letters flags := by
  intro hslash
  rw [letters, List.mem_insertionSort] at hslash
  obtain ⟨flag, -, hletter⟩ := List.mem_filterMap.mp hslash
  cases flag <;> cases hletter

theorem flagsToFilenameComponent_cases (flags : List MessageFlag) :
    flagsToFilenameComponent flags = "" ∨
      ∃ rest, flagsToFilenameComponent flags = ":2," ++ rest := by
  unfold flagsToFilenameComponent
  split
  · exact .inl rfl
  · exact .inr ⟨_, rfl⟩

/-! ## File names -/

theorem splitFilename_append {uniqueId : String} (hcolon : ':' ∉ uniqueId.toList)
    (flags : List MessageFlag) :
    splitFilename (uniqueId ++ flagsToFilenameComponent flags) =
      (uniqueId, parseFlags (letters flags)) := by
  have hall : ∀ c ∈ uniqueId.toList, (c != ':') = true := fun c hc =>
    bne_iff_ne.mpr fun hsame => hcolon (hsame ▸ hc)
  unfold splitFilename flagsToFilenameComponent
  cases hletters : letters flags with
  | nil =>
      have htake : uniqueId.toList.takeWhile (· != ':') = uniqueId.toList :=
        List.takeWhile_eq_self_iff.mpr hall
      have hdrop : uniqueId.toList.dropWhile (· != ':') = [] := List.dropWhile_eq_nil_iff.mpr hall
      simp [htake, hdrop, parseFlags]
  | cons letter rest =>
      have hchars : (uniqueId ++ (":2," ++ String.ofList (letter :: rest))).toList =
          uniqueId.toList ++ ':' :: '2' :: ',' :: letter :: rest := by
        simp [String.toList_append]
      simp only [List.isEmpty_cons, Bool.false_eq_true, if_false, hchars,
        List.takeWhile_append_of_pos hall, List.dropWhile_append_of_pos hall]
      simp

theorem singleComponent_append_letters {start : String} (hslash : '/' ∉ start.toList)
    {flags : List MessageFlag} (hletters : letters flags ≠ []) :
    SingleComponent (start ++ flagsToFilenameComponent flags) := by
  unfold flagsToFilenameComponent
  rw [if_neg (by simpa using hletters)]
  have hslashes : '/' ∉ (start ++ (":2," ++ String.ofList (letters flags))).toList := by
    simp only [String.toList_append, String.toList_ofList, List.mem_append, not_or]
    exact ⟨hslash, by decide, slash_notMem_letters flags⟩
  have hcolon : ':' ∈ (start ++ (":2," ++ String.ofList (letters flags))).toList := by
    simp [String.toList_append]
  have hother {other : String} (hnone : ':' ∉ other.toList) :
      start ++ (":2," ++ String.ofList (letters flags)) ≠ other :=
    fun hsame => hnone (hsame ▸ hcolon)
  exact singleComponent_of_slash_notMem hslashes (hother (by decide)) (hother (by decide))
    (hother (by decide))

theorem singleComponent_append {name : String} (hname : SingleComponent name)
    (flags : List MessageFlag) : SingleComponent (name ++ flagsToFilenameComponent flags) := by
  by_cases hletters : letters flags = []
  · rw [flagsToFilenameComponent, hletters]
    exact (@String.append_empty name).symm ▸ hname
  · exact singleComponent_append_letters hname.slash_notMem hletters

end MaildirFormat

/--
The round trip of file names.  A message file that is named by a unique identifier
without a colon and the component of some flags is parsed as what it was named by:
the user, the mailbox, the identifier, whether it is new, and the flags that are
stored.  Of the flags, the component depends on those that are stored only, and not
on their order.
-/
theorem parseMessagePath_flagsToFilenameComponent (root : String)
    {username mailbox subdir uniqueId : String} (husername : SingleComponent username)
    (hmailbox : SingleComponent mailbox) (hsubdir : subdir = "new" ∨ subdir = "cur")
    (huniqueId : SingleComponent uniqueId) (hcolon : ':' ∉ uniqueId.toList)
    (flags : List MessageFlag) :
    (∃ parsedFlags,
      MaildirFormat.parseMessagePath (messageFilePath root username mailbox subdir
          (uniqueId ++ MaildirFormat.flagsToFilenameComponent flags)) root =
        some { uniqueId, flags := parsedFlags, isNew := subdir == "new", username, mailbox } ∧
      parsedFlags.Perm (flags.filter (· ∈ MaildirFormat.storedFlags))) ∧
    ∀ flags', (flags.filter (· ∈ MaildirFormat.storedFlags)).Perm
        (flags'.filter (· ∈ MaildirFormat.storedFlags)) →
      MaildirFormat.flagsToFilenameComponent flags =
        MaildirFormat.flagsToFilenameComponent flags' := by
  refine ⟨⟨MaildirFormat.parseFlags (MaildirFormat.letters flags), ?_,
    MaildirFormat.parseFlags_letters_perm flags⟩, fun flags' hperm => ?_⟩
  · have hfilename := MaildirFormat.singleComponent_append huniqueId flags
    have hsingle : SingleComponent subdir := by
      rcases hsubdir with rfl | rfl <;> decide
    rw [parseMessagePath_messageFilePath root husername hmailbox hsingle hfilename,
      MaildirFormat.splitFilename_append hcolon]
    rcases hsubdir with rfl | rfl <;> rfl
  · unfold MaildirFormat.flagsToFilenameComponent
    rw [MaildirFormat.letters_congr hperm]

/-- The round trip of a file in `cur`. -/
theorem parseMessagePath_flagsToFilenameComponent_seen :
    ∃ parsedFlags,
      MaildirFormat.parseMessagePath (messageFilePath "/mail" "ann" "box" "cur"
          ("m1" ++ MaildirFormat.flagsToFilenameComponent [.seen, .recent, .draft])) "/mail" =
        some { uniqueId := "m1", flags := parsedFlags, isNew := false, username := "ann",
               mailbox := "box" } ∧
      parsedFlags.Perm [.seen, .draft] :=
  (parseMessagePath_flagsToFilenameComponent "/mail" (by decide) (by decide) (.inr rfl) (by decide)
    (by decide) [.seen, .recent, .draft]).1

end Scuttled
