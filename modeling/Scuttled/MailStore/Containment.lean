import Scuttled.Index.UidUniqueness
import Scuttled.MailStore.Maildir

/-!
# Mail stays in the directory of its user

A mailbox name is spliced into paths as the client sent it.  The files and
directories of a mailbox stay inside the directory of its user exactly when the
name is relative and never climbs above where it starts.
-/

namespace Scuttled

open Rust

/-- Where the file of a message and the directories of its mailbox are, as the
mail store and the watcher resolve them. -/
def places (root username mailbox : String) (id : MessageId) : List Location :=
  resolve (fullPath root (InMemoryBackend.makeMessagePath username mailbox id)) ::
    (watchDirectories root username mailbox).map resolve

/-- All of them are inside the directory of the user. -/
def Contained (root username mailbox : String) (id : MessageId) : Prop :=
  ∀ place ∈ places root username mailbox id, place.StrictlyBelow (resolve (join root username))

/-- The name is relative and never climbs above the directory it starts in. -/
def StaysInMailbox (mailbox : String) : Prop := StaysInside 0 (components mailbox)

/-! ## The walks along the paths -/

theorem singleComponent_messageFile (id : MessageId) : SingleComponent (id.display ++ ".eml") := by
  have hlength : 4 < (id.display ++ ".eml").toList.length := by
    simp [MessageId.display]
  have hslash : '/' ∉ (id.display ++ ".eml").toList := by
    rw [String.toList_append, List.mem_append]
    rintro (hmem | hmem)
    · obtain hhyphen | hdigit := MessageId.mem_display hmem
      · exact absurd hhyphen (by decide)
      · exact absurd hdigit (by decide)
    · exact absurd hmem (by decide)
  refine singleComponent_of_slash_notMem hslash ?_ ?_ ?_ <;>
    · intro hsame
      rw [hsame] at hlength
      exact absurd hlength (by decide)

theorem resolve_join_username (root : String) {username : String}
    (husername : SingleComponent username) :
    resolve (join root username) =
      { resolve root with names := (resolve root).names ++ [username] } := by
  rw [resolve_join, husername]
  rfl

theorem resolve_messagePath (root : String) {username : String}
    (husername : SingleComponent username) (mailbox : String) (id : MessageId) :
    resolve (fullPath root (InMemoryBackend.makeMessagePath username mailbox id)) =
      ((bodyComponents mailbox).foldl Location.enter (resolve (join root username))).enter
        (.normal (id.display ++ ".eml")) := by
  have hpath : InMemoryBackend.makeMessagePath username mailbox id =
      username ++ "/" ++ mailbox ++ "/" ++ (id.display ++ ".eml") := by
    simp only [InMemoryBackend.makeMessagePath, String.append_assoc]
  have hrelative : isAbsolute (InMemoryBackend.makeMessagePath username mailbox id) = false := by
    rw [hpath, String.append_assoc, String.append_assoc, String.append_assoc,
      isAbsolute_append husername.ne_empty]
    exact husername.isAbsolute_eq
  rw [fullPath, resolve_join_of_relative root hrelative, hpath, bodyComponents_slash,
    bodyComponents_slash, husername.bodyComponents_eq,
    (singleComponent_messageFile id).bodyComponents_eq,
    List.foldl_append, List.foldl_append, resolve_join_username root husername]
  rfl

theorem resolve_watchDirectory (root username mailbox : String) {subdirectory : String}
    (hsubdirectory : SingleComponent subdirectory) :
    resolve (join (mailboxPath root username mailbox) subdirectory) =
      ((components mailbox).foldl Location.enter (resolve (join root username))).enter
        (.normal subdirectory) := by
  rw [resolve_join, mailboxPath, resolve_join (join root username), hsubdirectory]
  rfl

theorem singleComponent_of_mem_watchSubdirectories {subdirectory : String}
    (hmem : subdirectory ∈ MaildirFormat.watchSubdirectories) : SingleComponent subdirectory := by
  revert subdirectory
  decide

/-! ## Names that stay inside -/

theorem strictlyBelow_enter_normal {username : String} {base : Location}
    {inner : List String} (name : String) :
    Location.StrictlyBelow
      (Location.enter { base with names := base.names ++ [username] ++ inner } (.normal name))
      { base with names := base.names ++ [username] } := by
  refine ⟨rfl, rfl, ?_⟩
  cases inner with
  | nil => exact ⟨name, [], by simp [Location.enter]⟩
  | cons first inner => exact ⟨first, inner ++ [name], by simp [Location.enter]⟩

theorem contained_of_staysInMailbox (root : String) {username mailbox : String}
    (husername : SingleComponent username) (hmailbox : StaysInMailbox mailbox) (id : MessageId) :
    Contained root username mailbox id := by
  have hbody := ((staysInside_components_iff mailbox).mp hmailbox).2
  intro place hplace
  rw [places, List.mem_cons, List.mem_map] at hplace
  rw [resolve_join_username root husername]
  rcases hplace with hplace | ⟨directory, hdirectory, hplace⟩
  · obtain ⟨inner, hinner⟩ := foldl_enter_of_staysInside hbody (resolve root).absolute
      (resolve root).up ((resolve root).names ++ [username]) (List.length_nil)
    rw [List.append_nil] at hinner
    rw [hplace, resolve_messagePath root husername, resolve_join_username root husername, hinner]
    exact strictlyBelow_enter_normal _
  · obtain ⟨subdirectory, hmem, rfl⟩ := List.mem_map.mp hdirectory
    obtain ⟨inner, hinner⟩ := foldl_enter_of_staysInside hmailbox (resolve root).absolute
      (resolve root).up ((resolve root).names ++ [username]) (List.length_nil)
    rw [List.append_nil] at hinner
    rw [← hplace, resolve_watchDirectory root username mailbox
      (singleComponent_of_mem_watchSubdirectories hmem), resolve_join_username root husername,
      hinner]
    exact strictlyBelow_enter_normal _

/-! ## Names that leave -/

theorem eq_of_strictlyBelow {place base : Location} {first second : String}
    (hfirst : place.StrictlyBelow { base with names := base.names ++ [first] })
    (hsecond : place.StrictlyBelow { base with names := base.names ++ [second] }) :
    first = second := by
  obtain ⟨-, -, name, rest, hnames⟩ := hfirst
  obtain ⟨-, -, name', rest', hnames'⟩ := hsecond
  have hsame := hnames.symm.trans hnames'
  rw [List.append_assoc, List.append_assoc] at hsame
  exact (List.cons.inj (List.append_cancel_left hsame)).1

theorem staysInMailbox_of_contained {root first second mailbox : String} {id : MessageId}
    (hfirst : SingleComponent first) (hsecond : SingleComponent second) (hne : first ≠ second)
    (hcontained : Contained root first mailbox id)
    (hcontained' : Contained root second mailbox id) : StaysInMailbox mailbox := by
  by_contra hleaves
  have hnew : SingleComponent "new" := by decide
  have hmem (username : String) :
      resolve (join (mailboxPath root username mailbox) "new") ∈
        places root username mailbox id :=
    List.mem_cons_of_mem _ (List.mem_map_of_mem List.mem_cons_self)
  have hbelow := hcontained _ (hmem first)
  have hbelow' := hcontained' _ (hmem second)
  rw [resolve_watchDirectory root first mailbox hnew, resolve_join_username root hfirst] at hbelow
  rw [resolve_watchDirectory root second mailbox hnew, resolve_join_username root hsecond,
    ← foldl_enter_of_not_staysInside hleaves _ _ _ List.length_nil first second] at hbelow'
  exact hne (eq_of_strictlyBelow hbelow hbelow')

/-! ## Containment -/

/-- No place of the first kind is a place of the second, or inside one. -/
def Apart (first second : List Location) : Prop :=
  ∀ place ∈ first, ∀ place' ∈ second, place ≠ place' ∧ ¬ place.StrictlyBelow place'

theorem apart_of_contained {root first second mailbox mailbox' : String} {id id' : MessageId}
    (hfirst : SingleComponent first) (hsecond : SingleComponent second) (hne : first ≠ second)
    (hcontained : Contained root first mailbox id)
    (hcontained' : Contained root second mailbox' id') :
    Apart (places root first mailbox id) (places root second mailbox' id') := by
  intro place hplace place' hplace'
  have hbelow := hcontained place hplace
  have hbelow' := hcontained' place' hplace'
  rw [resolve_join_username root hfirst] at hbelow
  rw [resolve_join_username root hsecond] at hbelow'
  constructor
  · rintro rfl
    exact hne (eq_of_strictlyBelow hbelow hbelow')
  · intro hinside
    exact hne (eq_of_strictlyBelow hbelow (hinside.trans hbelow'))

/--
A mailbox name keeps the mail of every user inside the directory of that user
exactly when it is relative and never climbs above where it starts.  The files
of two users with such mailboxes are apart.
-/
theorem contained_iff_staysInMailbox (root mailbox : String) (id : MessageId) :
    ((∀ username, SingleComponent username → Contained root username mailbox id) ↔
        StaysInMailbox mailbox) ∧
      ∀ first second mailbox' id', SingleComponent first → SingleComponent second →
        first ≠ second → StaysInMailbox mailbox → StaysInMailbox mailbox' →
          Apart (places root first mailbox id) (places root second mailbox' id') := by
  refine ⟨⟨fun hcontained => ?_, fun hmailbox username husername => ?_⟩, ?_⟩
  · have hann : SingleComponent "ann" := by decide
    have hbob : SingleComponent "bob" := by decide
    exact staysInMailbox_of_contained hann hbob (by decide) (hcontained "ann" hann)
      (hcontained "bob" hbob)
  · exact contained_of_staysInMailbox root husername hmailbox id
  · intro first second mailbox' id' hfirst hsecond hne hmailbox hmailbox'
    exact apart_of_contained hfirst hsecond hne
      (contained_of_staysInMailbox root hfirst hmailbox id)
      (contained_of_staysInMailbox root hsecond hmailbox' id')

/-- CREATE stores the name `..` for ann; the directories of that mailbox are in
the root of the store, next to those of the users. -/
theorem parent_mailbox_not_contained :
    ((((callOfAnn "a1" "..").run createHandler (inMemoryMailboxes .searching .listed)
        InMemoryMailboxes.new).state.mailboxes.lookup ("ann", "..")).isSome) ∧
      SingleComponent "ann" ∧ ¬ Contained "/mail" "ann" ".." ⟨1⟩ := by
  refine ⟨by decide +kernel, by decide, fun hcontained => ?_⟩
  have hplace : resolve "/mail/ann/../new" ∈ places "/mail" "ann" ".." ⟨1⟩ := by decide
  obtain ⟨-, -, name, rest, hnames⟩ := hcontained _ hplace
  have hnew : (resolve "/mail/ann/../new").names = ["mail", "new"] := by decide
  have hann : (resolve (join "/mail" "ann")).names = ["mail", "ann"] := by decide
  rw [hnew, hann] at hnames
  simp at hnames

end Scuttled
