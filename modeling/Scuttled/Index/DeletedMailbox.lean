import Scuttled.Index.Mapping

/-!
# A deleted mailbox

`MailboxDeleted` removes the entries of one mailbox, by their owner and mailbox, and
the keys that begin with its name, also those of the mailboxes below it.
-/

namespace Scuttled

open Rust Foundation

variable {engine : RegexEngine} {order : HashOrder (String × String) MailboxInfo}
  {indexing indexing' : Indexing} {username mailbox : String}

/-- The identifier was drawn for a message of the mailbox. -/
def Indexing.DrawnIn (indexing : Indexing) (username mailbox : String) (id : MessageId) : Prop :=
  ∃ key, originOf id indexing.log = some key ∧ key.In username mailbox

/-- Deleting a mailbox has removed its entries and their keys, and no other message is
beyond the reach of later events. -/
structure RemovesExactly (engine : RegexEngine) (order : HashOrder (String × String) MailboxInfo)
    (indexing : Indexing) (username mailbox : String) (indexing' : Indexing) : Prop where
  entries : ∀ id entry, indexing'.entry id = some entry ↔
    indexing.entry id = some entry ∧ ¬ indexing.DrawnIn username mailbox id
  keys : ∀ path id, indexing'.mapped path = some id ↔
    indexing.mapped path = some id ∧ ¬ indexing.DrawnIn username mailbox id
  others : ∀ id key, originOf id indexing.log = some key → ¬ key.In username mailbox →
    (indexing.entry id).isSome → indexing.mapped key.path = some id →
      ∀ actions later, ListenerRuns engine order (fun source action =>
          KeysAgree source action ∧ Spares key action) indexing' actions later →
        later.TakesEffect engine order key id

theorem startsWith_path (key : MessageKey) :
    startsWith key.path (key.username ++ "/" ++ key.mailbox ++ "/") = true := by
  rw [startsWith, List.isPrefixOf_iff_prefix, MessageKey.path, uniqueIdKey]
  simp [String.toList_append]

theorem Indexing.Spelled.entries_iff (hspelled : indexing.Spelled)
    (hentries : ∀ id entry, indexing'.entry id = some entry ↔
      indexing.entry id = some entry ∧ ¬ entry.In username mailbox)
    (id : MessageId) (entry : MessageEntry) :
    indexing'.entry id = some entry ↔
      indexing.entry id = some entry ∧ ¬ indexing.DrawnIn username mailbox id := by
  rw [hentries]
  refine and_congr_right fun hentry => not_congr ?_
  obtain ⟨key, horigin, hin⟩ := hspelled.in_iff hentry
  rw [hin]
  constructor
  · exact fun hkey => ⟨key, horigin, hkey⟩
  · rintro ⟨other, hother, hkey⟩
    rwa [Option.some.inj (horigin.symm.trans hother)]

theorem Indexing.Spelled.keys_iff (hspelled : indexing.Spelled)
    (hmapping : ∀ path id, indexing'.mapped path = some id ↔
      indexing.mapped path = some id ∧
        startsWith path (username ++ "/" ++ mailbox ++ "/") = false) :
    (∀ path id, indexing'.mapped path = some id ↔
      indexing.mapped path = some id ∧ ¬ indexing.DrawnIn username mailbox id) ↔
      indexing.KeysUnder username mailbox := by
  have hunder {path : String} {id : MessageId} (hmapped : indexing.mapped path = some id)
      (hdrawn : indexing.DrawnIn username mailbox id) :
      startsWith path (username ++ "/" ++ mailbox ++ "/") = true := by
    obtain ⟨key, horigin, rfl, rfl⟩ := hdrawn
    obtain ⟨own, hown, rfl⟩ := hspelled.mapping path id hmapped
    rw [Option.some.inj (hown.symm.trans horigin)]
    exact startsWith_path key
  constructor
  · rintro hexactly ⟨path, id⟩ hmem hstarts
    have hmapped : indexing.mapped path = some id := HashMap.lookup_eq_some_iff.mpr hmem
    by_contra hnot
    have hkept := ((hmapping path id).mp ((hexactly path id).mpr ⟨hmapped, hnot⟩)).2
    rw [hstarts] at hkept
    cases hkept
  · intro hkeys path id
    rw [hmapping]
    refine and_congr_right fun hmapped => ?_
    rw [← Bool.not_eq_true]
    refine not_congr ⟨fun hstarts => ?_, hunder hmapped⟩
    exact hkeys ⟨path, id⟩ (HashMap.lookup_eq_some_iff.mp hmapped) hstarts

/--
Deleting a mailbox.  In every state that the listener reaches from messages announced
under their keys, with whatever names: `MailboxDeleted` removes exactly the entries and
the keys of the messages of its mailbox, and leaves the others within the reach of later
events, exactly if every key that begins with its name is that of a message of it.
-/
theorem removesExactly_iff (engine : RegexEngine)
    (order : HashOrder (String × String) MailboxInfo) (registry : InMemoryMailboxes)
    (actions : List ListenerAction) (indexing indexing' : Indexing)
    (hrun : ListenerRuns engine order (fun _ action => PathOfKey action) (.new registry) actions
      indexing) (username mailbox : String) (messageId : MessageId)
    (hfresh : FreshIds indexing (.receive (.mailboxDeleted username mailbox) messageId))
    (hstep : listenerStep engine order indexing
      (.receive (.mailboxDeleted username mailbox) messageId) = some indexing') :
    RemovesExactly engine order indexing username mailbox indexing' ↔
      indexing.KeysUnder username mailbox := by
  have hspelled := (spelled_new registry).run (fun _ _ hpath => hpath) hrun
  cases indexing.effect_of_step hstep with
  | passed hkind => rcases hkind with hkind | hkind <;> cases hkind
  | emptied hentries hmapping hlog hphase =>
      rw [← hspelled.keys_iff hmapping]
      refine ⟨RemovesExactly.keys, fun hkeys => ⟨hspelled.entries_iff hentries, hkeys, ?_⟩⟩
      intro id key horigin hother hlive hmapped actions later hlater
      have hnot : ¬ indexing.DrawnIn username mailbox id := by
        rintro ⟨own, hown, hin⟩
        rw [Option.some.inj (hown.symm.trans horigin)] at hin
        exact hother hin
      refine Indexing.Reaches.takesEffect (Indexing.Reaches.run hlater ?_
        (hspelled.step hfresh trivial hstep))
      refine ⟨?_, (hkeys _ _).mpr ⟨hmapped, hnot⟩, ?_, fun created message hadding => ?_⟩
      · rw [hlog]
        exact originOf_concat_of_some _ _ horigin
      · obtain ⟨entry, hentry⟩ := Option.isSome_iff_exists.mp hlive
        rw [(hspelled.entries_iff hentries id entry).mpr ⟨hentry, hnot⟩]
        rfl
      · rw [hphase] at hadding
        cases hadding

/-- A mailbox with one message is deleted. -/
theorem removesExactly_iff_box :
    ∃ indexing indexing',
      ListenerRuns .searching .listed (fun _ action => PathOfKey action) (.new .new)
        [.serve (.create "ann" "box"), .receive (createdForAnn "box" "m1") ⟨1⟩, .add] indexing ∧
      listenerStep .searching .listed indexing (.receive (.mailboxDeleted "ann" "box") ⟨2⟩) =
        some indexing' ∧
      RemovesExactly .searching .listed indexing "ann" "box" indexing' := by
  let deleted : ListenerAction := .receive (.mailboxDeleted "ann" "box") ⟨2⟩
  have hsummary : ((List.foldlM (fun source action => if FreshIds source action ∧ PathOfKey action
      then listenerStep .searching .listed source action else none) (.new .new)
        [.serve (.create "ann" "box"), .receive (createdForAnn "box" "m1") ⟨1⟩, .add]).bind
        fun indexing => (listenerStep .searching .listed indexing deleted).map fun _ =>
          (decide (FreshIds indexing deleted), decide (indexing.KeysUnder "ann" "box"))) =
      some (true, true) := by
    decide +kernel
  obtain ⟨indexing, hindexing, hrest⟩ := Option.bind_eq_some_iff.mp hsummary
  obtain ⟨indexing', hstep, hpair⟩ := Option.map_eq_some_iff.mp hrest
  obtain ⟨hfresh, hunder⟩ := Prod.mk.inj hpair
  have hrun : ListenerRuns .searching .listed (fun _ action => PathOfKey action) (.new .new)
      [.serve (.create "ann" "box"), .receive (createdForAnn "box" "m1") ⟨1⟩, .add] indexing :=
    Steps.guarded_of_foldlM hindexing
  exact ⟨indexing, indexing', hrun, hstep, (removesExactly_iff .searching .listed .new _ indexing
    indexing' hrun "ann" "box" ⟨2⟩ (of_decide_eq_true hfresh) hstep).mpr (of_decide_eq_true hunder)⟩

/-- The key of a message in a mailbox below the deleted one is gone, its entry is not. -/
theorem child_mailbox_loses_keys :
    ∃ actions indexing indexing',
      ListenerRuns .searching .listed (fun _ action => PathOfKey action) (.new .new) actions
        indexing ∧
      listenerStep .searching .listed indexing (.receive (.mailboxDeleted "ann" "a") ⟨2⟩) =
        some indexing' ∧
      (indexing'.entry ⟨1⟩).isSome ∧
      ¬ RemovesExactly .searching .listed indexing "ann" "a" indexing' := by
  let actions : List ListenerAction :=
    [.serve (.create "ann" "a"), .serve (.create "ann" "a/b"),
      .receive (createdForAnn "a/b" "m1") ⟨1⟩, .add]
  let deleted : ListenerAction := .receive (.mailboxDeleted "ann" "a") ⟨2⟩
  have hsummary : ((List.foldlM (fun source action => if FreshIds source action ∧ PathOfKey action
      then listenerStep .searching .listed source action else none) (.new .new) actions).bind
        fun indexing => (listenerStep .searching .listed indexing deleted).map fun indexing' =>
          (originOf ⟨1⟩ indexing.log, indexing.mapped "ann/a/b/m1", (indexing'.entry ⟨1⟩).isSome,
            indexing'.mapped "ann/a/b/m1")) =
      some (some ⟨"ann", "a/b", "m1"⟩, some ⟨1⟩, true, none) := by
    decide +kernel
  obtain ⟨indexing, hindexing, hrest⟩ := Option.bind_eq_some_iff.mp hsummary
  obtain ⟨indexing', hstep, hpair⟩ := Option.map_eq_some_iff.mp hrest
  simp only [Prod.mk.injEq] at hpair
  obtain ⟨horigin, hmapped, hlive, hgone⟩ := hpair
  refine ⟨actions, indexing, indexing', Steps.guarded_of_foldlM hindexing, hstep, hlive,
    fun hexactly => ?_⟩
  have hkept := (hexactly.keys "ann/a/b/m1" ⟨1⟩).mpr ⟨hmapped, ?_⟩
  · rw [hgone] at hkept
    cases hkept
  · rintro ⟨key, hkey, -, hmailbox⟩
    rw [horigin] at hkey
    rw [← Option.some.inj hkey] at hmailbox
    exact absurd hmailbox (by decide)

end Scuttled
