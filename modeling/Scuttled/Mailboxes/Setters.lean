import Scuttled.Handlers.Pattern
import Scuttled.Mailboxes.Issues

/-!
# UIDs and the setters

`update_next_uid` and `update_uid_validity` write whatever they are given, a
creation takes the next validity whatever the setters have written, and drawing
increments without a check.  A UID is never issued again along the runs in which
the next UID of a mailbox stays above those already drawn under its validity.
-/

namespace Scuttled

open Rust Foundation

/-- A mailbox with this validity and next UID issues nothing a second time. -/
def Unissued (history : List Issue) (mailbox : String × String) (uidValidity : UInt32)
    (nextUid : Uid) : Prop :=
  1 ≤ nextUid ∧ ∀ draw ∈ drawsOf mailbox uidValidity history, draw.uid < nextUid

instance (history : List Issue) (mailbox : String × String) (uidValidity : UInt32)
    (nextUid : Uid) : Decidable (Unissued history mailbox uidValidity nextUid) :=
  inferInstanceAs (Decidable (_ ∧ _))

/-- The mailbox a command is about. -/
def WriteCommand.mailbox : WriteCommand → String × String
  | .create username name | .delete username name | .getNextUid username name => (username, name)
  | .updateNextUid id _ | .updateUidValidity id _ | .updateCounts id _ _ _ => (id.username, id.name)

/-- The validity and the next UID a command gives its mailbox were not issued, and
no UID is drawn from a counter at its end. -/
def KeepsUnissued (history : List Issue) (registry : InMemoryMailboxes) : RegistryCall → Prop
  | .write command =>
      match command, registry.state.mailboxes.lookup command.mailbox with
      | .create _ _, none =>
          Unissued history command.mailbox registry.state.nextUidValidity 1
      | .updateNextUid _ nextUid, some info =>
          Unissued history command.mailbox info.uidValidity nextUid
      | .updateUidValidity _ uidValidity, some info =>
          Unissued history command.mailbox uidValidity info.nextUid
      | .getNextUid _ _, some info => info.nextUid ≠ UInt32.ofNat (2 ^ 32 - 1)
      | _, _ => True
  | _ => True

instance (history : List Issue) (registry : InMemoryMailboxes) (call : RegistryCall) :
    Decidable (KeepsUnissued history registry call) := by
  unfold KeepsUnissued
  split
  · split <;> infer_instance
  · infer_instance

/-- No UID is issued twice from a mailbox under one validity, later ones are
greater, none is 0, and none is the last one, after which the counter overflows. -/
structure NeverReissued (history : List Issue) : Prop where
  increasing : (draws history).Pairwise fun earlier later =>
    earlier.mailbox = later.mailbox → earlier.uidValidity = later.uidValidity →
      earlier.uid < later.uid
  positive : ∀ draw ∈ draws history, 1 ≤ draw.uid
  bounded : ∀ draw ∈ draws history, draw.uid ≠ UInt32.ofNat (2 ^ 32 - 1)

/-! ## The invariant -/

/-- Every mailbox is about to issue something new. -/
structure Unspent (history : List Issue) (registry : InMemoryMailboxes) : Prop where
  wellFormed : registry.state.WellFormed
  never : NeverReissued history
  live : ∀ mailbox info, registry.state.mailboxes.lookup mailbox = some info →
    Unissued history mailbox info.uidValidity info.nextUid

theorem unspent_new : Unspent [] .new where
  wellFormed := MailboxState.wellFormed_new
  never := ⟨.nil, fun _ hdraw => (nomatch hdraw), fun _ hdraw => (nomatch hdraw)⟩
  live := by simp [InMemoryMailboxes.new, MailboxState.new]

@[simp] theorem draws_append_created (history : List Issue) (mailbox : String × String)
    (uidValidity : UInt32) :
    draws (history ++ [.created mailbox uidValidity]) = draws history := by
  rw [draws_append]
  exact List.append_nil _

theorem unissued_append_created {history : List Issue} {mailbox created : String × String}
    {uidValidity newValidity : UInt32} {nextUid : Uid} :
    Unissued (history ++ [.created created newValidity]) mailbox uidValidity nextUid ↔
      Unissued history mailbox uidValidity nextUid := by
  rw [Unissued, drawsOf, draws_append_created]
  rfl

theorem NeverReissued.of_draws_eq {history history' : List Issue} (hnever : NeverReissued history)
    (hdraws : draws history' = draws history) : NeverReissued history' where
  increasing := hdraws ▸ hnever.increasing
  positive := hdraws ▸ hnever.positive
  bounded := hdraws ▸ hnever.bounded

variable {history : List Issue} {registry : InMemoryMailboxes}

theorem Unspent.insert (hunspent : Unspent history registry) {mailbox : String × String}
    {info : MailboxInfo} (hunissued : Unissued history mailbox info.uidValidity info.nextUid)
    {state : MailboxState} (hwellFormed : state.WellFormed)
    (hstate : state.mailboxes = registry.state.mailboxes.insert mailbox info) :
    Unspent history { registry with state } where
  wellFormed := hwellFormed
  never := hunspent.never
  live := by
    intro other found hfound
    rw [hstate, HashMap.lookup_insert_eq] at hfound
    split at hfound
    · rename_i hother
      rw [hother, ← Option.some.inj hfound]
      exact hunissued
    · exact hunspent.live other found hfound

theorem Unspent.updateInfo (hunspent : Unspent history registry) (id : MailboxId)
    {update : MailboxInfo → MailboxInfo} (hid : ∀ info, (update info).id = info.id)
    (hunissued : ∀ info, registry.state.mailboxes.lookup (id.username, id.name) = some info →
      Unissued history (id.username, id.name) (update info).uidValidity (update info).nextUid) :
    Unspent history { registry with state := (registry.state.updateInfo id update).2 } := by
  have hwellFormed := hunspent.wellFormed.updateInfo id hid
  obtain ⟨-, hrefused⟩ | ⟨info, hlookup, hupdated⟩ :=
    MailboxState.updateInfo_cases hunspent.wellFormed id update
  · rw [hrefused]
    exact hunspent
  · rw [hupdated] at hwellFormed ⊢
    exact hunspent.insert (hunissued info hlookup) hwellFormed rfl

theorem Unspent.create (hunspent : Unspent history registry) (username name : String)
    (hkeeps : KeepsUnissued history registry (.write (.create username name))) :
    Unspent (history ++ issues registry (.write (.create username name)))
      { registry with state := (registry.state.createMailbox username name).2 } := by
  have hwellFormed := hunspent.wellFormed.createMailbox username name
  obtain ⟨-, -, hrefused⟩ | ⟨hlookup, info, -, hnext, hvalidity, hcreated⟩ :=
    registry.state.createMailbox_cases username name
  · have hnone : issues registry (.write (.create username name)) = [] := by
      simp only [issues, hrefused]
    rw [hnone, List.append_nil, hrefused]
    exact hunspent
  · have hissues : issues registry (.write (.create username name)) =
        [.created (username, name) info.uidValidity] := by
      simp only [issues, hcreated]
    have hunissued : Unissued history (username, name) info.uidValidity info.nextUid := by
      simp only [KeepsUnissued, WriteCommand.mailbox, hlookup] at hkeeps
      rw [hvalidity, hnext]
      exact hkeeps
    rw [hcreated] at hwellFormed ⊢
    have hstored := hunspent.insert hunissued hwellFormed rfl
    rw [hissues]
    exact ⟨hstored.wellFormed, hstored.never.of_draws_eq (draws_append_created _ _ _),
      fun mailbox found hfound => unissued_append_created.mpr (hstored.live mailbox found hfound)⟩

theorem Unspent.getNextUid (hunspent : Unspent history registry) (username name : String)
    (hkeeps : KeepsUnissued history registry (.write (.getNextUid username name))) :
    Unspent (history ++ issues registry (.write (.getNextUid username name)))
      { registry with state := (registry.state.getNextUid username name).2 } := by
  have hwellFormed := hunspent.wellFormed.getNextUid username name
  obtain ⟨hlookup, hrefused⟩ | ⟨info, hlookup, hserved⟩ :=
    registry.state.getNextUid_cases username name
  · have hnone : issues registry (.write (.getNextUid username name)) = [] := by
      simp only [issues, hlookup]
    rw [hnone, List.append_nil, hrefused]
    exact hunspent
  · have hissues : issues registry (.write (.getNextUid username name)) =
        [.drawn ⟨(username, name), info.uidValidity, info.nextUid⟩] := by
      simp only [issues, hlookup, hserved]
    simp only [KeepsUnissued, WriteCommand.mailbox, hlookup] at hkeeps
    obtain ⟨hpositive, hbelow⟩ := hunspent.live _ _ hlookup
    have hlt : info.nextUid < info.nextUid + 1 := by
      rw [ne_eq, ← UInt32.toNat_inj] at hkeeps
      have hsmall : info.nextUid.toNat + 1 < 2 ^ 32 := by
        have hrange := info.nextUid.toNat_lt
        have hlast : (UInt32.ofNat (2 ^ 32 - 1)).toNat = 2 ^ 32 - 1 := by decide
        omega
      rw [UInt32.lt_iff_toNat_lt, UInt32.toNat_add, UInt32.toNat_one, Nat.mod_eq_of_lt hsmall]
      exact Nat.lt_succ_self _
    rw [hissues]
    rw [hserved] at hwellFormed ⊢
    refine ⟨hwellFormed, ⟨?_, ?_, ?_⟩, fun mailbox found hfound => ?_⟩
    · rw [draws_append, List.pairwise_append]
      refine ⟨hunspent.never.increasing, List.pairwise_singleton _ _, ?_⟩
      intro earlier hearlier later hlater hmailbox hvalidity
      obtain rfl := List.mem_singleton.mp hlater
      exact hbelow earlier (mem_drawsOf.mpr ⟨hearlier, hmailbox, hvalidity⟩)
    · intro draw hdraw
      rw [draws_append, List.mem_append] at hdraw
      rcases hdraw with hearlier | hlast
      · exact hunspent.never.positive draw hearlier
      · rw [List.mem_singleton.mp hlast]
        exact hpositive
    · intro draw hdraw
      rw [draws_append, List.mem_append] at hdraw
      rcases hdraw with hearlier | hlast
      · exact hunspent.never.bounded draw hearlier
      · rw [List.mem_singleton.mp hlast]
        exact hkeeps
    · rw [HashMap.lookup_insert_eq] at hfound
      split at hfound
      · rename_i hmailbox
        obtain rfl := Option.some.inj hfound
        refine ⟨UInt32.le_trans hpositive (UInt32.le_of_lt hlt), fun draw hdraw => ?_⟩
        rw [drawsOf_append, List.mem_append] at hdraw
        rcases hdraw with hearlier | hlast
        · rw [hmailbox] at hearlier
          exact UInt32.lt_trans (hbelow draw hearlier) hlt
        · rw [List.mem_singleton.mp (mem_drawsOf.mp hlast).1]
          exact hlt
      · rename_i hmailbox
        obtain ⟨hpositive', hbelow'⟩ := hunspent.live mailbox found hfound
        refine ⟨hpositive', fun draw hdraw => ?_⟩
        rw [drawsOf_append, List.mem_append] at hdraw
        rcases hdraw with hearlier | hlast
        · exact hbelow' draw hearlier
        · obtain ⟨hlast, hother, -⟩ := mem_drawsOf.mp hlast
          rw [List.mem_singleton.mp hlast] at hother
          exact absurd hother.symm hmailbox

/-- Every call that meets the condition keeps the invariant. -/
theorem Unspent.step (hunspent : Unspent history registry) (engine : RegexEngine)
    (order : HashOrder (String × String) MailboxInfo) {call : RegistryCall}
    (hkeeps : KeepsUnissued history registry call) :
    Unspent (history ++ issues registry call)
      ((registryMachine engine order).step registry call).1 := by
  have hwellFormed := wellFormed_step engine order registry hunspent.wellFormed call
  cases call with
  | getMailbox username name =>
      rw [issues_eq_nil (by simp) (by simp), List.append_nil]
      exact hunspent
  | listMailboxes username filter =>
      rw [issues_eq_nil (by simp) (by simp), List.append_nil]
      have hsame := state_step_read engine order registry (.listMailboxes username filter) (by simp)
      refine ⟨hwellFormed, hunspent.never, fun mailbox info hinfo => ?_⟩
      rw [hsame] at hinfo
      exact hunspent.live mailbox info hinfo
  | write command =>
      cases command with
      | create username name => exact hunspent.create username name hkeeps
      | getNextUid username name => exact hunspent.getNextUid username name hkeeps
      | delete username name =>
          rw [issues_eq_nil (by simp) (by simp), List.append_nil]
          refine ⟨hwellFormed, hunspent.never, fun mailbox info hinfo => ?_⟩
          have hkept : (registry.state.deleteMailbox username name).2.mailboxes.lookup mailbox =
            some info := hinfo
          obtain ⟨-, hrefused⟩ | ⟨-, hgone⟩ :=
            MailboxState.deleteMailbox_cases hunspent.wellFormed username name
          · rw [hrefused] at hkept
            exact hunspent.live mailbox info hkept
          · rw [hgone, HashMap.lookup_erase_eq] at hkept
            split at hkept
            · cases hkept
            · exact hunspent.live mailbox info hkept
      | updateNextUid id nextUid =>
          rw [issues_eq_nil (by simp) (by simp), List.append_nil]
          refine hunspent.updateInfo id (fun _ => rfl) fun info hinfo => ?_
          simpa only [KeepsUnissued, WriteCommand.mailbox, hinfo] using hkeeps
      | updateUidValidity id uidValidity =>
          rw [issues_eq_nil (by simp) (by simp), List.append_nil]
          refine hunspent.updateInfo id (fun _ => rfl) fun info hinfo => ?_
          simpa only [KeepsUnissued, WriteCommand.mailbox, hinfo] using hkeeps
      | updateCounts id messageCount unseenCount recentCount =>
          rw [issues_eq_nil (by simp) (by simp), List.append_nil]
          exact hunspent.updateInfo id (fun _ => rfl) fun info hinfo => hunspent.live _ info hinfo

/-! ## What breaks the law -/

theorem not_neverReissued_of_draw {username name : String} {info : MailboxInfo}
    (hlookup : registry.state.mailboxes.lookup (username, name) = some info)
    (hissued : ¬ Unissued history (username, name) info.uidValidity info.nextUid) :
    ¬ NeverReissued (history ++ issues registry (.write (.getNextUid username name))) := by
  have hissues : issues registry (.write (.getNextUid username name)) =
      [.drawn ⟨(username, name), info.uidValidity, info.nextUid⟩] := by
    simp only [issues, MailboxState.getNextUid, hlookup]
  rw [hissues]
  intro hnever
  have hlast : ⟨(username, name), info.uidValidity, info.nextUid⟩ ∈ draws
      (history ++ [.drawn ⟨(username, name), info.uidValidity, info.nextUid⟩]) := by
    rw [draws_append]
    exact List.mem_append_right _ List.mem_cons_self
  refine hissued ⟨hnever.positive _ hlast, fun draw hdraw => ?_⟩
  obtain ⟨hearlier, hmailbox, hvalidity⟩ := mem_drawsOf.mp hdraw
  have hincreasing := hnever.increasing
  rw [draws_append, List.pairwise_append] at hincreasing
  exact hincreasing.2.2 draw hearlier _ List.mem_cons_self hmailbox hvalidity

theorem NeverReissued.of_append {first second : List Issue}
    (hnever : NeverReissued (first ++ second)) : NeverReissued first where
  increasing := by
    have hincreasing := hnever.increasing
    rw [draws_append, List.pairwise_append] at hincreasing
    exact hincreasing.1
  positive := fun draw hdraw => hnever.positive draw (draws_append _ _ ▸ List.mem_append_left _ hdraw)
  bounded := fun draw hdraw => hnever.bounded draw (draws_append _ _ ▸ List.mem_append_left _ hdraw)

/-- A command that does not meet the condition: the law fails with the next UID
drawn from its mailbox. -/
theorem not_neverReissued_of_not_keepsUnissued (engine : RegexEngine)
    (order : HashOrder (String × String) MailboxInfo) (hwellFormed : registry.state.WellFormed)
    {command : WriteCommand} (hkeeps : ¬ KeepsUnissued history registry (.write command)) :
    ¬ NeverReissued (history ++ issues registry (.write command) ++
      issues ((registryMachine engine order).step registry (.write command)).1
        (.write (.getNextUid command.mailbox.1 command.mailbox.2))) := by
  cases command with
  | create username name =>
      obtain ⟨info, hlookup, -⟩ | ⟨hlookup, info, -, hnext, hvalidity, hcreated⟩ :=
        registry.state.createMailbox_cases username name
      · simp [KeepsUnissued, WriteCommand.mailbox, hlookup] at hkeeps
      · simp only [KeepsUnissued, WriteCommand.mailbox, hlookup] at hkeeps
        have hissues : issues registry (.write (.create username name)) =
            [.created (username, name) info.uidValidity] := by
          simp only [issues, hcreated]
        have hstored : ((registryMachine engine order).step registry
            (.write (.create username name))).1.state.mailboxes.lookup (username, name) =
              some info := by
          have hinserted : (registry.state.mailboxes.insert (username, name) info).lookup
              (username, name) = some info := AList.lookup_insert _
          rw [← hinserted]
          exact congrArg (fun answer => answer.2.mailboxes.lookup (username, name)) hcreated
        refine not_neverReissued_of_draw hstored fun hunissued => hkeeps ?_
        rw [hissues, unissued_append_created, hvalidity, hnext] at hunissued
        exact hunissued
  | getNextUid username name =>
      cases hlookup : registry.state.mailboxes.lookup (username, name) with
      | none => simp [KeepsUnissued, WriteCommand.mailbox, hlookup] at hkeeps
      | some info =>
          simp only [KeepsUnissued, WriteCommand.mailbox, hlookup, not_not] at hkeeps
          have hissues : issues registry (.write (.getNextUid username name)) =
              [.drawn ⟨(username, name), info.uidValidity, info.nextUid⟩] := by
            simp only [issues, MailboxState.getNextUid, hlookup]
          intro hnever
          have hdrawn := hnever.of_append.bounded
            ⟨(username, name), info.uidValidity, info.nextUid⟩ (by
              rw [hissues, draws_append]
              exact List.mem_append_right _ List.mem_cons_self)
          exact hdrawn hkeeps
  | updateNextUid id nextUid =>
      cases hlookup : registry.state.mailboxes.lookup (id.username, id.name) with
      | none => simp [KeepsUnissued, WriteCommand.mailbox, hlookup] at hkeeps
      | some info =>
          simp only [KeepsUnissued, WriteCommand.mailbox, hlookup] at hkeeps
          rw [issues_eq_nil (by simp) (by simp), List.append_nil]
          exact not_neverReissued_of_draw
            (MailboxState.lookup_updateInfo hwellFormed hlookup _) hkeeps
  | updateUidValidity id uidValidity =>
      cases hlookup : registry.state.mailboxes.lookup (id.username, id.name) with
      | none => simp [KeepsUnissued, WriteCommand.mailbox, hlookup] at hkeeps
      | some info =>
          simp only [KeepsUnissued, WriteCommand.mailbox, hlookup] at hkeeps
          rw [issues_eq_nil (by simp) (by simp), List.append_nil]
          exact not_neverReissued_of_draw
            (MailboxState.lookup_updateInfo hwellFormed hlookup _) hkeeps
  | delete username name => simp [KeepsUnissued] at hkeeps
  | updateCounts id messageCount unseenCount recentCount => simp [KeepsUnissued] at hkeeps

/--
The registry never issues a UID again along a run whose every call meets the
condition.  A command that does not meet it makes the law fail, at the latest
with the next UID drawn from its mailbox.
-/
theorem neverReissued_of_keepsUnissued (engine : RegexEngine)
    (order : HashOrder (String × String) MailboxInfo) (calls : List RegistryCall) :
    ((∀ done call rest, calls = done ++ call :: rest →
        KeepsUnissued ((registryMachine engine order).observed issues .new done)
          ((registryMachine engine order).final .new done) call) →
      NeverReissued ((registryMachine engine order).observed issues .new calls)) ∧
    ∀ command,
      ¬ KeepsUnissued ((registryMachine engine order).observed issues .new calls)
          ((registryMachine engine order).final .new calls) (.write command) →
        ¬ NeverReissued ((registryMachine engine order).observed issues .new
          (calls ++ [.write command] ++
            [.write (.getNextUid command.mailbox.1 command.mailbox.2)])) := by
  constructor
  · intro hkeeps
    have hstep (history : List Issue) (registry : InMemoryMailboxes) (call : RegistryCall)
        (hunspent : Unspent history registry) (hkeep : KeepsUnissued history registry call) :
        Unspent (history ++ issues registry call)
          ((registryMachine engine order).step registry call).1 :=
      hunspent.step engine order hkeep
    exact (Machine.observed_invariant hstep unspent_new calls hkeeps).never
  · intro command hkeeps
    have hwellFormed : ((registryMachine engine order).final .new calls).state.WellFormed :=
      Machine.final_invariant
        (fun registry call _ hstate => wellFormed_step engine order registry hstate call)
        MailboxState.wellFormed_new
    rw [Machine.observed_concat, Machine.observed_concat, Machine.final_append]
    exact not_neverReissued_of_not_keepsUnissued engine order hwellFormed hkeeps

/-- The law for a next UID that is raised between two draws, after which the validity is
one that was not issued. -/
theorem neverReissued_of_keepsUnissued_raised :
    NeverReissued ((registryMachine .searching .listed).observed issues .new
      [.write (.create "ann" "box"), .write (.getNextUid "ann" "box"),
        .write (.updateNextUid ⟨"ann", "box"⟩ 5), .write (.getNextUid "ann" "box"),
        .write (.updateUidValidity ⟨"ann", "box"⟩ 7), .write (.getNextUid "ann" "box")]) := by
  refine (neverReissued_of_keepsUnissued .searching .listed _).1 ?_
  intro done call rest hcalls
  rcases done with _ | ⟨_, _ | ⟨_, _ | ⟨_, _ | ⟨_, _ | ⟨_, _ | ⟨_, done⟩⟩⟩⟩⟩⟩ <;>
    simp only [List.nil_append, List.cons_append, List.cons.injEq] at hcalls
  · obtain ⟨rfl, -⟩ := hcalls
    decide +kernel
  · obtain ⟨rfl, rfl, -⟩ := hcalls
    decide +kernel
  · obtain ⟨rfl, rfl, rfl, -⟩ := hcalls
    decide +kernel
  · obtain ⟨rfl, rfl, rfl, rfl, -⟩ := hcalls
    decide +kernel
  · obtain ⟨rfl, rfl, rfl, rfl, rfl, -⟩ := hcalls
    decide +kernel
  · obtain ⟨rfl, rfl, rfl, rfl, rfl, rfl, -⟩ := hcalls
    decide +kernel
  · simp at hcalls

/-- The next UID is set back to one that was drawn: it is drawn again. -/
theorem lowered_nextUid_reissued :
    ∃ calls, ¬ NeverReissued ((registryMachine .searching .listed).observed issues .new calls) := by
  refine ⟨[.write (.create "ann" "box"), .write (.getNextUid "ann" "box"),
    .write (.updateNextUid ⟨"ann", "box"⟩ 1), .write (.getNextUid "ann" "box")], fun hnever => ?_⟩
  have hdraws : draws ((registryMachine .searching .listed).observed issues .new
      [.write (.create "ann" "box"), .write (.getNextUid "ann" "box"),
        .write (.updateNextUid ⟨"ann", "box"⟩ 1), .write (.getNextUid "ann" "box")]) =
      [⟨("ann", "box"), 1, 1⟩, ⟨("ann", "box"), 1, 1⟩] := by
    decide +kernel
  have hincreasing := hnever.increasing
  rw [hdraws] at hincreasing
  simp at hincreasing

end Scuttled
