import Scuttled.Foundation.Inverse
import Scuttled.Mailbox.StateLoop

/-!
# UIDs and paths

The two maps of a mailbox are each other's inverse as long as no message is
renamed onto the path of another one, and the counter does not come round to a
UID in use.  `update_path` does not check the path it is given.
-/

namespace Scuttled

open Rust Foundation

namespace InternalMailboxState

/-- `get_path` and `get_uid` agree on every UID and every path. -/
def Bijective (state : InternalMailboxState) : Prop :=
  ∀ uid path, state.getPath uid = .ok (some path) ↔ state.getUid path = .ok (some uid)

/-- A new UID is not in use, and the path a message is renamed to belongs to no
other message. -/
def KeepsBijection (state : InternalMailboxState) : MailboxInput → Prop
  | .serve (.assignUid path) =>
      state.pathToUid.lookup path = none → state.uidToPath.lookup state.uidNext = none
  | .serve (.updatePath uid newPath) =>
      (state.uidToPath.lookup uid).isSome →
        state.pathToUid.lookup newPath = none ∨ state.pathToUid.lookup newPath = some uid
  | _ => True

instance (state : InternalMailboxState) (input : MailboxInput) :
    Decidable (state.KeepsBijection input) := by
  unfold KeepsBijection
  split <;> infer_instance

theorem bijective_iff (state : InternalMailboxState) :
    state.Bijective ↔ MutuallyInverse (fun uid => state.uidToPath.lookup uid)
      (fun path => state.pathToUid.lookup path) := by
  simp only [Bijective, getPath, getUid, MutuallyInverse, Except.ok.injEq]

theorem bijective_new (username name : String) (uidValidity : UInt32) :
    (new username name uidValidity).Bijective :=
  (bijective_iff _).mpr MutuallyInverse.empty

theorem Bijective.assignUid_iff {state : InternalMailboxState} (hstate : state.Bijective)
    (path : String) :
    (state.assignUid path).2.Bijective ↔ state.KeepsBijection (.serve (.assignUid path)) := by
  obtain ⟨uid, htaken, hrefused⟩ | ⟨hfree, hassigned⟩ := state.assignUid_cases path
  · rw [hrefused]
    refine ⟨fun _ hnone => ?_, fun _ => hstate⟩
    rw [htaken] at hnone
    cases hnone
  · have hinsert := ((bijective_iff _).mp hstate).insert_iff state.uidNext path
    rw [hassigned, bijective_iff, HashMap.lookup_insert, HashMap.lookup_insert, hinsert]
    constructor
    · rintro (hsame | ⟨hunused, -⟩)
      · have howner : state.pathToUid.lookup path = some state.uidNext :=
          ((bijective_iff _).mp hstate _ _).mp hsame
        rw [hfree] at howner
        cases howner
      · exact fun _ => hunused
    · exact fun hkeeps => .inr ⟨hkeeps hfree, hfree⟩

theorem Bijective.removeMessage {state : InternalMailboxState} (hstate : state.Bijective)
    (uid : Uid) : (state.removeMessage uid).2.Bijective := by
  obtain ⟨-, hrefused⟩ | ⟨path, hpath, hremoved⟩ := state.removeMessage_cases uid
  · rw [hrefused]
    exact hstate
  · rw [hremoved, bijective_iff, HashMap.lookup_erase, HashMap.lookup_erase]
    exact ((bijective_iff _).mp hstate).erase hpath

theorem Bijective.updatePath_iff {state : InternalMailboxState} (hstate : state.Bijective)
    (uid : Uid) (newPath : String) :
    (state.updatePath uid newPath).2.Bijective ↔
      state.KeepsBijection (.serve (.updatePath uid newPath)) := by
  obtain ⟨hnone, hrefused⟩ | ⟨oldPath, hpath, hrenamed⟩ := state.updatePath_cases uid newPath
  · rw [hrefused, KeepsBijection, hnone]
    exact ⟨fun _ hsome => (nomatch hsome), fun _ => hstate⟩
  · have hrename := ((bijective_iff _).mp hstate).rename_iff hpath newPath
    rw [hrenamed, bijective_iff, HashMap.lookup_insert, HashMap.lookup_insert,
      HashMap.lookup_erase, hrename, KeepsBijection, hpath]
    exact ⟨fun hkeeps _ => hkeeps, fun hkeeps => hkeeps rfl⟩

theorem Bijective.step_iff {state : InternalMailboxState} (hstate : state.Bijective)
    (input : MailboxInput) :
    (mailboxStateLoop.step state input).1.Bijective ↔ state.KeepsBijection input := by
  have hsame {other : InternalMailboxState} (huids : other.uidToPath = state.uidToPath)
      (hpaths : other.pathToUid = state.pathToUid) : other.Bijective := by
    rw [bijective_iff, huids, hpaths]
    exact (bijective_iff state).mp hstate
  cases input with
  | take queue =>
      obtain ⟨queues, htake⟩ := state.take_cases queue
      have htaken : (mailboxStateLoop.step state (.take queue)).1 = { state with queues } := htake
      rw [htaken]
      exact ⟨fun _ => trivial, fun _ => hsame rfl rfl⟩
  | close queue => exact ⟨fun _ => trivial, fun _ => hsame rfl rfl⟩
  | serve command =>
      cases command with
      | assignUid path => exact hstate.assignUid_iff path
      | removeMessage uid => exact ⟨fun _ => trivial, fun _ => hstate.removeMessage uid⟩
      | updatePath uid newPath => exact hstate.updatePath_iff uid newPath
      | getPath uid => exact ⟨fun _ => trivial, fun _ => hstate⟩
      | getUid path => exact ⟨fun _ => trivial, fun _ => hstate⟩
      | getState => exact ⟨fun _ => trivial, fun _ => hstate⟩
      | subscribe => exact ⟨fun _ => trivial, fun _ => hsame rfl rfl⟩
      | notify notification => exact ⟨fun _ => trivial, fun _ => hsame rfl rfl⟩

/-! ## What a bijection is good for -/

theorem Bijective.eq_of_getPath {state : InternalMailboxState} (hstate : state.Bijective)
    {uid uid' : Uid} {path : String} (hpath : state.getPath uid = .ok (some path))
    (hpath' : state.getPath uid' = .ok (some path)) : uid = uid' :=
  Option.some.inj (Except.ok.inj (((hstate _ _).mp hpath).symm.trans ((hstate _ _).mp hpath')))

theorem Bijective.assignUid_refused_iff {state : InternalMailboxState} (hstate : state.Bijective)
    (path : String) :
    (∃ error, (state.assignUid path).1 = .error error) ↔
      ∃ uid, state.getPath uid = .ok (some path) := by
  obtain ⟨uid, htaken, hrefused⟩ | ⟨hfree, hassigned⟩ := state.assignUid_cases path
  · rw [hrefused]
    exact ⟨fun _ => ⟨uid, (hstate uid path).mpr (congrArg Except.ok htaken)⟩, fun _ => ⟨_, rfl⟩⟩
  · rw [hassigned]
    constructor
    · rintro ⟨error, herror⟩
      cases herror
    · rintro ⟨uid, hpath⟩
      have huid := (hstate uid path).mp hpath
      rw [getUid, hfree] at huid
      cases huid

theorem Bijective.removeMessage_others {state : InternalMailboxState} (hstate : state.Bijective)
    {uid : Uid} (hremoved : (state.removeMessage uid).1 = .ok ()) :
    (∀ other, other ≠ uid →
      (state.removeMessage uid).2.getPath other = state.getPath other) ∧
    ∀ path, state.getUid path ≠ .ok (some uid) →
      (state.removeMessage uid).2.getUid path = state.getUid path := by
  obtain ⟨-, hrefused⟩ | ⟨path, hpath, hdone⟩ := state.removeMessage_cases uid
  · rw [hrefused] at hremoved
    cases hremoved
  · rw [hdone]
    constructor
    · intro other hother
      rw [getPath, getPath, HashMap.lookup_erase_eq, if_neg hother]
    · intro found hfound
      have hne : found ≠ path := by
        rintro rfl
        exact hfound ((hstate uid found).mp (congrArg Except.ok hpath))
      rw [getUid, getUid, HashMap.lookup_erase_eq, if_neg hne]

/--
The UIDs and paths of a mailbox are a bijection all along a run exactly if every
step of it meets the condition.  In each state of such a run no two UIDs name one
path, a UID is refused exactly to the paths in use, and removing a message
changes nothing for the others.
-/
theorem bijective_iff_keepsBijection (username name : String) (uidValidity : UInt32)
    (inputs : List MailboxInput) :
    ((∀ done rest, inputs = done ++ rest →
        (mailboxStateLoop.final (new username name uidValidity) done).Bijective) ↔
      ∀ done input rest, inputs = done ++ input :: rest →
        (mailboxStateLoop.final (new username name uidValidity) done).KeepsBijection input) ∧
    ((∀ done input rest, inputs = done ++ input :: rest →
        (mailboxStateLoop.final (new username name uidValidity) done).KeepsBijection input) →
      ∀ done rest, inputs = done ++ rest →
        ∀ state, state = mailboxStateLoop.final (new username name uidValidity) done →
          (∀ uid uid' path, state.getPath uid = .ok (some path) →
            state.getPath uid' = .ok (some path) → uid = uid') ∧
          (∀ path, (∃ error, (state.assignUid path).1 = .error error) ↔
            ∃ uid, state.getPath uid = .ok (some path)) ∧
          ∀ uid, (state.removeMessage uid).1 = .ok () →
            (∀ other, other ≠ uid →
              (state.removeMessage uid).2.getPath other = state.getPath other) ∧
            ∀ path, state.getUid path ≠ .ok (some uid) →
              (state.removeMessage uid).2.getUid path = state.getUid path) := by
  have hstep (state : InternalMailboxState) (input : MailboxInput) (hstate : state.Bijective) :
      (mailboxStateLoop.step state input).1.Bijective ↔ state.KeepsBijection input :=
    hstate.step_iff input
  have halways := Machine.always_iff_of_guard inputs (fun state input _ => hstep state input)
    (bijective_new username name uidValidity)
  refine ⟨halways, fun hkeeps done rest hinputs state hreached => ?_⟩
  have hstate : state.Bijective := hreached ▸ halways.mpr hkeeps done rest hinputs
  exact ⟨fun _ _ _ => hstate.eq_of_getPath, hstate.assignUid_refused_iff,
    fun _ => hstate.removeMessage_others⟩

/-- A message is renamed onto the path of another: both UIDs have the path, but
the path has one of them only. -/
theorem rename_onto_other_not_bijective :
    ∃ inputs, ¬ (mailboxStateLoop.final (new "ann" "box" 1) inputs).Bijective := by
  refine ⟨[.serve (.assignUid "cur/m1"), .serve (.assignUid "cur/m2"),
    .serve (.updatePath 1 "cur/m2")], fun hbijective => ?_⟩
  have hpath := (hbijective 2 "cur/m2").mp (by decide)
  exact absurd hpath (by decide)

end InternalMailboxState

end Scuttled
