import Mathlib.Data.UInt
import Scuttled.Mailbox.StateLoop

/-!
# The history of a UID

What `get_path` answers for a UID depends on the commands about that UID alone:
it is the path the UID was last given, until the message is removed.  Commands
about other UIDs do not disturb it, not even a rename onto its path.
-/

namespace Scuttled

open Rust Foundation

/-! ## The reference history -/

/-- What became of a UID: not assigned yet, at a path, or removed for ever. -/
inductive UidHistory where
  | unassigned
  | at (path : String)
  | removed
  deriving DecidableEq, Repr

namespace UidHistory

/-- The path a history ends at. -/
def path : UidHistory → Option String
  | .unassigned => none
  | .at path => some path
  | .removed => none

/-- What a command and its reply say about the UID; a removed one stays removed. -/
def next (uid : Uid) (history : UidHistory) : MailboxInput × MailboxReply → UidHistory
  | (.serve (.assignUid path), .assigned (.ok assigned)) =>
      if assigned = uid ∧ history ≠ .removed then .at path else history
  | (.serve (.updatePath updated newPath), .unit (.ok ())) =>
      if updated = uid ∧ history ≠ .removed then .at newPath else history
  | (.serve (.removeMessage gone), .unit (.ok ())) =>
      if gone = uid then .removed else history
  | _ => history

/-- The history of a UID along a transcript. -/
def along (uid : Uid) (transcript : List (MailboxInput × MailboxReply)) : UidHistory :=
  transcript.foldl (next uid) .unassigned

theorem along_concat (uid : Uid) (transcript : List (MailboxInput × MailboxReply))
    (entry : MailboxInput × MailboxReply) :
    along uid (transcript ++ [entry]) = next uid (along uid transcript) entry := by
  rw [along, List.foldl_append]
  rfl

end UidHistory

/-- The UID a successful `assign_uid` returned. -/
def MailboxReply.assignedUid : MailboxReply → Option Uid
  | .assigned (.ok fresh) => some fresh
  | _ => none

/-- The UIDs returned by the successful `assign_uid` calls, in order. -/
def assignedUids (transcript : List (MailboxInput × MailboxReply)) : List Uid :=
  transcript.filterMap fun entry => entry.2.assignedUid

theorem assignedUids_append (first second : List (MailboxInput × MailboxReply)) :
    assignedUids (first ++ second) = assignedUids first ++ assignedUids second :=
  List.filterMap_append

def MailboxReply.Failed : MailboxReply → Prop
  | .assigned (.error _) | .path (.error _) | .uid (.error _) | .unit (.error _) => True
  | _ => False

/-! ## The state follows the histories -/

namespace InternalMailboxState

/-- The counter counts the assignments, UIDs were assigned in order, and each is
where its history says. -/
structure Follows (transcript : List (MailboxInput × MailboxReply))
    (state : InternalMailboxState) : Prop where
  counter : state.uidNext.toNat = (assignedUids transcript).length + 1
  increasing : (assignedUids transcript).Pairwise (· < ·)
  below : ∀ uid ∈ assignedUids transcript, uid < state.uidNext
  path_eq : ∀ uid, state.uidToPath.lookup uid = (UidHistory.along uid transcript).path
  known : ∀ uid, UidHistory.along uid transcript ≠ .unassigned → uid < state.uidNext

/-- Fewer UIDs were assigned than there are. -/
def FewAssigned (transcript : List (MailboxInput × MailboxReply)) : Prop :=
  (assignedUids transcript).length < 2 ^ 32 - 1

instance (transcript : List (MailboxInput × MailboxReply)) :
    Decidable (FewAssigned transcript) := inferInstanceAs (Decidable (_ < _))

theorem FewAssigned.of_append {first second : List (MailboxInput × MailboxReply)}
    (hfew : FewAssigned (first ++ second)) : FewAssigned first := by
  rw [FewAssigned, assignedUids_append, List.length_append] at hfew
  exact Nat.lt_of_le_of_lt (Nat.le_add_right _ _) hfew

theorem follows_new (username name : String) (uidValidity : UInt32) :
    Follows [] (new username name uidValidity) where
  counter := rfl
  increasing := .nil
  below := fun _ huid => nomatch huid
  path_eq := fun _ => rfl
  known := fun _ hne => absurd rfl hne

variable {transcript : List (MailboxInput × MailboxReply)} {state state' : InternalMailboxState}
  {input : MailboxInput} {reply : MailboxReply}

theorem Follows.of_not_assigned (hstate : state.Follows transcript)
    (hreply : reply.assignedUid = none) (hcounter : state'.uidNext = state.uidNext)
    (hpath : ∀ uid, state'.uidToPath.lookup uid =
      (UidHistory.next uid (UidHistory.along uid transcript) (input, reply)).path)
    (hknown : ∀ uid,
      UidHistory.next uid (UidHistory.along uid transcript) (input, reply) ≠ .unassigned →
        uid < state.uidNext) :
    state'.Follows (transcript ++ [(input, reply)]) := by
  have hsame : assignedUids (transcript ++ [(input, reply)]) = assignedUids transcript := by
    rw [assignedUids_append, assignedUids, assignedUids, List.filterMap_cons, hreply,
      List.filterMap_nil, List.append_nil]
  constructor
  · rw [hcounter, hsame]
    exact hstate.counter
  · rw [hsame]
    exact hstate.increasing
  · rw [hcounter, hsame]
    exact hstate.below
  · intro uid
    rw [UidHistory.along_concat]
    exact hpath uid
  · intro uid hne
    rw [UidHistory.along_concat] at hne
    rw [hcounter]
    exact hknown uid hne

theorem Follows.idle (hstate : state.Follows transcript) (hreply : reply.assignedUid = none)
    (hhistory : ∀ uid history, UidHistory.next uid history (input, reply) = history)
    (hcounter : state'.uidNext = state.uidNext) (hmap : state'.uidToPath = state.uidToPath) :
    state'.Follows (transcript ++ [(input, reply)]) := by
  refine hstate.of_not_assigned hreply hcounter (fun uid => ?_) (fun uid hne => ?_)
  · rw [hhistory, hmap]
    exact hstate.path_eq uid
  · rw [hhistory] at hne
    exact hstate.known uid hne

theorem Follows.along_uidNext (hstate : state.Follows transcript) :
    UidHistory.along state.uidNext transcript = .unassigned := by
  by_contra hne
  exact absurd (hstate.known _ hne) (UInt32.lt_irrefl _)

theorem Follows.assignUid (hstate : state.Follows transcript) (path : String)
    (hfew : FewAssigned (transcript ++
      [(.serve (.assignUid path), .assigned (state.assignUid path).1)])) :
    (state.assignUid path).2.Follows
      (transcript ++ [(.serve (.assignUid path), .assigned (state.assignUid path).1)]) := by
  obtain ⟨uid, -, hrefused⟩ | ⟨-, hassigned⟩ := state.assignUid_cases path
  · rw [hrefused]
    exact hstate.idle rfl (fun _ _ => rfl) rfl rfl
  · rw [hassigned] at hfew ⊢
    have hassignedUids : assignedUids (transcript ++
        [(.serve (.assignUid path), .assigned (.ok state.uidNext))]) =
          assignedUids transcript ++ [state.uidNext] := assignedUids_append _ _
    have hnext : (state.uidNext + 1).toNat = state.uidNext.toNat + 1 := by
      rw [FewAssigned, hassignedUids, List.length_append, List.length_singleton,
        ← hstate.counter] at hfew
      rw [UInt32.toNat_add]
      exact Nat.mod_eq_of_lt (by
        rw [UInt32.toNat_one]
        omega)
    have hlt : state.uidNext < state.uidNext + 1 := by
      rw [UInt32.lt_iff_toNat_lt, hnext]
      exact Nat.lt_succ_self _
    constructor
    · rw [hassignedUids, List.length_append, hnext, hstate.counter]
      rfl
    · rw [hassignedUids, List.pairwise_append]
      refine ⟨hstate.increasing, List.pairwise_singleton _ _, fun uid huid next hnextUid => ?_⟩
      rw [List.mem_singleton.mp hnextUid]
      exact hstate.below uid huid
    · intro uid huid
      rw [hassignedUids, List.mem_append, List.mem_singleton] at huid
      rcases huid with huid | rfl
      · exact UInt32.lt_trans (hstate.below uid huid) hlt
      · exact hlt
    · intro uid
      rw [UidHistory.along_concat, HashMap.lookup_insert_eq, UidHistory.next]
      by_cases huid : uid = state.uidNext
      · have hfree : UidHistory.along uid transcript ≠ .removed := by
          rw [huid, hstate.along_uidNext]
          exact fun hremoved => nomatch hremoved
        rw [if_pos huid, if_pos ⟨huid.symm, hfree⟩]
        rfl
      · rw [if_neg huid, if_neg fun hsame => huid hsame.1.symm]
        exact hstate.path_eq uid
    · intro uid hne
      rw [UidHistory.along_concat, UidHistory.next] at hne
      split at hne
      · rename_i hsame
        rw [← hsame.1]
        exact hlt
      · exact UInt32.lt_trans (hstate.known uid hne) hlt

theorem Follows.removeMessage (hstate : state.Follows transcript) (removed : Uid) :
    (state.removeMessage removed).2.Follows
      (transcript ++ [(.serve (.removeMessage removed), .unit (state.removeMessage removed).1)]) := by
  obtain ⟨-, hrefused⟩ | ⟨path, hpath, hdone⟩ := state.removeMessage_cases removed
  · rw [hrefused]
    exact hstate.idle rfl (fun _ _ => rfl) rfl rfl
  · have hused : UidHistory.along removed transcript ≠ .unassigned := by
      intro hunassigned
      rw [hstate.path_eq, hunassigned] at hpath
      cases hpath
    rw [hdone]
    refine hstate.of_not_assigned rfl rfl (fun uid => ?_) (fun uid hne => ?_)
    · rw [HashMap.lookup_erase_eq, UidHistory.next]
      by_cases huid : uid = removed
      · rw [if_pos huid, if_pos huid.symm]
        rfl
      · rw [if_neg huid, if_neg (Ne.symm huid)]
        exact hstate.path_eq uid
    · rw [UidHistory.next] at hne
      split at hne
      · rename_i huid
        rw [← huid]
        exact hstate.known removed hused
      · exact hstate.known uid hne

theorem Follows.updatePath (hstate : state.Follows transcript) (updated : Uid)
    (newPath : String) :
    (state.updatePath updated newPath).2.Follows (transcript ++
      [(.serve (.updatePath updated newPath), .unit (state.updatePath updated newPath).1)]) := by
  obtain ⟨-, hrefused⟩ | ⟨path, hpath, hdone⟩ := state.updatePath_cases updated newPath
  · rw [hrefused]
    exact hstate.idle rfl (fun _ _ => rfl) rfl rfl
  · obtain ⟨hused, hlive⟩ : UidHistory.along updated transcript ≠ .unassigned ∧
        UidHistory.along updated transcript ≠ .removed := by
      rw [hstate.path_eq] at hpath
      constructor <;>
        · intro hnone
          rw [hnone] at hpath
          cases hpath
    rw [hdone]
    refine hstate.of_not_assigned rfl rfl (fun uid => ?_) (fun uid hne => ?_)
    · rw [HashMap.lookup_insert_eq, UidHistory.next]
      by_cases huid : uid = updated
      · rw [if_pos huid, if_pos ⟨huid.symm, by rwa [huid]⟩]
        rfl
      · rw [if_neg huid, if_neg fun hsame => huid hsame.1.symm]
        exact hstate.path_eq uid
    · rw [UidHistory.next] at hne
      split at hne
      · rename_i huid
        rw [← huid.1]
        exact hstate.known updated hused
      · exact hstate.known uid hne

theorem Follows.step (hstate : state.Follows transcript) (input : MailboxInput)
    (hfew : FewAssigned (transcript ++ [(input, (mailboxStateLoop.step state input).2)])) :
    (mailboxStateLoop.step state input).1.Follows
      (transcript ++ [(input, (mailboxStateLoop.step state input).2)]) := by
  cases input with
  | take queue =>
      obtain ⟨queues, htake⟩ := state.take_cases queue
      have htaken : (mailboxStateLoop.step state (.take queue)).1 = { state with queues } := htake
      rw [htaken]
      exact hstate.idle rfl (fun _ _ => rfl) rfl rfl
  | close queue => exact hstate.idle rfl (fun _ _ => rfl) rfl rfl
  | serve command =>
      cases command with
      | assignUid path => exact hstate.assignUid path hfew
      | removeMessage uid => exact hstate.removeMessage uid
      | updatePath uid newPath => exact hstate.updatePath uid newPath
      | getPath uid => exact hstate.idle rfl (fun _ _ => rfl) rfl rfl
      | getUid path => exact hstate.idle rfl (fun _ _ => rfl) rfl rfl
      | getState => exact hstate.idle rfl (fun _ _ => rfl) rfl rfl
      | subscribe => exact hstate.idle rfl (fun _ _ => rfl) rfl rfl
      | notify notification => exact hstate.idle rfl (fun _ _ => rfl) rfl rfl

theorem follows_final (username name : String) (uidValidity : UInt32) (inputs : List MailboxInput)
    (hfew : FewAssigned (mailboxStateLoop.transcript (new username name uidValidity) inputs)) :
    (mailboxStateLoop.final (new username name uidValidity) inputs).Follows
      (mailboxStateLoop.transcript (new username name uidValidity) inputs) := by
  have hstep (history : List (MailboxInput × MailboxReply)) (state : InternalMailboxState)
      (input : MailboxInput) (hstate : FewAssigned history → state.Follows history)
      (hfew : FewAssigned (history ++ [(input, (mailboxStateLoop.step state input).2)])) :
      (mailboxStateLoop.step state input).1.Follows
        (history ++ [(input, (mailboxStateLoop.step state input).2)]) :=
    (hstate hfew.of_append).step input hfew
  exact Machine.history_invariant hstep (fun _ => follows_new username name uidValidity) inputs hfew

/-! ## Commands that fail -/

theorem step_of_failed {input : MailboxInput}
    (hfailed : (mailboxStateLoop.step state input).2.Failed) :
    (mailboxStateLoop.step state input).1 = state := by
  cases input with
  | take queue => exact hfailed.elim
  | close queue => exact hfailed.elim
  | serve command =>
      cases command with
      | assignUid path =>
          obtain ⟨uid, -, hrefused⟩ | ⟨-, hassigned⟩ := state.assignUid_cases path
          · exact congrArg Prod.snd hrefused
          · simp [mailboxStateLoop, mailboxStep, hassigned, MailboxReply.Failed] at hfailed
      | removeMessage uid =>
          obtain ⟨-, hrefused⟩ | ⟨path, -, hdone⟩ := state.removeMessage_cases uid
          · exact congrArg Prod.snd hrefused
          · simp [mailboxStateLoop, mailboxStep, hdone, MailboxReply.Failed] at hfailed
      | updatePath uid newPath =>
          obtain ⟨-, hrefused⟩ | ⟨path, -, hdone⟩ := state.updatePath_cases uid newPath
          · exact congrArg Prod.snd hrefused
          · simp [mailboxStateLoop, mailboxStep, hdone, MailboxReply.Failed] at hfailed
      | getPath uid => rfl
      | getUid path => rfl
      | getState => rfl
      | subscribe => exact hfailed.elim
      | notify notification => exact hfailed.elim

/--
The UIDs assigned along a run increase.  What `get_path` answers for a UID at any
moment is the history of that UID.  A command that returns an error changes no
later reply.
-/
theorem getPath_eq_history (username name : String) (uidValidity : UInt32)
    (inputs : List MailboxInput)
    (hfew : FewAssigned (mailboxStateLoop.transcript (new username name uidValidity) inputs)) :
    (assignedUids (mailboxStateLoop.transcript (new username name uidValidity) inputs)).Pairwise
        (· < ·) ∧
      (∀ done rest, inputs = done ++ rest → ∀ uid,
        (mailboxStateLoop.step (mailboxStateLoop.final (new username name uidValidity) done)
            (.serve (.getPath uid))).2 =
          .path (.ok (UidHistory.along uid
            (mailboxStateLoop.transcript (new username name uidValidity) done)).path)) ∧
      ∀ done input rest, inputs = done ++ input :: rest →
        (mailboxStateLoop.step (mailboxStateLoop.final (new username name uidValidity) done)
            input).2.Failed →
          mailboxStateLoop.transcript
              (mailboxStateLoop.final (new username name uidValidity) (done ++ [input])) rest =
            mailboxStateLoop.transcript
              (mailboxStateLoop.final (new username name uidValidity) done) rest := by
  refine ⟨(follows_final username name uidValidity inputs hfew).increasing, ?_, ?_⟩
  · intro done rest hinputs uid
    rw [hinputs, Machine.transcript_append] at hfew
    have hfollows := follows_final username name uidValidity done hfew.of_append
    exact congrArg (fun found => MailboxReply.path (.ok found)) (hfollows.path_eq uid)
  · intro done input rest _ hfailed
    rw [Machine.final_append, Machine.final_cons, Machine.final_nil, step_of_failed hfailed]

/-- A run in which a message is renamed onto the path of another, which is then
removed. -/
theorem getPath_eq_history_collision :
    (mailboxStateLoop.step
      (mailboxStateLoop.final (new "ann" "box" 1)
        [.serve (.assignUid "cur/m1"), .serve (.assignUid "cur/m2"),
          .serve (.updatePath 1 "cur/m2"), .serve (.removeMessage 2)])
      (.serve (.getPath 1))).2 = .path (.ok (some "cur/m2")) :=
  (getPath_eq_history "ann" "box" 1
    [.serve (.assignUid "cur/m1"), .serve (.assignUid "cur/m2"),
      .serve (.updatePath 1 "cur/m2"), .serve (.removeMessage 2)] (by decide)).2.1 _ []
    (List.append_nil _).symm 1

end InternalMailboxState

end Scuttled
