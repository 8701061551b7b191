import Scuttled.Foundation.Waiting
import Scuttled.Mailbox.StateLoop

/-!
# The handle in several hands

Clones of a `Mailbox` send their commands into one channel, and each waits for the reply
to its own.  Subscribers take from their queues and drop them while the loop works.
-/

namespace Scuttled

open Rust Foundation

namespace InternalMailboxState

/-- The state loop among the clones of its handle: `channel(100)` leads to the loop, and a
subscriber works on its own queue. -/
def mailboxService : Service InternalMailboxState MailboxInput MailboxReply where
  object := mailboxStateLoop
  direct
    | .serve _ => false
    | .take _ | .close _ => true
  capacity := 100

/-! ## One command after the other -/

section Runs

variable {state : InternalMailboxState} {uid : Uid} {found : String}

theorem uidNext_step (state : InternalMailboxState) (input : MailboxInput) :
    (mailboxStateLoop.step state input).1.uidNext = state.uidNext ∨
      (mailboxStateLoop.step state input).1.uidNext = state.uidNext + 1 := by
  cases input with
  | take queue =>
      obtain ⟨queues, htake⟩ := state.take_cases queue
      exact .inl (congrArg (·.uidNext) htake)
  | close queue => exact .inl rfl
  | serve command =>
      cases command with
      | assignUid path =>
          obtain ⟨-, -, hrefused⟩ | ⟨-, hassigned⟩ := state.assignUid_cases path
          · exact .inl (congrArg (fun answer => answer.2.uidNext) hrefused)
          · exact .inr (congrArg (fun answer => answer.2.uidNext) hassigned)
      | removeMessage removed =>
          obtain ⟨-, hrefused⟩ | ⟨_, -, hdone⟩ := state.removeMessage_cases removed
          · exact .inl (congrArg (fun answer => answer.2.uidNext) hrefused)
          · exact .inl (congrArg (fun answer => answer.2.uidNext) hdone)
      | updatePath updated newPath =>
          obtain ⟨-, hrefused⟩ | ⟨_, -, hdone⟩ := state.updatePath_cases updated newPath
          · exact .inl (congrArg (fun answer => answer.2.uidNext) hrefused)
          · exact .inl (congrArg (fun answer => answer.2.uidNext) hdone)
      | getPath _ | getUid _ | getState | subscribe | notify _ => exact .inl rfl

/-- A message that is not removed stays, at its path or at the one it is moved to. -/
theorem lookup_step {input : MailboxInput} (hfound : state.uidToPath.lookup uid = some found)
    (huid : uid ≠ state.uidNext) (hinput : input ≠ .serve (.removeMessage uid)) :
    ∃ path, (mailboxStateLoop.step state input).1.uidToPath.lookup uid = some path ∧
      (path = found ∨ input = .serve (.updatePath uid path)) := by
  cases input with
  | take queue =>
      obtain ⟨queues, htake⟩ := state.take_cases queue
      exact ⟨found, (congrArg (·.uidToPath.lookup uid) htake).trans hfound, .inl rfl⟩
  | close queue => exact ⟨found, hfound, .inl rfl⟩
  | serve command =>
      cases command with
      | assignUid path =>
          obtain ⟨-, -, hrefused⟩ | ⟨-, hassigned⟩ := state.assignUid_cases path
          · refine ⟨found, ?_, .inl rfl⟩
            exact (congrArg (fun answer => answer.2.uidToPath.lookup uid) hrefused).trans hfound
          · refine ⟨found, ?_, .inl rfl⟩
            refine (congrArg (fun answer => answer.2.uidToPath.lookup uid) hassigned).trans ?_
            rw [HashMap.lookup_insert_eq, if_neg huid, hfound]
      | removeMessage removed =>
          refine ⟨found, ?_, .inl rfl⟩
          obtain ⟨-, hrefused⟩ | ⟨_, -, hdone⟩ := state.removeMessage_cases removed
          · exact (congrArg (fun answer => answer.2.uidToPath.lookup uid) hrefused).trans hfound
          · refine (congrArg (fun answer => answer.2.uidToPath.lookup uid) hdone).trans ?_
            rw [HashMap.lookup_erase_eq, if_neg, hfound]
            rintro rfl
            exact hinput rfl
      | updatePath updated newPath =>
          obtain ⟨-, hrefused⟩ | ⟨_, -, hdone⟩ := state.updatePath_cases updated newPath
          · refine ⟨found, ?_, .inl rfl⟩
            exact (congrArg (fun answer => answer.2.uidToPath.lookup uid) hrefused).trans hfound
          · have hstored : (mailboxStateLoop.step state
                (.serve (.updatePath updated newPath))).1.uidToPath.lookup uid =
                  if uid = updated then some newPath else state.uidToPath.lookup uid :=
              (congrArg (fun answer => answer.2.uidToPath.lookup uid) hdone).trans
                HashMap.lookup_insert_eq
            by_cases hsame : uid = updated
            · subst hsame
              exact ⟨newPath, hstored.trans (if_pos rfl), .inr rfl⟩
            · exact ⟨found, (hstored.trans (if_neg hsame)).trans hfound, .inl rfl⟩
      | getPath _ | getUid _ | getState | subscribe | notify _ => exact ⟨found, hfound, .inl rfl⟩

theorem uidNext_final (state : InternalMailboxState) {inputs : List MailboxInput}
    (hfew : state.uidNext.toNat + inputs.length < 2 ^ 32) :
    state.uidNext.toNat ≤ (mailboxStateLoop.final state inputs).uidNext.toNat ∧
      (mailboxStateLoop.final state inputs).uidNext.toNat ≤ state.uidNext.toNat + inputs.length := by
  induction inputs using List.reverseRecOn with
  | nil => exact ⟨Nat.le_refl _, Nat.le_refl _⟩
  | append_singleton inputs input ih =>
      rw [List.length_append, List.length_singleton] at hfew ⊢
      obtain ⟨hle, hlt⟩ := ih (by omega)
      rw [Machine.final_append]
      change _ ≤ (mailboxStateLoop.step (mailboxStateLoop.final state inputs) input).1.uidNext.toNat ∧
        (mailboxStateLoop.step (mailboxStateLoop.final state inputs) input).1.uidNext.toNat ≤ _
      rcases uidNext_step (mailboxStateLoop.final state inputs) input with hsame | hnext
      · rw [hsame]
        omega
      · rw [hnext, UInt32.toNat_add, UInt32.toNat_one, Nat.mod_eq_of_lt (by omega)]
        omega

/-- Along commands that do not remove it, a message stays, at its path or where it was
moved to. -/
theorem lookup_final {inputs : List MailboxInput}
    (hfew : state.uidNext.toNat + inputs.length < 2 ^ 32)
    (hfound : state.uidToPath.lookup uid = some found) (huid : uid < state.uidNext)
    (hinputs : ∀ input ∈ inputs, input ≠ .serve (.removeMessage uid)) :
    ∃ path, (mailboxStateLoop.final state inputs).uidToPath.lookup uid = some path ∧
      (path = found ∨ .serve (.updatePath uid path) ∈ inputs) := by
  induction inputs using List.reverseRecOn with
  | nil => exact ⟨found, hfound, .inl rfl⟩
  | append_singleton inputs input ih =>
      rw [List.length_append, List.length_singleton] at hfew
      obtain ⟨path, hpath, hfrom⟩ :=
        ih (by omega) fun earlier hearlier => hinputs earlier (List.mem_append_left _ hearlier)
      have hbelow : uid ≠ (mailboxStateLoop.final state inputs).uidNext := by
        have hle := (uidNext_final state (by omega : state.uidNext.toNat + inputs.length < 2 ^ 32)).1
        rw [UInt32.lt_iff_toNat_lt] at huid
        intro hsame
        rw [hsame] at huid
        omega
      obtain ⟨next, hnext, hthen⟩ := lookup_step hpath hbelow
        (hinputs input (List.mem_append_right _ List.mem_cons_self))
      refine ⟨next, by rw [Machine.final_append]; exact hnext, ?_⟩
      rcases hthen with rfl | rfl
      · exact hfrom.imp_right (List.mem_append_left _)
      · exact .inr (List.mem_append_right _ List.mem_cons_self)

theorem assigned_cases {path : String}
    (hassigned : .assigned (.ok uid) =
      (mailboxStateLoop.step state (.serve (.assignUid path))).2) :
    uid = state.uidNext ∧
      (mailboxStateLoop.step state (.serve (.assignUid path))).1.uidNext = uid + 1 ∧
      (mailboxStateLoop.step state (.serve (.assignUid path))).1.uidToPath.lookup uid =
        some path := by
  simp only [mailboxStateLoop, mailboxStep] at hassigned ⊢
  obtain ⟨-, -, hrefused⟩ | ⟨-, hdone⟩ := state.assignUid_cases path
  · rw [hrefused] at hassigned
    cases hassigned
  · rw [hdone] at hassigned ⊢
    obtain rfl : uid = state.uidNext := by simpa using hassigned
    exact ⟨rfl, rfl, HashMap.lookup_insert_eq.trans (if_pos rfl)⟩

end Runs

/-! ## Overlapping commands -/

section Overlapping

variable {username name : String} {uidValidity : UInt32} {events : List (SharedEvent MailboxInput)}
  {one other : Nat} {path path' : String} {uid uid' : Uid}

/-- What the clones of the handle see. -/
abbrev mailboxHistory (username name : String) (uidValidity : UInt32)
    (events : List (SharedEvent MailboxInput)) : List (CallEvent MailboxInput MailboxReply) :=
  Shared.history mailboxService (new username name uidValidity) events

theorem uidNext_of_turn {past : List MailboxInput} (hfew : past.length + 2 < 2 ^ 32)
    (hassigned : .assigned (.ok uid) = (mailboxStateLoop.step
      (mailboxStateLoop.final (new username name uidValidity) past)
      (.serve (.assignUid path))).2) :
    uid.toNat ≤ past.length + 1 ∧
      (mailboxStateLoop.step (mailboxStateLoop.final (new username name uidValidity) past)
        (.serve (.assignUid path))).1.uidNext.toNat = uid.toNat + 1 := by
  obtain ⟨rfl, hnext, -⟩ := assigned_cases hassigned
  have hone : (new username name uidValidity).uidNext.toNat = 1 := rfl
  have hsmall : (new username name uidValidity).uidNext.toNat + past.length < 2 ^ 32 := by omega
  have hcount := (uidNext_final _ hsmall).2
  rw [hone] at hcount
  refine ⟨by omega, ?_⟩
  rw [hnext, UInt32.toNat_add, UInt32.toNat_one, Nat.mod_eq_of_lt (by omega)]

theorem assigned_lt_of_inTurn (hfew : (Shared.asked events).length < 2 ^ 32 - 1)
    (hturns : Shared.InTurn mailboxService (new username name uidValidity)
      (Shared.turns mailboxService (new username name uidValidity) events)
      (one, .serve (.assignUid path)) (.assigned (.ok uid))
      (other, .serve (.assignUid path')) (.assigned (.ok uid'))) :
    uid < uid' := by
  obtain ⟨past, between, -, -, hlength, hassigned, hassigned'⟩ := hturns.asked
  obtain ⟨hle, hnext⟩ := uidNext_of_turn (by omega) hassigned
  obtain ⟨rfl, -, -⟩ := assigned_cases hassigned'
  rw [UInt32.lt_iff_toNat_lt]
  refine Nat.lt_of_lt_of_le ?_ (uidNext_final _ (lt_of_eq_of_lt
    (congrArg (· + between.length) hnext) (by omega))).1
  exact Nat.lt_of_lt_of_eq (Nat.lt_succ_self _) hnext.symm

/--
Clones of a handle assign UIDs at the same time: different calls get different UIDs, a
call that starts when another has returned gets a greater one, and whoever asks for the
path of a UID after it was assigned is told where the message is, unless it is removed.
-/
theorem concurrent_assignments (hfew : (Shared.asked events).length < 2 ^ 32 - 1)
    (hmade : .invoke one (.serve (.assignUid path)) ∈
      mailboxHistory username name uidValidity events)
    (huid : .respond one (some (.assigned (.ok uid))) ∈
      mailboxHistory username name uidValidity events) :
    (∀ other path' uid', .invoke other (.serve (.assignUid path')) ∈
          mailboxHistory username name uidValidity events →
        .respond other (some (.assigned (.ok uid'))) ∈
          mailboxHistory username name uidValidity events →
        (one ≠ other → uid ≠ uid') ∧
          (ReturnsBefore (mailboxHistory username name uidValidity events) one other →
            uid < uid')) ∧
      ∀ other reply, ReturnsBefore (mailboxHistory username name uidValidity events) one other →
        .invoke other (.serve (.getPath uid)) ∈ mailboxHistory username name uidValidity events →
        .respond other (some reply) ∈ mailboxHistory username name uidValidity events →
        .serve (.removeMessage uid) ∉ Shared.asked events →
          ∃ found, reply = .path (.ok (some found)) ∧
            (found = path ∨ .serve (.updatePath uid found) ∈ Shared.asked events) := by
  refine ⟨fun other path' uid' hmade' huid' => ⟨fun hdifferent => ?_, fun hbefore => ?_⟩,
    fun other reply hbefore hmade' hreply hkept => ?_⟩
  · rcases Shared.inTurn_or hmade huid hmade' huid' hdifferent with hturns | hturns
    · exact UInt32.ne_of_lt (assigned_lt_of_inTurn hfew hturns)
    · exact (UInt32.ne_of_lt (assigned_lt_of_inTurn hfew hturns)).symm
  · exact assigned_lt_of_inTurn hfew
      (Shared.inTurn_of_returnsBefore hmade huid hmade' huid' hbefore)
  · obtain ⟨past, between, -, hbetween, hlength, hassigned, rfl⟩ :=
      (Shared.inTurn_of_returnsBefore hmade huid hmade' hreply hbefore).asked
    obtain ⟨hle, hnext⟩ := uidNext_of_turn (by omega) hassigned
    obtain ⟨-, -, hstored⟩ := assigned_cases hassigned
    have hbelow : uid < (mailboxStateLoop.step (mailboxStateLoop.final
        (new username name uidValidity) past) (.serve (.assignUid path))).1.uidNext := by
      rw [UInt32.lt_iff_toNat_lt, hnext]
      exact Nat.lt_succ_self _
    obtain ⟨found, hfound, hfrom⟩ := lookup_final (lt_of_eq_of_lt
      (congrArg (· + between.length) hnext) (by omega)) hstored hbelow fun input hinput hsame =>
        hkept (hsame ▸ hbetween input hinput)
    refine ⟨found, congrArg (fun stored => MailboxReply.path (.ok stored)) hfound, ?_⟩
    exact hfrom.imp_right (hbetween _)

/-- Two clones assign a UID; the message of the first, which was served second, is moved. -/
def twoClones : List (SharedEvent MailboxInput) :=
  [.call (.operation (.serve (.assignUid "new/m1"))),
    .call (.operation (.serve (.assignUid "new/m2"))), .send 1, .send 0, .receive, .process,
    .receive, .process, .take 0, .call (.operation (.serve (.updatePath 2 "cur/m1"))), .send 2,
    .receive, .process, .call (.operation (.serve (.getPath 2))), .send 3, .receive, .process,
    .take 3]

theorem mailboxHistory_twoClones :
    mailboxHistory "ann" "box" 1 twoClones =
      [.invoke 0 (.serve (.assignUid "new/m1")), .invoke 1 (.serve (.assignUid "new/m2")),
        .respond 0 (some (.assigned (.ok 2))), .invoke 2 (.serve (.updatePath 2 "cur/m1")),
        .invoke 3 (.serve (.getPath 2)), .respond 3 (some (.path (.ok (some "cur/m1"))))] := by
  rfl

theorem concurrent_assignments_twoClones :
    ∃ found, MailboxReply.path (.ok (some "cur/m1")) = .path (.ok (some found)) ∧
      (found = "new/m1" ∨ .serve (.updatePath 2 found) ∈ Shared.asked twoClones) := by
  have hmade : .invoke 0 (.serve (.assignUid "new/m1")) ∈ mailboxHistory "ann" "box" 1 twoClones :=
    by simp [mailboxHistory_twoClones]
  have huid : .respond 0 (some (.assigned (.ok 2))) ∈ mailboxHistory "ann" "box" 1 twoClones := by
    simp [mailboxHistory_twoClones]
  have hbefore : ReturnsBefore (mailboxHistory "ann" "box" 1 twoClones) 0 3 := by
    rw [mailboxHistory_twoClones]
    exact ⟨.assigned (.ok 2), .serve (.getPath 2), by simp⟩
  refine (concurrent_assignments (by decide) hmade huid).2 3 _ hbefore ?_ ?_ (by decide) <;>
    simp [mailboxHistory_twoClones]

end Overlapping

end InternalMailboxState

end Scuttled
