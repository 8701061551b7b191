import Scuttled.Foundation.Waiting
import Scuttled.Handlers.Pattern
import Scuttled.Mailboxes.Issues

/-!
# The registry under concurrent calls

Every session calls the one registry of the server.  A write waits for room in the
writer's channel and then for its reply; a read locks the state.  Whatever overlaps,
each call is answered as if it had run alone at some moment between its start and its
end, so the guarantees for one call after another carry over to overlapping calls.
-/

namespace Scuttled

open Rust Foundation

/-- `InMemoryMailboxes` among its callers: `channel(100)` leads to `writer_loop`, the
reads take the lock themselves. -/
def registryService (engine : RegexEngine) (order : HashOrder (String × String) MailboxInfo) :
    Service InMemoryMailboxes RegistryCall RegistryReply where
  object := registryMachine engine order
  direct
    | .write _ => false
    | .getMailbox _ _ | .listMailboxes _ _ => true
  capacity := 100

/-- The call neither deletes the mailbox nor sets its next UID. -/
def RegistryCall.Leaves (mailbox : String × String) : RegistryCall → Prop
  | .write (.delete username name) => (username, name) ≠ mailbox
  | .write (.updateNextUid id _) => (id.username, id.name) ≠ mailbox
  | _ => True

instance (mailbox : String × String) (call : RegistryCall) :
    Decidable (call.Leaves mailbox) :=
  match call with
  | .write (.delete username name) => inferInstanceAs (Decidable ((username, name) ≠ mailbox))
  | .write (.updateNextUid id _) => inferInstanceAs (Decidable ((id.username, id.name) ≠ mailbox))
  | .write (.create _ _) | .write (.getNextUid _ _) | .write (.updateUidValidity _ _)
  | .write (.updateCounts _ _ _ _) | .getMailbox _ _ | .listMailboxes _ _ => .isTrue trivial

/-! ## One call after the other -/

section Runs

variable (engine : RegexEngine) (order : HashOrder (String × String) MailboxInfo)
  {registry : InMemoryMailboxes} {mailbox : String × String} {info : MailboxInfo}

/-- A mailbox that is stored stays until it is deleted; its next UID is left or counted up
unless it is set. -/
theorem lookup_step_of_spared {call : RegistryCall}
    (hcall : call ≠ .write (.delete mailbox.1 mailbox.2)) (hstate : registry.state.WellFormed)
    (hlookup : registry.state.mailboxes.lookup mailbox = some info) :
    ∃ info', ((registryMachine engine order).step registry call).1.state.mailboxes.lookup mailbox =
        some info' ∧
      info'.id = info.id ∧
      (call.Leaves mailbox → info'.nextUid = info.nextUid ∨ info'.nextUid = info.nextUid + 1) := by
  have hread (hnone : ∀ command, call ≠ .write command) :
      ∃ info', ((registryMachine engine order).step registry call).1.state.mailboxes.lookup
          mailbox = some info' ∧ info'.id = info.id ∧
        (call.Leaves mailbox →
          info'.nextUid = info.nextUid ∨ info'.nextUid = info.nextUid + 1) := by
    rw [state_step_read engine order registry call hnone]
    exact ⟨info, hlookup, rfl, fun _ => .inl rfl⟩
  have hset (id : MailboxId) (update : MailboxInfo → MailboxInfo)
      (hid : ∀ stored, (update stored).id = stored.id)
      (hnext : call.Leaves mailbox → (id.username, id.name) = mailbox →
        (update info).nextUid = info.nextUid) :
      ∃ info', (registry.state.updateInfo id update).2.mailboxes.lookup mailbox = some info' ∧
        info'.id = info.id ∧
        (call.Leaves mailbox →
          info'.nextUid = info.nextUid ∨ info'.nextUid = info.nextUid + 1) := by
    obtain ⟨-, hsame⟩ | ⟨stored, hstored, hupdated⟩ :=
      MailboxState.updateInfo_cases hstate id update
    · rw [hsame]
      exact ⟨info, hlookup, rfl, fun _ => .inl rfl⟩
    · rw [hupdated, HashMap.lookup_insert_eq]
      split
      · rename_i hmailbox
        subst hmailbox
        obtain rfl := Option.some.inj (hlookup.symm.trans hstored)
        exact ⟨_, rfl, hid info, fun hleaves => .inl (hnext hleaves rfl)⟩
      · exact ⟨info, hlookup, rfl, fun _ => .inl rfl⟩
  cases call with
  | getMailbox username name => exact hread (by simp)
  | listMailboxes username filter => exact hread (by simp)
  | write command =>
      cases command with
      | create username name =>
          simp only [registryMachine, writerStep]
          obtain ⟨-, -, hsame⟩ | ⟨hfree, created, -, -, -, hnew⟩ :=
            registry.state.createMailbox_cases username name
          · rw [hsame]
            exact ⟨info, hlookup, rfl, fun _ => .inl rfl⟩
          · rw [hnew, HashMap.lookup_insert_eq, if_neg]
            · exact ⟨info, hlookup, rfl, fun _ => .inl rfl⟩
            · rintro rfl
              cases hfree.symm.trans hlookup
      | delete username name =>
          simp only [registryMachine, writerStep]
          obtain ⟨-, hsame⟩ | ⟨-, hgone⟩ := MailboxState.deleteMailbox_cases hstate username name
          · rw [hsame]
            exact ⟨info, hlookup, rfl, fun _ => .inl rfl⟩
          · rw [hgone, HashMap.lookup_erase_eq, if_neg]
            · exact ⟨info, hlookup, rfl, fun _ => .inl rfl⟩
            · rintro rfl
              exact hcall rfl
      | getNextUid username name =>
          simp only [registryMachine, writerStep]
          obtain ⟨-, hsame⟩ | ⟨stored, hstored, hdrawn⟩ :=
            registry.state.getNextUid_cases username name
          · rw [hsame]
            exact ⟨info, hlookup, rfl, fun _ => .inl rfl⟩
          · rw [hdrawn, HashMap.lookup_insert_eq]
            split
            · rename_i hmailbox
              subst hmailbox
              obtain rfl := Option.some.inj (hlookup.symm.trans hstored)
              exact ⟨_, rfl, rfl, fun _ => .inr rfl⟩
            · exact ⟨info, hlookup, rfl, fun _ => .inl rfl⟩
      | updateNextUid id nextUid =>
          exact hset id _ (fun _ => rfl) fun hleaves hmailbox => absurd hmailbox hleaves
      | updateUidValidity id uidValidity => exact hset id _ (fun _ => rfl) fun _ _ => rfl
      | updateCounts id messageCount unseenCount recentCount =>
          exact hset id _ (fun _ => rfl) fun _ _ => rfl

theorem RegistryCall.Leaves.spares {call : RegistryCall} (hcall : call.Leaves mailbox) :
    call ≠ .write (.delete mailbox.1 mailbox.2) := by
  rintro rfl
  exact hcall rfl

theorem lookup_final_of_spared {calls : List RegistryCall}
    (hcalls : ∀ call ∈ calls, call ≠ .write (.delete mailbox.1 mailbox.2))
    (hstate : registry.state.WellFormed)
    (hlookup : registry.state.mailboxes.lookup mailbox = some info) :
    ∃ info', ((registryMachine engine order).final registry calls).state.mailboxes.lookup
      mailbox = some info' ∧ info'.id = info.id := by
  have hstep (current : InMemoryMailboxes) (call : RegistryCall) (hcall : call ∈ calls)
      (hstored : current.state.WellFormed ∧
        ∃ info', current.state.mailboxes.lookup mailbox = some info' ∧ info'.id = info.id) :
      ((registryMachine engine order).step current call).1.state.WellFormed ∧
        ∃ info', ((registryMachine engine order).step current call).1.state.mailboxes.lookup
          mailbox = some info' ∧ info'.id = info.id := by
    obtain ⟨hwellFormed, info', hinfo', hid⟩ := hstored
    obtain ⟨next, hnext, hsame, -⟩ :=
      lookup_step_of_spared engine order (hcalls call hcall) hwellFormed hinfo'
    exact ⟨wellFormed_step engine order current hwellFormed call, next, hnext, hsame.trans hid⟩
  exact (Machine.final_invariant hstep ⟨hstate, info, hlookup, rfl⟩).2

theorem nextUid_of_appears {call : RegistryCall} (hstate : registry.state.WellFormed)
    (hnone : registry.state.mailboxes.lookup mailbox = none)
    (hlookup : ((registryMachine engine order).step registry call).1.state.mailboxes.lookup
      mailbox = some info) : info.nextUid = 1 := by
  cases call with
  | getMailbox username name => cases hnone.symm.trans hlookup
  | listMailboxes username filter =>
      rw [state_step_read engine order registry _ (by simp), hnone] at hlookup
      cases hlookup
  | write command =>
      have hcreate : command = .create mailbox.1 mailbox.2 := by
        refine (MailboxState.stored_of_writerStep hstate
          (Option.isSome_of_eq_some hlookup)).resolve_left ?_
        simp [hnone]
      subst hcreate
      simp only [registryMachine, writerStep] at hlookup
      obtain ⟨found, hfound, -⟩ | ⟨-, created, -, hnext, -, hnew⟩ :=
        registry.state.createMailbox_cases mailbox.1 mailbox.2
      · cases hnone.symm.trans hfound
      · rw [hnew, HashMap.lookup_insert_eq, if_pos rfl] at hlookup
        rw [← Option.some.inj hlookup, hnext]

/-- The next UID of a mailbox is at most one more than so many calls. -/
def NextUidBelow (mailbox : String × String) (count : Nat) (registry : InMemoryMailboxes) : Prop :=
  ∀ info, registry.state.mailboxes.lookup mailbox = some info → info.nextUid.toNat ≤ count + 1

theorem toNat_le_of_counted {next next' : Uid} {count : Nat} (hle : next.toNat ≤ count + 1)
    (hcount : count + 1 < 2 ^ 32 - 1) (hnext : next' = next ∨ next' = next + 1) :
    next.toNat ≤ next'.toNat ∧ next'.toNat ≤ count + 2 := by
  rcases hnext with rfl | rfl
  · exact ⟨Nat.le_refl _, Nat.le_succ_of_le hle⟩
  · rw [UInt32.toNat_add, UInt32.toNat_one, Nat.mod_eq_of_lt (by omega)]
    omega

theorem NextUidBelow.step {call : RegistryCall} {count : Nat} (hcall : call.Leaves mailbox)
    (hstate : registry.state.WellFormed) (hbelow : NextUidBelow mailbox count registry)
    (hcount : count + 1 < 2 ^ 32 - 1) :
    NextUidBelow mailbox (count + 1) ((registryMachine engine order).step registry call).1 := by
  intro info' hinfo'
  cases hlookup : registry.state.mailboxes.lookup mailbox with
  | none =>
      rw [nextUid_of_appears engine order hstate hlookup hinfo']
      exact Nat.le_add_left _ _
  | some info =>
      obtain ⟨found, hfound, -, hnext⟩ :=
        lookup_step_of_spared engine order hcall.spares hstate hlookup
      obtain rfl := Option.some.inj (hinfo'.symm.trans hfound)
      exact (toNat_le_of_counted (hbelow info hlookup) hcount (hnext hcall)).2

theorem final_of_leaves {calls : List RegistryCall} (hcalls : ∀ call ∈ calls, call.Leaves mailbox)
    {count : Nat} (hcount : count + calls.length < 2 ^ 32 - 1)
    (hstate : registry.state.WellFormed) (hbelow : NextUidBelow mailbox count registry) :
    ((registryMachine engine order).final registry calls).state.WellFormed ∧
      NextUidBelow mailbox (count + calls.length)
        ((registryMachine engine order).final registry calls) ∧
      ∀ info, registry.state.mailboxes.lookup mailbox = some info →
        ∃ info', ((registryMachine engine order).final registry calls).state.mailboxes.lookup
            mailbox = some info' ∧
          info'.id = info.id ∧ info.nextUid.toNat ≤ info'.nextUid.toNat := by
  induction calls using List.reverseRecOn with
  | nil => exact ⟨hstate, hbelow, fun info hinfo => ⟨info, hinfo, rfl, Nat.le_refl _⟩⟩
  | append_singleton calls call ih =>
      rw [List.length_append, List.length_singleton] at hcount ⊢
      obtain ⟨hwellFormed, hthen, hkept⟩ :=
        ih (fun earlier hearlier => hcalls earlier (List.mem_append_left _ hearlier)) (by omega)
      have hcall := hcalls call (List.mem_append_right _ List.mem_cons_self)
      rw [Machine.final_append]
      refine ⟨wellFormed_step engine order _ hwellFormed call,
        hthen.step engine order hcall hwellFormed (by omega), fun info hinfo => ?_⟩
      obtain ⟨between, hbetween, hid, hle⟩ := hkept info hinfo
      obtain ⟨info', hinfo', hid', hnext⟩ :=
        lookup_step_of_spared engine order hcall.spares hwellFormed hbetween
      refine ⟨info', hinfo', hid'.trans hid, hle.trans ?_⟩
      exact (toNat_le_of_counted (hthen between hbetween) (by omega) (hnext hcall)).1

theorem nextUidBelow_new (mailbox : String × String) :
    NextUidBelow mailbox 0 InMemoryMailboxes.new := by
  intro info hinfo
  cases hinfo

theorem drawn_cases {username name : String} {uid : Uid}
    (hdrawn : .written (.uid (.ok uid)) =
      ((registryMachine engine order).step registry (.write (.getNextUid username name))).2) :
    ∃ info, registry.state.mailboxes.lookup (username, name) = some info ∧ info.nextUid = uid ∧
      ((registryMachine engine order).step registry
        (.write (.getNextUid username name))).1.state.mailboxes.lookup (username, name) =
          some { info with nextUid := uid + 1 } := by
  simp only [registryMachine, writerStep] at hdrawn ⊢
  obtain ⟨-, hrefused⟩ | ⟨info, hlookup, hserved⟩ := registry.state.getNextUid_cases username name
  · rw [hrefused] at hdrawn
    cases hdrawn
  · rw [hserved] at hdrawn ⊢
    obtain rfl : uid = info.nextUid := by simpa using hdrawn
    exact ⟨info, hlookup, rfl, HashMap.lookup_insert_eq.trans (if_pos rfl)⟩

theorem created_cases {username name : String} {info : MailboxInfo}
    (hcreated : .written (.info (.ok info)) =
      ((registryMachine engine order).step registry (.write (.create username name))).2) :
    registry.state.mailboxes.lookup (username, name) = none ∧ info.id = ⟨username, name⟩ ∧
      ((registryMachine engine order).step registry
        (.write (.create username name))).1.state.mailboxes.lookup (username, name) = some info := by
  simp only [registryMachine, writerStep] at hcreated ⊢
  obtain ⟨-, -, hrefused⟩ | ⟨hfree, stored, hid, -, -, hnew⟩ :=
    registry.state.createMailbox_cases username name
  · rw [hrefused] at hcreated
    cases hcreated
  · rw [hnew] at hcreated ⊢
    obtain rfl : info = stored := by simpa using hcreated
    exact ⟨hfree, hid, HashMap.lookup_insert_eq.trans (if_pos rfl)⟩

end Runs

/-! ## Overlapping calls -/

section Overlapping

variable (engine : RegexEngine) (order : HashOrder (String × String) MailboxInfo)

/-- What the callers of the registry see. -/
abbrev registryHistory (events : List (SharedEvent RegistryCall)) :
    List (CallEvent RegistryCall RegistryReply) :=
  Shared.history (registryService engine order) .new events

/-- The registry, its channel and its callers after a run. -/
abbrev registryAfter (events : List (SharedEvent RegistryCall)) :
    Shared InMemoryMailboxes RegistryCall RegistryReply :=
  (Shared.machine (registryService engine order)).final (.new .new) events

/--
However the calls overlap, and whichever are given up: what they return is what the
registry would have returned to them one after the other, in an order that respects
which returned before which started; the registry is as after those calls, its two maps
agree, and a write that waits is answered when the writer has taken 101 commands, at
most 100 of which it serves before.
-/
theorem registry_linearizable (events : List (SharedEvent RegistryCall)) :
    Linearizes (registryMachine engine order) .new (registryHistory engine order events)
        (registryAfter engine order events).order ∧
      (registryAfter engine order events).state =
        (registryMachine engine order).final .new
          ((registryAfter engine order events).order.map Prod.snd) ∧
      (registryAfter engine order events).state.state.WellFormed ∧
      ∀ call : Nat, (registryAfter engine order events).calls[call]? = some .waiting →
        (∃ answer, (registryAfter engine order
          (events ++ (List.replicate 101 Shared.round).flatten)).calls[call]? =
            some (.replied answer)) ∧
        ∀ more, (registryAfter engine order (events ++ more)).calls[call]? = some .waiting →
          (registryAfter engine order (events ++ more)).served (registryService engine order) ≤
            (registryAfter engine order events).served (registryService engine order) + 100 := by
  obtain ⟨hlinear, hstate⟩ := Shared.linearizes (registryService engine order) .new events
  refine ⟨hlinear, hstate, ?_, fun call hwaits => ⟨?_, fun more hstill => ?_⟩⟩
  · rw [hstate]
    exact Machine.final_invariant (fun registry call _ hwellFormed =>
      wellFormed_step engine order registry hwellFormed call) MailboxState.wellFormed_new
  · exact Shared.replied_of_rounds (registryService engine order) .new events hwaits
  · exact Shared.served_le_of_waiting (registryService engine order) .new events more hwaits hstill

variable {events : List (SharedEvent RegistryCall)} {username name : String} {one other : Nat}

theorem before_turn {mailbox : String × String} {past : List RegistryCall}
    (hpast : ∀ call ∈ past, call.Leaves mailbox) (hlength : past.length < 2 ^ 32 - 1) :
    ((registryMachine engine order).final .new past).state.WellFormed ∧
      NextUidBelow mailbox past.length ((registryMachine engine order).final .new past) := by
  obtain ⟨hwellFormed, hbelow, -⟩ := final_of_leaves engine order hpast
    (by omega) MailboxState.wellFormed_new (nextUidBelow_new mailbox)
  exact ⟨hwellFormed, by simpa using hbelow⟩

theorem lt_of_inTurn {uid uid' : Uid}
    (hleaves : ∀ call ∈ Shared.asked events, call.Leaves (username, name))
    (hfew : (Shared.asked events).length < 2 ^ 32)
    (hturns : Shared.InTurn (registryService engine order) .new
      (Shared.turns (registryService engine order) .new events)
      (one, .write (.getNextUid username name)) (.written (.uid (.ok uid)))
      (other, .write (.getNextUid username name)) (.written (.uid (.ok uid')))) :
    uid < uid' := by
  obtain ⟨past, between, hpast, hbetween, hlength, hdrawn, hdrawn'⟩ := hturns.asked
  obtain ⟨hwellFormed, hbelow⟩ := before_turn engine order
    (fun call hcall => hleaves call (hpast call hcall)) (by omega)
  obtain ⟨info, hinfo, rfl, hthen⟩ := drawn_cases engine order hdrawn
  have hdraw : RegistryCall.Leaves (username, name) (.write (.getNextUid username name)) := trivial
  have hstepped := hbelow.step engine order hdraw hwellFormed (by omega)
  obtain ⟨-, -, hkept⟩ := final_of_leaves engine order
    (fun call hcall => hleaves call (hbetween call hcall)) (by omega)
    (wellFormed_step engine order _ hwellFormed _) hstepped
  obtain ⟨info', hinfo', -, hle⟩ := hkept _ hthen
  obtain ⟨found, hfound, rfl, -⟩ := drawn_cases engine order hdrawn'
  obtain rfl := Option.some.inj (hinfo'.symm.trans hfound)
  have hone := hbelow info hinfo
  rw [UInt32.lt_iff_toNat_lt]
  rw [UInt32.toNat_add, UInt32.toNat_one, Nat.mod_eq_of_lt (by omega)] at hle
  omega

/--
Sessions draw UIDs from one mailbox at the same time, while nobody deletes it or sets
its next UID: different calls get different UIDs, and a call that starts when another
has returned gets a greater one.
-/
theorem concurrent_uids
    (hleaves : ∀ call ∈ Shared.asked events, call.Leaves (username, name))
    (hfew : (Shared.asked events).length < 2 ^ 32) {uid uid' : Uid}
    (hmade : .invoke one (.write (.getNextUid username name)) ∈
      registryHistory engine order events)
    (huid : .respond one (some (.written (.uid (.ok uid)))) ∈ registryHistory engine order events)
    (hmade' : .invoke other (.write (.getNextUid username name)) ∈
      registryHistory engine order events)
    (huid' : .respond other (some (.written (.uid (.ok uid')))) ∈
      registryHistory engine order events) :
    (one ≠ other → uid ≠ uid') ∧
      (ReturnsBefore (registryHistory engine order events) one other → uid < uid') := by
  constructor
  · intro hdifferent
    rcases Shared.inTurn_or hmade huid hmade' huid' hdifferent with hturns | hturns
    · exact UInt32.ne_of_lt (lt_of_inTurn engine order hleaves hfew hturns)
    · exact (UInt32.ne_of_lt (lt_of_inTurn engine order hleaves hfew hturns)).symm
  · intro hbefore
    exact lt_of_inTurn engine order hleaves hfew
      (Shared.inTurn_of_returnsBefore hmade huid hmade' huid' hbefore)

/-- One session draws a UID; then another does, while a third looks at the mailbox. -/
def twoDraws : List (SharedEvent RegistryCall) :=
  [.call (.operation (.write (.create "ann" "box"))), .send 0,
    .call (.operation (.write (.getNextUid "ann" "box"))), .send 1, .receive, .process, .receive,
    .process, .take 1, .call (.operation (.getMailbox "ann" "box")),
    .call (.operation (.write (.getNextUid "ann" "box"))), .send 3, .receive, .perform 2, .process,
    .take 3]

theorem registryHistory_twoDraws :
    registryHistory .searching .listed twoDraws =
      [.invoke 0 (.write (.create "ann" "box")), .invoke 1 (.write (.getNextUid "ann" "box")),
        .respond 1 (some (.written (.uid (.ok 1)))), .invoke 2 (.getMailbox "ann" "box"),
        .invoke 3 (.write (.getNextUid "ann" "box")),
        .respond 3 (some (.written (.uid (.ok 2))))] := by
  rfl

theorem concurrent_uids_twoDraws :
    (1 ≠ 3 → (1 : Uid) ≠ 2) ∧
      (ReturnsBefore (registryHistory .searching .listed twoDraws) 1 3 → (1 : Uid) < 2) := by
  have hleaves : ∀ call ∈ Shared.asked twoDraws, call.Leaves ("ann", "box") := by decide
  refine concurrent_uids .searching .listed hleaves (by decide) ?_ ?_ ?_ ?_ <;>
    simp [registryHistory_twoDraws]

theorem stored_of_created {info : MailboxInfo} {past between : List RegistryCall}
    (hbetween : ∀ call ∈ between, call ≠ .write (.delete username name))
    (hcreated : .written (.info (.ok info)) = ((registryMachine engine order).step
      ((registryMachine engine order).final .new past) (.write (.create username name))).2) :
    ∃ info', ((registryMachine engine order).final ((registryMachine engine order).step
        ((registryMachine engine order).final .new past) (.write (.create username name))).1
          between).state.mailboxes.lookup (username, name) = some info' ∧
      info'.id = ⟨username, name⟩ := by
  have hwellFormed : ((registryMachine engine order).final .new past).state.WellFormed :=
    Machine.final_invariant (fun registry call _ hstate =>
      wellFormed_step engine order registry hstate call) MailboxState.wellFormed_new
  obtain ⟨-, hid, hstored⟩ := created_cases engine order hcreated
  obtain ⟨info', hinfo', hsame⟩ := lookup_final_of_spared engine order hbetween
    (wellFormed_step engine order _ hwellFormed _) hstored
  exact ⟨info', hinfo', hsame.trans hid⟩

theorem refused_of_created {info : MailboxInfo} {reply : RegistryReply}
    (hspared : ∀ call ∈ Shared.asked events, call ≠ .write (.delete username name))
    (hturns : Shared.InTurn (registryService engine order) .new
      (Shared.turns (registryService engine order) .new events)
      (one, .write (.create username name)) (.written (.info (.ok info)))
      (other, .write (.create username name)) reply) :
    reply = .written (.info (.error (.mailboxExists name))) := by
  obtain ⟨past, between, -, hbetween, -, hcreated, rfl⟩ := hturns.asked
  obtain ⟨info', hinfo', -⟩ := stored_of_created engine order
    (fun call hcall => hspared call (hbetween call hcall)) hcreated
  simp only [registryService, registryMachine, writerStep]
  obtain ⟨-, -, hrefused⟩ | ⟨hfree, -⟩ := MailboxState.createMailbox_cases username name _
  · rw [hrefused]
  · cases hfree.symm.trans hinfo'

/--
Sessions create one mailbox at the same time, while nobody deletes it.  When one of them
is told that it was created, all others are told that it exists, and whoever looks for it
or lists the mailboxes after that finds it.
-/
theorem concurrent_creations
    (hspared : ∀ call ∈ Shared.asked events, call ≠ .write (.delete username name))
    {info : MailboxInfo}
    (hmade : .invoke one (.write (.create username name)) ∈ registryHistory engine order events)
    (hreply : .respond one (some (.written (.info (.ok info)))) ∈
      registryHistory engine order events) :
    (∀ other reply, other ≠ one →
        .invoke other (.write (.create username name)) ∈ registryHistory engine order events →
        .respond other (some reply) ∈ registryHistory engine order events →
          reply = .written (.info (.error (.mailboxExists name)))) ∧
      (∀ other reply, ReturnsBefore (registryHistory engine order events) one other →
        .invoke other (.getMailbox username name) ∈ registryHistory engine order events →
        .respond other (some reply) ∈ registryHistory engine order events →
          ∃ info', reply = .found (.ok (some info')) ∧ info'.id = ⟨username, name⟩) ∧
      ∀ other filter reply, ReturnsBefore (registryHistory engine order events) one other →
        filter.accepts engine name = true →
        .invoke other (.listMailboxes username filter) ∈ registryHistory engine order events →
        .respond other (some reply) ∈ registryHistory engine order events →
          ∃ infos, reply = .listed (.ok infos) ∧ ∃ info' ∈ infos, info'.id = ⟨username, name⟩ := by
  refine ⟨fun other reply hdifferent hmade' hreply' => ?_,
    fun other reply hbefore hmade' hreply' => ?_,
    fun other filter reply hbefore haccepts hmade' hreply' => ?_⟩
  · rcases Shared.inTurn_or hmade hreply hmade' hreply' (Ne.symm hdifferent) with hturns | hturns
    · exact refused_of_created engine order hspared hturns
    · -- had the other created it, the one would have been refused
      obtain ⟨past, between, -, hbetween, -, hother, hone⟩ := hturns.asked
      obtain ⟨-, -, hrefused⟩ | ⟨-, created, -, -, -, hnew⟩ := MailboxState.createMailbox_cases
        username name ((registryMachine engine order).final .new past).state
      · rw [hother]
        simp only [registryService, registryMachine, writerStep] at hrefused ⊢
        rw [hrefused]
      · have hcreated : .written (.info (.ok created)) = reply := by
          rw [hother]
          simp only [registryService, registryMachine, writerStep] at hnew ⊢
          rw [hnew]
        subst hcreated
        cases refused_of_created engine order hspared hturns
  · obtain ⟨past, between, -, hbetween, -, hcreated, rfl⟩ :=
      (Shared.inTurn_of_returnsBefore hmade hreply hmade' hreply' hbefore).asked
    obtain ⟨info', hinfo', hid⟩ := stored_of_created engine order
      (fun call hcall => hspared call (hbetween call hcall)) hcreated
    exact ⟨info', congrArg (fun found => RegistryReply.found (.ok found)) hinfo', hid⟩
  · obtain ⟨past, between, -, hbetween, -, hcreated, rfl⟩ :=
      (Shared.inTurn_of_returnsBefore hmade hreply hmade' hreply' hbefore).asked
    obtain ⟨info', hinfo', hid⟩ := stored_of_created engine order
      (fun call hcall => hspared call (hbetween call hcall)) hcreated
    obtain ⟨iterations, hlisted⟩ := listMailboxes_ok engine order username filter
      ((registryMachine engine order).final ((registryMachine engine order).step
        ((registryMachine engine order).final .new past) (.write (.create username name))).1 between)
    have hanswer := congrArg (fun answer : Result (List MailboxInfo) × InMemoryMailboxes =>
      RegistryReply.listed answer.1) hlisted
    refine ⟨_, hanswer, info', ?_, hid⟩
    refine List.mem_filter.mpr ⟨List.mem_map.mpr ⟨⟨(username, name), info'⟩, ?_, rfl⟩, ?_⟩
    · exact List.mem_filter.mpr ⟨HashMap.mem_arrange_iff.mpr hinfo', beq_self_eq_true username⟩
    · rw [hid]
      exact haccepts

/-- Two sessions create a mailbox; the first to be served looks for it again. -/
def twoCreations : List (SharedEvent RegistryCall) :=
  [.call (.operation (.write (.create "ann" "box"))),
    .call (.operation (.write (.create "ann" "box"))), .send 1, .send 0, .receive, .process,
    .receive, .take 1, .call (.operation (.getMailbox "ann" "box")), .perform 2, .process, .take 0,
    .take 2]

/-- The second call is served first, and the first is told that the mailbox exists. -/
theorem concurrent_creations_twoCreations :
    ∃ reply, .respond 0 (some reply) ∈ registryHistory .searching .listed twoCreations ∧
      reply = .written (.info (.error (.mailboxExists "box"))) := by
  have hhistory : ∃ info reply reply', registryHistory .searching .listed twoCreations =
      [.invoke 0 (.write (.create "ann" "box")), .invoke 1 (.write (.create "ann" "box")),
        .respond 1 (some (.written (.info (.ok info)))), .invoke 2 (.getMailbox "ann" "box"),
        .respond 0 (some reply), .respond 2 (some reply')] := ⟨_, _, _, rfl⟩
  obtain ⟨info, reply, reply', hhistory⟩ := hhistory
  have hspared : ∀ call ∈ Shared.asked twoCreations, call ≠ .write (.delete "ann" "box") := by
    simp [twoCreations, Shared.asked, Request.operation?]
  have hmade : .invoke 1 (.write (.create "ann" "box")) ∈
      registryHistory .searching .listed twoCreations := by simp [hhistory]
  have hreply : .respond 1 (some (.written (.info (.ok info)))) ∈
      registryHistory .searching .listed twoCreations := by simp [hhistory]
  have hmade' : .invoke 0 (.write (.create "ann" "box")) ∈
      registryHistory .searching .listed twoCreations := by simp [hhistory]
  have hreply' : .respond 0 (some reply) ∈ registryHistory .searching .listed twoCreations := by
    simp [hhistory]
  exact ⟨reply, hreply', (concurrent_creations .searching .listed hspared hmade hreply).1 0 reply
    (by decide) hmade' hreply'⟩

end Overlapping

end Scuttled
