import Scuttled.Handlers.Pattern
import Scuttled.Mailboxes.Issues

/-!
# Fresh pairs of UID validity and UID

The counter of the registry gives each mailbox a validity of its own, also when
its name is used again, and each mailbox counts its UIDs from 1.  So a pair of a
validity and a UID is issued once, as long as the setters are not called and no
counter comes to its end.
-/

namespace Scuttled

open Rust Foundation

/-! ## Incarnations -/

/-- The number of the creation that made the mailbox stored under a name: the
last one of that name. -/
def incarnation (mailbox : String × String) (creations : List (String × String)) : Nat :=
  creations.length - creations.reverse.idxOf mailbox

theorem incarnation_concat (mailbox created : String × String)
    (creations : List (String × String)) :
    incarnation mailbox (creations ++ [created]) =
      if created = mailbox then creations.length + 1 else incarnation mailbox creations := by
  rw [incarnation, List.reverse_append, List.reverse_singleton, List.singleton_append,
    List.idxOf_cons, List.length_append, List.length_singleton]
  by_cases hcreated : created = mailbox
  · simp [hcreated]
  · have hother : (created == mailbox) = false := beq_eq_false_iff_ne.mpr hcreated
    rw [hother, if_neg hcreated, cond_false, Nat.add_sub_add_right, incarnation]

theorem getElem?_incarnation {mailbox : String × String} {creations : List (String × String)}
    (hcreated : 0 < incarnation mailbox creations) :
    creations[incarnation mailbox creations - 1]? = some mailbox := by
  induction creations using List.reverseRecOn with
  | nil => simp [incarnation] at hcreated
  | append_singleton creations created ih =>
      rw [incarnation_concat] at hcreated ⊢
      by_cases hsame : created = mailbox
      · rw [if_pos hsame, Nat.add_sub_cancel, List.getElem?_concat_length, hsame]
      · rw [if_neg hsame] at hcreated ⊢
        have hearlier := ih hcreated
        have hlt := (List.getElem?_eq_some_iff.mp hearlier).1
        rwa [List.getElem?_append_left hlt]

/-! ## The invariant -/

def RegistryCall.SetsNothing : RegistryCall → Prop
  | .write (.updateNextUid _ _) | .write (.updateUidValidity _ _) => False
  | _ => True

instance (call : RegistryCall) : Decidable call.SetsNothing := by
  unfold RegistryCall.SetsNothing
  split <;> infer_instance

/-- No counter comes to its end. -/
structure FewIssued (history : List Issue) : Prop where
  mailboxes : (creations history).length < 2 ^ 32 - 1
  uids : ∀ mailbox uidValidity, (drawsOf mailbox uidValidity history).length < 2 ^ 32 - 1

theorem FewIssued.of_append {first second : List Issue} (hfew : FewIssued (first ++ second)) :
    FewIssued first where
  mailboxes := by
    have hlength := hfew.mailboxes
    rw [creations_append, List.length_append] at hlength
    exact Nat.lt_of_le_of_lt (Nat.le_add_right _ _) hlength
  uids := by
    intro mailbox uidValidity
    have hlength := hfew.uids mailbox uidValidity
    rw [drawsOf_append, List.length_append] at hlength
    exact Nat.lt_of_le_of_lt (Nat.le_add_right _ _) hlength

/-- Validities count the creations, and next UIDs the draws. -/
structure Fresh (history : List Issue) (registry : InMemoryMailboxes) : Prop where
  wellFormed : registry.state.WellFormed
  counter : registry.state.nextUidValidity.toNat = (creations history).length + 1
  live : ∀ mailbox info, registry.state.mailboxes.lookup mailbox = some info →
    info.uidValidity.toNat = incarnation mailbox (creations history) ∧
      0 < info.uidValidity.toNat
  drawn : ∀ draw ∈ draws history, draw.uidValidity.toNat ≤ (creations history).length
  next : ∀ mailbox info, registry.state.mailboxes.lookup mailbox = some info →
    info.nextUid.toNat = (drawsOf mailbox info.uidValidity history).length + 1
  consecutive : ∀ mailbox uidValidity,
    (drawsOf mailbox uidValidity history).map (fun draw => draw.uid.toNat) =
      List.range' 1 (drawsOf mailbox uidValidity history).length

theorem fresh_new : Fresh [] .new where
  wellFormed := MailboxState.wellFormed_new
  counter := rfl
  live := by simp [InMemoryMailboxes.new, MailboxState.new]
  drawn := fun _ hdraw => nomatch hdraw
  next := by simp [InMemoryMailboxes.new, MailboxState.new]
  consecutive := fun _ _ => rfl

theorem toNat_add_one {counter : UInt32} {count : Nat} (hcounter : counter.toNat = count)
    (hlt : count < 2 ^ 32 - 1) : (counter + 1).toNat = count + 1 := by
  rw [UInt32.toNat_add, UInt32.toNat_one, hcounter]
  omega

variable {history : List Issue} {registry registry' : InMemoryMailboxes}

theorem Fresh.of_lookup (hfresh : Fresh history registry)
    (hwellFormed : registry'.state.WellFormed)
    (hcounter : registry'.state.nextUidValidity = registry.state.nextUidValidity)
    (hlookup : ∀ mailbox info', registry'.state.mailboxes.lookup mailbox = some info' →
      ∃ info, registry.state.mailboxes.lookup mailbox = some info ∧
        info'.uidValidity = info.uidValidity ∧ info'.nextUid = info.nextUid) :
    Fresh history registry' where
  wellFormed := hwellFormed
  counter := by rw [hcounter, hfresh.counter]
  live := by
    intro mailbox info' hinfo'
    obtain ⟨info, hinfo, hvalidity, -⟩ := hlookup mailbox info' hinfo'
    rw [hvalidity]
    exact hfresh.live mailbox info hinfo
  drawn := hfresh.drawn
  next := by
    intro mailbox info' hinfo'
    obtain ⟨info, hinfo, hvalidity, hnext⟩ := hlookup mailbox info' hinfo'
    rw [hvalidity, hnext]
    exact hfresh.next mailbox info hinfo
  consecutive := hfresh.consecutive

theorem Fresh.of_state_eq (hfresh : Fresh history registry)
    (hsame : registry'.state = registry.state) : Fresh history registry' :=
  hfresh.of_lookup (hsame ▸ hfresh.wellFormed) (congrArg MailboxState.nextUidValidity hsame)
    fun _ info' hinfo' => ⟨info', hsame ▸ hinfo', rfl, rfl⟩

/-- A mailbox is created: its validity was in no use, and no UID was drawn under it. -/
theorem Fresh.create (hfresh : Fresh history registry) (username name : String)
    (hfew : FewIssued (history ++ issues registry (.write (.create username name)))) :
    Fresh (history ++ issues registry (.write (.create username name)))
      { registry with state := (registry.state.createMailbox username name).2 } := by
  have hwellFormed := hfresh.wellFormed.createMailbox username name
  obtain ⟨-, -, hrefused⟩ | ⟨-, info, -, hnext, hvalidity, hcreated⟩ :=
    registry.state.createMailbox_cases username name
  · have hnone : issues registry (.write (.create username name)) = [] := by
      simp only [issues, hrefused]
    rw [hnone, List.append_nil]
    exact hfresh.of_state_eq (congrArg Prod.snd hrefused)
  · have hissues : issues registry (.write (.create username name)) =
        [.created (username, name) info.uidValidity] := by
      simp only [issues, hcreated]
    rw [hissues] at hfew ⊢
    have hcreations : creations (history ++ [.created (username, name) info.uidValidity]) =
        creations history ++ [(username, name)] := creations_append _ _
    have hdraws : draws (history ++ [.created (username, name) info.uidValidity]) =
        draws history := by
      rw [draws_append]
      exact List.append_nil _
    have hdrawsOf (mailbox : String × String) (uidValidity : UInt32) :
        drawsOf mailbox uidValidity (history ++ [.created (username, name) info.uidValidity]) =
          drawsOf mailbox uidValidity history := by
      rw [drawsOf, hdraws]
      rfl
    have hfewer := hfew.mailboxes
    rw [hcreations, List.length_append, List.length_singleton] at hfewer
    have hnumber : info.uidValidity.toNat = (creations history).length + 1 := by
      rw [hvalidity, hfresh.counter]
    rw [hcreated] at hwellFormed ⊢
    constructor
    · exact hwellFormed
    · rw [hcreations, List.length_append]
      exact toNat_add_one hfresh.counter hfewer
    · intro mailbox found hfound
      rw [HashMap.lookup_insert_eq] at hfound
      rw [hcreations, incarnation_concat]
      split at hfound
      · rename_i hmailbox
        rw [← Option.some.inj hfound, if_pos hmailbox.symm, hnumber]
        exact ⟨rfl, Nat.succ_pos _⟩
      · rename_i hmailbox
        rw [if_neg (Ne.symm hmailbox)]
        exact hfresh.live mailbox found hfound
    · intro draw hdraw
      rw [hdraws] at hdraw
      rw [hcreations, List.length_append]
      exact Nat.le_succ_of_le (hfresh.drawn draw hdraw)
    · intro mailbox found hfound
      rw [HashMap.lookup_insert_eq] at hfound
      rw [hdrawsOf]
      split at hfound
      · have hempty : drawsOf mailbox info.uidValidity history = [] := by
          rw [List.eq_nil_iff_forall_not_mem]
          intro draw hdraw
          obtain ⟨hmem, -, hsame⟩ := mem_drawsOf.mp hdraw
          have hle := hfresh.drawn draw hmem
          rw [hsame, hnumber] at hle
          exact absurd hle (Nat.not_succ_le_self _)
        rw [← Option.some.inj hfound, hempty, hnext]
        rfl
      · exact hfresh.next mailbox found hfound
    · intro mailbox uidValidity
      rw [hdrawsOf]
      exact hfresh.consecutive mailbox uidValidity

/-- A UID is drawn: it is the next one of its mailbox. -/
theorem Fresh.getNextUid (hfresh : Fresh history registry) (username name : String)
    (hfew : FewIssued (history ++ issues registry (.write (.getNextUid username name)))) :
    Fresh (history ++ issues registry (.write (.getNextUid username name)))
      { registry with state := (registry.state.getNextUid username name).2 } := by
  have hwellFormed := hfresh.wellFormed.getNextUid username name
  obtain ⟨hlookup, hrefused⟩ | ⟨info, hlookup, hserved⟩ :=
    registry.state.getNextUid_cases username name
  · have hnone : issues registry (.write (.getNextUid username name)) = [] := by
      simp only [issues, hlookup]
    rw [hnone, List.append_nil]
    exact hfresh.of_state_eq (congrArg Prod.snd hrefused)
  · have hissues : issues registry (.write (.getNextUid username name)) =
        [.drawn ⟨(username, name), info.uidValidity, info.nextUid⟩] := by
      simp only [issues, hlookup, hserved]
    rw [hissues] at hfew ⊢
    generalize hdraw : (Draw.mk (username, name) info.uidValidity info.nextUid) = draw at hfew ⊢
    have hcreations : creations (history ++ [.drawn draw]) = creations history := by
      rw [creations_append]
      exact List.append_nil _
    have hdrawsOf (mailbox : String × String) (uidValidity : UInt32) :
        drawsOf mailbox uidValidity (history ++ [.drawn draw]) =
          drawsOf mailbox uidValidity history ++
            if (username, name) = mailbox ∧ info.uidValidity = uidValidity then [draw] else [] := by
      rw [drawsOf_append, ← hdraw]
      congr 1
      by_cases hsame : (username, name) = mailbox ∧ info.uidValidity = uidValidity <;>
        simp [drawsOf, draws, Issue.draw?, hsame]
    have hnext := hfresh.next _ _ hlookup
    have hfewer := hfew.uids (username, name) info.uidValidity
    rw [hdrawsOf, if_pos ⟨rfl, rfl⟩, List.length_append, List.length_singleton, ← hnext] at hfewer
    have hcount := toNat_add_one hnext (hnext ▸ hfewer)
    rw [hserved] at hwellFormed ⊢
    constructor
    · exact hwellFormed
    · rw [hcreations]
      exact hfresh.counter
    · intro mailbox found hfound
      rw [HashMap.lookup_insert_eq] at hfound
      rw [hcreations]
      split at hfound
      · rename_i hmailbox
        rw [← Option.some.inj hfound, hmailbox]
        exact hfresh.live _ info hlookup
      · exact hfresh.live mailbox found hfound
    · intro other hother
      rw [draws_append, List.mem_append] at hother
      rw [hcreations]
      rcases hother with hearlier | hlast
      · exact hfresh.drawn other hearlier
      · obtain rfl : other = draw := List.mem_singleton.mp hlast
        obtain ⟨hnumber, hpos⟩ := hfresh.live _ _ hlookup
        rw [← hdraw]
        have hmade := getElem?_incarnation (hnumber ▸ hpos)
        rw [← hnumber] at hmade
        have hlt := (List.getElem?_eq_some_iff.mp hmade).1
        have hle : info.uidValidity.toNat ≤ (creations history).length := by omega
        exact hle
    · intro mailbox found hfound
      rw [HashMap.lookup_insert_eq] at hfound
      rw [hdrawsOf]
      split at hfound
      · rename_i hmailbox
        rw [← Option.some.inj hfound, hmailbox, if_pos ⟨rfl, rfl⟩, List.length_append]
        exact hcount
      · rename_i hmailbox
        rw [if_neg fun hsame => hmailbox hsame.1.symm, List.append_nil]
        exact hfresh.next mailbox found hfound
    · intro mailbox uidValidity
      rw [hdrawsOf]
      by_cases hsame : (username, name) = mailbox ∧ info.uidValidity = uidValidity
      · obtain ⟨rfl, rfl⟩ := hsame
        rw [if_pos ⟨rfl, rfl⟩, List.map_append, hfresh.consecutive, List.length_append,
          List.length_singleton, List.range'_1_concat, ← hdraw, List.map_singleton, hnext,
          Nat.add_comm 1]
      · rw [if_neg hsame, List.append_nil]
        exact hfresh.consecutive mailbox uidValidity

/-- Every call but the setters keeps the pairs fresh. -/
theorem Fresh.step (hfresh : Fresh history registry) (engine : RegexEngine)
    (order : HashOrder (String × String) MailboxInfo) {call : RegistryCall}
    (hcall : call.SetsNothing) (hfew : FewIssued (history ++ issues registry call)) :
    Fresh (history ++ issues registry call)
      ((registryMachine engine order).step registry call).1 := by
  have hwellFormed := wellFormed_step engine order registry hfresh.wellFormed call
  cases call with
  | getMailbox username name =>
      rw [issues_eq_nil (by simp) (by simp), List.append_nil]
      exact hfresh
  | listMailboxes username filter =>
      rw [issues_eq_nil (by simp) (by simp), List.append_nil]
      exact hfresh.of_state_eq
        (state_step_read engine order registry (.listMailboxes username filter) (by simp))
  | write command =>
      cases command with
      | create username name => exact hfresh.create username name hfew
      | getNextUid username name => exact hfresh.getNextUid username name hfew
      | updateNextUid id nextUid => exact hcall.elim
      | updateUidValidity id uidValidity => exact hcall.elim
      | delete username name =>
          rw [issues_eq_nil (by simp) (by simp), List.append_nil]
          obtain ⟨-, hrefused⟩ | ⟨-, hgone⟩ :=
            MailboxState.deleteMailbox_cases hfresh.wellFormed username name
          · exact hfresh.of_state_eq (congrArg Prod.snd hrefused)
          · refine hfresh.of_lookup hwellFormed (congrArg (·.2.nextUidValidity) hgone)
              fun mailbox info' hinfo' => ?_
            have hkept : (registry.state.mailboxes.erase (username, name)).lookup mailbox =
                some info' := by
              rw [← hinfo']
              exact congrArg (fun answer => answer.2.mailboxes.lookup mailbox) hgone.symm
            rw [HashMap.lookup_erase_eq] at hkept
            split at hkept
            · cases hkept
            · exact ⟨info', hkept, rfl, rfl⟩
      | updateCounts id messageCount unseenCount recentCount =>
          rw [issues_eq_nil (by simp) (by simp), List.append_nil]
          obtain ⟨-, hrefused⟩ | ⟨info, hlookup, hupdated⟩ :=
            MailboxState.updateInfo_cases hfresh.wellFormed id
              fun info => { info with messageCount, unseenCount, recentCount }
          · exact hfresh.of_state_eq (congrArg Prod.snd hrefused)
          · refine hfresh.of_lookup hwellFormed (congrArg (·.2.nextUidValidity) hupdated)
              fun mailbox info' hinfo' => ?_
            have hstored : (registry.state.mailboxes.insert (id.username, id.name)
                { info with messageCount, unseenCount, recentCount }).lookup mailbox =
                  some info' := by
              rw [← hinfo']
              exact congrArg (fun answer => answer.2.mailboxes.lookup mailbox) hupdated.symm
            rw [HashMap.lookup_insert_eq] at hstored
            split at hstored
            · rename_i hmailbox
              rw [← Option.some.inj hstored, hmailbox]
              exact ⟨info, hlookup, rfl, rfl⟩
            · exact ⟨info', hstored, rfl, rfl⟩

/-! ## Runs -/

theorem fresh_final (engine : RegexEngine) (order : HashOrder (String × String) MailboxInfo)
    {calls : List RegistryCall} (hcalls : ∀ call ∈ calls, call.SetsNothing)
    (hfew : FewIssued ((registryMachine engine order).observed issues .new calls)) :
    Fresh ((registryMachine engine order).observed issues .new calls)
      ((registryMachine engine order).final .new calls) := by
  have hstep (history : List Issue) (registry : InMemoryMailboxes) (call : RegistryCall)
      (hfresh : FewIssued history → Fresh history registry) (hcall : call.SetsNothing)
      (hfew : FewIssued (history ++ issues registry call)) :
      Fresh (history ++ issues registry call)
        ((registryMachine engine order).step registry call).1 :=
    (hfresh hfew.of_append).step engine order hcall hfew
  refine Machine.observed_invariant hstep (fun _ => fresh_new) calls ?_ hfew
  intro done call rest hsplit
  exact hcalls call (hsplit ▸ List.mem_append_right _ List.mem_cons_self)

theorem pairwise_of_consecutive {draws : List Draw}
    (hconsecutive : ∀ mailbox uidValidity,
      ∃ start length, (draws.filter fun draw =>
        draw.mailbox = mailbox ∧ draw.uidValidity = uidValidity).map (fun draw => draw.uid.toNat) =
          List.range' start length) :
    draws.Pairwise fun first second => first.mailbox = second.mailbox →
      (first.uidValidity, first.uid) ≠ (second.uidValidity, second.uid) := by
  rw [List.pairwise_iff_forall_sublist]
  intro first second hsublist hmailbox hsame
  obtain ⟨hvalidity, huid⟩ := Prod.mk.inj hsame
  obtain ⟨start, length, hrange⟩ := hconsecutive first.mailbox first.uidValidity
  have hboth := (hsublist.filter fun draw => draw.mailbox = first.mailbox ∧
    draw.uidValidity = first.uidValidity).map fun draw => draw.uid.toNat
  rw [hrange] at hboth
  have hnodup : List.Nodup _ := (List.nodup_range' (s := start) (n := length)).sublist hboth
  simp [hmailbox, hvalidity, huid] at hnodup

/--
Along every run of the registry without the setters, and with counters that do
not come to their end: the pairs of validity and UID drawn from a mailbox differ,
under one validity the UIDs count up from 1, and two mailboxes that are stored at
any times under one validity are one incarnation of one mailbox.
-/
theorem fresh_pairs (engine : RegexEngine) (order : HashOrder (String × String) MailboxInfo)
    (calls : List RegistryCall) (hcalls : ∀ call ∈ calls, call.SetsNothing)
    (hfew : FewIssued ((registryMachine engine order).observed issues .new calls)) :
    ((draws ((registryMachine engine order).observed issues .new calls)).Pairwise
        fun first second => first.mailbox = second.mailbox →
          (first.uidValidity, first.uid) ≠ (second.uidValidity, second.uid)) ∧
      (∀ mailbox uidValidity,
        (drawsOf mailbox uidValidity
            ((registryMachine engine order).observed issues .new calls)).map
              (fun draw => draw.uid.toNat) =
          List.range' 1 (drawsOf mailbox uidValidity
            ((registryMachine engine order).observed issues .new calls)).length) ∧
      ∀ done rest done' rest', calls = done ++ rest → calls = done' ++ rest' →
        ∀ mailbox info mailbox' info',
          ((registryMachine engine order).final .new done).state.mailboxes.lookup mailbox =
            some info →
          ((registryMachine engine order).final .new done').state.mailboxes.lookup mailbox' =
            some info' →
          info.uidValidity = info'.uidValidity →
            mailbox = mailbox' ∧
              incarnation mailbox
                  (creations ((registryMachine engine order).observed issues .new done)) =
                incarnation mailbox'
                  (creations ((registryMachine engine order).observed issues .new done')) := by
  have hfresh := fresh_final engine order hcalls hfew
  refine ⟨pairwise_of_consecutive fun mailbox uidValidity =>
    ⟨1, _, hfresh.consecutive mailbox uidValidity⟩, hfresh.consecutive, ?_⟩
  -- a mailbox stored at some time is the creation its validity counts
  have hmade {done rest : List RegistryCall} (hsplit : calls = done ++ rest)
      {mailbox : String × String} {info : MailboxInfo}
      (hinfo : ((registryMachine engine order).final .new done).state.mailboxes.lookup mailbox =
        some info) :
      info.uidValidity.toNat = incarnation mailbox
          (creations ((registryMachine engine order).observed issues .new done)) ∧
        (creations ((registryMachine engine order).observed issues .new calls))[
          info.uidValidity.toNat - 1]? = some mailbox := by
    rw [hsplit, Machine.observed_append] at hfew
    have hearlier := fresh_final engine order
      (fun call hcall => hcalls call (hsplit ▸ List.mem_append_left _ hcall)) hfew.of_append
    obtain ⟨hnumber, hpos⟩ := hearlier.live mailbox info hinfo
    refine ⟨hnumber, ?_⟩
    have hthen := getElem?_incarnation (hnumber ▸ hpos)
    rw [← hnumber] at hthen
    have hlt := (List.getElem?_eq_some_iff.mp hthen).1
    rw [hsplit, Machine.observed_append, creations_append, List.getElem?_append_left hlt]
    exact hthen
  intro done rest done' rest' hsplit hsplit' mailbox info mailbox' info' hinfo hinfo' hvalidity
  obtain ⟨hnumber, hat⟩ := hmade hsplit hinfo
  obtain ⟨hnumber', hat'⟩ := hmade hsplit' hinfo'
  rw [hvalidity] at hnumber hat
  exact ⟨Option.some.inj (hat.symm.trans hat'), hnumber.symm.trans hnumber'⟩

/-- A mailbox is deleted and created again between two draws. -/
theorem fresh_pairs_recreated :
    (draws ((registryMachine .searching .listed).observed issues .new
      [.write (.create "ann" "box"), .write (.getNextUid "ann" "box"),
        .write (.delete "ann" "box"), .write (.create "ann" "box"),
        .write (.getNextUid "ann" "box")])).Pairwise
      fun first second => first.mailbox = second.mailbox →
        (first.uidValidity, first.uid) ≠ (second.uidValidity, second.uid) := by
  refine (fresh_pairs .searching .listed _ (by decide) ⟨by decide, fun mailbox uidValidity => ?_⟩).1
  exact Nat.lt_of_le_of_lt (List.length_filter_le _ _) (by decide)

end Scuttled
