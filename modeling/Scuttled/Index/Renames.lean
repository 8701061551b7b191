import Scuttled.Index.Tantivy

/-!
# Renaming on the Tantivy index

The writer loop renames a mailbox by moving its state to another key of the table,
and does not look whether a mailbox is there already.  A mailbox is known by the
number of its creation; the ledger follows it through the keys, and notes the UIDs
drawn from it.
-/

namespace Scuttled.Tantivy

open Rust Foundation

/-! ## One rename -/

theorem mailboxKey_inj {username name name' : String}
    (hkey : mailboxKey username name = mailboxKey username name') : name = name' := by
  have hlist := congrArg String.toList hkey
  rw [toList_mailboxKey, toList_mailboxKey] at hlist
  exact String.toList_injective (List.cons.inj (List.append_cancel_left hlist)).2

/-- The state of one mailbox has moved: every other mailbox is as it was, none is
lost, and the counter goes on. -/
structure Moved (oldKey newKey : String) (mailboxes mailboxes' : HashMap String MailboxState) :
    Prop where
  others : ∀ key, key ≠ oldKey → ∀ state, mailboxes.lookup key = some state →
    mailboxes'.lookup key = some state
  count : mailboxes'.entries.length = mailboxes.entries.length
  counter : (mailboxes'.lookup newKey).map MailboxState.uidCounter =
    (mailboxes.lookup oldKey).map MailboxState.uidCounter

namespace Writer

/-- The rename is refused and changes nothing, or it moves the mailbox. -/
def RenameKeeps (writer : Writer) (username oldName newName : String) : Prop :=
  (∃ error, writer.renameMailbox username oldName newName = (.error error, writer)) ∨
    (writer.renameMailbox username oldName newName).1 = .ok () ∧
      Moved (mailboxKey username oldName) (mailboxKey username newName) writer.mailboxes
        (writer.renameMailbox username oldName newName).2.mailboxes

theorem renameMailbox_cases (writer : Writer) (username oldName newName : String) :
    (writer.mailboxes.lookup (mailboxKey username oldName) = none ∧
      ∃ error, writer.renameMailbox username oldName newName = (.error error, writer)) ∨
    ∃ state state', writer.mailboxes.lookup (mailboxKey username oldName) = some state ∧
      state'.uidCounter = state.uidCounter ∧
      writer.renameMailbox username oldName newName = (.ok (), { writer with
        mailboxes := (writer.mailboxes.erase (mailboxKey username oldName)).insert
          (mailboxKey username newName) state' }) := by
  cases hlookup : writer.mailboxes.lookup (mailboxKey username oldName) with
  | none =>
      simp only [renameMailbox, hlookup]
      exact .inl ⟨trivial, _, rfl⟩
  | some state =>
      simp only [renameMailbox, hlookup]
      exact .inr ⟨state, { state with info := { state.info with name := newName } }, rfl, rfl, rfl⟩

theorem moved_of_free {mailboxes : HashMap String MailboxState} {oldKey newKey : String}
    {state state' : MailboxState} (hold : mailboxes.lookup oldKey = some state)
    (hstate : state'.uidCounter = state.uidCounter)
    (hfree : (mailboxes.erase oldKey).lookup newKey = none) :
    Moved oldKey newKey mailboxes ((mailboxes.erase oldKey).insert newKey state') where
  others key hkey found hfound := by
    have hstays : (mailboxes.erase oldKey).lookup key = some found := by
      rw [HashMap.lookup_erase_eq, if_neg hkey]
      exact hfound
    have hne : key ≠ newKey := by
      rintro rfl
      rw [hfree] at hstays
      cases hstays
    rw [HashMap.lookup_insert_eq, if_neg hne]
    exact hstays
  count := by
    rw [HashMap.length_insert, HashMap.erase_of_lookup_none hfree]
    exact HashMap.length_erase hold
  counter := by
    rw [HashMap.lookup_insert_eq, if_pos rfl, hold, Option.map_some, hstate, Option.map_some]

/-- A rename loses nothing exactly if there is nothing to rename, or the new name is
the old one or free. -/
theorem renameKeeps_iff (writer : Writer) (username oldName newName : String) :
    writer.RenameKeeps username oldName newName ↔
      writer.mailboxes.lookup (mailboxKey username oldName) = none ∨ oldName = newName ∨
        writer.mailboxes.lookup (mailboxKey username newName) = none := by
  obtain ⟨hnone, error, hrefused⟩ | ⟨state, state', hold, hstate, hdone⟩ :=
    writer.renameMailbox_cases username oldName newName
  · exact ⟨fun _ => .inl hnone, fun _ => .inl ⟨error, hrefused⟩⟩
  · have hkeeps : writer.RenameKeeps username oldName newName ↔
        Moved (mailboxKey username oldName) (mailboxKey username newName) writer.mailboxes
          ((writer.mailboxes.erase (mailboxKey username oldName)).insert
            (mailboxKey username newName) state') := by
      simp [RenameKeeps, hdone]
    rw [hkeeps]
    constructor
    · intro hmoved
      refine .inr ?_
      by_contra hlost
      obtain ⟨hname, hnew⟩ := not_or.mp hlost
      obtain ⟨other, hother⟩ := Option.ne_none_iff_exists'.mp hnew
      have hstays : (writer.mailboxes.erase (mailboxKey username oldName)).lookup
          (mailboxKey username newName) = some other := by
        rw [HashMap.lookup_erase_eq, if_neg fun hkey => hname (mailboxKey_inj hkey.symm)]
        exact hother
      have hcount := hmoved.count
      have hlength := HashMap.length_erase hold
      have hlength' := HashMap.length_erase hstays
      rw [HashMap.length_insert] at hcount
      omega
    · rintro (hnone | rfl | hnew)
      · rw [hold] at hnone
        cases hnone
      · exact moved_of_free hold hstate (AList.lookup_erase _ _)
      · refine moved_of_free hold hstate ?_
        rw [HashMap.lookup_erase_eq, hnew, ite_self]

end Writer

/-! ## The ledger -/

/-- What happens to the mailboxes of the table. -/
inductive TableEvent where
  | created (key : String)
  | deleted (key : String)
  | renamed (oldKey newKey : String)
  | drawn (key : String) (uid : Uid)
  deriving DecidableEq, Repr

/-- The event of a command that is served. -/
def tableEvents (writer : Writer) : WriteCommand → List TableEvent
  | .createMailbox username name =>
      match (writer.createMailbox username name).1 with
      | .ok _ => [.created (mailboxKey username name)]
      | .error _ => []
  | .deleteMailbox username name =>
      match (writer.deleteMailbox username name).1 with
      | .ok _ => [.deleted (mailboxKey username name)]
      | .error _ => []
  | .renameMailbox username oldName newName =>
      match (writer.renameMailbox username oldName newName).1 with
      | .ok _ => [.renamed (mailboxKey username oldName) (mailboxKey username newName)]
      | .error _ => []
  | .getNextUid username mailbox =>
      match (writer.getNextUid username mailbox).1 with
      | .ok uid => [.drawn (mailboxKey username mailbox) uid]
      | .error _ => []
  | .addMessage _ _ _ _ _ | .updateFlags _ _ | .deleteMessage _ => []

/-- Which mailbox is under a key, how many were created, and which UIDs were drawn
from each. -/
structure Ledger where
  owner : String → Option Nat
  born : Nat
  drawn : List (Nat × Uid)

namespace Ledger

def empty : Ledger where
  owner _ := none
  born := 0
  drawn := []

/-- A creation makes a new mailbox, a rename keeps it. -/
def next (ledger : Ledger) : TableEvent → Ledger
  | .created key =>
      { ledger with
        owner := Function.update ledger.owner key (some ledger.born)
        born := ledger.born + 1 }
  | .deleted key => { ledger with owner := Function.update ledger.owner key none }
  | .renamed oldKey newKey =>
      { ledger with
        owner := Function.update (Function.update ledger.owner oldKey none) newKey
          (ledger.owner oldKey) }
  | .drawn key uid =>
      { ledger with drawn := ledger.drawn ++ (ledger.owner key).toList.map fun owner => (owner, uid) }

def of (history : List TableEvent) : Ledger := history.foldl next empty

theorem of_concat (history : List TableEvent) (event : TableEvent) :
    of (history ++ [event]) = (of history).next event := by
  rw [of, List.foldl_append]
  rfl

/-- The UIDs drawn from a mailbox, as numbers. -/
def draws (ledger : Ledger) (mailbox : Nat) : List Nat :=
  (ledger.drawn.filter fun draw => draw.1 = mailbox).map fun draw => draw.2.toNat

/-- Every mailbox hands out 1, 2, 3 and so on. -/
def Consecutive (ledger : Ledger) : Prop :=
  ∀ mailbox, ledger.draws mailbox = List.range' 1 (ledger.draws mailbox).length

theorem owner_created (ledger : Ledger) (key other : String) :
    (ledger.next (.created key)).owner other =
      if other = key then some ledger.born else ledger.owner other :=
  Function.update_apply ..

theorem draws_drawn {ledger : Ledger} {key : String} {owner : Nat}
    (howner : ledger.owner key = some owner) (uid : Uid) (mailbox : Nat) :
    (ledger.next (.drawn key uid)).draws mailbox =
      ledger.draws mailbox ++ if owner = mailbox then [uid.toNat] else [] := by
  simp only [draws, next, howner, Option.toList_some, List.map_cons, List.map_nil,
    List.filter_append, List.map_append]
  by_cases hmailbox : owner = mailbox <;> simp [hmailbox]

end Ledger

/-! ## The table follows the ledger -/

/-- The counter of a mailbox has not come round to 0. -/
def CounterLeft (writer : Writer) : WriteCommand → Prop
  | .getNextUid username mailbox => ∀ state,
      writer.mailboxes.lookup (mailboxKey username mailbox) = some state → state.uidCounter ≠ 0
  | _ => True

/-- Every key of the table belongs to one mailbox, whose counter is one more than
what was drawn from it. -/
structure Tracked (history : List TableEvent) (writer : Writer) : Prop where
  counter : ∀ key, (writer.mailboxes.lookup key).map MailboxState.uidCounter =
    ((Ledger.of history).owner key).map fun owner =>
      UInt32.ofNat (((Ledger.of history).draws owner).length + 1)
  owner_inj : ∀ key key' owner, (Ledger.of history).owner key = some owner →
    (Ledger.of history).owner key' = some owner → key = key'
  born : ∀ key owner, (Ledger.of history).owner key = some owner →
    owner < (Ledger.of history).born
  unborn : ∀ mailbox, (Ledger.of history).born ≤ mailbox →
    (Ledger.of history).draws mailbox = []
  consecutive : (Ledger.of history).Consecutive
  few : ∀ mailbox, ((Ledger.of history).draws mailbox).length < 2 ^ 32

theorem tracked_new : Tracked [] .new where
  counter _ := rfl
  owner_inj _ _ _ howner := nomatch howner
  born _ _ howner := nomatch howner
  unborn _ _ := rfl
  consecutive _ := rfl
  few _ := Nat.two_pow_pos 32

section Tracked

variable {history : List TableEvent} {writer writer' : Writer}

theorem Tracked.idle (htracked : Tracked history writer)
    (hcounter : ∀ key, (writer'.mailboxes.lookup key).map MailboxState.uidCounter =
      (writer.mailboxes.lookup key).map MailboxState.uidCounter) :
    Tracked (history ++ []) writer' := by
  rw [List.append_nil]
  exact { htracked with counter := fun key => (hcounter key).trans (htracked.counter key) }

theorem Tracked.owner_eq_none (htracked : Tracked history writer) {key : String}
    (hlookup : writer.mailboxes.lookup key = none) : (Ledger.of history).owner key = none := by
  have hcounter := htracked.counter key
  rw [hlookup] at hcounter
  exact Option.map_eq_none_iff.mp hcounter.symm

theorem Tracked.exists_owner (htracked : Tracked history writer) {key : String}
    {state : MailboxState} (hlookup : writer.mailboxes.lookup key = some state) :
    ∃ owner, (Ledger.of history).owner key = some owner ∧
      state.uidCounter = UInt32.ofNat (((Ledger.of history).draws owner).length + 1) := by
  have hcounter := htracked.counter key
  rw [hlookup] at hcounter
  obtain ⟨owner, howner, hsame⟩ := Option.map_eq_some_iff.mp hcounter.symm
  exact ⟨owner, howner, hsame.symm⟩

/-- A new mailbox starts at 1. -/
theorem Tracked.created (htracked : Tracked history writer) {key : String}
    (hlookup : writer.mailboxes.lookup key = none) {state : MailboxState}
    (hstate : state.uidCounter = 1)
    (hwriter : writer'.mailboxes = writer.mailboxes.insert key state) :
    Tracked (history ++ [.created key]) writer' := by
  have hfresh := htracked.owner_eq_none hlookup
  have hdraws (mailbox : Nat) :
      ((Ledger.of history).next (.created key)).draws mailbox =
        (Ledger.of history).draws mailbox := rfl
  have howner (other : String) (owner : Nat)
      (hsome : ((Ledger.of history).next (.created key)).owner other = some owner) :
      other = key ∧ owner = (Ledger.of history).born ∨
        other ≠ key ∧ (Ledger.of history).owner other = some owner := by
    rw [Ledger.owner_created] at hsome
    split at hsome
    · exact .inl ⟨‹_›, (Option.some.inj hsome).symm⟩
    · exact .inr ⟨‹_›, hsome⟩
  constructor
  · intro other
    rw [Ledger.of_concat, hwriter, HashMap.lookup_insert_eq, Ledger.owner_created]
    simp only [hdraws]
    split
    · rw [Option.map_some, Option.map_some, htracked.unborn _ (Nat.le_refl _), hstate]
      rfl
    · exact htracked.counter other
  · intro first second owner hfirst hsecond
    rw [Ledger.of_concat] at hfirst hsecond
    rcases howner _ _ hfirst with ⟨hsame, hborn⟩ | ⟨-, hbefore⟩ <;>
      rcases howner _ _ hsecond with ⟨hsame', hborn'⟩ | ⟨-, hbefore'⟩
    · exact hsame.trans hsame'.symm
    · exact absurd (htracked.born _ _ hbefore') (by omega)
    · exact absurd (htracked.born _ _ hbefore) (by omega)
    · exact htracked.owner_inj _ _ _ hbefore hbefore'
  · intro other owner hsome
    rw [Ledger.of_concat] at hsome ⊢
    rcases howner _ _ hsome with ⟨-, rfl⟩ | ⟨-, hbefore⟩
    · exact Nat.lt_succ_self _
    · exact Nat.lt_succ_of_lt (htracked.born _ _ hbefore)
  · intro mailbox hmailbox
    rw [Ledger.of_concat] at hmailbox ⊢
    exact htracked.unborn mailbox (Nat.le_of_succ_le hmailbox)
  · rw [Ledger.of_concat]
    exact htracked.consecutive
  · rw [Ledger.of_concat]
    exact htracked.few

theorem Tracked.rearranged (htracked : Tracked history writer) {event : TableEvent}
    {owner : String → Option Nat}
    (hnext : (Ledger.of history).next event = { Ledger.of history with owner })
    (hfrom : ∀ key mailbox, owner key = some mailbox →
      ∃ before, (Ledger.of history).owner before = some mailbox)
    (hinj : ∀ key key' mailbox, owner key = some mailbox → owner key' = some mailbox → key = key')
    (hcounter : ∀ key, (writer'.mailboxes.lookup key).map MailboxState.uidCounter =
      (owner key).map fun mailbox =>
        UInt32.ofNat (((Ledger.of history).draws mailbox).length + 1)) :
    Tracked (history ++ [event]) writer' := by
  constructor <;> rw [Ledger.of_concat, hnext]
  · exact hcounter
  · exact hinj
  · intro key mailbox hsome
    obtain ⟨before, hbefore⟩ := hfrom key mailbox hsome
    exact htracked.born _ _ hbefore
  · exact htracked.unborn
  · exact htracked.consecutive
  · exact htracked.few

theorem Tracked.deleted (htracked : Tracked history writer) (key : String)
    (hwriter : writer'.mailboxes = writer.mailboxes.erase key) :
    Tracked (history ++ [.deleted key]) writer' := by
  have howner {other : String} {mailbox : Nat}
      (hsome : Function.update (Ledger.of history).owner key none other = some mailbox) :
      (Ledger.of history).owner other = some mailbox := by
    rw [Function.update_apply] at hsome
    split at hsome
    · cases hsome
    · exact hsome
  refine htracked.rearranged rfl (fun other mailbox hsome => ⟨other, howner hsome⟩)
    (fun first second mailbox hfirst hsecond =>
      htracked.owner_inj _ _ _ (howner hfirst) (howner hsecond)) fun other => ?_
  rw [hwriter, HashMap.lookup_erase_eq, Function.update_apply]
  split
  · rfl
  · exact htracked.counter other

/-- A mailbox that is renamed takes its number along; the one whose key it takes
over, if there is one, is gone. -/
theorem Tracked.renamed (htracked : Tracked history writer) {oldKey newKey : String}
    {state state' : MailboxState} (hlookup : writer.mailboxes.lookup oldKey = some state)
    (hstate : state'.uidCounter = state.uidCounter)
    (hwriter : writer'.mailboxes = (writer.mailboxes.erase oldKey).insert newKey state') :
    Tracked (history ++ [.renamed oldKey newKey]) writer' := by
  have howner {other : String} {mailbox : Nat}
      (hsome : Function.update (Function.update (Ledger.of history).owner oldKey none) newKey
        ((Ledger.of history).owner oldKey) other = some mailbox) :
      other = newKey ∧ (Ledger.of history).owner oldKey = some mailbox ∨
        other ≠ newKey ∧ other ≠ oldKey ∧ (Ledger.of history).owner other = some mailbox := by
    by_cases hnew : other = newKey
    · rw [hnew, Function.update_self] at hsome
      exact .inl ⟨hnew, hsome⟩
    · rw [Function.update_of_ne hnew] at hsome
      by_cases hold : other = oldKey
      · rw [hold, Function.update_self] at hsome
        cases hsome
      · rw [Function.update_of_ne hold] at hsome
        exact .inr ⟨hnew, hold, hsome⟩
  refine htracked.rearranged rfl (fun other mailbox hsome => ?_)
    (fun first second mailbox hfirst hsecond => ?_) fun other => ?_
  · rcases howner hsome with ⟨-, hold⟩ | ⟨-, -, hkept⟩
    · exact ⟨oldKey, hold⟩
    · exact ⟨other, hkept⟩
  · rcases howner hfirst with ⟨hnew, hold⟩ | ⟨-, hne, hkept⟩ <;>
      rcases howner hsecond with ⟨hnew', hold'⟩ | ⟨-, hne', hkept'⟩
    · exact hnew.trans hnew'.symm
    · exact absurd (htracked.owner_inj _ _ _ hkept' hold) hne'
    · exact absurd (htracked.owner_inj _ _ _ hkept hold') hne
    · exact htracked.owner_inj _ _ _ hkept hkept'
  · rw [hwriter, HashMap.lookup_insert_eq]
    by_cases hnew : other = newKey
    · rw [if_pos hnew, hnew, Function.update_self, Option.map_some, hstate]
      have hcounter := htracked.counter oldKey
      rw [hlookup] at hcounter
      exact hcounter
    · rw [if_neg hnew, Function.update_of_ne hnew, HashMap.lookup_erase_eq, Function.update_apply]
      split
      · rfl
      · exact htracked.counter other

/-- A UID is drawn from a counter that has not come round. -/
theorem Tracked.drawn (htracked : Tracked history writer) {key : String} {state : MailboxState}
    (hlookup : writer.mailboxes.lookup key = some state) (hleft : state.uidCounter ≠ 0)
    (hwriter : writer'.mailboxes =
      writer.mailboxes.insert key { state with uidCounter := state.uidCounter + 1 }) :
    Tracked (history ++ [.drawn key state.uidCounter]) writer' := by
  obtain ⟨owner, howner, hcounter⟩ := htracked.exists_owner hlookup
  have hlength : ((Ledger.of history).draws owner).length + 1 < 2 ^ 32 := by
    have hfew := htracked.few owner
    by_contra hge
    have hlast : ((Ledger.of history).draws owner).length + 1 = 2 ^ 32 := by omega
    rw [hlast] at hcounter
    exact hleft hcounter
  have huid : state.uidCounter.toNat = ((Ledger.of history).draws owner).length + 1 := by
    rw [hcounter, UInt32.toNat_ofNat', Nat.mod_eq_of_lt hlength]
  have hdraws := Ledger.draws_drawn howner state.uidCounter
  have hmine : ((Ledger.of history).next (.drawn key state.uidCounter)).draws owner =
      (Ledger.of history).draws owner ++ [state.uidCounter.toNat] := by
    rw [hdraws, if_pos rfl]
  have hothers {mailbox : Nat} (hne : owner ≠ mailbox) :
      ((Ledger.of history).next (.drawn key state.uidCounter)).draws mailbox =
        (Ledger.of history).draws mailbox := by
    rw [hdraws, if_neg hne, List.append_nil]
  constructor
  · intro other
    rw [Ledger.of_concat, hwriter, HashMap.lookup_insert_eq]
    by_cases hother : other = key
    · rw [if_pos hother, hother]
      simp only [Option.map_some, show ((Ledger.of history).next
        (.drawn key state.uidCounter)).owner key = some owner from howner, hmine,
        List.length_append, List.length_singleton]
      rw [hcounter]
      simp [UInt32.ofNat_add]
    · rw [if_neg hother, htracked.counter other]
      cases hsome : (Ledger.of history).owner other with
      | none =>
          rw [show ((Ledger.of history).next (.drawn key state.uidCounter)).owner other = none
            from hsome]
          rfl
      | some mailbox =>
          have hne : owner ≠ mailbox := by
            rintro rfl
            exact hother (htracked.owner_inj _ _ _ hsome howner)
          rw [show ((Ledger.of history).next (.drawn key state.uidCounter)).owner other =
            some mailbox from hsome, Option.map_some, Option.map_some, hothers hne]
  · rw [Ledger.of_concat]
    exact htracked.owner_inj
  · rw [Ledger.of_concat]
    exact htracked.born
  · intro mailbox hmailbox
    rw [Ledger.of_concat] at hmailbox ⊢
    have hne : owner ≠ mailbox := by
      rintro rfl
      exact absurd (htracked.born _ _ howner) (Nat.not_lt.mpr hmailbox)
    rw [hothers hne]
    exact htracked.unborn mailbox hmailbox
  · intro mailbox
    rw [Ledger.of_concat]
    by_cases hne : owner = mailbox
    · subst hne
      rw [hmine, List.length_append, List.length_singleton, List.range'_1_concat,
        ← htracked.consecutive owner, huid, Nat.add_comm 1]
    · rw [hothers hne]
      exact htracked.consecutive mailbox
  · intro mailbox
    rw [Ledger.of_concat]
    by_cases hne : owner = mailbox
    · subst hne
      rw [hmine, List.length_append, List.length_singleton]
      exact hlength
    · rw [hothers hne]
      exact htracked.few mailbox

/-- Every command that finds a counter left keeps the table in line. -/
theorem Tracked.step (htracked : Tracked history writer) {command : WriteCommand}
    (hleft : CounterLeft writer command) :
    Tracked (history ++ tableEvents writer command) (writer.step command).1 := by
  cases command with
  | createMailbox username name =>
      simp only [tableEvents, Writer.step, Writer.createMailbox]
      cases hlookup : writer.mailboxes.lookup (mailboxKey username name) with
      | some state => exact htracked.idle fun _ => rfl
      | none => exact htracked.created hlookup rfl rfl
  | deleteMailbox username name =>
      simp only [tableEvents, Writer.step, Writer.deleteMailbox]
      cases hlookup : writer.mailboxes.lookup (mailboxKey username name) with
      | some state => exact htracked.deleted _ rfl
      | none => exact htracked.idle fun _ => rfl
  | renameMailbox username oldName newName =>
      simp only [tableEvents, Writer.step, Writer.renameMailbox]
      cases hlookup : writer.mailboxes.lookup (mailboxKey username oldName) with
      | some state =>
          refine htracked.renamed hlookup ?_ rfl
          rfl
      | none => exact htracked.idle fun _ => rfl
  | addMessage username mailbox message addError commitError =>
      simp only [tableEvents, Writer.step, Writer.addMessage]
      cases hlookup : writer.mailboxes.lookup (mailboxKey username mailbox) with
      | none => exact htracked.idle fun _ => rfl
      | some state =>
          cases addError with
          | some error => exact htracked.idle fun _ => rfl
          | none =>
              cases commitError with
              | some error => exact htracked.idle fun _ => rfl
              | none =>
                  refine htracked.idle fun key => ?_
                  rw [HashMap.lookup_insert_eq]
                  split
                  · rename_i hkey
                    rw [hkey, hlookup]
                    rfl
                  · rfl
  | updateFlags id flags => exact htracked.idle fun _ => rfl
  | deleteMessage id => exact htracked.idle fun _ => rfl
  | getNextUid username mailbox =>
      simp only [tableEvents, Writer.step, Writer.getNextUid]
      cases hlookup : writer.mailboxes.lookup (mailboxKey username mailbox) with
      | some state => exact htracked.drawn hlookup (hleft state hlookup) rfl
      | none => exact htracked.idle fun _ => rfl

theorem Tracked.counterLeft (htracked : Tracked history writer) {command : WriteCommand}
    (hnext : (Ledger.of (history ++ tableEvents writer command)).Consecutive) :
    CounterLeft writer command := by
  unfold CounterLeft
  split
  · rename_i username mailbox
    intro state hlookup hzero
    obtain ⟨owner, howner, -⟩ := htracked.exists_owner hlookup
    have hevents : tableEvents writer (.getNextUid username mailbox) =
        [.drawn (mailboxKey username mailbox) state.uidCounter] := by
      simp only [tableEvents, Writer.getNextUid, hlookup]
    rw [hevents, Ledger.of_concat] at hnext
    have hdraws := hnext owner
    rw [Ledger.draws_drawn howner, if_pos rfl, hzero, List.length_append, List.length_singleton,
      List.range'_1_concat] at hdraws
    have hlast := (List.append_inj' hdraws rfl).2
    have hsame := List.singleton_inj.mp hlast
    rw [UInt32.toNat_zero] at hsame
    omega
  · trivial

end Tracked

/--
Renaming.  From every state of the table a rename that is not refused leaves all
other mailboxes as they are, keeps their number and continues the counter, exactly
if the new name is the old one or free.  Along every run of the writer loop each
mailbox hands out 1, 2, 3 and so on, however often it is renamed, exactly if no UID
is drawn from a counter that has come round to 0.
-/
theorem renames_lose_nothing_iff (writer : Writer) (username oldName newName : String)
    (commands : List WriteCommand) :
    (writer.RenameKeeps username oldName newName ↔
      writer.mailboxes.lookup (mailboxKey username oldName) = none ∨ oldName = newName ∨
        writer.mailboxes.lookup (mailboxKey username newName) = none) ∧
    ((∀ done rest, commands = done ++ rest →
        (Ledger.of (Writer.loop.observed tableEvents .new done)).Consecutive) ↔
      ∀ done command rest, commands = done ++ command :: rest →
        CounterLeft (Writer.loop.final .new done) command) := by
  refine ⟨writer.renameKeeps_iff username oldName newName, ?_⟩
  have hlaw (history : List TableEvent) (writer : Writer) (htracked : Tracked history writer) :
      (Ledger.of history).Consecutive := htracked.consecutive
  have hnecessary (history : List TableEvent) (writer : Writer) (command : WriteCommand)
      (htracked : Tracked history writer)
      (hnext : (Ledger.of (history ++ tableEvents writer command)).Consecutive) :
      CounterLeft writer command := htracked.counterLeft hnext
  have hsufficient (history : List TableEvent) (writer : Writer) (command : WriteCommand)
      (htracked : Tracked history writer) (hleft : CounterLeft writer command) :
      Tracked (history ++ tableEvents writer command) (Writer.loop.step writer command).1 :=
    htracked.step hleft
  exact Machine.observed_always_iff_of_guard hlaw hnecessary hsufficient tracked_new commands

/-- Renaming onto another mailbox, that mailbox is lost. -/
theorem rename_overwrites :
    ¬ (Writer.loop.final .new [.createMailbox "ann" "a", .createMailbox "ann" "b"]).RenameKeeps
      "ann" "a" "b" := by
  rintro (⟨error, hrefused⟩ | ⟨-, hmoved⟩)
  · cases hrefused
  · exact absurd hmoved.count (by decide)

end Scuttled.Tantivy
