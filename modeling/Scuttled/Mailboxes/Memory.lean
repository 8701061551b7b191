import Scuttled.Foundation.Machine
import Scuttled.Rust.HashMap
import Scuttled.Types

/-!
# The mailbox registry

`Mailboxes` is the trait the handlers call; a value of it is its functions on
some state.  `InMemoryMailboxes` keeps one map for all users, a reverse map
from identifiers and one counter for UID validities, and serves its commands
one at a time.  The regular-expression engine it calls is a parameter.
-/

namespace Scuttled

open Rust Foundation

inductive MailboxFilter where
  | all
  | exact (pattern : String)
  | withPrefix (start : String)
  | withSuffix (ending : String)
  | regex (pattern : String)
  deriving DecidableEq, Repr

/-- Mailbox information stored in the registry. -/
structure MailboxInfo where
  id : MailboxId
  uidValidity : UInt32
  nextUid : Uid
  rootPath : String
  messageCount : UInt32
  unseenCount : UInt32
  recentCount : UInt32
  deriving DecidableEq, Repr

/-- The registry trait, over the state of an implementation. -/
structure Mailboxes (R : Type) where
  createMailbox (username name : String) : StateM R (Result MailboxInfo)
  getMailbox (username name : String) : StateM R (Result (Option MailboxInfo))
  deleteMailbox (username name : String) : StateM R (Result Unit)
  listMailboxes (username : String) (filter : MailboxFilter) : StateM R (Result (List MailboxInfo))
  getNextUid (username mailbox : String) : StateM R (Result Uid)

/-! ## The in-memory state -/

structure MailboxState where
  mailboxes : HashMap (String × String) MailboxInfo
  idToKey : HashMap MailboxId (String × String)
  nextUidValidity : UInt32

namespace MailboxState

def new : MailboxState where
  mailboxes := ∅
  idToKey := ∅
  nextUidValidity := 1

def createMailbox (username name : String) (state : MailboxState) :
    Result MailboxInfo × MailboxState :=
  let key := (username, name)
  match state.mailboxes.lookup key with
  | some _ => (.error (.mailboxExists name), state)
  | none =>
      let info : MailboxInfo :=
        { id := { username, name }
          uidValidity := state.nextUidValidity
          nextUid := 1
          rootPath := username ++ "/" ++ name
          messageCount := 0
          unseenCount := 0
          recentCount := 0 }
      (.ok info,
        { mailboxes := state.mailboxes.insert key info
          idToKey := state.idToKey.insert info.id key
          nextUidValidity := state.nextUidValidity + 1 })

def deleteMailbox (username name : String) (state : MailboxState) :
    Result Unit × MailboxState :=
  let key := (username, name)
  match state.mailboxes.lookup key with
  | some info =>
      (.ok (), { state with
        mailboxes := state.mailboxes.erase key
        idToKey := state.idToKey.erase info.id })
  | none => (.error (.mailboxNotFound name), state)

/-- Atomically gets the next UID and increments it. -/
def getNextUid (username name : String) (state : MailboxState) :
    Result Uid × MailboxState :=
  let key := (username, name)
  match state.mailboxes.lookup key with
  | some info =>
      (.ok info.nextUid, { state with
        mailboxes := state.mailboxes.insert key { info with nextUid := info.nextUid + 1 } })
  | none => (.error (.mailboxNotFound name), state)

/-- The lookup by identifier that the three updates share. -/
def updateInfo (id : MailboxId) (update : MailboxInfo → MailboxInfo) (state : MailboxState) :
    Result Unit × MailboxState :=
  match state.idToKey.lookup id with
  | some key =>
      match state.mailboxes.lookup key with
      | some info =>
          (.ok (), { state with mailboxes := state.mailboxes.insert key (update info) })
      | none => (.error (.mailboxNotFound id.name), state)
  | none => (.error (.mailboxNotFound id.name), state)

def updateNextUid (id : MailboxId) (nextUid : Uid) (state : MailboxState) :
    Result Unit × MailboxState :=
  state.updateInfo id fun info => { info with nextUid }

def updateUidValidity (id : MailboxId) (uidValidity : UInt32) (state : MailboxState) :
    Result Unit × MailboxState :=
  state.updateInfo id fun info => { info with uidValidity }

def updateCounts (id : MailboxId) (messageCount unseenCount recentCount : UInt32)
    (state : MailboxState) : Result Unit × MailboxState :=
  state.updateInfo id fun info => { info with messageCount, unseenCount, recentCount }

end MailboxState

/-- The commands that go through the writer's channel. -/
inductive WriteCommand where
  | create (username name : String)
  | delete (username name : String)
  | getNextUid (username mailbox : String)
  | updateNextUid (id : MailboxId) (nextUid : Uid)
  | updateUidValidity (id : MailboxId) (uidValidity : UInt32)
  | updateCounts (id : MailboxId) (messageCount unseenCount recentCount : UInt32)

/-- What a command is answered with. -/
inductive WriteReply where
  | info (result : Result MailboxInfo)
  | unit (result : Result Unit)
  | uid (result : Result Uid)

/-- One turn of `writer_loop`. -/
def writerStep (state : MailboxState) : WriteCommand → MailboxState × WriteReply
  | .create username name =>
      ((state.createMailbox username name).2, .info (state.createMailbox username name).1)
  | .delete username name =>
      ((state.deleteMailbox username name).2, .unit (state.deleteMailbox username name).1)
  | .getNextUid username mailbox =>
      ((state.getNextUid username mailbox).2, .uid (state.getNextUid username mailbox).1)
  | .updateNextUid id nextUid =>
      ((state.updateNextUid id nextUid).2, .unit (state.updateNextUid id nextUid).1)
  | .updateUidValidity id uidValidity =>
      ((state.updateUidValidity id uidValidity).2, .unit (state.updateUidValidity id uidValidity).1)
  | .updateCounts id messageCount unseenCount recentCount =>
      ((state.updateCounts id messageCount unseenCount recentCount).2,
        .unit (state.updateCounts id messageCount unseenCount recentCount).1)

/-- `writer_loop`: commands are served one at a time. -/
def writerLoop : Machine MailboxState WriteCommand WriteReply where
  step := writerStep

/-! ## The registry as the handlers see it -/

/-- The regular-expression engine: compiled expressions, compilation, search. -/
structure RegexEngine where
  Compiled : Type
  new : String → Option Compiled
  isMatch : Compiled → String → Bool

/-- `InMemoryMailboxes`: the shared state, and how often its map has been
iterated over so far. -/
structure InMemoryMailboxes where
  state : MailboxState
  iterations : Nat

namespace InMemoryMailboxes

def new : InMemoryMailboxes where
  state := .new
  iterations := 0

/-- Serves one operation of the state. -/
def serve {α : Type} (operation : MailboxState → α × MailboxState) :
    StateM InMemoryMailboxes α := fun registry =>
  ((operation registry.state).1, { registry with state := (operation registry.state).2 })

/-- `mailboxes.iter().filter(|((u, _), _)| u == username).map(|(_, info)| info.clone())`. -/
def iterateOf (order : HashOrder (String × String) MailboxInfo) (username : String)
    (registry : InMemoryMailboxes) : List MailboxInfo :=
  ((order.arrange registry.iterations registry.state.mailboxes.entries).filter
    fun entry => entry.1.1 == username).map Sigma.snd

def listMailboxes (engine : RegexEngine) (order : HashOrder (String × String) MailboxInfo)
    (username : String) (filter : MailboxFilter) :
    StateM InMemoryMailboxes (Result (List MailboxInfo)) := fun registry =>
  let own := registry.iterateOf order username
  let iterated := { registry with iterations := registry.iterations + 1 }
  match filter with
  | .all => (.ok own, iterated)
  | .exact pattern =>
      (.ok (own.filter fun info =>
        if eqIgnoreAsciiCase info.id.name "INBOX" && eqIgnoreAsciiCase pattern "INBOX" then true
        else info.id.name == pattern), iterated)
  | .withPrefix start => (.ok (own.filter fun info => startsWith info.id.name start), iterated)
  | .withSuffix ending => (.ok (own.filter fun info => endsWith info.id.name ending), iterated)
  | .regex pattern =>
      match engine.new pattern with
      | some compiled => (.ok (own.filter fun info => engine.isMatch compiled info.id.name), iterated)
      | none => (.ok [], registry)

end InMemoryMailboxes

/-- `impl Mailboxes for InMemoryMailboxes`. -/
def inMemoryMailboxes (engine : RegexEngine) (order : HashOrder (String × String) MailboxInfo) :
    Mailboxes InMemoryMailboxes where
  createMailbox username name := InMemoryMailboxes.serve (·.createMailbox username name)
  getMailbox username name := fun registry =>
    (.ok (registry.state.mailboxes.lookup (username, name)), registry)
  deleteMailbox username name := InMemoryMailboxes.serve (·.deleteMailbox username name)
  listMailboxes := InMemoryMailboxes.listMailboxes engine order
  getNextUid username mailbox := InMemoryMailboxes.serve (·.getNextUid username mailbox)

def MailboxFilter.accepts (engine : RegexEngine) (name : String) : MailboxFilter → Bool
  | .all => true
  | .exact pattern =>
      if eqIgnoreAsciiCase name "INBOX" && eqIgnoreAsciiCase pattern "INBOX" then true
      else name == pattern
  | .withPrefix start => startsWith name start
  | .withSuffix ending => endsWith name ending
  | .regex pattern =>
      match engine.new pattern with
      | some compiled => engine.isMatch compiled name
      | none => false

/-- The in-memory registry never fails to list, answers with the mailboxes its
filter accepts, and changes nothing in its state. -/
theorem listMailboxes_ok (engine : RegexEngine) (order : HashOrder (String × String) MailboxInfo)
    (username : String) (filter : MailboxFilter) (registry : InMemoryMailboxes) :
    ∃ iterations, InMemoryMailboxes.listMailboxes engine order username filter registry =
      (.ok ((registry.iterateOf order username).filter fun info =>
        filter.accepts engine info.id.name), { registry with iterations }) := by
  cases filter with
  | all =>
      refine ⟨registry.iterations + 1, ?_⟩
      simp only [InMemoryMailboxes.listMailboxes, MailboxFilter.accepts, List.filter_true]
  | exact pattern => exact ⟨registry.iterations + 1, rfl⟩
  | withPrefix start => exact ⟨registry.iterations + 1, rfl⟩
  | withSuffix ending => exact ⟨registry.iterations + 1, rfl⟩
  | regex pattern =>
      cases hnew : engine.new pattern with
      | some compiled =>
          refine ⟨registry.iterations + 1, ?_⟩
          simp only [InMemoryMailboxes.listMailboxes, MailboxFilter.accepts, hnew]
      | none =>
          refine ⟨registry.iterations, ?_⟩
          simp only [InMemoryMailboxes.listMailboxes, MailboxFilter.accepts, hnew,
            List.filter_false]

/-! ## Well-formed states -/

namespace MailboxState

/-- The two maps describe the same mailboxes: what is stored under a key
carries that key as its identity, and the reverse map sends an identity to its
key exactly when that key is stored. -/
structure WellFormed (state : MailboxState) : Prop where
  id_of_lookup : ∀ {username name info}, state.mailboxes.lookup (username, name) = some info →
    info.id = ⟨username, name⟩
  reverse_iff : ∀ {id key}, state.idToKey.lookup id = some key ↔
    key = (id.username, id.name) ∧ (state.mailboxes.lookup key).isSome

theorem wellFormed_new : WellFormed new where
  id_of_lookup := by simp [new]
  reverse_iff := by simp [new]

theorem createMailbox_cases (username name : String) (state : MailboxState) :
    (∃ info, state.mailboxes.lookup (username, name) = some info ∧
      state.createMailbox username name = (.error (.mailboxExists name), state)) ∨
    (state.mailboxes.lookup (username, name) = none ∧
      ∃ info : MailboxInfo, info.id = ⟨username, name⟩ ∧ info.nextUid = 1 ∧
        info.uidValidity = state.nextUidValidity ∧
        state.createMailbox username name =
          (.ok info,
            { mailboxes := state.mailboxes.insert (username, name) info
              idToKey := state.idToKey.insert ⟨username, name⟩ (username, name)
              nextUidValidity := state.nextUidValidity + 1 })) := by
  cases hlookup : state.mailboxes.lookup (username, name) with
  | some info => exact .inl ⟨info, rfl, by simp [createMailbox, hlookup]⟩
  | none =>
      refine .inr ⟨rfl, ?_⟩
      simp only [createMailbox, hlookup]
      exact ⟨_, rfl, rfl, rfl, rfl⟩

theorem deleteMailbox_cases {state : MailboxState} (hstate : WellFormed state)
    (username name : String) :
    (state.mailboxes.lookup (username, name) = none ∧
      state.deleteMailbox username name = (.error (.mailboxNotFound name), state)) ∨
    ((state.mailboxes.lookup (username, name)).isSome ∧
      state.deleteMailbox username name =
        (.ok (), { state with
          mailboxes := state.mailboxes.erase (username, name)
          idToKey := state.idToKey.erase ⟨username, name⟩ })) := by
  cases hlookup : state.mailboxes.lookup (username, name) with
  | some info =>
      refine .inr ⟨rfl, ?_⟩
      simp only [deleteMailbox, hlookup, hstate.id_of_lookup hlookup]
  | none => exact .inl ⟨rfl, by simp [deleteMailbox, hlookup]⟩

theorem getNextUid_cases (username name : String) (state : MailboxState) :
    (state.mailboxes.lookup (username, name) = none ∧
      state.getNextUid username name = (.error (.mailboxNotFound name), state)) ∨
    (∃ info, state.mailboxes.lookup (username, name) = some info ∧
      state.getNextUid username name =
        (.ok info.nextUid, { state with
          mailboxes :=
            state.mailboxes.insert (username, name)
              { info with nextUid := info.nextUid + 1 } })) := by
  cases hlookup : state.mailboxes.lookup (username, name) with
  | none => exact .inl ⟨rfl, by simp [getNextUid, hlookup]⟩
  | some info => exact .inr ⟨info, rfl, by simp [getNextUid, hlookup]⟩

theorem isSome_lookup_createMailbox (username name : String) (state : MailboxState)
    (key : String × String) :
    ((state.createMailbox username name).2.mailboxes.lookup key).isSome =
      (decide (key = (username, name)) || (state.mailboxes.lookup key).isSome) := by
  obtain ⟨info, hlookup, hsame⟩ | ⟨-, info, -, -, -, hnew⟩ :=
    createMailbox_cases username name state
  · rw [hsame]
    by_cases hkey : key = (username, name)
    · rw [hkey, hlookup]
      simp
    · simp [hkey]
  · rw [hnew, HashMap.lookup_insert_eq]
    by_cases hkey : key = (username, name) <;> simp [hkey]

theorem isSome_lookup_deleteMailbox (username name : String) (state : MailboxState)
    (key : String × String) :
    ((state.deleteMailbox username name).2.mailboxes.lookup key).isSome =
      (!decide (key = (username, name)) && (state.mailboxes.lookup key).isSome) := by
  cases hlookup : state.mailboxes.lookup (username, name) with
  | none =>
      simp only [deleteMailbox, hlookup]
      by_cases hkey : key = (username, name)
      · rw [hkey, hlookup]
        simp
      · simp [hkey]
  | some info =>
      simp only [deleteMailbox, hlookup, HashMap.lookup_erase_eq]
      by_cases hkey : key = (username, name) <;> simp [hkey]

theorem WellFormed.replace {state : MailboxState} (hstate : WellFormed state)
    {key : String × String} {info info' : MailboxInfo}
    (hlookup : state.mailboxes.lookup key = some info) (hid : info'.id = info.id) :
    WellFormed { state with mailboxes := state.mailboxes.insert key info' } where
  id_of_lookup := by
    intro username name found hfound
    rw [HashMap.lookup_insert_eq] at hfound
    split at hfound
    · rename_i hkey
      subst hkey
      obtain rfl := Option.some.inj hfound
      exact hid.trans (hstate.id_of_lookup hlookup)
    · exact hstate.id_of_lookup hfound
  reverse_iff := by
    intro id other
    rw [hstate.reverse_iff, HashMap.lookup_insert_eq]
    split
    · rename_i hkey
      subst hkey
      simp [hlookup]
    · rfl

theorem WellFormed.createMailbox {state : MailboxState} (hstate : WellFormed state)
    (username name : String) : WellFormed (state.createMailbox username name).2 := by
  obtain ⟨info, -, hsame⟩ | ⟨-, info, hid, -, -, hnew⟩ := createMailbox_cases username name state
  · rw [hsame]
    exact hstate
  · rw [hnew]
    constructor
    · intro username' name' found hfound
      rw [HashMap.lookup_insert_eq] at hfound
      split at hfound
      · rename_i hkey
        obtain ⟨rfl, rfl⟩ := Prod.mk.inj hkey
        obtain rfl := Option.some.inj hfound
        exact hid
      · exact hstate.id_of_lookup hfound
    · rintro ⟨username', name'⟩ key
      rw [HashMap.lookup_insert_eq, HashMap.lookup_insert_eq]
      have hreverse := @WellFormed.reverse_iff _ hstate ⟨username', name'⟩ key
      grind

theorem WellFormed.deleteMailbox {state : MailboxState} (hstate : WellFormed state)
    (username name : String) : WellFormed (state.deleteMailbox username name).2 := by
  obtain ⟨-, hsame⟩ | ⟨-, hgone⟩ := deleteMailbox_cases hstate username name
  · rw [hsame]
    exact hstate
  · rw [hgone]
    constructor
    · intro username' name' found hfound
      rw [HashMap.lookup_erase_eq] at hfound
      split at hfound
      · cases hfound
      · exact hstate.id_of_lookup hfound
    · rintro ⟨username', name'⟩ key
      rw [HashMap.lookup_erase_eq, HashMap.lookup_erase_eq]
      have hreverse := @WellFormed.reverse_iff _ hstate ⟨username', name'⟩ key
      grind

theorem WellFormed.getNextUid {state : MailboxState} (hstate : WellFormed state)
    (username name : String) : WellFormed (state.getNextUid username name).2 := by
  obtain ⟨-, hsame⟩ | ⟨info, hlookup, hdrawn⟩ := getNextUid_cases username name state
  · rw [hsame]
    exact hstate
  · rw [hdrawn]
    exact hstate.replace hlookup rfl

theorem WellFormed.updateInfo {state : MailboxState} (hstate : WellFormed state)
    (id : MailboxId) {update : MailboxInfo → MailboxInfo}
    (hupdate : ∀ info, (update info).id = info.id) :
    WellFormed (state.updateInfo id update).2 := by
  unfold MailboxState.updateInfo
  cases state.idToKey.lookup id with
  | none => exact hstate
  | some key =>
      cases hlookup : state.mailboxes.lookup key with
      | none => simpa [hlookup] using hstate
      | some info => simpa [hlookup] using hstate.replace hlookup (hupdate info)

theorem WellFormed.writerStep {state : MailboxState} (hstate : WellFormed state)
    (command : WriteCommand) : WellFormed (writerStep state command).1 := by
  cases command with
  | create username name => exact hstate.createMailbox username name
  | delete username name => exact hstate.deleteMailbox username name
  | getNextUid username mailbox => exact hstate.getNextUid username mailbox
  | updateNextUid id nextUid => exact hstate.updateInfo id fun _ => rfl
  | updateUidValidity id uidValidity => exact hstate.updateInfo id fun _ => rfl
  | updateCounts id messageCount unseenCount recentCount =>
      exact hstate.updateInfo id fun _ => rfl

/-- A mailbox stored after a command was stored before it, or the command
created it. -/
theorem stored_of_writerStep {state : MailboxState} (hstate : WellFormed state)
    {command : WriteCommand} {username name : String}
    (hstored : ((Scuttled.writerStep state command).1.mailboxes.lookup (username, name)).isSome) :
    (state.mailboxes.lookup (username, name)).isSome ∨ command = .create username name := by
  have hreplace {key : String × String} {info info' : MailboxInfo}
      (hlookup : state.mailboxes.lookup key = some info)
      (hfound : ((state.mailboxes.insert key info').lookup (username, name)).isSome) :
      (state.mailboxes.lookup (username, name)).isSome := by
    rw [HashMap.lookup_insert_eq] at hfound
    split at hfound
    · rename_i hkey
      rw [hkey, hlookup]
      rfl
    · exact hfound
  have hinfo (id : MailboxId) (update : MailboxInfo → MailboxInfo)
      (hfound : ((state.updateInfo id update).2.mailboxes.lookup (username, name)).isSome) :
      (state.mailboxes.lookup (username, name)).isSome := by
    unfold updateInfo at hfound
    split at hfound
    · split at hfound
      · rename_i hlookup
        exact hreplace hlookup hfound
      · exact hfound
    · exact hfound
  cases command with
  | create user created =>
      obtain ⟨info, -, hsame⟩ | ⟨-, info, -, -, -, hnew⟩ := createMailbox_cases user created state
      · simp only [Scuttled.writerStep, hsame] at hstored
        exact .inl hstored
      · simp only [Scuttled.writerStep, hnew, HashMap.lookup_insert_eq] at hstored
        split at hstored
        · rename_i hkey
          obtain ⟨rfl, rfl⟩ := Prod.mk.inj hkey
          exact .inr rfl
        · exact .inl hstored
  | delete user deleted =>
      obtain ⟨-, hsame⟩ | ⟨-, hgone⟩ := deleteMailbox_cases hstate user deleted
      · simp only [Scuttled.writerStep, hsame] at hstored
        exact .inl hstored
      · simp only [Scuttled.writerStep, hgone, HashMap.lookup_erase_eq] at hstored
        split at hstored
        · cases hstored
        · exact .inl hstored
  | getNextUid user mailbox =>
      obtain ⟨-, hsame⟩ | ⟨info, hlookup, hdrawn⟩ := getNextUid_cases user mailbox state
      · simp only [Scuttled.writerStep, hsame] at hstored
        exact .inl hstored
      · simp only [Scuttled.writerStep, hdrawn] at hstored
        exact .inl (hreplace hlookup hstored)
  | updateNextUid id nextUid => exact .inl (hinfo id _ hstored)
  | updateUidValidity id uidValidity => exact .inl (hinfo id _ hstored)
  | updateCounts id messageCount unseenCount recentCount => exact .inl (hinfo id _ hstored)

theorem wellFormed_final (commands : List WriteCommand) :
    WellFormed (writerLoop.final new commands) :=
  Machine.final_invariant (fun _ command _ hstate => hstate.writerStep command) wellFormed_new

end MailboxState

end Scuttled
