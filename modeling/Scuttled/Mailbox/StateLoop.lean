import Mathlib.Logic.Function.Basic
import Scuttled.Foundation.Machine
import Scuttled.Rust.Channel
import Scuttled.Rust.HashMap
import Scuttled.Types

/-!
# The shared mailbox handle

`Mailbox` is a handle that is cloned freely; its state is kept by one loop that
serves the commands of all clones, one at a time.  The loop maps UIDs to paths
and paths to UIDs, and passes notifications on to its subscribers.
-/

namespace Scuttled

open Rust Foundation

inductive MailboxNotification where
  | messageAdded (uid : Uid)
  | messageExpunged (uid : Uid)
  | flagsChanged (uid : Uid)
  deriving DecidableEq, Repr

/-- The state snapshot `get_state` returns. -/
structure MailboxSnapshot where
  username : String
  name : String
  uidValidity : UInt32
  uidNext : Uid
  messageCount : Nat
  deriving DecidableEq, Repr

/-- `MailboxCommand`, without its reply channel. -/
inductive MailboxCommand where
  | assignUid (path : String)
  | getPath (uid : Uid)
  | getUid (path : String)
  | removeMessage (uid : Uid)
  | updatePath (uid : Uid) (newPath : String)
  | getState
  | subscribe
  | notify (notification : MailboxNotification)
  deriving DecidableEq, Repr

/-- What may happen next: the loop serves a command, or a subscriber receives
from its queue or drops its receiver.  A receiver is known by the number of its
queue. -/
inductive MailboxInput where
  | serve (command : MailboxCommand)
  | take (queue : Nat)
  | close (queue : Nat)
  deriving DecidableEq, Repr

/-- What a command is answered with, and what a subscriber receives. -/
inductive MailboxReply where
  | assigned (result : Result Uid)
  | path (result : Result (Option String))
  | uid (result : Result (Option Uid))
  | unit (result : Result Unit)
  | snapshot (state : MailboxSnapshot)
  | receiver (queue : Nat)
  | notified
  | received (notification : Option MailboxNotification)
  | closed

/-- The capacity of a subscriber's queue. -/
def notificationCapacity : Nat := 100

/-- `InternalMailboxState`, with the queues its subscribers receive from.  A
queue is known by its number. -/
structure InternalMailboxState where
  username : String
  name : String
  uidValidity : UInt32
  uidNext : Uid
  uidToPath : HashMap Uid String
  pathToUid : HashMap String Uid
  subscribers : List Nat
  queues : Nat → BoundedQueue MailboxNotification notificationCapacity
  opened : Nat

namespace InternalMailboxState

def new (username name : String) (uidValidity : UInt32) : InternalMailboxState where
  username
  name
  uidValidity
  uidNext := 1
  uidToPath := ∅
  pathToUid := ∅
  subscribers := []
  queues _ := .new
  opened := 0

def assignUid (path : String) (state : InternalMailboxState) :
    Result Uid × InternalMailboxState :=
  match state.pathToUid.lookup path with
  | some _ => (.error (.internal ("Path already has UID assigned: " ++ path)), state)
  | none =>
      let uid := state.uidNext
      (.ok uid, { state with
        uidToPath := state.uidToPath.insert uid path
        pathToUid := state.pathToUid.insert path uid
        uidNext := state.uidNext + 1 })

def getPath (uid : Uid) (state : InternalMailboxState) : Result (Option String) :=
  .ok (state.uidToPath.lookup uid)

def getUid (path : String) (state : InternalMailboxState) : Result (Option Uid) :=
  .ok (state.pathToUid.lookup path)

/-- The error for a UID that names no message. -/
def uidNotFound (uid : Uid) : Error := .notFound ("UID not found: " ++ toString uid.toNat)

def removeMessage (uid : Uid) (state : InternalMailboxState) :
    Result Unit × InternalMailboxState :=
  match state.uidToPath.lookup uid with
  | some path =>
      (.ok (), { state with
        uidToPath := state.uidToPath.erase uid
        pathToUid := state.pathToUid.erase path })
  | none => (.error (uidNotFound uid), state)

def updatePath (uid : Uid) (newPath : String) (state : InternalMailboxState) :
    Result Unit × InternalMailboxState :=
  match state.uidToPath.lookup uid with
  | some oldPath =>
      (.ok (), { state with
        uidToPath := state.uidToPath.insert uid newPath
        pathToUid := (state.pathToUid.erase oldPath).insert newPath uid })
  | none => (.error (uidNotFound uid), state)

def getState (state : InternalMailboxState) : MailboxSnapshot where
  username := state.username
  name := state.name
  uidValidity := state.uidValidity
  uidNext := state.uidNext
  messageCount := state.uidToPath.entries.length

def subscribe (state : InternalMailboxState) : Nat × InternalMailboxState :=
  (state.opened, { state with
    subscribers := state.subscribers ++ [state.opened]
    queues := Function.update state.queues state.opened .new
    opened := state.opened + 1 })

/-- A notification goes to all subscribers; those whose queue does not take it
are removed. -/
def notify (notification : MailboxNotification) (state : InternalMailboxState) :
    InternalMailboxState :=
  { state with
    subscribers := state.subscribers.filter fun queue =>
      ((state.queues queue).trySend notification).1.isOk
    queues := fun queue =>
      if queue ∈ state.subscribers then ((state.queues queue).trySend notification).2
      else state.queues queue }

/-- A subscriber receives a notification, if one is there. -/
def take (queue : Nat) (state : InternalMailboxState) :
    Option MailboxNotification × InternalMailboxState :=
  match (state.queues queue).recv with
  | none => (none, state)
  | some (notification, rest) =>
      (some notification, { state with queues := Function.update state.queues queue rest })

def close (queue : Nat) (state : InternalMailboxState) : InternalMailboxState :=
  { state with queues := Function.update state.queues queue (state.queues queue).close }

end InternalMailboxState

/-- One turn of `mailbox_state_loop`. -/
def mailboxStep (state : InternalMailboxState) :
    MailboxCommand → InternalMailboxState × MailboxReply
  | .assignUid path => ((state.assignUid path).2, .assigned (state.assignUid path).1)
  | .getPath uid => (state, .path (state.getPath uid))
  | .getUid path => (state, .uid (state.getUid path))
  | .removeMessage uid => ((state.removeMessage uid).2, .unit (state.removeMessage uid).1)
  | .updatePath uid newPath =>
      ((state.updatePath uid newPath).2, .unit (state.updatePath uid newPath).1)
  | .getState => (state, .snapshot state.getState)
  | .subscribe => (state.subscribe.2, .receiver state.subscribe.1)
  | .notify notification => (state.notify notification, .notified)

/-- `mailbox_state_loop`: the commands of all clones, in the order they arrive,
and what its subscribers do. -/
def mailboxStateLoop : Machine InternalMailboxState MailboxInput MailboxReply where
  step state
    | .serve command => mailboxStep state command
    | .take queue => ((state.take queue).2, .received (state.take queue).1)
    | .close queue => (state.close queue, .closed)

/-! ## The commands that change the maps -/

namespace InternalMailboxState

variable (state : InternalMailboxState)

theorem assignUid_cases (path : String) :
    (∃ uid, state.pathToUid.lookup path = some uid ∧
      state.assignUid path =
        (.error (.internal ("Path already has UID assigned: " ++ path)), state)) ∨
    (state.pathToUid.lookup path = none ∧
      state.assignUid path = (.ok state.uidNext, { state with
        uidToPath := state.uidToPath.insert state.uidNext path
        pathToUid := state.pathToUid.insert path state.uidNext
        uidNext := state.uidNext + 1 })) := by
  cases hlookup : state.pathToUid.lookup path with
  | some uid => exact .inl ⟨uid, rfl, by simp [assignUid, hlookup]⟩
  | none => exact .inr ⟨rfl, by simp [assignUid, hlookup]⟩

theorem removeMessage_cases (uid : Uid) :
    (state.uidToPath.lookup uid = none ∧
      state.removeMessage uid = (.error (uidNotFound uid), state)) ∨
    (∃ path, state.uidToPath.lookup uid = some path ∧
      state.removeMessage uid = (.ok (), { state with
        uidToPath := state.uidToPath.erase uid
        pathToUid := state.pathToUid.erase path })) := by
  cases hlookup : state.uidToPath.lookup uid with
  | none => exact .inl ⟨rfl, by simp [removeMessage, hlookup]⟩
  | some path => exact .inr ⟨path, rfl, by simp [removeMessage, hlookup]⟩

theorem updatePath_cases (uid : Uid) (newPath : String) :
    (state.uidToPath.lookup uid = none ∧
      state.updatePath uid newPath = (.error (uidNotFound uid), state)) ∨
    (∃ oldPath, state.uidToPath.lookup uid = some oldPath ∧
      state.updatePath uid newPath = (.ok (), { state with
        uidToPath := state.uidToPath.insert uid newPath
        pathToUid := (state.pathToUid.erase oldPath).insert newPath uid })) := by
  cases hlookup : state.uidToPath.lookup uid with
  | none => exact .inl ⟨rfl, by simp [updatePath, hlookup]⟩
  | some oldPath => exact .inr ⟨oldPath, rfl, by simp [updatePath, hlookup]⟩

theorem take_cases (queue : Nat) :
    ∃ queues, (state.take queue).2 = { state with queues } := by
  unfold take
  split
  · exact ⟨state.queues, rfl⟩
  · exact ⟨_, rfl⟩

end InternalMailboxState

end Scuttled
