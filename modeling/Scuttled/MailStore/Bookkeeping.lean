import Scuttled.Foundation.Inverse
import Scuttled.Foundation.Machine
import Scuttled.MailStore.Watcher
import Scuttled.Rust.HashMap

/-!
# The books of the watcher

The watcher keeps which mailboxes it watches, and whose mailbox is at a path.  Both
are written in the middle of a command, with calls before and behind that may fail.
-/

namespace Scuttled

open Rust Foundation

/-! ## The commands -/

/-- `WatcherState`.  A path is looked up by its components. -/
structure WatcherState where
  watchedMailboxes : HashMap (String × String) String
  pathToMailbox : HashMap (List Component) (String × String)

/-- How the calls of `handle_watch` end: making the directories, `watch` of `notify`, and
the scan, with what it publishes. -/
structure WatchCalls where
  directories : Result Unit
  notify : Option String
  scan : List Event × Result Unit

/-- `WatchCommand`, with how its calls end. -/
inductive WatchCommand where
  | watch (username mailbox : String) (calls : WatchCalls)
  | unwatch (username mailbox : String) (notify : Option String)

/-- What is published, and the reply. -/
abbrev WatchReply := List Event × Result Unit

namespace WatcherState

def initial : WatcherState where
  watchedMailboxes := ∅
  pathToMailbox := ∅

def handleWatch (root username mailbox : String) (calls : WatchCalls) (state : WatcherState) :
    WatcherState × WatchReply :=
  let path := mailboxPath root username mailbox
  match calls.directories with
  | .error failure => (state, [], .error failure)
  | .ok () =>
      match calls.notify with
      | some failure => (state, [], .error (.internal ("Failed to watch directory: " ++ failure)))
      | none =>
          ({ watchedMailboxes := state.watchedMailboxes.insert (username, mailbox) path
             pathToMailbox := state.pathToMailbox.insert (components path) (username, mailbox) },
            calls.scan)

def handleUnwatch (username mailbox : String) (notify : Option String) (state : WatcherState) :
    WatcherState × WatchReply :=
  match state.watchedMailboxes.lookup (username, mailbox) with
  | none =>
      (state, [],
        .error (.notFound ("Mailbox not being watched: " ++ username ++ "/" ++ mailbox)))
  | some path =>
      let watchedMailboxes := state.watchedMailboxes.erase (username, mailbox)
      match notify with
      | some failure =>
          ({ state with watchedMailboxes }, [],
            .error (.internal ("Failed to unwatch directory: " ++ failure)))
      | none =>
          ({ watchedMailboxes, pathToMailbox := state.pathToMailbox.erase (components path) },
            [], .ok ())

/-- `watcher_loop`, one command after the other. -/
def watcherLoop (root : String) : Machine WatcherState WatchCommand WatchReply where
  step state
    | .watch username mailbox calls => state.handleWatch root username mailbox calls
    | .unwatch username mailbox notify => state.handleUnwatch username mailbox notify

/-! ## What the books are to say -/

/-- The path a mailbox is watched at. -/
def watchedAt (state : WatcherState) (pair : String × String) : Option (List Component) :=
  (state.watchedMailboxes.lookup pair).map components

/-- Whose mailbox is at a path. -/
def ownerOf (state : WatcherState) (path : List Component) : Option (String × String) :=
  state.pathToMailbox.lookup path

/-- Each map is the inverse of the other. -/
def Inverse (state : WatcherState) : Prop := MutuallyInverse state.watchedAt state.ownerOf

structure SameMaps (state state' : WatcherState) : Prop where
  watched : ∀ pair, state'.watchedMailboxes.lookup pair = state.watchedMailboxes.lookup pair
  owners : ∀ path, state'.pathToMailbox.lookup path = state.pathToMailbox.lookup path

structure Served where
  before : WatcherState
  reply : Result Unit
  after : WatcherState

/-- A command that was answered with an error has changed nothing. -/
def Served.Atomic (served : Served) : Prop :=
  ∀ failure, served.reply = .error failure → SameMaps served.before served.after

/-- A command as it is served. -/
def served (root : String) (state : WatcherState) (command : WatchCommand) : List Served :=
  let (after, _, reply) := (watcherLoop root).step state command
  [{ before := state, reply, after }]

/-- The maps are inverse, and no error has changed them. -/
structure InOrder (history : List Served) (state : WatcherState) : Prop where
  inverse : state.Inverse
  atomic : ∀ served ∈ history, served.Atomic

/-- A mailbox is not watched at the path of another, nor for the first time with a scan
that fails; and one that is watched is not left with a failure of `notify`. -/
def KeepsOrder (root : String) (state : WatcherState) : WatchCommand → Prop
  | .watch username mailbox calls =>
      calls.directories = .ok () → calls.notify = none →
        let owner := state.ownerOf (components (mailboxPath root username mailbox))
        owner = some (username, mailbox) ∨ owner = none ∧ calls.scan.2 = .ok ()
  | .unwatch username mailbox notify =>
      (state.watchedMailboxes.lookup (username, mailbox)).isSome → notify = none

/-- What holds of the books in every state. -/
structure Kept (root : String) (state : WatcherState) : Prop where
  inverse : state.Inverse
  /-- A mailbox is watched at its path. -/
  paths : ∀ username mailbox path, state.watchedMailboxes.lookup (username, mailbox) = some path →
    path = mailboxPath root username mailbox

/-! ## One command -/

theorem kept_initial (root : String) : initial.Kept root where
  inverse := MutuallyInverse.empty
  paths := by
    intro username mailbox path hpath
    cases hpath

section Commands

variable {root username mailbox : String} {state : WatcherState}

theorem SameMaps.refl (state : WatcherState) : SameMaps state state where
  watched _ := rfl
  owners _ := rfl

theorem watchedAt_insert (pair : String × String) (path : String)
    (owners : HashMap (List Component) (String × String)) :
    watchedAt ⟨state.watchedMailboxes.insert pair path, owners⟩ =
      Function.update state.watchedAt pair (some (components path)) := by
  funext other
  rw [watchedAt, HashMap.lookup_insert_eq, Function.update_apply]
  split <;> rfl

theorem watchedAt_erase (pair : String × String)
    (owners : HashMap (List Component) (String × String)) :
    watchedAt ⟨state.watchedMailboxes.erase pair, owners⟩ =
      Function.update state.watchedAt pair none := by
  funext other
  rw [watchedAt, HashMap.lookup_erase_eq, Function.update_apply]
  split <;> rfl

theorem ownerOf_insert (path : List Component) (pair : String × String)
    (watched : HashMap (String × String) String) :
    ownerOf ⟨watched, state.pathToMailbox.insert path pair⟩ =
      Function.update state.ownerOf path (some pair) :=
  HashMap.lookup_insert

theorem ownerOf_erase (path : List Component) (watched : HashMap (String × String) String) :
    ownerOf ⟨watched, state.pathToMailbox.erase path⟩ =
      Function.update state.ownerOf path none :=
  HashMap.lookup_erase

theorem Kept.watched_iff (hkept : state.Kept root) :
    state.watchedMailboxes.lookup (username, mailbox) = some (mailboxPath root username mailbox) ↔
      state.ownerOf (components (mailboxPath root username mailbox)) = some (username, mailbox) := by
  rw [← hkept.inverse]
  constructor
  · intro hwatched
    rw [watchedAt, hwatched]
    rfl
  · intro hwatched
    obtain ⟨path, hpath, -⟩ := Option.map_eq_some_iff.mp hwatched
    rw [hpath, hkept.paths username mailbox path hpath]

theorem Kept.inverse_insert_iff (hkept : state.Kept root) :
    Inverse
      { watchedMailboxes := state.watchedMailboxes.insert (username, mailbox)
          (mailboxPath root username mailbox)
        pathToMailbox := state.pathToMailbox.insert
          (components (mailboxPath root username mailbox)) (username, mailbox) } ↔
      (state.ownerOf (components (mailboxPath root username mailbox)) = some (username, mailbox) ∨
        state.ownerOf (components (mailboxPath root username mailbox)) = none) := by
  rw [Inverse, watchedAt_insert, ownerOf_insert, hkept.inverse.insert_iff, hkept.inverse]
  refine or_congr_right (and_iff_right_of_imp fun hfree => ?_)
  cases hwatched : state.watchedMailboxes.lookup (username, mailbox) with
  | none => rw [watchedAt, hwatched]; rfl
  | some path =>
      rw [hkept.paths username mailbox path hwatched, hkept.watched_iff, hfree] at hwatched
      cases hwatched

/-- A mailbox is watched: the books stay in order exactly under the condition. -/
theorem Kept.watch_iff (hkept : state.Kept root) (calls : WatchCalls) :
    ((state.handleWatch root username mailbox calls).1.Inverse ∧
      Served.Atomic ⟨state, (state.handleWatch root username mailbox calls).2.2,
        (state.handleWatch root username mailbox calls).1⟩) ↔
      KeepsOrder root state (.watch username mailbox calls) := by
  unfold handleWatch KeepsOrder
  dsimp only
  cases hdirectories : calls.directories with
  | error failure =>
      exact iff_of_true ⟨hkept.inverse, fun _ _ => .refl state⟩ (by rintro ⟨⟩)
  | ok =>
      cases hnotify : calls.notify with
      | some failure =>
          exact iff_of_true ⟨hkept.inverse, fun _ _ => .refl state⟩ (by rintro _ ⟨⟩)
      | none =>
          simp only [hkept.inverse_insert_iff, true_imp_iff]
          constructor
          · rintro ⟨howner | hfree, hatomic⟩
            · exact .inl howner
            · refine .inr ⟨hfree, ?_⟩
              cases hscan : calls.scan.2 with
              | ok => rfl
              | error failure =>
                  have howners := (hatomic failure hscan).owners
                    (components (mailboxPath root username mailbox))
                  rw [HashMap.lookup_insert_eq, if_pos rfl] at howners
                  exact absurd (hfree.symm.trans howners.symm) (by simp)
          · rintro (howner | ⟨hfree, hscan⟩)
            · refine ⟨.inl howner, fun failure _ => ⟨fun pair => ?_, fun path => ?_⟩⟩
              · rw [HashMap.lookup_insert_eq]
                split
                · rename_i hpair
                  rw [hpair]
                  exact (hkept.watched_iff.mpr howner).symm
                · rfl
              · rw [HashMap.lookup_insert_eq]
                split
                · rename_i hpath
                  rw [hpath]
                  exact howner.symm
                · rfl
            · refine ⟨.inr hfree, fun failure hfailed => ?_⟩
              have herror : calls.scan.2 = .error failure := hfailed
              rw [hscan] at herror
              cases herror

theorem Kept.unwatch_iff (hkept : state.Kept root) (notify : Option String) :
    ((state.handleUnwatch username mailbox notify).1.Inverse ∧
      Served.Atomic ⟨state, (state.handleUnwatch username mailbox notify).2.2,
        (state.handleUnwatch username mailbox notify).1⟩) ↔
      KeepsOrder root state (.unwatch username mailbox notify) := by
  unfold handleUnwatch KeepsOrder
  dsimp only
  cases hwatched : state.watchedMailboxes.lookup (username, mailbox) with
  | none =>
      exact iff_of_true ⟨hkept.inverse, fun _ _ => .refl state⟩ (by rintro ⟨⟩)
  | some path =>
      have hpair : state.watchedAt (username, mailbox) = some (components path) := by
        rw [watchedAt, hwatched]
        rfl
      cases notify with
      | some failure =>
          refine iff_of_false (fun hboth => ?_) fun hnone => ?_
          · -- the mailbox is forgotten, although it is still watched
            have hlookup := (hboth.2 _ rfl).watched (username, mailbox)
            rw [HashMap.lookup_erase_eq, if_pos rfl, hwatched] at hlookup
            cases hlookup
          · cases hnone rfl
      | none =>
          refine iff_of_true ⟨?_, fun failure hfailed => ?_⟩ fun _ => rfl
          · rw [Inverse, watchedAt_erase, ownerOf_erase]
            exact hkept.inverse.erase hpair
          · cases hfailed

/-- Mailboxes are watched at their paths, whatever fails. -/
theorem Kept.paths_step (hkept : state.Kept root) (command : WatchCommand) :
    ∀ username mailbox path,
      ((watcherLoop root).step state command).1.watchedMailboxes.lookup (username, mailbox) =
        some path → path = mailboxPath root username mailbox := by
  have herased (pair : String × String) : ∀ username mailbox path,
      (state.watchedMailboxes.erase pair).lookup (username, mailbox) = some path →
        path = mailboxPath root username mailbox := by
    intro username mailbox path hpath
    rw [HashMap.lookup_erase_eq] at hpath
    split at hpath
    · cases hpath
    · exact hkept.paths username mailbox path hpath
  cases command with
  | watch user box calls =>
      simp only [watcherLoop, handleWatch]
      split
      · exact hkept.paths
      · split
        · exact hkept.paths
        · intro username mailbox path hpath
          rw [HashMap.lookup_insert_eq] at hpath
          split at hpath
          · rename_i hpair
            obtain ⟨rfl, rfl⟩ := Prod.mk.inj hpair
            exact (Option.some.inj hpath).symm
          · exact hkept.paths username mailbox path hpath
  | unwatch user box notify =>
      simp only [watcherLoop, handleUnwatch]
      split
      · exact hkept.paths
      · split <;> exact herased _

theorem Kept.step_iff (hkept : state.Kept root) (command : WatchCommand) :
    (((watcherLoop root).step state command).1.Inverse ∧
      ∀ one ∈ served root state command, one.Atomic) ↔ KeepsOrder root state command := by
  simp only [served, List.mem_singleton, forall_eq]
  cases command with
  | watch username mailbox calls => exact hkept.watch_iff calls
  | unwatch username mailbox notify => exact hkept.unwatch_iff notify

end Commands

/-! ## Every run -/

/--
The books of the watcher.  For every sequence of commands, whatever fails in them:
all along the run the maps are inverse to each other and no command with an error has
changed them, exactly if each command meets the condition.
-/
theorem inOrder_iff (root : String) (commands : List WatchCommand) :
    (∀ done rest, commands = done ++ rest →
        InOrder ((watcherLoop root).observed (served root) initial done)
          ((watcherLoop root).final initial done)) ↔
      ∀ done command rest, commands = done ++ command :: rest →
        KeepsOrder root ((watcherLoop root).final initial done) command := by
  let Inv (history : List Served) (state : WatcherState) : Prop :=
    state.Kept root ∧ InOrder history state
  have hstart : Inv [] initial := by
    refine ⟨kept_initial root, ⟨(kept_initial root).inverse, ?_⟩⟩
    intro served hserved
    cases hserved
  refine @Machine.observed_always_iff_of_guard WatcherState WatchCommand WatchReply Served
    (watcherLoop root) (served root) InOrder Inv (fun _ state => KeepsOrder root state)
    (fun history state hinv => hinv.2) ?_ ?_ initial hstart commands
  · rintro history state command ⟨hkept, -⟩ horder
    refine (hkept.step_iff command).mp ⟨horder.inverse, fun served hserved => ?_⟩
    exact horder.atomic served (List.mem_append_right history hserved)
  · rintro history state command ⟨hkept, horder⟩ hcommand
    obtain ⟨hinverse, hatomic⟩ := (hkept.step_iff command).mpr hcommand
    refine ⟨⟨hinverse, hkept.paths_step command⟩, ⟨hinverse, fun served hserved => ?_⟩⟩
    rcases List.mem_append.mp hserved with hbefore | hnow
    · exact horder.atomic served hbefore
    · exact hatomic served hnow

/-- `notify` does not let go of a mailbox: the command fails, and the mailbox is watched
no more in one of the maps. -/
theorem failed_unwatch_is_half_done :
    ∃ commands, ¬ InOrder ((watcherLoop "/mail").observed (served "/mail") initial commands)
        ((watcherLoop "/mail").final initial commands) := by
  refine ⟨[.watch "ann" "box" ⟨.ok (), none, ([], .ok ())⟩,
    .unwatch "ann" "box" (some "No watch was found.")], fun horder => ?_⟩
  have howner := (horder.inverse ("ann", "box") (components "/mail/ann/box")).mpr
    (by decide +kernel)
  exact absurd howner (by decide +kernel)

end WatcherState

end Scuttled
