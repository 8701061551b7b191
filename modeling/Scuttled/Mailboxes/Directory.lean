import Mathlib.Data.Set.Insert
import Scuttled.Mailboxes.Concurrent

/-!
# The names in force

What the registry is for, as far as names go: a mailbox is there if the last call that
creates or deletes it is one that creates it.  Whether a call was answered with success
does not matter, since a creation is refused only to a mailbox that is there, and a
deletion only to one that is not.
-/

namespace Scuttled

open Rust Foundation

abbrev Directory := Set (String × String)

namespace Directory

/-- A creation puts a name in force, and a deletion out of it. -/
def after (names : Directory) : RegistryCall → Directory
  | .write (.create username name) => insert (username, name) names
  | .write (.delete username name) => names \ {(username, name)}
  | _ => names

/-- The names in force after a list of calls. -/
def ofCalls (calls : List RegistryCall) : Directory := calls.foldl after ∅

theorem ofCalls_concat (calls : List RegistryCall) (call : RegistryCall) :
    ofCalls (calls ++ [call]) = (ofCalls calls).after call := by
  simp [ofCalls]

/-- The registry has the mailboxes whose names are in force. -/
structure Describe (names : Directory) (registry : InMemoryMailboxes) : Prop where
  wellFormed : registry.state.WellFormed
  lookup : ∀ mailbox, mailbox ∈ names ↔ registry.state.mailboxes.lookup mailbox ≠ none

variable {engine : RegexEngine} {order : HashOrder (String × String) MailboxInfo}
  {names : Directory}
  {registry : InMemoryMailboxes}

theorem describe_new : Describe ∅ InMemoryMailboxes.new where
  wellFormed := MailboxState.wellFormed_new
  lookup mailbox := by
    simp [InMemoryMailboxes.new, MailboxState.new]

theorem Describe.insert_same (hdescribe : names.Describe registry) {mailbox : String × String}
    {info info' : MailboxInfo} (hlookup : registry.state.mailboxes.lookup mailbox = some info)
    (other : String × String) :
    other ∈ names ↔ (registry.state.mailboxes.insert mailbox info').lookup other ≠ none := by
  rw [hdescribe.lookup, HashMap.lookup_insert_eq]
  split
  · rename_i hsame
    rw [hsame, hlookup]
    simp
  · rfl

/-- Every call leaves the registry with the names in force. -/
theorem Describe.step (hdescribe : names.Describe registry) (call : RegistryCall) :
    (names.after call).Describe ((registryMachine engine order).step registry call).1 := by
  refine ⟨wellFormed_step engine order registry hdescribe.wellFormed call, fun mailbox => ?_⟩
  have hset (id : MailboxId) (update : MailboxInfo → MailboxInfo) :
      mailbox ∈ names ↔
        (registry.state.updateInfo id update).2.mailboxes.lookup mailbox ≠ none := by
    obtain ⟨-, hsame⟩ | ⟨stored, hstored, hupdated⟩ :=
      MailboxState.updateInfo_cases hdescribe.wellFormed id update
    · rw [hsame]
      exact hdescribe.lookup mailbox
    · rw [hupdated]
      exact hdescribe.insert_same hstored mailbox
  cases call with
  | getMailbox username name => exact hdescribe.lookup mailbox
  | listMailboxes username filter =>
      rw [state_step_read engine order registry _ (by simp)]
      exact hdescribe.lookup mailbox
  | write command =>
      cases command with
      | create username name =>
          simp only [after, registryMachine, writerStep, Set.mem_insert_iff]
          obtain ⟨info, hlookup, hrefused⟩ | ⟨-, info, -, -, -, hnew⟩ :=
            registry.state.createMailbox_cases username name
          · rw [hrefused, ← hdescribe.lookup, or_iff_right_of_imp]
            rintro rfl
            exact (hdescribe.lookup _).mpr (by simp [hlookup])
          · rw [hnew, HashMap.lookup_insert_eq]
            split
            · rename_i hsame
              simp [hsame]
            · rename_i hother
              rw [hdescribe.lookup, or_iff_right hother]
      | delete username name =>
          simp only [after, registryMachine, writerStep, Set.mem_sdiff, Set.mem_singleton_iff]
          obtain ⟨hnone, hrefused⟩ | ⟨-, hgone⟩ :=
            MailboxState.deleteMailbox_cases hdescribe.wellFormed username name
          · rw [hrefused, ← hdescribe.lookup, and_iff_left_of_imp]
            rintro hmem rfl
            exact (hdescribe.lookup _).mp hmem hnone
          · rw [hgone, HashMap.lookup_erase_eq]
            split
            · rename_i hsame
              simp [hsame]
            · rename_i hother
              rw [hdescribe.lookup, and_iff_left hother]
      | getNextUid username name =>
          simp only [after, registryMachine, writerStep]
          obtain ⟨-, hsame⟩ | ⟨stored, hstored, hdrawn⟩ :=
            registry.state.getNextUid_cases username name
          · rw [hsame]
            exact hdescribe.lookup mailbox
          · rw [hdrawn]
            exact hdescribe.insert_same hstored mailbox
      | updateNextUid id nextUid => exact hset id _
      | updateUidValidity id uidValidity => exact hset id _
      | updateCounts id messageCount unseenCount recentCount => exact hset id _

theorem describe_final (calls : List RegistryCall) :
    (ofCalls calls).Describe ((registryMachine engine order).final .new calls) := by
  induction calls using List.reverseRecOn with
  | nil => exact describe_new
  | append_singleton calls call ih =>
      rw [ofCalls_concat, Machine.final_append]
      exact ih.step call

/-- What the registry lists for a filter: the names of the user that are in force and that
the filter accepts, each once. -/
theorem Describe.mem_listed (hdescribe : names.Describe registry) {username : String}
    {filter : MailboxFilter} {name : String} :
    (∃ info ∈ (registry.iterateOf order username).filter
        fun info => filter.accepts engine info.id.name, info.id.name = name) ↔
      (username, name) ∈ names ∧ filter.accepts engine name = true := by
  simp only [List.mem_filter, mem_iterateOf_iff hdescribe.wellFormed]
  rw [hdescribe.lookup, Option.ne_none_iff_exists']
  constructor
  · rintro ⟨info, ⟨hlookup, haccepts⟩, rfl⟩
    exact ⟨⟨info, hlookup⟩, haccepts⟩
  · rintro ⟨⟨info, hlookup⟩, haccepts⟩
    have hname : info.id.name = name := by
      rw [hdescribe.wellFormed.id_of_lookup hlookup]
    exact ⟨info, ⟨by rw [hname, hlookup], by rw [hname, haccepts]⟩, hname⟩

end Directory

end Scuttled
