import Scuttled.Mailboxes.Memory

/-!
# What the registry issues

A run of the registry interleaves the commands of its writer with reads.  Along
it mailboxes are created, each with a UID validity, and UIDs are drawn.
-/

namespace Scuttled

open Rust Foundation

/-- A call of some client: a command for the writer, or a read. -/
inductive RegistryCall where
  | write (command : WriteCommand)
  | getMailbox (username name : String)
  | listMailboxes (username : String) (filter : MailboxFilter)

/-- What a call is answered with. -/
inductive RegistryReply where
  | written (reply : WriteReply)
  | found (result : Result (Option MailboxInfo))
  | listed (result : Result (List MailboxInfo))

/-- The in-memory registry, one call after the other. -/
def registryMachine (engine : RegexEngine) (order : HashOrder (String × String) MailboxInfo) :
    Machine InMemoryMailboxes RegistryCall RegistryReply where
  step registry
    | .write command =>
        ({ registry with state := (writerStep registry.state command).1 },
          .written (writerStep registry.state command).2)
    | .getMailbox username name =>
        let result := (inMemoryMailboxes engine order).getMailbox username name registry
        (result.2, .found result.1)
    | .listMailboxes username filter =>
        let result := (inMemoryMailboxes engine order).listMailboxes username filter registry
        (result.2, .listed result.1)

/-- A UID served by `get_next_uid`, with the validity the mailbox had then. -/
structure Draw where
  mailbox : String × String
  uidValidity : UInt32
  uid : Uid
  deriving DecidableEq, Repr

/-- What the registry issued: the validity of a new mailbox, or a UID. -/
inductive Issue where
  | created (mailbox : String × String) (uidValidity : UInt32)
  | drawn (draw : Draw)
  deriving DecidableEq, Repr

/-- What a call issues in a state. -/
def issues (registry : InMemoryMailboxes) : RegistryCall → List Issue
  | .write (.create username name) =>
      match (registry.state.createMailbox username name).1 with
      | .ok info => [.created (username, name) info.uidValidity]
      | .error _ => []
  | .write (.getNextUid username name) =>
      match registry.state.mailboxes.lookup (username, name),
          (registry.state.getNextUid username name).1 with
      | some info, .ok uid => [.drawn ⟨(username, name), info.uidValidity, uid⟩]
      | _, _ => []
  | _ => []

namespace Issue

def createdMailbox : Issue → Option (String × String)
  | .created mailbox _ => some mailbox
  | .drawn _ => none

def draw? : Issue → Option Draw
  | .created _ _ => none
  | .drawn draw => some draw

end Issue

/-- The mailboxes created, in order; a mailbox created twice is there twice. -/
def creations (history : List Issue) : List (String × String) :=
  history.filterMap Issue.createdMailbox

/-- The UIDs drawn, in order of service. -/
def draws (history : List Issue) : List Draw := history.filterMap Issue.draw?

/-- The UIDs drawn from a mailbox under one validity. -/
def drawsOf (mailbox : String × String) (uidValidity : UInt32) (history : List Issue) :
    List Draw :=
  (draws history).filter fun draw => draw.mailbox = mailbox ∧ draw.uidValidity = uidValidity

section Append

variable (first second : List Issue)

@[simp] theorem creations_append : creations (first ++ second) = creations first ++ creations second :=
  List.filterMap_append

@[simp] theorem draws_append : draws (first ++ second) = draws first ++ draws second :=
  List.filterMap_append

@[simp] theorem drawsOf_append (mailbox : String × String) (uidValidity : UInt32) :
    drawsOf mailbox uidValidity (first ++ second) =
      drawsOf mailbox uidValidity first ++ drawsOf mailbox uidValidity second := by
  rw [drawsOf, draws_append, List.filter_append]
  rfl

end Append

theorem mem_drawsOf {mailbox : String × String} {uidValidity : UInt32} {history : List Issue}
    {draw : Draw} :
    draw ∈ drawsOf mailbox uidValidity history ↔
      draw ∈ draws history ∧ draw.mailbox = mailbox ∧ draw.uidValidity = uidValidity := by
  rw [drawsOf, List.mem_filter, decide_eq_true_eq]

theorem issues_eq_nil {registry : InMemoryMailboxes} {call : RegistryCall}
    (hcreate : ∀ username name, call ≠ .write (.create username name))
    (hdraw : ∀ username name, call ≠ .write (.getNextUid username name)) :
    issues registry call = [] := by
  unfold issues
  split
  · exact absurd rfl (hcreate _ _)
  · exact absurd rfl (hdraw _ _)
  · rfl

/-! ## One step of the registry -/

namespace MailboxState

theorem updateInfo_cases {state : MailboxState} (hstate : WellFormed state) (id : MailboxId)
    (update : MailboxInfo → MailboxInfo) :
    (state.mailboxes.lookup (id.username, id.name) = none ∧
      state.updateInfo id update = (.error (.mailboxNotFound id.name), state)) ∨
    (∃ info, state.mailboxes.lookup (id.username, id.name) = some info ∧
      state.updateInfo id update = (.ok (), { state with
        mailboxes := state.mailboxes.insert (id.username, id.name) (update info) })) := by
  unfold updateInfo
  cases hreverse : state.idToKey.lookup id with
  | none =>
      refine .inl ⟨?_, rfl⟩
      by_contra hsome
      have hstored : (state.mailboxes.lookup (id.username, id.name)).isSome :=
        Option.isSome_iff_ne_none.mpr hsome
      have hkey := hstate.reverse_iff.mpr ⟨rfl, hstored⟩
      rw [hreverse] at hkey
      cases hkey
  | some key =>
      obtain ⟨rfl, hstored⟩ := hstate.reverse_iff.mp hreverse
      obtain ⟨info, hinfo⟩ := Option.isSome_iff_exists.mp hstored
      exact .inr ⟨info, hinfo, by simp only [hinfo]⟩

theorem lookup_updateInfo {state : MailboxState} (hstate : WellFormed state) {id : MailboxId}
    {info : MailboxInfo} (hlookup : state.mailboxes.lookup (id.username, id.name) = some info)
    (update : MailboxInfo → MailboxInfo) :
    (state.updateInfo id update).2.mailboxes.lookup (id.username, id.name) =
      some (update info) := by
  obtain ⟨hnone, -⟩ | ⟨found, hfound, hupdated⟩ := updateInfo_cases hstate id update
  · rw [hlookup] at hnone
    cases hnone
  · obtain rfl := Option.some.inj (hlookup.symm.trans hfound)
    rw [hupdated]
    exact AList.lookup_insert _

end MailboxState

section Step

variable (engine : RegexEngine) (order : HashOrder (String × String) MailboxInfo)
  (registry : InMemoryMailboxes)

theorem state_step_read (call : RegistryCall) (hcall : ∀ command, call ≠ .write command) :
    ((registryMachine engine order).step registry call).1.state = registry.state := by
  cases call with
  | write command => exact absurd rfl (hcall command)
  | getMailbox username name => rfl
  | listMailboxes username filter =>
      obtain ⟨iterations, hlisted⟩ := listMailboxes_ok engine order username filter registry
      exact congrArg (fun answer => answer.2.state) hlisted

theorem wellFormed_step (hstate : registry.state.WellFormed) (call : RegistryCall) :
    ((registryMachine engine order).step registry call).1.state.WellFormed := by
  cases call with
  | write command => exact hstate.writerStep command
  | getMailbox username name => exact hstate
  | listMailboxes username filter =>
      rw [state_step_read engine order registry (.listMailboxes username filter) (by simp)]
      exact hstate

end Step

end Scuttled
