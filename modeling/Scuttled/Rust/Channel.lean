import Mathlib.Data.List.Basic

/-!
# Bounded channels of tokio

A bounded channel holds what was sent and not yet received, never more than its
capacity.  `try_send` does not wait: it fails when the channel is full, or when
its receiver is gone.
-/

namespace Scuttled.Rust

/-- A channel of `tokio::sync::mpsc::channel`. -/
structure BoundedQueue (α : Type) (capacity : Nat) where
  items : List α
  receiverAlive : Bool
  length_le : items.length ≤ capacity

/-- The errors of `try_send`. -/
inductive TrySendError where
  | full
  | closed
  deriving DecidableEq, Repr

namespace BoundedQueue

variable {α : Type} {capacity : Nat}

/-- A channel as it is created. -/
def new : BoundedQueue α capacity where
  items := []
  receiverAlive := true
  length_le := Nat.zero_le _

def trySend (item : α) (queue : BoundedQueue α capacity) :
    Except TrySendError Unit × BoundedQueue α capacity :=
  if queue.receiverAlive then
    if hroom : queue.items.length < capacity then
      (.ok (),
        { queue with
          items := queue.items ++ [item]
          length_le := by rw [List.length_append]; exact hroom })
    else (.error .full, queue)
  else (.error .closed, queue)

/-- `recv`, when something is there to receive. -/
def recv (queue : BoundedQueue α capacity) : Option (α × BoundedQueue α capacity) :=
  match hitems : queue.items with
  | [] => none
  | item :: rest =>
      some (item,
        { queue with
          items := rest
          length_le := by
            have hle := queue.length_le
            rw [hitems, List.length_cons] at hle
            exact Nat.le_of_succ_le hle })

/-- The receiver is dropped, and with it what it has not received. -/
def close (_ : BoundedQueue α capacity) : BoundedQueue α capacity where
  items := []
  receiverAlive := false
  length_le := Nat.zero_le _

theorem trySend_eq_ok_iff {item : α} {queue : BoundedQueue α capacity} :
    (queue.trySend item).1 = .ok () ↔
      queue.receiverAlive = true ∧ queue.items.length < capacity := by
  unfold trySend
  cases queue.receiverAlive with
  | false => simp
  | true =>
      by_cases hroom : queue.items.length < capacity <;> simp [hroom]

theorem items_of_trySend {item : α} {queue queue' : BoundedQueue α capacity}
    (hsend : queue.trySend item = (.ok (), queue')) :
    queue'.items = queue.items ++ [item] ∧ queue.receiverAlive = true := by
  unfold trySend at hsend
  split at hsend
  · split at hsend
    · rw [← (Prod.mk.inj hsend).2]
      exact ⟨rfl, ‹_›⟩
    · cases hsend
  · cases hsend

theorem length_of_trySend_error {item : α} {failure : TrySendError}
    {queue queue' : BoundedQueue α capacity}
    (hsend : queue.trySend item = (.error failure, queue')) (halive : queue.receiverAlive = true) :
    queue.items.length = capacity := by
  refine Nat.le_antisymm queue.length_le (Nat.le_of_not_lt fun hroom => ?_)
  have hplaced : (queue.trySend item).1 = .ok () := trySend_eq_ok_iff.mpr ⟨halive, hroom⟩
  rw [hsend] at hplaced
  cases hplaced

@[simp] theorem receiverAlive_trySend (item : α) (queue : BoundedQueue α capacity) :
    (queue.trySend item).2.receiverAlive = queue.receiverAlive := by
  unfold trySend
  split
  · split <;> rfl
  · rfl

theorem items_of_recv {queue queue' : BoundedQueue α capacity} {item : α}
    (hrecv : queue.recv = some (item, queue')) : queue.items = item :: queue'.items := by
  unfold recv at hrecv
  split at hrecv
  · cases hrecv
  · rename_i first rest hitems
    obtain ⟨rfl, rfl⟩ := Prod.mk.inj (Option.some.inj hrecv)
    exact hitems

theorem exists_recv {queue : BoundedQueue α capacity} (hitems : queue.items ≠ []) :
    ∃ item queue', queue.recv = some (item, queue') := by
  unfold recv
  split
  · exact absurd ‹_› hitems
  · exact ⟨_, _, rfl⟩

theorem receiverAlive_of_recv {queue queue' : BoundedQueue α capacity} {item : α}
    (hrecv : queue.recv = some (item, queue')) : queue'.receiverAlive = queue.receiverAlive := by
  unfold recv at hrecv
  split at hrecv
  · cases hrecv
  · rw [← (Prod.mk.inj (Option.some.inj hrecv)).2]

end BoundedQueue

end Scuttled.Rust
