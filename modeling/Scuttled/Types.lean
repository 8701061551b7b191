import Mathlib.Data.UInt
import Scuttled.Rust.Str

/-!
# Core types and errors

The identifiers, flags and errors the components exchange.  An error is kept
with its text, since the server prints it into its responses.
-/

namespace Scuttled

/-- `error.rs`: the errors of the server. -/
inductive Error where
  | io (cause : String)
  | database (text : String)
  | index (text : String)
  | authenticationFailed (text : String)
  | authorizationFailed (text : String)
  | invalidMailbox (text : String)
  | mailboxExists (name : String)
  | mailboxNotFound (name : String)
  | invalidMessage (text : String)
  | protocolError (text : String)
  | notFound (text : String)
  | alreadyExists (text : String)
  | invalidState (text : String)
  | queueError (text : String)
  | tlsError (text : String)
  | internal (text : String)
  deriving DecidableEq, Repr

/-- The `Display` text of an error. -/
def Error.display : Error → String
  | .io cause => "IO error: " ++ cause
  | .database text => "Database error: " ++ text
  | .index text => "Index error: " ++ text
  | .authenticationFailed text => "Authentication failed: " ++ text
  | .authorizationFailed text => "Authorization failed: " ++ text
  | .invalidMailbox text => "Invalid mailbox: " ++ text
  | .mailboxExists name => "Mailbox already exists: " ++ name
  | .mailboxNotFound name => "Mailbox not found: " ++ name
  | .invalidMessage text => "Invalid message: " ++ text
  | .protocolError text => "Protocol error: " ++ text
  | .notFound text => "Not found: " ++ text
  | .alreadyExists text => "Already exists: " ++ text
  | .invalidState text => "Invalid state: " ++ text
  | .queueError text => "Queue error: " ++ text
  | .tlsError text => "TLS error: " ++ text
  | .internal text => "Internal error: " ++ text

abbrev Result (α : Type) := Except Error α

/-- A message UID; `u32` in the source, so its arithmetic wraps. -/
abbrev Uid := UInt32

/-- The identity of a mailbox: its owner and its name. -/
structure MailboxId where
  username : String
  name : String
  deriving DecidableEq, Repr

inductive MessageFlag where
  | seen
  | answered
  | flagged
  | deleted
  | draft
  | recent
  | custom (keyword : String)
  deriving DecidableEq, Repr

structure Credentials where
  username : String
  password : String
  deriving DecidableEq, Repr

abbrev SequenceNumber := UInt32

inductive SearchQuery where
  | all
  | text (s : String)
  | fromHeader (s : String)
  | toHeader (s : String)
  | subject (s : String)
  | body (s : String)
  | uid (uids : List Uid)
  | sequence (numbers : List SequenceNumber)
  | seen
  | unseen
  | flagged
  | unflagged
  | deleted
  | undeleted
  | and (first second : SearchQuery)
  | or (first second : SearchQuery)
  | not (query : SearchQuery)

/-! ## Message identifiers -/

/-- A message identifier is a UUID, a 128-bit number. -/
structure MessageId where
  uuid : BitVec 128
  deriving DecidableEq, Repr

/-- The `i`-th hexadecimal digit of a UUID, counted from the left. -/
def MessageId.digit (id : MessageId) (i : Nat) : Char :=
  Nat.digitChar (id.uuid.toNat / 16 ^ (31 - i) % 16)

/-- The hyphenated lower-case form `Display` gives a UUID: 8-4-4-4-12 digits. -/
def MessageId.display (id : MessageId) : String :=
  let group (start length : Nat) := (List.range' start length).map id.digit
  String.ofList (group 0 8 ++ '-' :: group 8 4 ++ '-' :: group 12 4 ++
    '-' :: group 16 4 ++ '-' :: group 20 12)

example : (MessageId.mk 0x1).display = "00000000-0000-0000-0000-000000000001" := by
  decide

theorem MessageId.mem_display {id : MessageId} {c : Char}
    (hc : c ∈ id.display.toList) : c = '-' ∨ c ∈ "0123456789abcdef".toList := by
  have hdigits : ∀ value < 16, Nat.digitChar value ∈ "0123456789abcdef".toList := by decide
  have hdigit (i : Nat) : id.digit i ∈ "0123456789abcdef".toList :=
    hdigits _ (Nat.mod_lt _ (by decide))
  simp only [MessageId.display, String.toList_ofList, List.mem_append, List.mem_cons,
    List.mem_map] at hc
  grind

theorem mod_pow_eq_of_digits {m n count : Nat}
    (hdigits : ∀ i < count, m / 16 ^ i % 16 = n / 16 ^ i % 16) :
    m % 16 ^ count = n % 16 ^ count := by
  induction count with
  | zero => rw [Nat.pow_zero, Nat.mod_one, Nat.mod_one]
  | succ count ih =>
      have hlow := ih fun i hi => hdigits i (Nat.lt_succ_of_lt hi)
      rw [Nat.pow_succ, Nat.mod_mul, Nat.mod_mul, hlow, hdigits count (Nat.lt_succ_self count)]

theorem digitChar_inj {m n : Nat} (hm : m < 16) (hn : n < 16)
    (hchar : Nat.digitChar m = Nat.digitChar n) : m = n := by
  have hall : ∀ m n : Fin 16, Nat.digitChar m = Nat.digitChar n → m = n := by decide
  exact Fin.mk.inj (hall ⟨m, hm⟩ ⟨n, hn⟩ hchar)

/-- A UUID is known by its text. -/
theorem MessageId.display_injective : Function.Injective MessageId.display := by
  intro id id' hdisplay
  have hgroup {start length : Nat}
      (hsame : (List.range' start length).map id.digit = (List.range' start length).map id'.digit)
      (i : Nat) (hstart : start ≤ i) (hend : i < start + length) : id.digit i = id'.digit i :=
    List.map_inj_left.mp hsame i (List.mem_range'_1.mpr ⟨hstart, hend⟩)
  have hlist := congrArg String.toList hdisplay
  simp only [MessageId.display, String.toList_ofList, List.append_assoc, List.cons_append] at hlist
  obtain ⟨hfirst, hlist⟩ := List.append_inj hlist (by simp)
  obtain ⟨hsecond, hlist⟩ := List.append_inj (List.cons.inj hlist).2 (by simp)
  obtain ⟨hthird, hlist⟩ := List.append_inj (List.cons.inj hlist).2 (by simp)
  obtain ⟨hfourth, hlist⟩ := List.append_inj (List.cons.inj hlist).2 (by simp)
  have hfifth := (List.cons.inj hlist).2
  have hdigits (i : Nat) (hi : i < 32) : id.digit i = id'.digit i := by
    rcases Nat.lt_or_ge i 8 with hlt | hge
    · exact hgroup hfirst i (Nat.zero_le i) (by omega)
    rcases Nat.lt_or_ge i 12 with hlt | hge
    · exact hgroup hsecond i (by omega) (by omega)
    rcases Nat.lt_or_ge i 16 with hlt | hge
    · exact hgroup hthird i (by omega) (by omega)
    rcases Nat.lt_or_ge i 20 with hlt | hge
    · exact hgroup hfourth i (by omega) (by omega)
    · exact hgroup hfifth i (by omega) (by omega)
  have hnibble (i : Nat) (hi : i < 32) :
      id.uuid.toNat / 16 ^ i % 16 = id'.uuid.toNat / 16 ^ i % 16 := by
    have hdigit := hdigits (31 - i) (by omega)
    unfold MessageId.digit at hdigit
    rw [Nat.sub_sub_self (by omega : i ≤ 31)] at hdigit
    exact digitChar_inj (Nat.mod_lt _ (by decide)) (Nat.mod_lt _ (by decide)) hdigit
  have hmod : id.uuid.toNat % 16 ^ 32 = id'.uuid.toNat % 16 ^ 32 := mod_pow_eq_of_digits hnibble
  have hlt : id.uuid.toNat < 16 ^ 32 := id.uuid.isLt
  have hlt' : id'.uuid.toNat < 16 ^ 32 := id'.uuid.isLt
  rw [Nat.mod_eq_of_lt hlt, Nat.mod_eq_of_lt hlt'] at hmod
  exact congrArg MessageId.mk (BitVec.eq_of_toNat_eq hmod)

end Scuttled
