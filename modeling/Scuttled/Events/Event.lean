import Scuttled.Types

/-!
# Events

What the components tell each other about mailboxes and message files.
-/

namespace Scuttled

/-- An instant, as a signed count from the Unix epoch. -/
abbrev DateTime := Int

/-- What `MessageCreated` says about a message file: where it is, the flags of
its name, and the parsed headers. -/
structure CreatedMessage where
  username : String
  mailbox : String
  uniqueId : String
  path : String
  flags : List MessageFlag
  isNew : Bool
  fromHeader : String
  toHeader : String
  subject : String
  bodyPreview : String
  size : Nat
  internalDate : DateTime
  deriving DecidableEq, Repr

inductive Event where
  | mailboxCreated (username mailbox : String)
  | mailboxDeleted (username mailbox : String)
  | mailboxRenamed (username oldName newName : String)
  | messageCreated (message : CreatedMessage)
  | messageModified (username mailbox uniqueId : String) (flags : List MessageFlag)
  | messageDeleted (username mailbox uniqueId : String)
  deriving DecidableEq, Repr

inductive EventKind where
  | mailboxCreated
  | mailboxDeleted
  | mailboxRenamed
  | messageCreated
  | messageModified
  | messageDeleted
  deriving DecidableEq, Repr

def Event.kind : Event → EventKind
  | .mailboxCreated _ _ => .mailboxCreated
  | .mailboxDeleted _ _ => .mailboxDeleted
  | .mailboxRenamed _ _ _ => .mailboxRenamed
  | .messageCreated _ => .messageCreated
  | .messageModified _ _ _ _ => .messageModified
  | .messageDeleted _ _ _ => .messageDeleted

end Scuttled
