import Scuttled.Foundation.Machine
import Scuttled.Rust.Str
import Scuttled.Rust.BufReader
import Scuttled.Types
import Scuttled.Protocol.Quoted
import Scuttled.Foundation.Regex
import Scuttled.Mailboxes.Memory
import Scuttled.Handlers.Pattern
import Scuttled.Handlers.BuiltIn
import Scuttled.Handlers.Decision
import Scuttled.Session.Loop
import Scuttled.Session.Plan
import Scuttled.Session.Outcome
import Scuttled.Session.Completion
import Scuttled.Session.Course
import Scuttled.Session.Authentication
import Scuttled.Session.System
import Scuttled.Session.Tags
import Scuttled.Session.Refusal
import Scuttled.Session.Noninterference
import Scuttled.Events.Event
import Scuttled.Index.InMemory
import Scuttled.Index.Listener
import Scuttled.Index.UidUniqueness
import Scuttled.Rust.Channel
import Scuttled.Events.Bus
import Scuttled.Events.Delivery
import Scuttled.MailStore.Maildir
import Scuttled.MailStore.Containment
import Scuttled.Foundation.Inverse
import Scuttled.Mailbox.StateLoop
import Scuttled.Mailbox.Bijection
import Scuttled.Mailbox.History
import Scuttled.Mailboxes.Issues
import Scuttled.Mailboxes.Freshness
import Scuttled.Mailboxes.Setters
import Scuttled.MailStore.Filesystem
import Scuttled.MailStore.Watcher
import Scuttled.Index.Keys
import Scuttled.MailStore.Retrieval
import Scuttled.Events.Order
import Scuttled.Events.Barrier
import Scuttled.Events.Tasks
import Scuttled.Events.Callers
import Scuttled.Events.Deadlock
import Scuttled.MailStore.Operations
import Scuttled.Index.View
import Scuttled.Index.Mirror
import Scuttled.Session.Logout
import Scuttled.Session.Expiry
import Scuttled.Session.Invocation
import Scuttled.Index.Tantivy
import Scuttled.Index.TantivySearch
import Scuttled.Storage.FilesystemStore
import Scuttled.Session.Selection
import Scuttled.MailStore.ReadsItsWrites
import Scuttled.Queue.ChannelQueue
import Scuttled.Index.Subscribed
import Scuttled.Index.Filing
import Scuttled.Index.UpToDate
import Scuttled.MailStore.Flags
import Scuttled.Storage.UpdateFlags
import Scuttled.Storage.FlagsReadBack
import Scuttled.Storage.MoveFile
import Scuttled.MailStore.Bookkeeping
import Scuttled.MailStore.Scan
import Scuttled.Index.Mapping
import Scuttled.Index.DeletedMailbox
import Scuttled.Protocol.Argument
import Scuttled.Session.Reparse
import Scuttled.Session.ListedNames
import Scuttled.Session.Inbox
import Scuttled.Events.Counting
import Scuttled.Index.Additions
import Scuttled.Index.Renames
import Scuttled.Mailbox.Subscribers
import Scuttled.Mailboxes.Consistency
import Scuttled.Session.Reachable
import Scuttled.Session.Upgrade
import Scuttled.Foundation.SharedObject
import Scuttled.Foundation.Waiting
import Scuttled.Mailboxes.Concurrent
import Scuttled.Mailbox.Concurrent
import Scuttled.Index.Concurrent
import Scuttled.Queue.Fifo
import Scuttled.Rust.Lines
import Scuttled.Protocol.Wire
import Scuttled.Session.Wire
import Scuttled.Users.Store
import Scuttled.Users.Login
import Scuttled.Foundation.Turns
import Scuttled.Mailboxes.Directory
import Scuttled.Session.Overlap
import Scuttled.Foundation.Ledger
import Scuttled.Storage.Kept
