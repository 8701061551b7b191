import Scuttled.Events.Event
import Scuttled.MailStore.Filesystem

/-!
# The watcher

`notify` reports what happens to files; the watcher says what this means for
messages.  A creation is announced with the parsed headers of the file, anything
else by the name of the file alone.  Files that were there before are announced
by a scan.
-/

namespace Scuttled

open Rust

/-! ## What comes from outside -/

/-- `mailparse::ParsedMail`: the headers in order, and the body if it decodes. -/
structure ParsedMail where
  headers : List (String × String)
  body : Option String

/-- `mailparse::parse_mail`, and the clock. -/
structure WatcherEnv where
  parseMail : Bytes → Option ParsedMail
  now : DateTime

/-- `notify::EventKind`. -/
inductive NotifyKind where
  | any
  | access
  | create
  | modify
  | remove
  | other
  deriving DecidableEq

/-- `notify::Event`. -/
structure Notification where
  kind : NotifyKind
  paths : List String

/-! ## What is announced -/

/-- The value of the first header of a name, in any case, or nothing. -/
def ParsedMail.header (name : String) (mail : ParsedMail) : String :=
  match mail.headers.find? fun header => eqIgnoreAsciiCase header.1 name with
  | some header => header.2
  | none => ""

/-- `email.get_body().unwrap_or_default().chars().take(200).collect()`. -/
def ParsedMail.bodyPreview (mail : ParsedMail) : String :=
  String.ofList ((mail.body.getD "").toList.take 200)

/-- The flags of the file name, and `Recent` in `new`. -/
def ParsedMessage.eventFlags (parsed : ParsedMessage) : List MessageFlag :=
  if parsed.isNew then parsed.flags ++ [.recent] else parsed.flags

/-- `Event::MessageCreated` for a file with some content. -/
def WatcherEnv.created (env : WatcherEnv) (username mailbox : String) (parsed : ParsedMessage)
    (content : Bytes) (mail : ParsedMail) : CreatedMessage where
  username
  mailbox
  uniqueId := parsed.uniqueId
  path := username ++ "/" ++ mailbox ++ "/" ++ parsed.uniqueId
  flags := parsed.eventFlags
  isNew := parsed.isNew
  fromHeader := mail.header "from"
  toHeader := mail.header "to"
  subject := mail.header "subject"
  bodyPreview := mail.bodyPreview
  size := content.length
  internalDate := env.now

section Handlers

variable (env : WatcherEnv) (tree : FileTree) (root : String)

/-- `handle_create_event`: a file that is gone, or that is no mail, is passed
over. -/
def handleCreateEvent (path : String) : Option Event := do
  let parsed ← MaildirFormat.parseMessagePath path root
  if tree.tryExists path then
    match tree.read path with
    | .error _ => none
    | .ok content =>
        let email ← env.parseMail content
        return .messageCreated (env.created parsed.username parsed.mailbox parsed content email)
  else none

def handleModifyEvent (path : String) : Option Event := do
  let parsed ← MaildirFormat.parseMessagePath path root
  return .messageModified parsed.username parsed.mailbox parsed.uniqueId parsed.eventFlags

def handleRemoveEvent (path : String) : Option Event := do
  let parsed ← MaildirFormat.parseMessagePath path root
  return .messageDeleted parsed.username parsed.mailbox parsed.uniqueId

/-- `handle_filesystem_event`: the events published for a notification. -/
def handleFilesystemEvent (notification : Notification) : List Event :=
  match notification.kind with
  | .create => notification.paths.filterMap (handleCreateEvent env tree root)
  | .modify => notification.paths.filterMap (handleModifyEvent root)
  | .remove => notification.paths.filterMap (handleRemoveEvent root)
  | .any | .access | .other => []

/-! ## The scan -/

/-- One entry of a directory, in `scan_existing_messages`. -/
def scanEntry (username mailbox path : String) : Result (Option Event) := do
  if ← tree.isFile path then
    match MaildirFormat.parseMessagePath path root with
    | none => return none
    | some parsed =>
        let content ← tree.read path
        return (env.parseMail content).map fun email =>
          .messageCreated (env.created username mailbox parsed content email)
  else return none

end Handlers

/-- Publishes what each item brings, up to the first error. -/
def publishEach {α : Type} (scan : α → List Event × Result Unit) : List α → List Event × Result Unit
  | [] => ([], .ok ())
  | item :: rest =>
      match (scan item).2 with
      | .error error => ((scan item).1, .error error)
      | .ok () => ((scan item).1 ++ (publishEach scan rest).1, (publishEach scan rest).2)

/-- `scan_existing_messages`; `readDir` lists the names in a directory. -/
def scanExistingMessages (env : WatcherEnv) (tree : FileTree) (root : String)
    (readDir : String → Result (List String)) (username mailbox : String) :
    List Event × Result Unit :=
  publishEach
    (fun subdir =>
      let dirPath := join (mailboxPath root username mailbox) subdir
      if !tree.tryExists dirPath then ([], .ok ())
      else
        match readDir dirPath with
        | .error error => ([], .error error)
        | .ok names =>
            publishEach
              (fun name =>
                match scanEntry env tree root username mailbox (join dirPath name) with
                | .error error => ([], .error error)
                | .ok event => (event.toList, .ok ()))
              names)
    MaildirFormat.watchSubdirectories

/-! ## Empty files -/

/-- An empty file is mail without headers. -/
def plainMail : WatcherEnv where
  parseMail _ := some { headers := [], body := some "" }
  now := 0

/-- Empty files at some paths, and nothing else. -/
def emptyFiles (paths : List String) : FileTree := fun location =>
  if location ∈ paths.map resolve then some (.file []) else none

/-! ## What a file must be to be announced -/

section Announced

variable {env : WatcherEnv} {tree : FileTree} {root path : String} {event : Event}

theorem handleCreateEvent_eq_some_iff :
    handleCreateEvent env tree root path = some event ↔
      ∃ parsed content email, MaildirFormat.parseMessagePath path root = some parsed ∧
        tree.read path = .ok content ∧ env.parseMail content = some email ∧
        .messageCreated (env.created parsed.username parsed.mailbox parsed content email) =
          event := by
  unfold handleCreateEvent
  cases hparse : MaildirFormat.parseMessagePath path root with
  | none => simp
  | some parsed =>
      cases hread : tree.read path with
      | error error => simp
      | ok content =>
          simp only [FileTree.tryExists_of_read hread]
          cases hmail : env.parseMail content <;> simp [hmail]

theorem scanEntry_eq_some_iff {username mailbox : String} :
    scanEntry env tree root username mailbox path = .ok (some event) ↔
      ∃ parsed content email, MaildirFormat.parseMessagePath path root = some parsed ∧
        tree.read path = .ok content ∧ env.parseMail content = some email ∧
        .messageCreated (env.created username mailbox parsed content email) = event := by
  unfold scanEntry
  cases hread : tree.read path with
  | error error =>
      have hfile : tree.isFile path ≠ .ok true := by
        rw [ne_eq, FileTree.isFile_iff, hread]
        exact nofun
      cases hisFile : tree.isFile path with
      | error _ => simp [bind, Except.bind]
      | ok isFile =>
          cases isFile with
          | true => exact absurd hisFile hfile
          | false => simp [bind, Except.bind, pure, Except.pure]
  | ok content =>
      rw [FileTree.isFile_iff.mpr ⟨content, hread⟩]
      cases MaildirFormat.parseMessagePath path root <;>
        simp [bind, Except.bind, pure, Except.pure]

end Announced

/-! ## The files of a mailbox -/

/-- The path of a file in a directory of a mailbox. -/
def messageFilePath (root username mailbox subdir filename : String) : String :=
  join (join (mailboxPath root username mailbox) subdir) filename

/-- What a path says about a message: below the root come the user, the mailbox, a
subdirectory and the file. -/
theorem parseMessagePath_of_asOsStr {path root subdir filename : String}
    {username mailbox : Component}
    (hpath : components path = components root ++
      [username, mailbox, .normal subdir, .normal filename]) :
    MaildirFormat.parseMessagePath path root =
      (MaildirFormat.subdirIsNew subdir).map fun isNew =>
        { uniqueId := (MaildirFormat.splitFilename filename).1
          flags := (MaildirFormat.splitFilename filename).2
          isNew
          username := username.asOsStr
          mailbox := mailbox.asOsStr } := by
  have hstrip := stripPrefix_append hpath
  have hname : fileName path = some filename :=
    fileName_eq_some_iff.mpr (by rw [hpath, List.getLast?_append]; rfl)
  simp only [MaildirFormat.parseMessagePath, hstrip, hname, Component.asOsStr, Option.bind_eq_bind,
    Option.bind_some]
  cases MaildirFormat.subdirIsNew subdir <;> rfl

theorem parseMessagePath_of_components {path root username mailbox subdir filename : String}
    (hpath : components path = components root ++
      [.normal username, .normal mailbox, .normal subdir, .normal filename]) :
    MaildirFormat.parseMessagePath path root =
      (MaildirFormat.subdirIsNew subdir).map fun isNew =>
        { uniqueId := (MaildirFormat.splitFilename filename).1
          flags := (MaildirFormat.splitFilename filename).2
          isNew
          username
          mailbox } :=
  parseMessagePath_of_asOsStr hpath

theorem mailbox_of_parseMessagePath {path root : String} {parsed : ParsedMessage}
    (hparsed : MaildirFormat.parseMessagePath path root = some parsed) :
    SingleComponent parsed.mailbox ∨ parsed.mailbox = ".." := by
  obtain ⟨rest, hstrip, hrest⟩ := Option.bind_eq_some_iff.mp hparsed
  split at hrest
  · rename_i username mailbox subdir filename others
    have hmailbox : parsed.mailbox = mailbox.asOsStr := by
      obtain ⟨isNew, -, hname⟩ := Option.bind_eq_some_iff.mp hrest
      obtain ⟨name, -, hfields⟩ := Option.bind_eq_some_iff.mp hname
      rw [← Option.some.inj hfields]
    have hpath := components_of_stripPrefix hstrip
    rw [List.append_cons] at hpath
    have hbody := mem_bodyComponents_of_components hpath (by simp)
    rw [hmailbox]
    exact (singleComponent_of_mem_bodyComponents hbody).imp_right fun hup => by rw [hup]; rfl
  · cases hrest

section MessageFile

variable {username mailbox subdir filename : String} (root : String)
  (husername : SingleComponent username) (hmailbox : SingleComponent mailbox)
  (hsubdir : SingleComponent subdir) (hfilename : SingleComponent filename)

include husername hmailbox hsubdir hfilename

theorem components_messageFilePath :
    components (messageFilePath root username mailbox subdir filename) =
      components root ++
        [.normal username, .normal mailbox, .normal subdir, .normal filename] := by
  rw [messageFilePath, mailboxPath, components_join _ hfilename, components_join _ hsubdir,
    components_join _ hmailbox, components_join _ husername]
  simp

theorem parseMessagePath_messageFilePath :
    MaildirFormat.parseMessagePath (messageFilePath root username mailbox subdir filename) root =
      (MaildirFormat.subdirIsNew subdir).map fun isNew =>
        { uniqueId := (MaildirFormat.splitFilename filename).1
          flags := (MaildirFormat.splitFilename filename).2
          isNew
          username
          mailbox } :=
  parseMessagePath_of_components
    (components_messageFilePath root husername hmailbox hsubdir hfilename)

end MessageFile

end Scuttled
